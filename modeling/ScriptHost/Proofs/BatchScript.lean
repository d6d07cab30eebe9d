import Mathlib
import ScriptHost.Host
import ScriptHost.Proofs.BatchText

/-!
# Reading the script of a batch

The script of a batch is read as three declarations, the loop over the rows and the variable of the
results, behind one function for each function of the bridge. Only positions are left open.
-/

namespace ScriptHost.Batch

open Script Grammar Script.Parser Script.ParserState

/-- The value of the variable at a position in a row. -/
inductive IsArgument : ℕ → Expr → Prop where
  /-- The row is asked for the name at the position. -/
  | get (i : ℕ) (row dot name names bracket index : Position) : IsArgument i
      (.chain (.var "host_batch_row" true row) [.method "get"
        [.chain (.var "host_batch_vars" true names) [.index (.literal (.int i) index) false
          bracket]]
        false dot name])

/-- The call of the work on a row for the values of its variables. -/
inductive IsWork (size : ℕ) : Expr → Prop where
  /-- The function is called by `call`. -/
  | call {args : List Expr} (hargs : List.Forall₂ IsArgument (List.range size) args)
      (work dot name : Position) : IsWork size
        (.chain (.var "host_batch_fn" true work) [.method "call" args false dot name])

/-- Where the parts of a script stand. -/
structure Places where
  /-- The declaration of the names. -/
  names : Position
  /-- The call before the first row. -/
  setup : Position
  /-- The closure. -/
  closure : Position
  /-- The declaration of the work on a row. -/
  work : Position
  /-- The declaration of the results. -/
  results : Position
  /-- The rows. -/
  rows : Position
  /-- The results in the loop. -/
  pushed : Position
  /-- The dot after them. -/
  dot : Position
  /-- The name of the method after the dot. -/
  push : Position
  /-- The body of the loop. -/
  body : Position
  /-- The loop. -/
  loop : Position
  /-- The results after the loop. -/
  last : Position

/-- One round of the loop: the value of a call is one more result. -/
def push (w : Places) (call : Expr) : Expr :=
  .chain (.var "host_batch_out" true w.pushed) [.method "push" [call] false w.dot w.push]

/-- The statements before the first row: a call without arguments, as a statement of some kind, or
nothing. -/
def setupStatements (kind : Expr → Stmt) (pos : Position) : Option String → List Stmt
  | none => []
  | some f => [kind (.call f [] false pos)]

/-- The statements of a script with these expressions for the names, the first results and the work
on a row. -/
def statements (kind : Expr → Stmt) (w : Places) (setup : Option String)
    (names results call : Expr) : List Stmt :=
  .declare "host_batch_vars" false false names w.names ::
    (setupStatements kind w.setup setup ++
      [.declare "host_batch_fn" false false (.literal (.fnPtr (closureName 0) []) w.closure) w.work,
        .declare "host_batch_out" false false results w.results,
        .forLoop "host_batch_row" none (.var rowsName false w.rows) [.expr (push w call)] w.body
          w.loop,
        .expr (.var "host_batch_out" true w.last)])

/-- Tokens that are the work on a row, where its variables are in sight. -/
def ReadsWork (names : List String) (work : List Token) (isWork : List Stmt → Prop) : Prop :=
  ∀ (n : ℕ) (s : ParserState) (ps : List Placed), s.Calm →
    (∀ x ∈ names, s.declared.any (·.name == x) = true) → ps.map Placed.token = work →
      ∃ body, isWork body ∧ ReadsBody (n + 16) 9 s ps body

variable {n : ℕ} {c : Context} {s s' : ParserState} {names : List String}
  {setup : Option String} {work : List Token} {isWork : List Stmt → Prop}

/-- Tokens that are one more statement of a script, whatever follows. -/
structure Adds (n : ℕ) (c : Context) (s s' : ParserState) (ps : List Placed) (st : Stmt) :
    Prop where
  /-- There are tokens. -/
  ne_nil : ps ≠ []
  /-- They are taken, and the statement is kept. -/
  adds : ∀ (u : Placed) (l : List Placed) (body : List Stmt),
    nextInScript (within n) c body (s.facing (ps ++ u :: l)) =
      .ok (.inl (body ++ [st]), s'.facing (u :: l))

/-- A script goes on after a statement. -/
theorem Adds.loops {ps : List Placed} {st : Stmt} (h : Adds n c s s' ps st) {rest : List Placed}
    (hne : rest ≠ []) {body result : List Stmt} {final : ParserState}
    (hrest : Loops (nextInScript (within n) c) (body ++ [st]) (s'.facing rest) result final) :
    Loops (nextInScript (within n) c) body (s.facing (ps ++ rest)) result final := by
  obtain ⟨u, l, rfl⟩ := List.exists_cons_of_ne_nil hne
  refine .more (h.adds u l body) ?_ hrest
  have hpos := List.length_pos_iff.mpr h.ne_nil
  simp only [facing_tokens, List.length_append, List.length_cons]
  omega

/-- The names in quotes are an array of texts. -/
theorem reads_names (hs : s.Calm) (hnames : names ≠ []) {ps : List Placed} (p q : Position)
    (hps : ps.map Placed.token = [.mark ","].intercalate (names.map fun n => [.string n])) :
    ∃ es, Reads (n + 6) 4 s (⟨.mark "[", p⟩ :: (ps ++ [⟨.mark "]", q⟩])) (.array es p) ∧
      constants? es = some (names.map .string) := by
  obtain ⟨es, hlisted, hkinds⟩ := exists_listed (n := n + 3) (k := 1) (s := s) hnames
    (fun name e => ∃ r, e = .literal (.string name) r)
    (fun name _ qs hqs => by
      obtain ⟨r, rest, rfl, hrest⟩ := map_token_eq_cons.mp hqs
      obtain rfl := List.map_eq_nil_iff.mp hrest
      exact ⟨_, reads_string hs name r, r, rfl⟩) hps
  refine ⟨es, reads_array hs hlisted p q, ?_⟩
  clear hlisted hps hnames
  induction hkinds with
  | nil => rfl
  | cons hkind _ ih =>
    obtain ⟨r, rfl⟩ := hkind
    simp [constants?, Expr.constant?, ih]

/-- The declaration of the names. -/
theorem adds_names (hc : c.Roomy 16) (hs : s.Calm) (hnames : names ≠ [])
    (hnew : s.declared.any (·.name == "host_batch_vars") = false) {ps : List Placed}
    (hps : ps.map Placed.token = namesTokens names) :
    ∃ es p q, constants? es = some (names.map .string) ∧
      Adds (n + 22) c s (s.declaring "host_batch_vars") ps
        (.declare "host_batch_vars" false false (.array es p) q) := by
  obtain ⟨p₁, ts₁, rfl, h₁⟩ := map_token_eq_cons.mp hps
  obtain ⟨p₂, ts₂, rfl, h₂⟩ := map_token_eq_cons.mp h₁
  obtain ⟨p₃, ts₃, rfl, h₃⟩ := map_token_eq_cons.mp h₂
  obtain ⟨p₄, ts₄, rfl, h₄⟩ := map_token_eq_cons.mp h₃
  obtain ⟨qs, ts₅, rfl, hqs, h₅⟩ := List.map_eq_append_iff.mp h₄
  obtain ⟨p₆, ts₆, rfl, h₆⟩ := map_token_eq_cons.mp h₅
  obtain ⟨p₇, ts₇, rfl, h₇⟩ := map_token_eq_cons.mp h₆
  obtain rfl := List.map_eq_nil_iff.mp h₇
  obtain ⟨es, hread, hes⟩ := reads_names (n := n + 15) hs hnames p₄ p₆ hqs
  refine ⟨es, p₄, p₁, hes, ⟨by simp, fun u l body => ?_⟩⟩
  have hstatement := statement_declaration (n := n + 21) (hc.mono (by decide : 4 + 2 ≤ 16)) hnew
    p₁ p₂ p₃ fun c' hc' => hread.reads c' ⟨.mark ";", p₇⟩ (u :: l) hc' rfl
  have hstep := nextInScript_terminated (by simp) hstatement rfl rfl body
  simpa using hstep

/-- The call before the first row. -/
theorem reaches_setup (hc : c.Roomy 16) (hs : s.Calm) {ps : List Placed}
    (hps : ps.map Placed.token = setupTokens setup) :
    ∃ q, ∀ (u : Placed) (l : List Placed) (body : List Stmt),
      Reaches (nextInScript (within (n + 22)) c) body (s.facing (ps ++ u :: l))
        (body ++ setupStatements .expr q setup) (s.facing (u :: l)) := by
  cases setup with
  | none =>
    obtain rfl := List.map_eq_nil_iff.mp hps
    refine ⟨.none, fun u l body => ?_⟩
    rw [setupStatements, List.append_nil]
    exact .refl _ _
  | some f =>
    obtain ⟨p₁, ts₁, rfl, h₁⟩ := map_token_eq_cons.mp hps
    obtain ⟨p₂, ts₂, rfl, h₂⟩ := map_token_eq_cons.mp h₁
    obtain ⟨p₃, ts₃, rfl, h₃⟩ := map_token_eq_cons.mp h₂
    obtain rfl := List.map_eq_nil_iff.mp h₃
    have hread := reads_callAlone (n := n + 18) (k := 0) hs f p₁ p₂
    refine ⟨p₁, fun u l body => ?_⟩
    have hstatement := statement_expression (hc.mono (by decide : 2 ≤ 16)) hread
      (u := ⟨.mark ";", p₃⟩) (l := u :: l) rfl
    refine .more (nextInScript_terminated (by simp) hstatement rfl rfl body) ?_ (.refl _ _)
    simp

/-- The declaration of the work on a row, which is a closure. -/
theorem adds_work (hc : c.Roomy 16) (hs : s.Calm) (hne : names ≠ []) (hnodup : names.Nodup)
    (hwork : ReadsWork names work isWork)
    (hnew : s.declared.any (·.name == "host_batch_fn") = false) {ps : List Placed}
    (hps : ps.map Placed.token = workTokens names work) :
    ∃ body q r, isWork body ∧ Adds (n + 22) c s
      (({ s with closures := ⟨closureName s.closures.length, names, body⟩ :: s.closures } :
        ParserState).declaring "host_batch_fn") ps
      (.declare "host_batch_fn" false false (.literal (.fnPtr (closureName s.closures.length) []) q)
        r) := by
  obtain ⟨p₁, ts₁, rfl, h₁⟩ := map_token_eq_cons.mp hps
  obtain ⟨p₂, ts₂, rfl, h₂⟩ := map_token_eq_cons.mp h₁
  obtain ⟨p₃, ts₃, rfl, h₃⟩ := map_token_eq_cons.mp h₂
  obtain ⟨p₄, ts₄, rfl, h₄⟩ := map_token_eq_cons.mp h₃
  obtain ⟨qs, ts₅, rfl, hqs, h₅⟩ := List.map_eq_append_iff.mp h₄
  obtain ⟨p₆, ts₆, rfl, h₆⟩ := map_token_eq_cons.mp h₅
  obtain ⟨p₇, ts₇, rfl, h₇⟩ := map_token_eq_cons.mp h₆
  obtain ⟨rs, ts₈, rfl, hrs, h₈⟩ := List.map_eq_append_iff.mp h₇
  obtain ⟨p₉, ts₉, rfl, h₉⟩ := map_token_eq_cons.mp h₈
  obtain ⟨p₁₀, ts₁₀, rfl, h₁₀⟩ := map_token_eq_cons.mp h₉
  obtain rfl := List.map_eq_nil_iff.mp h₁₀
  have hcalm : (s.fresh.declaringAll names).inner.Calm := by
    rw [declaringAll_eq]
    exact ⟨rfl, rfl⟩
  obtain ⟨body, hbody, hread⟩ := hwork n _ rs hcalm
    (fun x hx => declared_declaringAll s.fresh hx) hrs
  refine ⟨body, p₄, p₁, hbody, ⟨by simp, fun u l before => ?_⟩⟩
  let s₁ : ParserState :=
    { s with closures := ⟨closureName s.closures.length, names, body⟩ :: s.closures }
  have hclosure (c' : Context) (hc' : c'.Roomy 14) := expression_closure (n := n + 16) (k := 9) hc'
    hs hne hnodup hqs hread p₄ p₆ p₇ p₉ (u := ⟨.mark ";", p₁₀⟩) (l := u :: l) rfl
  have hnew₁ : s₁.declared.any (·.name == "host_batch_fn") = false := hnew
  have hstatement := statement_declaration (n := n + 21) (hc.mono (by decide : 14 + 2 ≤ 16)) hnew₁
    p₁ p₂ p₃ hclosure
  have hstep := nextInScript_terminated (by simp) hstatement rfl rfl before
  simpa using hstep

/-- The declaration of the results, of which there are none yet. -/
theorem adds_results (hc : c.Roomy 16) (hs : s.Calm)
    (hnew : s.declared.any (·.name == "host_batch_out") = false) {ps : List Placed}
    (hps : ps.map Placed.token = resultsTokens) :
    ∃ p q, Adds (n + 22) c s (s.declaring "host_batch_out") ps
      (.declare "host_batch_out" false false (.array [] p) q) := by
  obtain ⟨p₁, ts₁, rfl, h₁⟩ := map_token_eq_cons.mp hps
  obtain ⟨p₂, ts₂, rfl, h₂⟩ := map_token_eq_cons.mp h₁
  obtain ⟨p₃, ts₃, rfl, h₃⟩ := map_token_eq_cons.mp h₂
  obtain ⟨p₄, ts₄, rfl, h₄⟩ := map_token_eq_cons.mp h₃
  obtain ⟨p₅, ts₅, rfl, h₅⟩ := map_token_eq_cons.mp h₄
  obtain ⟨p₆, ts₆, rfl, h₆⟩ := map_token_eq_cons.mp h₅
  obtain rfl := List.map_eq_nil_iff.mp h₆
  have hread := reads_emptyArray (n := n + 18) (k := 0) hs p₄ p₅
  refine ⟨p₄, p₁, ⟨by simp, fun u l body => ?_⟩⟩
  have hstatement := statement_declaration (n := n + 21) (hc.mono (by decide : 2 + 2 ≤ 16)) hnew
    p₁ p₂ p₃ fun c' hc' => hread.reads c' ⟨.mark ";", p₆⟩ (u :: l) hc' rfl
  exact nextInScript_terminated (by simp) hstatement rfl rfl body

/-- The value of a variable in a row. -/
theorem reads_argument (hs : s.Calm)
    (hrow : s.declared.any (·.name == "host_batch_row") = true)
    (hvars : s.declared.any (·.name == "host_batch_vars") = true) (i : ℕ) {ps : List Placed}
    (hps : ps.map Placed.token = argumentTokens i) :
    ∃ e, Reads (n + 11) 7 s ps e ∧ IsArgument i e := by
  obtain ⟨p₁, ts₁, rfl, h₁⟩ := map_token_eq_cons.mp hps
  obtain ⟨p₂, ts₂, rfl, h₂⟩ := map_token_eq_cons.mp h₁
  obtain ⟨p₃, ts₃, rfl, h₃⟩ := map_token_eq_cons.mp h₂
  obtain ⟨p₄, ts₄, rfl, h₄⟩ := map_token_eq_cons.mp h₃
  obtain ⟨p₅, ts₅, rfl, h₅⟩ := map_token_eq_cons.mp h₄
  obtain ⟨p₆, ts₆, rfl, h₆⟩ := map_token_eq_cons.mp h₅
  obtain ⟨p₇, ts₇, rfl, h₇⟩ := map_token_eq_cons.mp h₆
  obtain ⟨p₈, ts₈, rfl, h₈⟩ := map_token_eq_cons.mp h₇
  obtain ⟨p₉, ts₉, rfl, h₉⟩ := map_token_eq_cons.mp h₈
  obtain rfl := List.map_eq_nil_iff.mp h₉
  have hindex := reads_index (n := n + 3) hs hvars (reads_int (n := n) (k := 0) hs i p₇) p₅ p₆ p₈
  have hget := reads_method (n := n + 7) hs hrow (.last hindex)
    (.inl rfl : namesMethod (⟨.name "get", p₃⟩ : Placed).token "get") p₁ p₂ p₄ p₉
  exact ⟨_, hget, .get i p₁ p₂ p₃ p₅ p₆ p₇⟩

/-- The loop over the rows. -/
theorem adds_loop (hc : c.Roomy 16) (hs : s.Calm) {size : ℕ} (hsize : size ≠ 0)
    (hdeclared : s.declared.map Declared.name =
      ["host_batch_out", "host_batch_fn", "host_batch_vars"]) {ps : List Placed}
    (hps : ps.map Placed.token = loopTokens size) :
    ∃ call p₀ p₁ p₂ p₃ p₄ p₅, IsWork size call ∧
      Adds (n + 22) c s (s.seeking rowsName p₀) ps
        (.forLoop "host_batch_row" none (.var rowsName false p₀)
          [.expr (.chain (.var "host_batch_out" true p₁) [.method "push" [call] false p₂ p₃])]
          p₄ p₅) := by
  obtain ⟨p₁, ts₁, rfl, h₁⟩ := map_token_eq_cons.mp hps
  obtain ⟨p₂, ts₂, rfl, h₂⟩ := map_token_eq_cons.mp h₁
  obtain ⟨p₃, ts₃, rfl, h₃⟩ := map_token_eq_cons.mp h₂
  obtain ⟨p₄, ts₄, rfl, h₄⟩ := map_token_eq_cons.mp h₃
  obtain ⟨p₅, ts₅, rfl, h₅⟩ := map_token_eq_cons.mp h₄
  obtain ⟨p₆, ts₆, rfl, h₆⟩ := map_token_eq_cons.mp h₅
  obtain ⟨p₇, ts₇, rfl, h₇⟩ := map_token_eq_cons.mp h₆
  obtain ⟨p₈, ts₈, rfl, h₈⟩ := map_token_eq_cons.mp h₇
  obtain ⟨p₉, ts₉, rfl, h₉⟩ := map_token_eq_cons.mp h₈
  obtain ⟨p₁₀, ts₁₀, rfl, h₁₀⟩ := map_token_eq_cons.mp h₉
  obtain ⟨p₁₁, ts₁₁, rfl, h₁₁⟩ := map_token_eq_cons.mp h₁₀
  obtain ⟨p₁₂, ts₁₂, rfl, h₁₂⟩ := map_token_eq_cons.mp h₁₁
  obtain ⟨p₁₃, ts₁₃, rfl, h₁₃⟩ := map_token_eq_cons.mp h₁₂
  obtain ⟨qs, ts₁₄, rfl, hqs, h₁₄⟩ := List.map_eq_append_iff.mp h₁₃
  obtain ⟨p₁₅, ts₁₅, rfl, h₁₅⟩ := map_token_eq_cons.mp h₁₄
  obtain ⟨p₁₆, ts₁₆, rfl, h₁₆⟩ := map_token_eq_cons.mp h₁₅
  obtain ⟨p₁₇, ts₁₇, rfl, h₁₇⟩ := map_token_eq_cons.mp h₁₆
  obtain ⟨p₁₈, ts₁₈, rfl, h₁₈⟩ := map_token_eq_cons.mp h₁₇
  obtain rfl := List.map_eq_nil_iff.mp h₁₈
  have hcalm : ((s.seeking rowsName p₄).declaring "host_batch_row").inner.Calm :=
    ⟨(seeking_calm hs rowsName p₄).capturing, (seeking_calm hs rowsName p₄).barEnds⟩
  have hknown : ∀ y ∈ ["host_batch_row", "host_batch_out", "host_batch_fn", "host_batch_vars"],
      ((s.seeking rowsName p₄).declaring "host_batch_row").inner.declared.any (·.name == y) =
        true := by
    intro y hy
    have hnames : ((s.seeking rowsName p₄).declaring "host_batch_row").inner.declared.map
        Declared.name = "host_batch_row" :: s.declared.map Declared.name := by
      rw [← seeking_declared s rowsName p₄]
      rfl
    rw [← hdeclared, ← hnames] at hy
    obtain ⟨d, hd, rfl⟩ := List.mem_map.mp hy
    exact List.any_eq_true.mpr ⟨d, hd, beq_self_eq_true d.name⟩
  have hunknown : s.declared.any (·.name == rowsName) = false := by
    have hnames : (s.declared.map Declared.name).any (· == rowsName) = false := by
      rw [hdeclared]
      decide +kernel
    rwa [List.any_map] at hnames
  obtain ⟨args, hlisted, hargs⟩ := exists_listed (n := n + 11) (k := 7)
    (by simpa using hsize : List.range size ≠ []) IsArgument
    (fun i _ ts hts => reads_argument hcalm (hknown _ (by simp)) (hknown _ (by simp)) i hts) hqs
  have hcall := reads_method (n := n + 11) hcalm (hknown "host_batch_fn" (by simp)) hlisted
    (.inr ⟨rfl, by decide⟩ : namesMethod (⟨.reserved "call", p₁₂⟩ : Placed).token "call")
    p₁₀ p₁₁ p₁₃ p₁₅
  have hpush := reads_method (n := n + 15) hcalm (hknown "host_batch_out" (by simp)) (.last hcall)
    (.inl rfl : namesMethod (⟨.name "push", p₈⟩ : Placed).token "push") p₆ p₇ p₉ p₁₆
  refine ⟨_, p₄, p₆, p₇, p₈, p₅, p₁, .call hargs p₁₀ p₁₁ p₁₂, ⟨by simp, fun u l body => ?_⟩⟩
  have hround := ReadsBody.cons (hpush.mono (by decide : 13 ≤ 13)) p₁₇ (.nil _ _ _)
  have hstatement := statement_forLoop (n := n + 20) (k := 14) (hc.mono (by decide))
    (fun c' hc' => expression_unknown (n := n + 18) (k := 14) hc' hs hunknown p₄ rfl) rfl rfl
    hround p₁ p₂ p₃ (v := p₅) (w := p₁₈) (u := u) (l := l)
  have hstep := nextInScript_selfTerminated (by simp) hstatement rfl rfl body
  simp only [List.cons_append, List.append_assoc, List.nil_append] at hstep ⊢
  exact hstep

/-- The variable of the results is the last statement. -/
theorem loops_results (hc : c.Roomy 16) (hs : s.Calm)
    (hknown : s.declared.any (·.name == "host_batch_out") = true) (body : List Stmt)
    (p q : Position) :
    Loops (nextInScript (within (n + 22)) c) body
      (s.facing [⟨.name "host_batch_out", p⟩, ⟨.eof, q⟩])
      (body ++ [.expr (.var "host_batch_out" true p)]) (s.facing [⟨.eof, q⟩]) := by
  have hread := reads_known (n := n + 18) (k := 0) hs hknown p
  have hstatement := statement_expression (hc.mono (by decide : 2 ≤ 16)) hread
    (u := ⟨.eof, q⟩) (l := []) rfl
  exact .more (nextInScript_last (by simp) hstatement rfl body) (by simp)
    (.done (nextInScript_eof _ _ _ q))

/-! ## The whole script -/

variable {ω : Type}

/-- A text whose tokens are read as a script is this script. -/
theorem ofText?_ok {limits : Limits} {text : String} {body : List Stmt} {final : ParserState}
    {rest : List Placed}
    (h : scriptRule (within (8 * (tokens limits.maxStringSize text).length + 16))
      { limits, maxLevel := limits.maxExprDepth, isTop := true }
      { tokens := tokens limits.maxStringSize text } = .ok (body, final.facing rest)) :
    Program.ofText? limits text = .ok ⟨body, final.functions.reverse, final.closures.reverse⟩ := by
  simp only [Program.ofText?, h]
  rfl

/-- What the script of a batch is read as, behind the lines of a bridge. -/
structure IsScript (kind : Expr → Stmt) (b : Bridge ω) (names : List String)
    (setup : Option String) (isWork : List Stmt → Prop) (namesValue results : Expr) (p : Program) :
    Prop where
  /-- There is one function for each function of the bridge, with a statement of some kind. -/
  functions : List.Forall₂ (IsStub kind) b.stubs p.functions
  /-- The work on a row is the only closure. -/
  closures : ∃ body, isWork body ∧ p.closures = [⟨closureName 0, names, body⟩]
  /-- The statements. -/
  body : ∃ w call, IsWork names.length call ∧
    p.body = statements kind w setup namesValue results call

/-- **The script of a batch is read.** The names of the bridge and of the variables have to be
identifiers; limits that are not met do not matter. -/
theorem exists_script {b : Bridge ω} (hstubs : (b.stubs.map Prod.fst).Nodup)
    (hbridge : ∀ p ∈ b.stubs, isIdentifier p.1 = true ∧ isReserved p.1 = false)
    (hne : names ≠ []) (hnodup : names.Nodup)
    (hnames : ∀ n ∈ names, isIdentifier n = true ∧ isReserved n = false)
    (hsize : names.length ≤ 2 ^ 63) {batch : Batch} {work : List Piece}
    (hspells : batch.Spells setup work)
    (hwork : ReadsWork names (work.filterMap Piece.token?) isWork) {limits : Limits}
    (hstring : limits.maxStringSize = 0)
    (harray : limits.maxArraySize = 0) (hdepth : 16 ≤ limits.maxExprDepth)
    (hfunction : 9 ≤ limits.maxFunctionExprDepth) :
    ∃ p es q₁ q₂, Program.ofText? limits (b.preamble ++ batch.body names) = .ok p ∧
      constants? es = some (names.map .string) ∧
      IsScript .expr b names setup isWork (.array es q₁) (.array [] q₂) p := by
  have hident : ∀ n ∈ names, isIdentifier n = true := fun n hn => (hnames n hn).1
  have hvalid : (b.pieces ++ pieces names setup work).all Piece.isValid = true := by
    rw [List.all_append, b.pieces_isValid fun p hp => (hbridge p hp).1,
      pieces_isValid hspells hident hsize, Bool.true_and]
  have htokens := tokens_pieces hvalid
    (by rw [areApart_append, b.pieces_areApart, pieces_areApart hspells hident hne, Bool.true_and])
    (b.preamble ++ batch.body names)
    (by rw [String.toList_append, List.flatMap_append, b.pieces_chars, pieces_chars hspells])
  rw [List.filterMap_append, b.pieces_tokens hbridge, pieces_tokens hspells hnames, scriptTokens]
    at htokens
  simp only [List.append_assoc] at htokens
  obtain ⟨ps, rest₁, hplaced, hps, h₁⟩ := List.map_eq_append_iff.mp htokens
  obtain ⟨ps₁, rest₂, rfl, hps₁, h₂⟩ := List.map_eq_append_iff.mp h₁
  obtain ⟨ps₂, rest₃, rfl, hps₂, h₃⟩ := List.map_eq_append_iff.mp h₂
  obtain ⟨ps₃, rest₄, rfl, hps₃, h₄⟩ := List.map_eq_append_iff.mp h₃
  obtain ⟨ps₄, rest₅, rfl, hps₄, h₅⟩ := List.map_eq_append_iff.mp h₄
  obtain ⟨ps₅, rest₆, rfl, hps₅, h₆⟩ := List.map_eq_append_iff.mp h₅
  obtain ⟨p, rest₇, rfl, h₇⟩ := map_token_eq_cons.mp h₆
  obtain ⟨q, rest₈, rfl, h₈⟩ := map_token_eq_cons.mp h₇
  obtain rfl := List.map_eq_nil_iff.mp h₈
  have hc : Context.Roomy { limits, maxLevel := limits.maxExprDepth, isTop := true } 16 :=
    ⟨.inr (by simpa using hdepth), harray⟩
  obtain ⟨m, hm⟩ : ∃ m, 8 * (tokens 0 (b.preamble ++ batch.body names)).length + 16 = m + 22 := by
    refine ⟨8 * (tokens 0 (b.preamble ++ batch.body names)).length - 6, ?_⟩
    rw [hplaced]
    simp only [List.length_append, List.length_cons]
    omega
  obtain ⟨functions, hfunctions, hstart⟩ := reaches_stubs (n := m + 10) (s := { tokens := [] })
    (c := { limits, maxLevel := limits.maxExprDepth, isTop := true }) rfl harray (.inr hfunction)
    hstubs (by simp) hps
  -- The states in front of the statements.
  let s₁ : ParserState := { tokens := [], functions := functions.reverse ++ [] }
  obtain ⟨es, q₁, p₁, hes, hnamesStep⟩ := adds_names (n := m) (s := s₁) hc ⟨rfl, rfl⟩ hne rfl hps₁
  let s₂ : ParserState := s₁.declaring "host_batch_vars"
  obtain ⟨p₂, hsetupStep⟩ := reaches_setup (n := m) (s := s₂) hc ⟨rfl, rfl⟩ hps₂
  obtain ⟨body, r₃, p₃, hbody, hworkStep⟩ := adds_work (n := m) (s := s₂) hc ⟨rfl, rfl⟩ hne hnodup
    hwork rfl hps₃
  let s₃ : ParserState :=
    ({ s₂ with closures := [⟨closureName 0, names, body⟩] } : ParserState).declaring "host_batch_fn"
  obtain ⟨q₂, p₄, hresultsStep⟩ := adds_results (n := m) (s := s₃) hc ⟨rfl, rfl⟩ rfl hps₄
  let s₄ : ParserState := s₃.declaring "host_batch_out"
  obtain ⟨call, r₅, r₆, r₇, r₈, r₉, p₅, hcall, hloopStep⟩ := adds_loop (n := m) (s := s₄) hc
    ⟨rfl, rfl⟩ (by simpa using hne) rfl hps₅
  have hlast (statements : List Stmt) := loops_results (n := m) (s := s₄.seeking rowsName r₅) hc
    (seeking_calm ⟨rfl, rfl⟩ _ _) (by rw [seeking_declared]; rfl) statements p q
  -- Backwards from the end, as every part says what it does in front of one more token.
  have hafterSetup (before : List Stmt) := hworkStep.loops (by simp)
    (hresultsStep.loops (by simp) (hloopStep.loops (by simp)
      (hlast (before ++ [_] ++ [_] ++ [_]))))
  obtain ⟨v, vs, hvs⟩ := List.exists_cons_of_ne_nil (List.append_ne_nil_of_left_ne_nil
    hworkStep.ne_nil (ps₄ ++ (ps₅ ++ [⟨.name "host_batch_out", p⟩, ⟨.eof, q⟩])))
  rw [hvs] at hafterSetup
  have hafterStubs := hnamesStep.loops (by simp)
    ((hsetupStep v vs _).loops (hafterSetup ([] ++ [_] ++ _)))
  obtain ⟨u, l, hul⟩ := List.exists_cons_of_ne_nil (List.append_ne_nil_of_left_ne_nil
    hnamesStep.ne_nil (ps₂ ++ v :: vs))
  rw [hul] at hafterStubs
  have hscript := (hstart (passesDefinitions_nextInScript _ _ []) u l).loops hafterStubs
  have hrule := hscript.repeated
  rw [← hul, ← hvs, ← hplaced] at hrule
  refine ⟨⟨_, functions, [⟨closureName 0, names, body⟩]⟩, es, q₁, q₂, ?_, hes,
    ⟨hfunctions, ⟨body, hbody, rfl⟩, ⟨p₁, p₂, r₃, p₃, p₄, r₅, r₆, r₇, r₈, r₉, p₅, p⟩, call, hcall,
      rfl⟩⟩
  have htext : Program.ofText? limits (b.preamble ++ batch.body names) = _ :=
    ofText?_ok (by rw [hstring, hm]; exact hrule)
  rw [htext, (seeking_definitions s₄ rowsName r₅).1, (seeking_definitions s₄ rowsName r₅).2]
  have hreverse : s₄.functions.reverse = functions := by
    show (functions.reverse ++ []).reverse = functions
    rw [List.append_nil, List.reverse_reverse]
  rw [hreverse]
  cases setup <;> rfl

end ScriptHost.Batch
