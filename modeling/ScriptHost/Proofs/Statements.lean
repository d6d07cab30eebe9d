import Mathlib
import ScriptHost.Proofs.Expressions

/-!
# Reading statements and functions

Which tokens are read as which statement, block, closure or function, and what the text declares by
them.
-/

namespace ScriptHost.Script

/-- The state with one more variable in sight. -/
def ParserState.declaring (s : ParserState) (x : String) : ParserState :=
  { s with declared := ⟨x, false⟩ :: s.declared }

/-- The state with more variables in sight, the last one innermost. -/
def ParserState.declaringAll (s : ParserState) : List String → ParserState
  | [] => s
  | x :: xs => (s.declaring x).declaringAll xs

/-- The variables that have come into sight. -/
theorem ParserState.declaringAll_eq (s : ParserState) (xs : List String) :
    s.declaringAll xs = { s with declared := (xs.map fun x => ⟨x, false⟩).reverse ++
      s.declared } := by
  induction xs generalizing s with
  | nil => rfl
  | cons x xs ih => simp [declaringAll, ih, declaring]

/-- The state at the beginning of a function, which sees no variable from outside. -/
def ParserState.fresh (s : ParserState) : ParserState :=
  { s with declared := [], outer := 0, captured := [], capturing := true, barEnds := false }

/-- The state inside a block. -/
def ParserState.inner (s : ParserState) : ParserState := { s with outer := s.declared.length }

/-- The state after a variable that the text does not declare: it comes from outside. -/
def ParserState.seeking (s : ParserState) (x : String) (p : Position) : ParserState :=
  if s.functions.any (·.name == x) || s.captured.any (·.1 == x) then s
  else { s with captured := (x, p) :: s.captured }

namespace Grammar

open ScriptHost.Script.Parser ParserState

variable {n k : ℕ} {c : Context} {s s' : ParserState} {t u : Placed} {ts l : List Placed} {e : Expr}

/-- Each rule refers to rules that are nested less. -/
@[simp] theorem within_statement (c : Context) :
    (within (n + 1)).statement c = statementRule (within n) c := rfl

/-- Each rule refers to rules that are nested less. -/
@[simp] theorem within_block (c : Context) :
    (within (n + 1)).block c = blockRule (within n) c := rfl

/-! ## Expressions as statements -/

/-- No assignment begins in front of a token that ends an expression. -/
theorem assignmentOperator?_end {t : Token} (ht : t.endsExpression = true) :
    assignmentOperator? t = none := by
  rcases endsExpression_cases ht with rfl | ⟨m, hm, rfl⟩
  · rfl
  · fin_cases hm <;> rfl

/-- An expression is a statement. -/
theorem statement_expression (hc : c.Roomy (k + 1)) {ps : List Placed} (h : Reads n k s ps e)
    (hends : u.token.endsExpression = true) :
    (within (n + 1)).statement c (s.facing (ps ++ u :: l)) = .ok (.expr e, s.facing (u :: l)) := by
  obtain ⟨⟨token, p⟩, ts, rfl, ht⟩ := h.begins
  have hc' : Context.Roomy { c with pos := p } (k + 1) := hc.congr rfl rfl rfl
  have hc'' : Context.Roomy { c with pos := p, level := c.level + 1 } k := hc'.deeper
  have hread := h.reads _ u l hc'' hends
  have hstatement : expressionStatement (within n) { c with pos := p, level := c.level + 1 }
      (s.facing (⟨token, p⟩ :: ts ++ u :: l)) = .ok (.expr e, s.facing (u :: l)) := by
    rw [List.cons_append] at hread ⊢
    rw [expressionStatement, bind_ok (peek_facing ..), bind_ok hread, bind_ok (peek_facing ..),
      assignmentOperator?_end hends]
    rfl
  rw [List.cons_append] at hstatement ⊢
  rw [within_statement, statementRule, bind_ok (peek_facing ..)]
  rcases beginsPrimary_cases ht with ⟨x, rfl⟩ | ⟨i, rfl⟩ | ⟨x, rfl⟩ | rfl | rfl
  all_goals exact (bind_ok (deeper_ok hc')).trans hstatement

/-! ## Blocks -/

/-- A block ends with a brace. -/
theorem nextInBlock_close (g : Grammar) (c : Context) (body : List Stmt) (q : Position) :
    nextInBlock g c body (s.facing (⟨.mark "\x7d", q⟩ :: u :: l)) =
      .ok (.inr body, s.facing (u :: l)) := by
  rw [nextInBlock, bind_ok (peek_facing ..)]
  rfl

/-- Tokens that are statements, in front of the brace that closes their block. -/
def ReadsBody (n k : ℕ) (s : ParserState) (ps : List Placed) (body : List Stmt) : Prop :=
  ∀ (c : Context) (before : List Stmt) (q : Position) (u : Placed) (l : List Placed), c.Roomy k →
    Loops (nextInBlock (within n) c) before (s.facing (ps ++ ⟨.mark "\x7d", q⟩ :: u :: l))
      (before ++ body) (s.facing (u :: l))

/-- No tokens are no statements. -/
theorem ReadsBody.nil (n k : ℕ) (s : ParserState) : ReadsBody n k s [] [] := by
  intro c before q u l _
  rw [List.append_nil]
  exact .done (nextInBlock_close _ c before q)

/-- An expression may be the last statement. -/
theorem ReadsBody.last {ps : List Placed} (h : Reads n k s ps e) :
    ReadsBody (n + 1) (k + 1) s ps [.expr e] := by
  intro c before q u l hc
  have hstatement := statement_expression hc h (u := ⟨.mark "\x7d", q⟩) (l := u :: l) rfl
  obtain ⟨⟨token, r⟩, ts, rfl, ht⟩ := h.begins
  refine .done ?_
  rw [List.cons_append] at hstatement ⊢
  rw [nextInBlock, bind_ok (peek_facing ..)]
  rcases beginsPrimary_cases ht with ⟨x, rfl⟩ | ⟨i, rfl⟩ | ⟨x, rfl⟩ | rfl | rfl
  all_goals exact (bind_ok hstatement).trans rfl

/-- An expression with a semicolon after it is a statement before others. -/
theorem ReadsBody.cons {ps qs : List Placed} (h : Reads n k s ps e) (r : Position)
    {body : List Stmt} (hrest : ReadsBody (n + 1) (k + 1) s qs body) :
    ReadsBody (n + 1) (k + 1) s (ps ++ ⟨.mark ";", r⟩ :: qs) (.expr e :: body) := by
  intro c before q u l hc
  have hloops := hrest c (before ++ [.expr e]) q u l hc
  rw [List.append_assoc, List.singleton_append] at hloops
  obtain ⟨v, vs, hvs⟩ := List.exists_cons_of_ne_nil
    (List.append_ne_nil_of_right_ne_nil qs (List.cons_ne_nil (⟨.mark "\x7d", q⟩ : Placed) (u :: l)))
  rw [List.append_assoc, List.cons_append, hvs]
  rw [hvs] at hloops
  have hstatement := statement_expression hc h (u := ⟨.mark ";", r⟩) (l := v :: vs) rfl
  obtain ⟨⟨token, w⟩, ts, rfl, ht⟩ := h.begins
  refine .more ?_ ?_ hloops
  · rw [List.cons_append] at hstatement ⊢
    rw [nextInBlock, bind_ok (peek_facing ..)]
    rcases beginsPrimary_cases ht with ⟨x, rfl⟩ | ⟨i, rfl⟩ | ⟨x, rfl⟩ | rfl | rfl
    all_goals exact (bind_ok hstatement).trans rfl
  · simp only [facing_tokens, List.length_append, List.length_cons]
    omega

/-- A parser that declares nothing in its block leaves the state as it was. -/
theorem inBlock_ok {α : Type} {p : Parser α} {a : α}
    (h : p (s.inner.facing ts) = .ok (a, s.inner.facing l)) :
    inBlock p (s.facing ts) = .ok (a, s.facing l) := by
  have hinner : p { s.facing ts with outer := (s.facing ts).declared.length } =
      .ok (a, s.inner.facing l) := h
  simp only [inBlock, hinner]
  simp [ParserState.inner, ParserState.facing]

/-- A block of statements that declare nothing leaves the state as it was. -/
theorem block_ok (hc : c.Roomy (k + 1)) {ps : List Placed} {body : List Stmt}
    (h : ReadsBody n k s.inner ps body) (p q : Position) :
    (within (n + 1)).block c (s.facing (⟨.mark "\x7b", p⟩ :: (ps ++ ⟨.mark "\x7d", q⟩ :: u :: l))) =
      .ok ((body, p), s.facing (u :: l)) := by
  have hc' : Context.Roomy { c with pos := p } (k + 1) := hc.congr rfl rfl rfl
  have hbody := (h { c with pos := p, level := c.level + 1, isTop := false } [] q u l
    (hc'.deeper.congr rfl rfl rfl)).repeated
  obtain ⟨t, ts, hts⟩ := List.exists_cons_of_ne_nil
    (List.append_ne_nil_of_right_ne_nil ps (List.cons_ne_nil (⟨.mark "\x7d", q⟩ : Placed) (u :: l)))
  rw [hts] at hbody ⊢
  rw [within_block, blockRule, bind_ok (expect_mark ..), bind_ok (deeper_ok hc')]
  exact inBlock_ok ((bind_ok hbody).trans rfl)

/-- A block may be a statement. -/
theorem statement_block (hc : c.Roomy (k + 2)) {ps : List Placed} {body : List Stmt}
    (h : ReadsBody n k s.inner ps body) (p q : Position) :
    (within (n + 2)).statement c
        (s.facing (⟨.mark "\x7b", p⟩ :: (ps ++ ⟨.mark "\x7d", q⟩ :: u :: l))) =
      .ok (.block body p, s.facing (u :: l)) := by
  have hc' : Context.Roomy { c with pos := p } (k + 2) := hc.congr rfl rfl rfl
  rw [within_statement, statementRule, bind_ok (peek_facing ..)]
  exact (bind_ok (deeper_ok hc')).trans ((bind_ok (block_ok hc'.deeper h p q)).trans rfl)

/-! ## Declarations -/

/-- A name in the innermost block is one of all names in sight. -/
theorem declareInBlock_new {x : String} (hnew : s.declared.any (·.name == x) = false)
    (ts : List Placed) :
    declareInBlock x false (s.facing ts) = .ok (false, (s.declaring x).facing ts) := by
  have hinner : (s.declared.take (s.declared.length - s.outer)).any (·.name == x) = false := by
    rw [List.any_eq_false] at hnew ⊢
    exact fun d hd => hnew d (List.mem_of_mem_take hd)
  simp only [declareInBlock, ParserState.facing, hinner]
  rfl

/-- A declaration with a value, of a name that is not in sight. -/
theorem statement_declaration (hc : c.Roomy (k + 2)) {x : String}
    (hnew : s'.declared.any (·.name == x) = false) (p q r : Position)
    (hvalue : ∀ c', c'.Roomy k → (within n).expression c' (s.facing (t :: ts)) =
      .ok (e, s'.facing l)) :
    (within (n + 1)).statement c
        (s.facing (⟨.mark "let", p⟩ :: ⟨.name x, q⟩ :: ⟨.mark "=", r⟩ :: t :: ts)) =
      .ok (.declare x false false e p, (s'.declaring x).facing l) := by
  have hc' : Context.Roomy { c with pos := p } (k + 2) := hc.congr rfl rfl rfl
  have hc'' : Context.Roomy { c with pos := p, level := c.level + 1 } (k + 1) := hc'.deeper
  have hread := hvalue { c with pos := p, level := c.level + 1 + 1 } hc''.deeper
  have hdeclaration : declaration (within n) { c with pos := p, level := c.level + 1 } false
      (s.facing (⟨.mark "let", p⟩ :: ⟨.name x, q⟩ :: ⟨.mark "=", r⟩ :: t :: ts)) =
        .ok (.declare x false false e p, (s'.declaring x).facing l) := by
    rw [declaration, bind_ok (next_facing ..), bind_ok (declaredName_name ..)]
    exact (bind_ok (accept_mark ..)).trans ((bind_ok ((bind_ok (deeper_ok hc'')).trans hread)).trans
      (bind_ok (declareInBlock_new hnew l)))
  rw [within_statement, statementRule, bind_ok (peek_facing ..)]
  exact (bind_ok (deeper_ok hc')).trans hdeclaration

/-! ## Parameters, closures and functions -/

/-- A new parameter in front of a comma or the closing mark, which are taken. -/
theorem nextParameter_name {close : String} (hclose : close ≠ ",") (function closing sep : String)
    {params : List String} {x : String} (hnew : x ∉ params) (p q : Position)
    {r : List String ⊕ List String} {m : String}
    (hm : m = "," ∧ r = .inl (params ++ [x]) ∨ m = close ∧ r = .inr (params ++ [x])) :
    nextParameter close function closing sep params
        (s.facing (⟨.name x, p⟩ :: ⟨.mark m, q⟩ :: u :: l)) =
      .ok (r, (s.declaring x).facing (u :: l)) := by
  have hcontains : params.contains x = false := by simpa using hnew
  rw [nextParameter, bind_ok (next_facing ..)]
  simp only [hcontains, Bool.false_eq_true, if_false]
  have hdeclare : declare x false (s.facing (⟨.mark m, q⟩ :: u :: l)) =
      .ok ((), (s.declaring x).facing (⟨.mark m, q⟩ :: u :: l)) := rfl
  rw [bind_ok hdeclare, bind_ok (next_facing ..)]
  rcases hm with ⟨rfl, rfl⟩ | ⟨rfl, rfl⟩
  · simp [Token.isMark, hclose.symm]
    rfl
  · simp [Token.isMark]
    rfl

/-- Names with commas between them are parameters. -/
theorem loops_parameters {close : String} (hclose : close ≠ ",") (function closing sep : String)
    {names : List String} (hnames : names ≠ []) (params : List String)
    (hnodup : (params ++ names).Nodup) {ps : List Placed}
    (hps : ps.map Placed.token = [.mark ","].intercalate (names.map fun x => [.name x]))
    (q : Position) :
    Loops (nextParameter close function closing sep) params
      (s.facing (ps ++ ⟨.mark close, q⟩ :: u :: l)) (params ++ names)
      ((s.declaringAll names).facing (u :: l)) := by
  induction names generalizing params ps s with
  | nil => exact absurd rfl hnames
  | cons x names ih =>
    have hnew : x ∉ params := fun hmem =>
      (List.nodup_append.mp hnodup).2.2 x hmem x List.mem_cons_self rfl
    cases names with
    | nil =>
      rw [List.map_cons, List.map_nil, List.intercalate_singleton] at hps
      obtain ⟨⟨token, p⟩, rest, rfl, htoken, hrest⟩ := List.map_eq_cons_iff.mp hps
      obtain rfl := List.map_eq_nil_iff.mp hrest
      simp only at htoken
      subst htoken
      exact .done (nextParameter_name hclose function closing sep hnew p q (.inr ⟨rfl, rfl⟩))
    | cons y names =>
      rw [List.map_cons, List.map_cons, List.intercalate_cons_cons, List.append_assoc,
        List.singleton_append, List.singleton_append] at hps
      obtain ⟨⟨token, p⟩, rest, rfl, htoken, hrest⟩ := List.map_eq_cons_iff.mp hps
      obtain ⟨⟨comma, r⟩, others, rfl, hcomma, hothers⟩ := List.map_eq_cons_iff.mp hrest
      simp only at htoken hcomma
      subst htoken hcomma
      have hrest' := ih (s := s.declaring x) (List.cons_ne_nil y names) (params ++ [x])
        (by simpa using hnodup) hothers
      rw [List.append_assoc, List.singleton_append] at hrest'
      rw [List.intercalate_cons_cons_left] at hothers
      obtain ⟨t, ts, rfl, -⟩ := List.map_eq_cons_iff.mp hothers
      have hstep := nextParameter_name hclose function closing sep hnew p r (s := s) (u := t)
        (l := ts ++ ⟨.mark close, q⟩ :: u :: l) (.inl ⟨rfl, rfl⟩)
      refine .more hstep ?_ hrest'
      simp only [facing_tokens, List.length_cons, List.length_append]
      omega

/-- A parser with variables of its own that takes none from outside leaves what the state declares
as it was. -/
theorem enclosed_ok {α : Type} {p : Parser α} {a : α} (s' : ParserState)
    (h : p (s.fresh.facing ts) = .ok (a, s'.facing l)) (hcaptured : s'.captured = []) :
    enclosed p (s.facing ts) =
      .ok ((a, []),
        ({ s with functions := s'.functions, closures := s'.closures } :
          ParserState).facing l) := by
  have hfresh : p { s.facing ts with
      declared := [], outer := 0, captured := [], capturing := true, barEnds := false } =
        .ok (a, s'.facing l) := h
  simp only [enclosed, hfresh]
  simp [ParserState.facing, hcaptured]

/-- A closure of statements in braces that takes no variable from outside. -/
theorem expression_closure (hc : c.Roomy (k + 5)) (hs : s.Calm) {names : List String}
    (hnames : names ≠ []) (hnodup : names.Nodup) {ps qs : List Placed}
    (hps : ps.map Placed.token = [.mark ","].intercalate (names.map fun x => [.name x]))
    {body : List Stmt} (h : ReadsBody n k (s.fresh.declaringAll names).inner qs body)
    (p q r w : Position) (hends : u.token.endsExpression = true) :
    (within (n + 5)).expression c (s.facing (⟨.mark "|", p⟩ :: (ps ++ ⟨.mark "|", q⟩ ::
        ⟨.mark "\x7b", r⟩ :: (qs ++ ⟨.mark "\x7d", w⟩ :: u :: l)))) =
      .ok (.literal (.fnPtr (closureName s.closures.length) []) p,
        ({ s with closures := ⟨closureName s.closures.length, names, body⟩ :: s.closures } :
          ParserState).facing (u :: l)) := by
  have hloop := (loops_parameters (s := s.fresh) (u := ⟨.mark "\x7b", r⟩)
    (l := qs ++ ⟨.mark "\x7d", w⟩ :: u :: l) (by decide : "|" ≠ ",") ""
    "to close the parameters list of anonymous function or closure"
    "to separate the parameters of anonymous function" hnames [] hnodup hps q).repeated
  have hprimary : ∀ c', c'.Roomy (k + 4) → (within (n + 3)).primary c' false
      (s.facing (⟨.mark "|", p⟩ :: (ps ++ ⟨.mark "|", q⟩ :: ⟨.mark "\x7b", r⟩ ::
        (qs ++ ⟨.mark "\x7d", w⟩ :: u :: l)))) =
      .ok (.literal (.fnPtr (closureName s.closures.length) []) p,
        ({ s with closures := ⟨closureName s.closures.length, names, body⟩ :: s.closures } :
          ParserState).facing (u :: l)) := by
    intro c hc
    have hc' : Context.Roomy
        { c with pos := p, isTop := false, inFunction := true, inLoop := false } (k + 4) :=
      hc.congr rfl rfl rfl
    have hbody := statement_block hc'.deeper.deeper h r w (u := u) (l := l)
    have hcaptured : (s.fresh.declaringAll names).captured = [] := by
      rw [declaringAll_eq]
      rfl
    have hclosure : closure (within (n + 2)) { c with pos := p }
        (s.facing (⟨.mark "|", p⟩ :: (ps ++ ⟨.mark "|", q⟩ :: ⟨.mark "\x7b", r⟩ ::
          (qs ++ ⟨.mark "\x7d", w⟩ :: u :: l)))) =
        .ok (.literal (.fnPtr (closureName s.closures.length) []) p,
          ({ s with closures := ⟨closureName s.closures.length, names, body⟩ :: s.closures } :
            ParserState).facing (u :: l)) := by
      obtain ⟨t, ts, hts⟩ := List.exists_cons_of_ne_nil (List.append_ne_nil_of_right_ne_nil ps
        (List.cons_ne_nil (⟨.mark "|", q⟩ : Placed)
          (⟨.mark "\x7b", r⟩ :: (qs ++ ⟨.mark "\x7d", w⟩ :: u :: l))))
      rw [hts] at hloop ⊢
      refine (bind_ok (deeper_ok hc')).trans ((bind_ok (deeper_ok hc'.deeper)).trans
        ((bind_ok (enclosed_ok (a := (names, body)) (l := u :: l)
          (s.fresh.declaringAll names) ?_ hcaptured)).trans ?_))
      · exact (bind_ok (next_facing ..)).trans ((bind_ok hloop).trans ((bind_ok hbody).trans rfl))
      · simp only [declaringAll_eq]
        rfl
    rw [within_primary, primaryRule, bind_ok (peek_facing ..),
      bind_ok (endsCase_calm (hs.facing _) _)]
    exact (bind_ok hclosure).trans (suffixes_end _ _ _ hends)
  exact expression_of_primary hc hs rfl hends hprimary

/-- Tokens that are the parameters of a function. -/
inductive Header : List Placed → List String → Prop where
  /-- There are none. -/
  | none (p : Position) : Header [⟨.mark "()", p⟩] []
  /-- Different names with commas between them. -/
  | some {names : List String} (hnames : names ≠ []) (hnodup : names.Nodup) {ps : List Placed}
      (hps : ps.map Placed.token = [.mark ","].intercalate (names.map fun x => [.name x]))
      (p q : Position) : Header (⟨.mark "(", p⟩ :: (ps ++ [⟨.mark ")", q⟩])) names

/-- The parameters of a header come into sight. -/
theorem parameterList_header {header : List Placed} {names : List String}
    (h : Header header names) (f : String) :
    parameterList f (s.facing (header ++ u :: l)) =
      .ok (names, (s.declaringAll names).facing (u :: l)) := by
  cases h with
  | none p =>
    rw [List.singleton_append, parameterList, bind_ok (peek_facing ..)]
    exact (bind_ok (next_facing ..)).trans rfl
  | some hnames hnodup hps p q =>
    rename_i ps
    have hloop := (loops_parameters (s := s) (u := u) (l := l) (by decide : ")" ≠ ",") f
      ("to close the parameters list of function '" ++ f ++ "'")
      ("to separate the parameters of function '" ++ f ++ "'") hnames [] hnodup hps q).repeated
    obtain ⟨t, ts, hts⟩ := List.exists_cons_of_ne_nil (List.append_ne_nil_of_right_ne_nil ps
      (List.cons_ne_nil (⟨.mark ")", q⟩ : Placed) (u :: l)))
    rw [List.cons_append, List.append_assoc, List.singleton_append]
    rw [hts] at hloop ⊢
    rw [parameterList, bind_ok (peek_facing ..)]
    exact (bind_ok (next_facing ..)).trans hloop

/-- A function of statements in braces. -/
theorem function_ok (hc : c.Roomy (k + 2)) {header qs : List Placed} {names : List String}
    (hheader : Header header names) (f : String) (p r w : Position) {body : List Stmt}
    (h : ReadsBody n k (s.declaringAll names).inner qs body) :
    function (within (n + 1)) c (s.facing (⟨.name f, p⟩ :: (header ++ ⟨.mark "\x7b", r⟩ ::
        (qs ++ ⟨.mark "\x7d", w⟩ :: u :: l)))) =
      .ok (⟨f, names, body⟩, (s.declaringAll names).facing (u :: l)) := by
  have hblock := block_ok hc.deeper h r w (u := u) (l := l)
  have hparams := parameterList_header (s := s) (u := ⟨.mark "\x7b", r⟩)
    (l := qs ++ ⟨.mark "\x7d", w⟩ :: u :: l) hheader f
  obtain ⟨t, ts, hts⟩ := List.exists_cons_of_ne_nil (List.append_ne_nil_of_right_ne_nil header
    (List.cons_ne_nil (⟨.mark "\x7b", r⟩ : Placed) (qs ++ ⟨.mark "\x7d", w⟩ :: u :: l)))
  rw [hts] at hparams ⊢
  have hname : functionName (s.facing (⟨.name f, p⟩ :: t :: ts)) =
      .ok (f, s.facing (t :: ts)) := rfl
  rw [function, bind_ok hname, bind_ok hparams, bind_ok (peek_facing ..)]
  exact (bind_ok (deeper_ok hc)).trans ((bind_ok hblock).trans rfl)

/-- The definition of a function at the top level, of a name and arity that no function has. -/
theorem statement_definition (htop : c.isTop = true) (hlimit : c.limits.maxArraySize = 0)
    (hroom : c.limits.maxFunctionExprDepth = 0 ∨ k + 2 ≤ c.limits.maxFunctionExprDepth)
    {header qs : List Placed} {names : List String} (hheader : Header header names) {f : String}
    (hnew : (s.functions.any fun g => g.name == f && g.params.length == names.length) = false)
    (o p r w : Position) {body : List Stmt}
    (h : ReadsBody n k (s.fresh.declaringAll names).inner qs body) :
    (within (n + 2)).statement c (s.facing (⟨.mark "fn", o⟩ :: ⟨.name f, p⟩ :: (header ++
        ⟨.mark "\x7b", r⟩ :: (qs ++ ⟨.mark "\x7d", w⟩ :: u :: l)))) =
      .ok (.noop o, ({ s with functions := ⟨f, names, body⟩ :: s.functions } :
        ParserState).facing (u :: l)) := by
  have hc : Context.Roomy
      { limits := c.limits, maxLevel := c.limits.maxFunctionExprDepth, pos := o,
        inFunction := true } (k + 2) :=
    ⟨hroom.imp_right fun h => by simp only; omega, hlimit⟩
  have hfunction := function_ok hc hheader f p r w h (u := u) (l := l)
  have hcaptured : (s.fresh.declaringAll names).captured = [] := by
    rw [declaringAll_eq]
    rfl
  have henclosed := enclosed_ok (s.fresh.declaringAll names) hfunction hcaptured
  have hsame :
      ({ s with
          functions := (s.fresh.declaringAll names).functions
          closures := (s.fresh.declaringAll names).closures } : ParserState) = s := by
    rw [declaringAll_eq]
    rfl
  rw [hsame] at henclosed
  have hkeep : keepFunction ⟨f, names, body⟩ o (s.facing (u :: l)) =
      .ok ((), ({ s with functions := ⟨f, names, body⟩ :: s.functions } :
        ParserState).facing (u :: l)) := by
    rw [keepFunction, if_neg (Bool.not_eq_true _ ▸ hnew)]
    rfl
  have hdefinition : definition (within (n + 1)) { c with pos := o }
      (s.facing (⟨.mark "fn", o⟩ :: ⟨.name f, p⟩ :: (header ++ ⟨.mark "\x7b", r⟩ ::
        (qs ++ ⟨.mark "\x7d", w⟩ :: u :: l)))) =
      .ok (.noop o, ({ s with functions := ⟨f, names, body⟩ :: s.functions } :
        ParserState).facing (u :: l)) := by
    refine (bind_ok (accept_other rfl _)).trans ((bind_ok (next_facing ..)).trans ?_)
    exact (bind_ok henclosed).trans ((bind_ok hkeep).trans rfl)
  rw [within_statement, statementRule, bind_ok (peek_facing ..)]
  simp only [htop, if_true]
  exact hdefinition

/-! ## Loops -/

/-- A variable from outside is not declared. -/
theorem seeking_declared (s : ParserState) (x : String) (p : Position) :
    (s.seeking x p).declared = s.declared := by
  rw [seeking]
  split <;> rfl

/-- A variable from outside defines nothing. -/
theorem seeking_definitions (s : ParserState) (x : String) (p : Position) :
    (s.seeking x p).functions = s.functions ∧ (s.seeking x p).closures = s.closures := by
  rw [seeking]
  split <;> exact ⟨rfl, rfl⟩

/-- A variable from outside keeps the state calm. -/
theorem seeking_calm (hs : s.Calm) (x : String) (p : Position) : (s.seeking x p).Calm := by
  rw [seeking]
  split
  · exact hs
  · exact ⟨hs.capturing, hs.barEnds⟩

/-- A variable that the text does not declare. -/
theorem named_unknown (hs : s.Calm) {x : String}
    (hunknown : s.declared.any (·.name == x) = false) (p : Position)
    (hcall : (t.token.isMark "(" || t.token.isMark "!" || t.token.isMark "()") = false) :
    named x p (s.facing (⟨.name x, p⟩ :: t :: ts)) =
      .ok (.var x false p, (s.seeking x p).facing (t :: ts)) := by
  have hrefer : refer x p (s.facing (t :: ts)) =
      .ok (false, (s.seeking x p).facing (t :: ts)) := by
    simp only [refer, ParserState.facing, hs.capturing, hunknown, seeking, Bool.not_false,
      Bool.true_and, if_true]
    cases hfunction : s.functions.any (·.name == x) <;>
      cases hcaptured : s.captured.any (·.1 == x) <;> simp [hs.capturing]
  rw [named, bind_ok (next_facing ..), bind_ok (peek_facing ..), hcall]
  simp only [Bool.false_eq_true, if_false]
  rw [bind_ok hrefer]
  rfl

/-- A variable that the text does not declare is an expression. -/
theorem expression_unknown (hc : c.Roomy (k + 1)) (hs : s.Calm) {x : String}
    (hunknown : s.declared.any (·.name == x) = false) (p : Position)
    (hends : u.token.endsExpression = true) :
    (within (n + 3)).expression c (s.facing (⟨.name x, p⟩ :: u :: l)) =
      .ok (.var x false p, (s.seeking x p).facing (u :: l)) := by
  have hnamed : named x p (s.facing (⟨.name x, p⟩ :: u :: l)) =
      .ok (.var x false p, (s.seeking x p).facing (u :: l)) :=
    named_unknown hs hunknown p (noCall_of_endsExpression hends)
  refine expression_of_primary hc hs rfl hends fun c' _ => ?_
  rw [primary_name x p false hs.barEnds, bind_ok hnamed]
  exact suffixes_end _ _ _ hends

/-- A loop over items whose body declares nothing. -/
theorem statement_forLoop (hc : c.Roomy (k + 2)) {x : String} {items : Expr} {ps : List Placed}
    {body : List Stmt} {v w : Position}
    (hitems : ∀ c', c'.Roomy (k + 1) → (within (n + 1)).expression c' (s.facing (t :: ts)) =
      .ok (items, s'.facing (⟨.mark "\x7b", v⟩ :: (ps ++ ⟨.mark "\x7d", w⟩ :: u :: l))))
    (hbegins : t.token.isMark "\x7b" = false) (hkind : itemsKind? items = none)
    (h : ReadsBody n k (s'.declaring x).inner ps body) (p q o : Position) :
    (within (n + 2)).statement c (s.facing
        (⟨.mark "for", p⟩ :: ⟨.name x, q⟩ :: ⟨.mark "in", o⟩ :: t :: ts)) =
      .ok (.forLoop x none items body v p, s'.facing (u :: l)) := by
  have hstart : Context.Roomy { c with pos := p } (k + 2) := hc.congr rfl rfl rfl
  have hc' : Context.Roomy { c with pos := p, level := c.level + 1 } (k + 1) := hstart.deeper
  have hnames : loopNames (s.facing (⟨.name x, q⟩ :: ⟨.mark "in", o⟩ :: t :: ts)) =
      .ok ((x, none), s.facing (⟨.mark "in", o⟩ :: t :: ts)) :=
    (bind_ok (accept_other rfl _)).trans ((bind_ok (declaredName_name ..)).trans rfl)
  have hfirst : notBlock "a boolean" (s.facing (t :: ts)) = .ok ((), s.facing (t :: ts)) := by
    rw [notBlock, bind_ok (peek_facing ..), hbegins]
    rfl
  have hread := hitems { c with pos := p, level := c.level + 1 } hc'
  have hblock := block_ok (s := s'.declaring x)
    (hc'.congr rfl rfl rfl : Context.Roomy
      { c with pos := p, level := c.level + 1, inLoop := true } (k + 1)) h v w (u := u) (l := l)
  have hget (l : List Placed) :
      (get : Parser ParserState) (s'.facing l) = .ok (s'.facing l, s'.facing l) := rfl
  have hdeclare (l : List Placed) :
      declare x false (s'.facing l) = .ok ((), (s'.declaring x).facing l) := rfl
  have hforget : forget s'.declared.length ((s'.declaring x).facing (u :: l)) =
      .ok ((), s'.facing (u :: l)) := by
    simp [forget, declaring, ParserState.facing]
  have hloop : forLoop (within (n + 1)) { c with pos := p, level := c.level + 1 } (s.facing
      (⟨.mark "for", p⟩ :: ⟨.name x, q⟩ :: ⟨.mark "in", o⟩ :: t :: ts)) =
        .ok (.forLoop x none items body v p, s'.facing (u :: l)) := by
    rw [forLoop, bind_ok (next_facing ..), bind_ok hnames]
    refine (bind_ok (expect_mark ..)).trans ((bind_ok hfirst).trans ((bind_ok hread).trans ?_))
    rw [hkind]
    exact (bind_ok (hget _)).trans ((bind_ok (hdeclare _)).trans
      ((bind_ok hblock).trans ((bind_ok hforget).trans rfl)))
  rw [within_statement, statementRule, bind_ok (peek_facing ..)]
  exact (bind_ok (deeper_ok hstart)).trans hloop

/-! ## Scripts -/

/-- A script ends where the text ends. -/
theorem nextInScript_eof (g : Grammar) (c : Context) (body : List Stmt) (p : Position) :
    nextInScript g c body (s.facing [⟨.eof, p⟩]) = .ok (.inr body, s.facing [⟨.eof, p⟩]) := by
  rw [nextInScript, bind_ok (peek_facing ..)]
  rfl

variable {g : Grammar} {st : Stmt}

/-- The first part of a step of a script in front of a statement. -/
theorem nextInScript_begin (hbegins : t.token ≠ .eof)
    (h : g.statement c (s.facing (t :: ts)) = .ok (st, s')) (body : List Stmt) :
    nextInScript g c body (s.facing (t :: ts)) =
      (if st.isNoop then pure (.inl body)
        else do
          let body := body ++ [st]
          let t ← peek
          match t.token with
          | .eof => pure (.inl body)
          | .mark ";" => do
            if !st.isSelfTerminated then
              let _ ← next
            pure (.inl body)
          | token =>
            if st.isSelfTerminated then pure (.inl body)
            else
              match token with
              | .fault problem => fail problem t.pos
              | _ => missing ";" "to terminate this statement" t.pos : Parser _) s' := by
  rw [nextInScript, bind_ok (peek_facing ..)]
  obtain ⟨token, p⟩ := t
  cases token with
  | eof => exact absurd rfl hbegins
  | _ => exact bind_ok h

/-- A definition is no statement of the script. -/
theorem nextInScript_noop (hbegins : t.token ≠ .eof)
    (h : g.statement c (s.facing (t :: ts)) = .ok (st, s')) (hnoop : st.isNoop = true)
    (body : List Stmt) :
    nextInScript g c body (s.facing (t :: ts)) = .ok (.inl body, s') := by
  rw [nextInScript_begin hbegins h, hnoop]
  rfl

/-- A statement with a semicolon after it. -/
theorem nextInScript_terminated (hbegins : t.token ≠ .eof) {q : Position}
    (h : g.statement c (s.facing (t :: ts)) = .ok (st, s'.facing (⟨.mark ";", q⟩ :: u :: l)))
    (hnoop : st.isNoop = false) (hself : st.isSelfTerminated = false) (body : List Stmt) :
    nextInScript g c body (s.facing (t :: ts)) =
      .ok (.inl (body ++ [st]), s'.facing (u :: l)) := by
  rw [nextInScript_begin hbegins h, hnoop]
  simp only [Bool.false_eq_true, if_false]
  rw [bind_ok (peek_facing ..), hself]
  exact (bind_ok (next_facing ..)).trans rfl

/-- A statement that needs no semicolon. -/
theorem nextInScript_selfTerminated (hbegins : t.token ≠ .eof)
    (h : g.statement c (s.facing (t :: ts)) = .ok (st, s'.facing (u :: l)))
    (hnoop : st.isNoop = false) (hself : st.isSelfTerminated = true) (body : List Stmt) :
    nextInScript g c body (s.facing (t :: ts)) =
      .ok (.inl (body ++ [st]), s'.facing (u :: l)) := by
  rw [nextInScript_begin hbegins h, hnoop]
  simp only [Bool.false_eq_true, if_false]
  rw [bind_ok (peek_facing ..), hself]
  obtain ⟨token, q⟩ := u
  cases token with
  | mark m =>
    by_cases hm : m = ";"
    · subst hm
      rfl
    · simp [hm]
      rfl
  | _ => rfl

/-- The last statement. -/
theorem nextInScript_last (hbegins : t.token ≠ .eof) {q : Position}
    (h : g.statement c (s.facing (t :: ts)) = .ok (st, s'.facing [⟨.eof, q⟩]))
    (hnoop : st.isNoop = false) (body : List Stmt) :
    nextInScript g c body (s.facing (t :: ts)) =
      .ok (.inl (body ++ [st]), s'.facing [⟨.eof, q⟩]) := by
  rw [nextInScript_begin hbegins h, hnoop]
  simp only [Bool.false_eq_true, if_false]
  rw [bind_ok (peek_facing ..)]
  rfl

end Grammar

end ScriptHost.Script
