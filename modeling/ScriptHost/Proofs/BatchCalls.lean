import Mathlib
import ScriptHost.Proofs.BatchResults

/-!
# Batches that call host functions

A batch calls a host function before the first row, and two more for every row: the second one's
answer is the result of the row. The calls are made in this order and up to the first one that
fails.
-/

namespace ScriptHost

open Script

variable {ω α β γ : Type}

/-- Questions have as many answers as there are questions. -/
theorem length_mapM_asking {q : α → Asking ω β} {as : List α} {bs : List β}
    {s t : ω × List LogEvent} (h : as.mapM q s = .ok (bs, t)) : bs.length = as.length := by
  induction as generalizing bs s with
  | nil =>
    cases h
    rfl
  | cons a as ih =>
    rw [List.mapM_cons] at h
    have hall : (q a s >>= fun p => as.mapM q p.2 >>= fun r => Except.ok (p.1 :: r.1, r.2)) =
        .ok (bs, t) := h
    cases hq : q a s with
    | error f =>
      rw [hq] at hall
      cases hall
    | ok p =>
      rw [hq] at hall
      have hall : (as.mapM q p.2 >>= fun r => Except.ok (p.1 :: r.1, r.2)) = .ok (bs, t) := hall
      cases hr : as.mapM q p.2 with
      | error f =>
        rw [hr] at hall
        cases hall
      | ok r =>
        rw [hr] at hall
        cases hall
        rw [List.length_cons, List.length_cons, ih hr]

namespace Batch

/-- A call before the first row, a call for every row, and a call for its result. -/
def calls : Batch := ⟨some "s()", some "c(x)", "r(x)"⟩

/-- What the functions are given for a row: its value of the variable as it comes back from a
script, or the empty value if the row has none. -/
def given (row : Row) : Value := ((Fields.get? "x" row).map fun v => decoded (encode v)).getD .null

/-- Two functions are asked about a row; the answer is that of the second one. -/
def rowAnswer (b : Bridge ω) (row : Row) : Asking ω Value := do
  let _ ← b.ask "c" [given row]
  b.ask "r" [given row]

/-- A function is asked once, and then the others about each row in turn. -/
def answers (b : Bridge ω) (rows : List Row) : Asking ω (List Value) := do
  let _ ← b.ask "s" []
  rows.mapM (rowAnswer b)

/-- The work on a row, for the script. -/
def callWork (b : Bridge ω) (fields : List (String × Datum)) : Asking ω Datum := do
  let _ ← b.ask "c" [decoded (value fields "x")]
  encode <$> b.ask "r" [decoded (value fields "x")]

/-- The work on a row. -/
def callPieces : List Piece :=
  [.word "c", .mark "(", .word "x",
    .mark ")", .mark ";", .blank '\n', .word "r", .mark "(", .word "x",
    .mark ")"]

/-- The batch is made of calls. -/
theorem spells_calls : calls.Spells (some "s") callPieces where
  setup_chars := by decide +kernel
  work_chars := by decide +kernel
  setup_name := by
    rintro f ⟨⟩
    decide +kernel
  isValid := by decide +kernel
  areApart := by decide +kernel

/-- Two calls with the variable. -/
inductive AreCalls : List Stmt → Prop where
  /-- The calls. -/
  | intro (p p' q q' : Position) : AreCalls
      [.expr (.call "c" [.var "x" true p'] false p), .expr (.call "r" [.var "x" true q'] false q)]

/-- The work on a row is read as two calls. -/
theorem readsWork_calls : ReadsWork ["x"] (callPieces.filterMap Piece.token?) AreCalls := by
  intro n s ps hs hdeclared hps
  have htokens : callPieces.filterMap Piece.token? = [.name "c", .mark "(", .name "x", .mark ")",
      .mark ";", .name "r", .mark "(", .name "x", .mark ")"] := by
    have hc : wordToken "c" = .name "c" := wordToken_name (by decide +kernel) (by decide +kernel)
    have hr : wordToken "r" = .name "r" := wordToken_name (by decide +kernel) (by decide +kernel)
    have hx : wordToken "x" = .name "x" := wordToken_name (by decide +kernel) (by decide +kernel)
    show [wordToken "c", .mark "(", wordToken "x", .mark ")", .mark ";", wordToken "r", .mark "(",
      wordToken "x", .mark ")"] = _
    rw [hc, hr, hx]
  rw [htokens] at hps
  obtain ⟨p₁, ts₁, rfl, h₁⟩ := map_token_eq_cons.mp hps
  obtain ⟨p₂, ts₂, rfl, h₂⟩ := map_token_eq_cons.mp h₁
  obtain ⟨p₃, ts₃, rfl, h₃⟩ := map_token_eq_cons.mp h₂
  obtain ⟨p₄, ts₄, rfl, h₄⟩ := map_token_eq_cons.mp h₃
  obtain ⟨p₅, ts₅, rfl, h₅⟩ := map_token_eq_cons.mp h₄
  obtain ⟨p₆, ts₆, rfl, h₆⟩ := map_token_eq_cons.mp h₅
  obtain ⟨p₇, ts₇, rfl, h₇⟩ := map_token_eq_cons.mp h₆
  obtain ⟨p₈, ts₈, rfl, h₈⟩ := map_token_eq_cons.mp h₇
  obtain ⟨p₉, ts₉, rfl, h₉⟩ := map_token_eq_cons.mp h₈
  obtain rfl := List.map_eq_nil_iff.mp h₉
  have hx : s.declared.any (·.name == "x") = true := hdeclared "x" List.mem_cons_self
  have hcall (name : String) (p q r t : Position) :
      Grammar.Reads (n + 15) 8 s [⟨.name name, p⟩, ⟨.mark "(", q⟩, ⟨.name "x", r⟩, ⟨.mark ")", t⟩]
        (.call name [.var "x" true r] false p) :=
    Grammar.reads_call (n := n + 12) (k := 6) hs
      (.last ((Grammar.reads_known (n := n + 9) (k := 5) hs hx r))) name p q t
  exact ⟨_, .intro p₁ p₃ p₆ p₈,
    .cons (hcall "c" p₁ p₂ p₃ p₄) p₅ (.last (hcall "r" p₆ p₇ p₈ p₉))⟩

/-- A call with the variable asks the host function about its value. -/
theorem statement_call_asks {b : Bridge ω} {e : Engine ω} (he : HasStubs e b)
    (hbridge : (hostBinding, 2) ∉ b.stubs) {name : String} (hname : (name, 1) ∈ b.stubs)
    (hfree : isReserved name = false) {m : Machine ω} (hlevel : m.level < e.limits.maxCallLevels)
    {d : Datum} (hholds : ∀ s, Evaluation.Holds e (m.hosting s) "x" true d) (n : ℕ)
    (p q : Position) :
    ((Evaluator.within e (n + 5)).statement (.expr (.call name [.var "x" true p] false q))).Asks m
      (encode <$> b.ask name [decoded d]) := by
  obtain ⟨g, hfunction, hg⟩ := he.stubs _ hname
  have hfound : Evaluation.function? e name [Expr.var "x" true p].length = some g := hfunction
  have hargs (s : ω × List LogEvent) : (Evaluation.callArguments e (Evaluator.within e (n + 3))
      [.var "x" true p]).Gives (m.hosting s) [d] (m.hosting s) :=
    .bind (Evaluation.tick_gives he.unlimited _ _) (.bind (.pure [] _)
      (.bind (Evaluation.variableValue_gives (hholds s) _) (.pure [d] _)))
  have hcall := Evaluation.call_asks (n := n) he.unlimited (he.only _ _ hbridge) hfree hfound hg
    hargs
    hlevel q
  rw [he.bridge] at hcall
  have hvalue := (Evaluation.expression_asks he.unlimited hcall).before
    (g := fun d => pure d.unshared) (b := Datum.unshared) fun d s => .pure _ _
  have hsame : (fun v => (encode v).unshared) = encode := funext fun v => unshared_encodeWith true v
  rw [hsame] at hvalue
  exact Evaluation.statement_asks he.unlimited hvalue

/-- Two calls with the variable ask the host functions about its value. -/
theorem doesWork_calls {b : Bridge ω} (hbridge : (hostBinding, 2) ∉ b.stubs)
    (hc : ("c", 1) ∈ b.stubs) (hr : ("r", 1) ∈ b.stubs) {body : List Stmt} (hbody : AreCalls body) :
    DoesWork b ["x"] (callWork b) body := by
  obtain ⟨p, p', q, q'⟩ := hbody
  refine ⟨List.cons_ne_nil _ _, fun e he n m fields hlevel => ?_⟩
  have hroom : (inWork m ["x"] [.expr (.call "c" [.var "x" true p'] false p),
      .expr (.call "r" [.var "x" true q'] false q)] fields).level < e.limits.maxCallLevels := by
    have hcalls := he.calls
    show m.level + 1 < _
    omega
  have hholds (s : ω × List LogEvent) := holds_variable (e := e) (List.mem_singleton_self "x")
    (m.hosting s) fields [.expr (.call "c" [.var "x" true p'] false p),
      .expr (.call "r" [.var "x" true q'] false q)]
  have hfirst := statement_call_asks he hbridge hc (by decide +kernel) hroom hholds n p' p
  have hsecond := statement_call_asks he hbridge hr (by decide +kernel) hroom hholds n q' q
  have hboth := hfirst.bind fun _ => hsecond
  rw [bind_map_left] at hboth
  exact hboth

/-- A row with no variable but this one does not hold the method that reads rows. -/
theorem answers_encodeFields {row : Row} (hrow : ∀ p ∈ row, p.1 = "x") :
    Answers (encodeFields true row) := by
  have hnone : Fields.get? "get" row = none := by
    induction row with
    | nil => rfl
    | cons p row ih =>
      obtain ⟨key, v⟩ := p
      obtain rfl : key = "x" := hrow _ List.mem_cons_self
      exact ih fun q hq => hrow q (List.mem_cons_of_mem _ hq)
  intro f curried hget
  rw [get?_encodeFields, hnone] at hget
  cases hget

/-- The work on a row is the answer for the row, encoded. -/
theorem callWork_encodeFields (b : Bridge ω) (row : Row) :
    callWork b (encodeFields true row) = encode <$> rowAnswer b row := by
  have hgiven : decoded (value (encodeFields true row) "x") = given row := by
    rw [value, get?_encodeFields, given]
    cases Fields.get? "x" row with
    | none => exact decoded_encode .null
    | some v => rfl
  rw [callWork, hgiven, rowAnswer, map_bind]

/-- The answers of the batch are encoded one by one. -/
theorem questions_calls (b : Bridge ω) (rows : List Row) :
    questions b (some "s") (callWork b) (rows.map (encodeFields true)) =
      List.map encode <$> answers b rows := by
  have hrows : (rows.map (encodeFields true)).mapM (callWork b) =
      List.map encode <$> rows.mapM (rowAnswer b) := by
    induction rows with
    | nil => simp
    | cons row rows ih =>
      rw [List.map_cons, List.mapM_cons, List.mapM_cons, ih, callWork_encodeFields]
      simp only [map_eq_pure_bind, bind_assoc, pure_bind, List.map_cons]
  rw [questions, hrows, answers]
  simp only [map_eq_pure_bind, bind_assoc, pure_bind, discard, LawfulFunctor.map_const,
    Function.comp_apply, Function.const_apply]

variable {h : Host ω} {registrations : List (Registration ω)} {rows : List Row}

/-- **The calls of a batch are made in order, up to the first failure.** The host has three
functions, which may do anything to its world. If no call fails, the results are the decoded answers
of the last function, one for each row; otherwise the batch fails with the first failure, which names
the script. In both cases the world is the one that exactly these calls leave. -/
theorem eval_calls (hbuild : Bridge.build registrations = .ok h.bridge)
    (hconfig : h.config.IsRoomy)
    (hbridge : h.bridge.stubs.Perm [("c", 1), ("r", 1), ("s", 0)])
    (hrows : ∀ row ∈ rows, ∀ p ∈ row, p.1 = "x") (world : ω) (log : List LogEvent)
    (ops : List Operation) :
    let s := Operation.applyAll h { world, log } ops
    match answers h.bridge rows (s.world, []) with
    | .ok (values, after, _) => values.length = rows.length ∧
        noticed (calls.eval h ["x"] rows s) =
          (((values.map encode).mapM (h.chain h.config.defaultOptions).decode).map .ok, after)
    | .error (f, after) => noticed (calls.eval h ["x"] rows s) =
        (some (.error (f.inScript (h.sourceOf (calls.body ["x"])))), after) := by
  have hstub {p : String × ℕ} : p ∈ h.bridge.stubs ↔ p ∈ [("c", 1), ("r", 1), ("s", 0)] :=
    hbridge.mem_iff
  have hsuits : h.bridge.SuitsBatches :=
    { names := fun p hp => by
        have hmem := hstub.mp hp
        fin_cases hmem <;> decide +kernel
      get := fun hp => absurd (hstub.mp hp) (by decide)
      push := fun hp => absurd (hstub.mp hp) (by decide)
      rows := fun p hp => by
        have hmem := hstub.mp hp
        fin_cases hmem <;> decide +kernel }
  have hdispatch : (hostBinding, 2) ∉ h.bridge.stubs := fun hp =>
    absurd (hstub.mp hp) (by decide)
  have hevaluated := eval_questions hbuild hconfig hsuits (List.cons_ne_nil "x" [])
    (List.nodup_singleton "x") (by decide +kernel) (by decide) spells_calls readsWork_calls
    (by rintro f ⟨⟩; exact hstub.mpr (by decide))
    (fun body => doesWork_calls hdispatch (hstub.mpr (by decide)) (hstub.mpr (by decide)))
    (fun row hrow => answers_encodeFields (hrows row hrow)) world log ops
  rw [questions_calls] at hevaluated
  intro s
  have hmap : (List.map encode <$> answers h.bridge rows) (s.world, []) =
      (answers h.bridge rows (s.world, [])).map fun p => (p.1.map encode, p.2) := by
    show (answers h.bridge rows (s.world, []) >>= _) = _
    cases answers h.bridge rows (s.world, []) <;> rfl
  rw [hmap] at hevaluated
  cases hanswers : answers h.bridge rows (s.world, []) with
  | error p =>
    rw [hanswers] at hevaluated
    exact hevaluated
  | ok p =>
    rw [hanswers] at hevaluated
    refine ⟨?_, hevaluated⟩
    have hall : (h.bridge.ask "s" [] (s.world, []) >>= fun q =>
        rows.mapM (rowAnswer h.bridge) q.2) = .ok p := hanswers
    cases hfirst : h.bridge.ask "s" [] (s.world, []) with
    | error f =>
      rw [hfirst] at hall
      cases hall
    | ok q =>
      rw [hfirst] at hall
      exact length_mapM_asking hall

/-- Three rows, of which the second one makes its first call fail: four calls are made. -/
theorem eval_calls_three :
    let h : Host (List (String × List Value)) :=
      { bridge := ⟨[
          ("c", ⟨1, fun args made => ⟨match args with
            | [.int 2] => .error (.host "c" "no")
            | _ => .ok .null, made ++ [("c", args)], []⟩⟩),
          ("r", ⟨1, fun args made => ⟨.ok (.list args), made ++ [("r", args)], []⟩⟩),
          ("s", ⟨0, fun args made => ⟨.ok .null, made ++ [("s", args)], []⟩⟩)]⟩ }
    noticed (calls.eval h ["x"] [[("x", .int 1)], [("x", .int 2)], []] { world := [] }) =
      (some (.error (.hostFunction "c" "no" (some (h.sourceOf (calls.body ["x"]))))),
        [("s", []), ("c", [.int 1]), ("r", [.int 1]), ("c", [.int 2])]) := by
  intro h
  have hc : nameProblem? "c" = none := by decide +kernel
  have hr : nameProblem? "r" = none := by decide +kernel
  have hs : nameProblem? "s" = none := by decide +kernel
  have hbuild : Bridge.build (h.bridge.functions.map fun f => ⟨f.1, f.2⟩) = .ok h.bridge := by
    simp only [h, List.map, Bridge.build, Bridge.build.go, hc, hr, hs]
    rfl
  have hone : given [("x", .int 1)] = .int 1 := decoded_encode (.int 1)
  have htwo : given [("x", .int 2)] = .int 2 := decoded_encode (.int 2)
  have hanswers : answers h.bridge [[("x", .int 1)], [("x", .int 2)], []] ([], []) =
      .error (.host "c" "no", [("s", []), ("c", [.int 1]), ("r", [.int 1]), ("c", [.int 2])]) := by
    simp only [answers, List.mapM_cons, rowAnswer, hone, htwo]
    rfl
  have hrows : ∀ row ∈ [[("x", Value.int 1)], [("x", .int 2)], []], ∀ p ∈ row, p.1 = "x" := by
    simp
  have heval := eval_calls (h := h) hbuild (Config.isRoomy_default false) (List.Perm.refl _) hrows
    [] [] []
  simp only [Operation.applyAll, List.foldl_nil, hanswers] at heval
  exact heval

end Batch

end ScriptHost
