import Mathlib
import ScriptHost.Proofs.BatchScript

/-!
# Simplifying scripts

The simplifier keeps the functions that stand for host functions. Of the script of a batch it turns
the two arrays into values and leaves everything else as it is.
-/

namespace ScriptHost.Script.Simplification

/-- Nothing in sight is known to be constant. -/
def NoneKnown (p : Progress) : Prop := ∀ name, constantOf? name p = none

/-- A variable that is no constant makes nothing known. -/
theorem NoneKnown.declare {p : Progress} (hp : NoneKnown p) (x : String) (hasChanged : Bool) :
    NoneKnown { p with known := (x, none) :: p.known, changed := hasChanged } := by
  intro name
  have hrest := hp name
  rw [constantOf?] at hrest ⊢
  rw [List.find?_cons]
  split
  · rfl
  · exact hrest

/-- A pass leaves an expression as it is. -/
def IsFixed (s : Simplifier) (e : Expr) : Prop := ∀ p, NoneKnown p → s.expression e p = (e, p)

variable {n : ℕ} {p : Progress}

/-- A pass goes on after a step. -/
theorem bind_eq {α β : Type} {f : Pass α} {g : α → Pass β} {a : α} {q : Progress}
    (h : f p = (a, q)) : (f >>= g) p = g a q := by
  show (match f p with | (a, q) => g a q) = g a q
  rw [h]

/-- A pass that leaves all elements as they are leaves the list as it is. -/
theorem mapM_eq {α : Type} {f : α → Pass α} {as : List α} (h : ∀ a ∈ as, f a p = (a, p)) :
    as.mapM f p = (as, p) := by
  induction as with
  | nil => rfl
  | cons a as ih =>
    rw [List.mapM_cons, bind_eq (h a List.mem_cons_self),
      bind_eq (ih fun b hb => h b (List.mem_cons_of_mem a hb))]
    rfl

/-- A pass over two elements. -/
theorem mapM_pair {α β : Type} {f : α → Pass β} {a a' : α} {b b' : β} {q r : Progress}
    (h : f a p = (b, q)) (h' : f a' q = (b', r)) : [a, a'].mapM f p = ([b, b'], r) := by
  have hrest : [a'].mapM f q = ([b'], r) := by
    rw [List.mapM_cons, bind_eq h']
    rfl
  rw [List.mapM_cons, bind_eq h, bind_eq hrest]
  rfl

/-- A value stays as it is. -/
theorem isFixed_literal (n : ℕ) (d : Datum) (pos : Position) :
    IsFixed (Simplifier.within n) (.literal d pos) := by
  cases n <;> exact fun p hp => rfl

/-- A variable that is not known to be constant stays as it is. -/
theorem isFixed_var (n : ℕ) (x : String) (known : Bool) (pos : Position) :
    IsFixed (Simplifier.within n) (.var x known pos) := by
  cases n with
  | zero => exact fun p hp => rfl
  | succ n =>
    intro p hp
    simp only [Simplifier.within, expressionRule]
    rw [bind_eq (show (get : Pass Progress) p = (p, p) from rfl), hp x]
    rfl

/-- Arguments that stay as they are and are no values yet. -/
theorem arguments_eq {args : List Expr} (hp : NoneKnown p)
    (h : ∀ e ∈ args, IsFixed (Simplifier.within n) e ∧ (isLiteral e = true ∨ e.value? = none)) :
    arguments (Simplifier.within n) args p = (args, p) := by
  have hsettled : ∀ e ∈ args, settled e p = (e, p) := by
    intro e he
    rw [settled]
    rcases (h e he).2 with hliteral | hvalue
    · rw [hliteral]
      rfl
    · rw [hvalue]
      split <;> rfl
  rw [arguments, bind_eq (mapM_eq fun e he => (h e he).1 p hp)]
  exact mapM_eq hsettled

/-- No part of a variable is known. -/
theorem partOfLiteral?_var (x : String) (known : Bool) (pos : Position) (link : Link) :
    partOfLiteral? (.var x known pos) link = none := by
  unfold partOfLiteral?
  split <;> first | rfl | contradiction

/-- What is reached from a variable by a single link stays as it is if the link does. -/
theorem isFixed_chain (n : ℕ) (x : String) (known : Bool) (pos : Position) {link : Link}
    (hoptional : link.isOptional = false)
    (hlink : ∀ n p, NoneKnown p → linkRule (Simplifier.within n) link p = (link, p)) :
    IsFixed (Simplifier.within n) (.chain (.var x known pos) [link]) := by
  cases n with
  | zero => exact fun p hp => rfl
  | succ n =>
    intro p hp
    have hlinks : [link].mapM (linkRule (Simplifier.within n)) p = ([link], p) :=
      mapM_eq (by simpa using hlink n p hp)
    show chainRule (Simplifier.within n) (.var x known pos) [link] p = _
    simp only [chainRule, hoptional, Bool.false_and, partOfLiteral?_var]
    exact bind_eq hlinks

/-- The call of a method of a variable stays as it is if its arguments do. -/
theorem isFixed_method (n : ℕ) (x : String) (known : Bool) (pos : Position) (name : String)
    {args : List Expr} (h : ∀ n, ∀ e ∈ args,
      IsFixed (Simplifier.within n) e ∧ (isLiteral e = true ∨ e.value? = none)) (q r : Position) :
    IsFixed (Simplifier.within n) (.chain (.var x known pos) [.method name args false q r]) :=
  isFixed_chain n x known pos rfl fun n _ hp => bind_eq (arguments_eq hp (h n))

/-- An element of a variable stays as it is if its index does. -/
theorem isFixed_index (n : ℕ) (x : String) (known : Bool) (pos : Position) {key : Expr}
    (h : ∀ n, IsFixed (Simplifier.within n) key) (q : Position) :
    IsFixed (Simplifier.within n) (.chain (.var x known pos) [.index key false q]) :=
  isFixed_chain n x known pos rfl fun n p hp => bind_eq (h n p hp)

/-! ## Statements -/

/-- An array of values becomes a value. -/
theorem expression_array (n : ℕ) {items : List Expr} {ds : List Datum}
    (hitems : constants? items = some ds) (pos : Position) (p : Progress) :
    (Simplifier.within (n + 1)).expression (.array items pos) p =
      (.literal (.array ds) pos, { p with changed := true }) := by
  have hconstant : (Expr.array items pos).constant? = some (.array ds) := by
    rw [Expr.constant?, hitems]
    rfl
  show expressionRule (Simplifier.within n) (.array items pos) p = _
  simp only [expressionRule, hconstant]
  rfl

/-- A declaration of a variable that is no constant. -/
theorem eachStatement_declare {s : Simplifier} {e e' : Expr} {q : Progress} {keepsValue : Bool}
    (h : s.expression e p = (e', q)) (x : String) (replaces : Bool) (pos : Position)
    (rest : List Stmt) :
    eachStatement s keepsValue (.declare x false replaces e pos :: rest) p =
      (eachStatement s keepsValue rest >>= fun rest =>
        pure (.declare x false replaces e' pos :: rest))
        { q with known := (x, none) :: q.known } := by
  rw [eachStatement]
  exact bind_eq h

/-- A statement that declares nothing. -/
theorem eachStatement_other {s : Simplifier} {st st' : Stmt} {q : Progress} {keepsValue : Bool}
    (hst : st.dependsOnBlock = false) (h : s.statement keepsValue st p = (st', q))
    (rest : List Stmt) :
    eachStatement s keepsValue (st :: rest) p =
      (eachStatement s keepsValue rest >>= fun rest => pure (st' :: rest)) q := by
  rw [eachStatement]
  · exact bind_eq h
  · rintro _ _ _ _ _ rfl
    cases hst

/-- The call of a method of a variable as a statement, which stays as it is. -/
theorem statement_method {n : ℕ} {e : Expr} {x : String} {known : Bool} {pos : Position}
    {links : List Link} (he : e = .chain (.var x known pos) links)
    (h : ∀ n, IsFixed (Simplifier.within n) e) (hp : NoneKnown p) (keepsValue : Bool) :
    (Simplifier.within n).statement keepsValue (.expr e) p = (.expr e, p) := by
  subst he
  cases n with
  | zero => rfl
  | succ n => exact bind_eq (h n p hp)

/-- A last statement that stays is not rewritten. -/
theorem isRewritten_self (st : Option Stmt) : isRewritten st st = false := by
  cases st with
  | none => rfl
  | some st => cases st <;> rfl

/-- A round that drops no statement only does what its statements do. -/
theorem round_eq {s : Simplifier} {purpose : Purpose} {body body' : List Stmt} {q : Progress}
    (hreached : reached body = body)
    (heach : eachStatement s purpose.keepsValue body p = (body', q))
    (hneeded : needed purpose body' = body') (hended : ended purpose body' = body') :
    round s purpose body p = (body', { p with changed := q.changed }) := by
  rw [round]
  refine (bind_eq rfl).trans ?_
  rw [hreached]
  refine (bind_eq heach).trans ?_
  simp only [hneeded, hended, isRewritten_self, Nat.lt_irrefl, decide_false, Bool.or_false,
    Bool.and_false]
  rfl

/-- Rounds end as soon as one changes nothing. -/
theorem repeatedly_fixed {step : List Stmt → Pass (List Stmt)} {body : List Stmt}
    (h : step body { p with changed := false } = (body, { p with changed := false })) :
    ∀ n, (repeatedly step (n + 1) body p) = (body, { p with changed := false }) := by
  intro n
  rw [repeatedly]
  refine (bind_eq rfl).trans ((bind_eq h).trans ?_)
  rfl

/-- The body of a loop that is a single method call stays as it is. -/
theorem body_method (n : ℕ) {e : Expr} {x : String} {known : Bool} {pos : Position}
    {links : List Link} (he : e = .chain (.var x known pos) links)
    (h : ∀ n, IsFixed (Simplifier.within n) e) (hp : NoneKnown p) :
    (Simplifier.within n).body ⟨false, true, false⟩ [.expr e] p = ([.expr e], p) := by
  cases n with
  | zero => rfl
  | succ n =>
    have hround : round (Simplifier.within n) ⟨false, true, false⟩ [.expr e]
        { p with changed := false } = ([.expr e], { p with changed := false }) := by
      have heach : eachStatement (Simplifier.within n) false [.expr e] { p with changed := false } =
          ([.expr e], { p with changed := false }) :=
        eachStatement_other rfl (statement_method (p := { p with changed := false }) he h
          hp false) []
      have hkept : needed ⟨false, true, false⟩ [.expr e] = [.expr e] := by
        subst he
        rfl
      have hend : ended ⟨false, true, false⟩ [.expr e] = [.expr e] := by
        subst he
        rfl
      exact round_eq rfl heach hkept hend
    have hrounds : repeatedly (round (Simplifier.within n) ⟨false, true, false⟩)
        (Simplifier.within n).rounds [.expr e] p = ([.expr e], p) ∨
      repeatedly (round (Simplifier.within n) ⟨false, true, false⟩)
        (Simplifier.within n).rounds [.expr e] p = ([.expr e], { p with changed := false }) := by
      cases n with
      | zero => exact .inl rfl
      | succ n =>
        cases n with
        | zero => exact .inl rfl
        | succ n => exact .inr (repeatedly_fixed hround n)
    obtain ⟨known, propagates, hasChanged⟩ := p
    show bodyRule (Simplifier.within n) ⟨false, true, false⟩ [.expr e] _ = _
    rw [bodyRule]
    · rcases hrounds with hrounds | hrounds
      all_goals
        refine (bind_eq rfl).trans ((bind_eq hrounds).trans ((bind_eq rfl).trans ?_))
        cases hasChanged <;> rfl
    · exact fun h => List.cons_ne_nil _ _ h

/-! ## Functions that call the dispatcher -/

/-- An expression that gathers variables still does, and nothing becomes known. -/
theorem expression_gathers (n : ℕ) {names : List String} {e : Expr} (h : Gathers names e)
    (hp : NoneKnown p) : ∃ e' hasChanged, Gathers names e' ∧
      (Simplifier.within n).expression e p = (e', { p with changed := hasChanged }) := by
  cases n with
  | zero => exact ⟨e, p.changed, h, rfl⟩
  | succ n =>
    cases h with
    | empty pos => exact ⟨_, p.changed, .empty pos, rfl⟩
    | array hitems pos =>
      rename_i items
      cases hitems with
      | nil => exact ⟨_, true, .empty pos, expression_array n rfl pos p⟩
      | cons hfirst hrest =>
        rename_i x first names rest
        obtain ⟨q, rfl⟩ := hfirst
        have hfixed : ∀ e ∈ Expr.var x true q :: rest,
          (Simplifier.within n).expression e p = (e, p) := by
          have hvars : ∀ e ∈ Expr.var x true q :: rest, ∃ y r, e = .var y true r := by
            intro e he
            rcases List.mem_cons.mp he with rfl | he
            · exact ⟨x, q, rfl⟩
            · obtain ⟨i, hi, rfl⟩ := List.mem_iff_getElem.mp he
              obtain ⟨r, hr⟩ := hrest.get (by rw [hrest.length_eq]; exact hi) hi
              exact ⟨_, r, hr⟩
          intro e he
          obtain ⟨y, r, rfl⟩ := hvars e he
          exact isFixed_var n y true r p hp
        refine ⟨.array (.var x true q :: rest) pos, p.changed, .array (.cons ⟨q, rfl⟩ hrest) pos,
          ?_⟩
        have hconstant : (Expr.array (.var x true q :: rest) pos).constant? = none := by
          simp [Expr.constant?, constants?]
        show expressionRule (Simplifier.within n) (.array (.var x true q :: rest) pos) p = _
        simp only [expressionRule, hconstant]
        exact bind_eq (mapM_eq hfixed)

/-- An argument that gathers variables still does, and nothing becomes known. -/
theorem settled_gathers {names : List String} {e : Expr} (h : Gathers names e) :
    ∃ e' hasChanged, Gathers names e' ∧ settled e p = (e', { p with changed := hasChanged }) := by
  cases h with
  | empty pos => exact ⟨_, p.changed, .empty pos, rfl⟩
  | array hitems pos =>
    cases hitems with
    | nil => exact ⟨_, true, .empty pos, rfl⟩
    | cons hfirst hrest =>
      rename_i x first names rest
      obtain ⟨q, rfl⟩ := hfirst
      refine ⟨_, p.changed, .array (.cons ⟨q, rfl⟩ hrest) pos, ?_⟩
      have hvalue : (Expr.array (.var x true q :: rest) pos).value? = none := by
        simp [Expr.value?, Expr.constant?, constants?]
      rw [settled, hvalue]
      rfl

/-- A call of the dispatcher stays one, and nothing becomes known. -/
theorem expression_dispatch (n : ℕ) {name : String} {params : List String} {e : Expr}
    (h : IsDispatch name params e) (hp : NoneKnown p) :
    ∃ e' hasChanged, IsDispatch name params e' ∧
      (Simplifier.within n).expression e p = (e', { p with changed := hasChanged }) := by
  cases n with
  | zero => exact ⟨e, p.changed, h, rfl⟩
  | succ n =>
    obtain ⟨harray, q, r⟩ := h
    rename_i array
    obtain ⟨array₁, first, harray₁, hexpression⟩ := expression_gathers n harray hp
    obtain ⟨array₂, second, harray₂, hsettled⟩ :=
      settled_gathers (p := { p with changed := first }) harray₁
    refine ⟨_, second, .call harray₂ q r, ?_⟩
    have hargs : arguments (Simplifier.within n) [.literal (.string name) q, array] p =
        ([.literal (.string name) q, array₂], { p with changed := second }) := by
      rw [arguments, bind_eq (mapM_pair (isFixed_literal n _ _ p hp) hexpression)]
      exact mapM_pair rfl hsettled
    exact bind_eq hargs

/-- A round over a single statement that becomes a call. -/
theorem round_single {s : Simplifier} {st : Stmt} {e : Expr} {hasChanged : Bool}
    (hflow : st.endsFlow = false) (hblock : st.dependsOnBlock = false)
    (h : s.statement true st p = (.callOnly e, { p with changed := hasChanged })) :
    round s ⟨true, false, true⟩ [st] p = ([.callOnly e], { p with changed := hasChanged }) := by
  have hreached : reached [st] = [st] := by
    rw [reached, hflow]
    rfl
  have hneeded : needed ⟨true, false, true⟩ [.callOnly e] = [.callOnly e] := rfl
  have hended : ended ⟨true, false, true⟩ [.callOnly e] = [.callOnly e] := rfl
  exact round_eq hreached (eachStatement_other hblock h []) hneeded hended

/-- A round over the call of the dispatcher. -/
theorem round_dispatch (n : ℕ) {name : String} {params : List String} {e : Expr}
    (h : IsDispatch name params e) (hp : NoneKnown p) :
    ∃ e' hasChanged, IsDispatch name params e' ∧
      round (Simplifier.within n) ⟨true, false, true⟩ [.callOnly e] p =
        ([.callOnly e'], { p with changed := hasChanged }) := by
  cases n with
  | zero => exact ⟨e, p.changed, h, round_single rfl rfl rfl⟩
  | succ n =>
    obtain ⟨e', hasChanged, he', hexpression⟩ := expression_dispatch n h hp
    have hkept : ofExpression e' = .callOnly e' := by
      obtain ⟨-, q, r⟩ := he'
      rfl
    refine ⟨e', hasChanged, he', round_single rfl rfl ((bind_eq hexpression).trans ?_)⟩
    rw [hkept]
    rfl

/-- Rounds over the call of the dispatcher. -/
theorem repeatedly_dispatch (n k : ℕ) {name : String} {params : List String} {e : Expr}
    (h : IsDispatch name params e) (hp : NoneKnown p) : ∃ e' hasChanged, IsDispatch name params e' ∧
      repeatedly (round (Simplifier.within n) ⟨true, false, true⟩) k [.callOnly e] p =
        ([.callOnly e'], { p with changed := hasChanged }) := by
  induction k generalizing e p with
  | zero => exact ⟨e, p.changed, h, rfl⟩
  | succ k ih =>
    obtain ⟨e', hasChanged, he', hround⟩ :=
      round_dispatch (p := { p with changed := false }) n h hp
    rw [repeatedly]
    cases hasChanged with
    | false => exact ⟨e', false, he', (bind_eq rfl).trans ((bind_eq hround).trans rfl)⟩
    | true =>
      obtain ⟨e'', _, he'', hrest⟩ := ih (p := { p with changed := true }) he' hp
      exact ⟨e'', true, he'', (bind_eq rfl).trans ((bind_eq hround).trans
        ((bind_eq rfl).trans ((bind_eq hrest).trans rfl)))⟩

/-- **A simplified function for a host function still calls the dispatcher.** -/
theorem isStub_simplified {p : String × ℕ} {f : Function} (h : IsStub .expr p f) :
    IsStub .callOnly p { f with body := simplified simplificationBound f.body } := by
  obtain ⟨e, he, rfl⟩ := h
  obtain ⟨n, hn⟩ : ∃ n, simplificationBound = n + 3 := ⟨10 ^ 15 - 3, by decide⟩
  have hempty : NoneKnown {} := fun _ => rfl
  have hfirst : round (Simplifier.within (n + 2)) ⟨true, false, true⟩ [.expr e] {} =
      ([.callOnly e], { changed := true }) := by
    obtain ⟨-, q, r⟩ := he
    exact round_single (p := {}) rfl rfl rfl
  obtain ⟨e', hasChanged, he', hrest⟩ :=
    repeatedly_dispatch (n + 2) n he (p := { changed := true }) hempty
  have hrounds : repeatedly (round (Simplifier.within (n + 2)) ⟨true, false, true⟩) (n + 1)
      [.expr e] {} = ([.callOnly e'], { changed := true }) := by
    rw [repeatedly]
    exact (bind_eq (q := {}) rfl).trans ((bind_eq hfirst).trans
      ((bind_eq (q := { changed := true }) rfl).trans ((bind_eq hrest).trans rfl)))
  have hbody : bodyRule (Simplifier.within (n + 2)) ⟨true, false, true⟩ [.expr e] {} =
      ([.callOnly e'], { changed := true }) := by
    rw [bodyRule]
    · exact (bind_eq (q := {}) rfl).trans ((bind_eq hrounds).trans rfl)
    · exact fun h => List.cons_ne_nil _ _ h
  refine ⟨e', he', ?_⟩
  rw [hn]
  exact congrArg (Function.mk p.1 (parameterNames p.2)) (congrArg Prod.fst hbody)

/-- Simplified functions for host functions still call the dispatcher. -/
theorem stubs_simplified {stubs : List (String × ℕ)} {functions : List Function}
    (h : List.Forall₂ (IsStub .expr) stubs functions) :
    List.Forall₂ (IsStub .callOnly) stubs
      (functions.map fun f => { f with body := simplified simplificationBound f.body }) :=
  List.forall₂_map_right_iff.mpr (h.imp fun _ _ => isStub_simplified)

end ScriptHost.Script.Simplification

/-! ## Batches -/

namespace ScriptHost.Batch

open Script Script.Simplification

variable {size : ℕ}

/-- The value of a variable in a row stays as it is, and is not known. -/
theorem isFixed_argument {i : ℕ} {e : Expr} (h : IsArgument i e) (n : ℕ) :
    IsFixed (Simplifier.within n) e ∧ (isLiteral e = true ∨ e.value? = none) := by
  cases h with
  | get row dot name names bracket index =>
    have hindex (n : ℕ) := isFixed_index n "host_batch_vars" true names
      (fun n => isFixed_literal n (.int i) index) bracket
    refine ⟨isFixed_method n _ _ _ _ (fun n e he => ?_) _ _, .inr rfl⟩
    obtain rfl := List.mem_singleton.mp he
    exact ⟨hindex n, .inr rfl⟩

/-- The call of the work on a row stays as it is, and its value is not known. -/
theorem isFixed_work {e : Expr} (h : IsWork size e) (n : ℕ) :
    IsFixed (Simplifier.within n) e ∧ (isLiteral e = true ∨ e.value? = none) := by
  cases h with
  | call hargs work dot name =>
    refine ⟨isFixed_method n _ _ _ _ (fun n e he => ?_) _ _, .inr rfl⟩
    obtain ⟨i, hi, rfl⟩ := List.mem_iff_getElem.mp he
    exact isFixed_argument (hargs.get (hargs.length_eq ▸ hi) hi) n

/-- A round of the loop stays as it is. -/
theorem isFixed_push {call : Expr} (hcall : IsWork size call) (w : Places) (n : ℕ) :
    IsFixed (Simplifier.within n) (push w call) := by
  refine isFixed_method n _ _ _ _ (fun n e he => ?_) _ _
  obtain rfl := List.mem_singleton.mp he
  exact isFixed_work hcall n

/-- The call before the first row becomes a call that stands for itself. -/
theorem statement_setup (n : ℕ) (f : String) (pos : Position) (p : Progress) :
    (Simplifier.within (n + 1)).statement true (.expr (.call f [] false pos)) p =
      (.callOnly (.call f [] false pos), { p with changed := p.changed || true }) := by
  rw [Bool.or_true]
  rfl

/-- A call that stands for itself stays as it is. -/
theorem statement_setup_again (n : ℕ) {f : String} (hf : isReserved f = false) (pos : Position)
    (p : Progress) :
    (Simplifier.within (n + 2)).statement true (.callOnly (.call f [] false pos)) p =
      (.callOnly (.call f [] false pos), { p with changed := p.changed || false }) := by
  have heval : (f == "eval") = false := by
    rw [beq_eq_false_iff_ne]
    rintro rfl
    have hreserved : isReserved "eval" = true := by decide +kernel
    rw [hreserved] at hf
    cases hf
  have hconstant : constantCall? f [] = none := by
    unfold constantCall?
    split <;> first | rfl | contradiction
  have hcall : (Simplifier.within (n + 1)).expression (.call f [] false pos) p =
      (.call f [] false pos, p) := by
    show Simplification.callRule (Simplifier.within n) f [] false pos p = _
    simp only [Simplification.callRule, heval, hconstant, Bool.false_eq_true, if_false]
    split <;> rfl
  rw [Bool.or_false]
  exact bind_eq hcall

variable {setup : Option String} {kind kind' : Expr → Stmt}

/-- A round over the statements of a script changes the names, the first results and the call before
the first row alone. -/
theorem round_statements {call : Expr} (hcall : IsWork size call) (w : Places) (n : ℕ)
    {names names' results results' : Expr} {hasChanged : Bool}
    (hnames : ∀ p, (Simplifier.within (n + 1)).expression names p =
      (names', { p with changed := p.changed || hasChanged }))
    (hresults : ∀ p, (Simplifier.within (n + 1)).expression results p =
      (results', { p with changed := p.changed || hasChanged }))
    (hsetup : ∀ f ∈ setup, ∀ p, (Simplifier.within (n + 1)).statement true
      (kind (.call f [] false w.setup)) p =
        (kind' (.call f [] false w.setup), { p with changed := p.changed || hasChanged }))
    (hkind : kind = .expr ∨ kind = .callOnly) (hkind' : kind' = .expr ∨ kind' = .callOnly) :
    round (Simplifier.within (n + 1)) ⟨true, false, true⟩ (statements kind w setup names results
        call)
        {} =
      (statements kind' w setup names' results' call, { changed := hasChanged }) := by
  have hresult {p : Progress} (hp : NoneKnown p) : (Simplifier.within (n + 1)).statement true
      (.expr (.var "host_batch_out" true w.last)) p =
        (.expr (.var "host_batch_out" true w.last), p) :=
    bind_eq (isFixed_var n _ _ _ p hp)
  have hloop {p : Progress} (hp : NoneKnown p) : (Simplifier.within (n + 1)).statement true
      (.forLoop "host_batch_row" none (.var rowsName false w.rows) [.expr (push w call)] w.body
        w.loop)
      p = (.forLoop "host_batch_row" none (.var rowsName false w.rows) [.expr (push w call)] w.body
        w.loop, p) :=
    (bind_eq (isFixed_var n _ _ _ p hp)).trans
      (bind_eq (body_method n rfl (isFixed_push hcall w) hp))
  let rest (results : Expr) : List Stmt := (statements kind w none names results call).drop 1
  let final : Progress := { known := [("host_batch_out", none), ("host_batch_fn", none),
    ("host_batch_vars", none)], changed := hasChanged }
  have hend {p : Progress} (hp : NoneKnown p) : eachStatement (Simplifier.within (n + 1)) true
      ((rest results).drop 2) p = ((rest results').drop 2, p) :=
    (eachStatement_other rfl (hloop hp) _).trans
      (bind_eq ((eachStatement_other rfl (hresult hp) []).trans rfl))
  have hempty : NoneKnown {} := fun _ => rfl
  have hfirst := hempty.declare "host_batch_vars" hasChanged
  have hsecond := hfirst.declare "host_batch_fn" hasChanged
  have hthird := hsecond.declare "host_batch_out" hasChanged
  have hrest : eachStatement (Simplifier.within (n + 1)) true (rest results)
      { known := [("host_batch_vars", none)], changed := hasChanged } = (rest results', final) := by
    refine (eachStatement_declare (isFixed_literal (n + 1) _ _ _ hfirst) _ _ _ _).trans (bind_eq ?_)
    refine (eachStatement_declare (hresults _) _ _ _ _).trans ?_
    simp only [Bool.or_self]
    exact bind_eq (hend hthird)
  have hall : eachStatement (Simplifier.within (n + 1)) true
      (statements kind w setup names results call) {} =
        (statements kind' w setup names' results' call, final) := by
    refine (eachStatement_declare (hnames {}) _ _ _ _).trans (bind_eq ?_)
    cases setup with
    | none => exact hrest
    | some f =>
      have hcalled := hsetup f rfl { known := [("host_batch_vars", none)], changed := hasChanged }
      rw [Bool.or_self] at hcalled
      refine (eachStatement_other ?_ hcalled (rest results)).trans (bind_eq hrest)
      rcases hkind with rfl | rfl <;> rfl
  have hreached : reached (statements kind w setup names results call) =
      statements kind w setup names results call := by
    rcases hkind with rfl | rfl <;> cases setup <;> rfl
  have hneeded : needed ⟨true, false, true⟩ (statements kind' w setup names' results' call) =
      statements kind' w setup names' results' call := by
    rcases hkind' with rfl | rfl <;> cases setup <;> rfl
  have hended : ended ⟨true, false, true⟩ (statements kind' w setup names' results' call) =
      statements kind' w setup names' results' call := by
    rcases hkind' with rfl | rfl <;> cases setup <;> rfl
  exact round_eq hreached hall hneeded hended

/-- The names and the first results become values, and the call before the first row a call that
stands for itself. -/
theorem simplified_statements {call : Expr} (hcall : IsWork size call) (w : Places) (n : ℕ)
    (hsetup : ∀ f ∈ setup, isReserved f = false)
    {es : List Expr} {ds : List Datum} (hes : constants? es = some ds) (q r : Position) :
    simplified (n + 4) (statements .expr w setup (.array es q) (.array [] r) call) =
      statements .callOnly w setup (.literal (.array ds) q) (.literal (.array []) r) call := by
  let before := statements .expr w setup (.array es q) (.array [] r) call
  let after := statements .callOnly w setup (.literal (.array ds) q) (.literal (.array []) r) call
  have harray {items : List Expr} {values : List Datum} (hitems : constants? items = some values)
      (pos : Position) (p : Progress) :
      (Simplifier.within (n + 2 + 1)).expression (.array items pos) p =
        (.literal (.array values) pos, { p with changed := p.changed || true }) := by
    rw [Bool.or_true]
    exact expression_array (n + 2) hitems pos p
  have hliteral (d : Datum) (pos : Position) (p : Progress) :
      (Simplifier.within (n + 2 + 1)).expression (.literal d pos) p =
        (.literal d pos, { p with changed := p.changed || false }) := by
    rw [Bool.or_false]
    rfl
  have hfirst : round (Simplifier.within (n + 3)) ⟨true, false, true⟩ before {} =
      (after, { changed := true }) := round_statements hcall w (n + 2) (harray hes q)
    (harray (rfl : constants? [] = some []) r)
    (fun f _ p => statement_setup (n + 2) f w.setup p) (.inl rfl) (.inr rfl)
  have hsecond : round (Simplifier.within (n + 3)) ⟨true, false, true⟩ after {} =
      (after, { changed := false }) := round_statements hcall w (n + 2) (hliteral (.array ds) q)
    (hliteral (.array []) r)
    (fun f hf p => statement_setup_again (n + 1) (hsetup f hf) w.setup p) (.inr rfl) (.inr rfl)
  have hrest := repeatedly_fixed (p := { changed := true }) hsecond n
  have hrounds : repeatedly (round (Simplifier.within (n + 3)) ⟨true, false, true⟩) (n + 2)
      before {} = (after, { changed := true }) := by
    rw [repeatedly]
    refine (bind_eq (q := {}) rfl).trans ((bind_eq hfirst).trans ?_)
    exact (bind_eq (q := { changed := true }) rfl).trans ((bind_eq hrest).trans rfl)
  have hflat : flattened before = before := by
    cases setup <;> rfl
  have hclosed : before.any isOpenBlock = false := by
    cases setup <;> rfl
  have hbody : bodyRule (Simplifier.within (n + 3)) ⟨true, false, true⟩ before {} =
      (after, { changed := true }) := by
    rw [bodyRule]
    · rw [hflat, hclosed]
      exact (bind_eq (q := {}) rfl).trans ((bind_eq hrounds).trans rfl)
    · exact fun h => List.cons_ne_nil _ _ h
  exact congrArg Prod.fst hbody

/-- **A simplified script does the same work on a row.** Its names and its first results are
values. -/
theorem IsScript.simplified {ω : Type} {b : Bridge ω} {names : List String}
    {isWork : List Stmt → Prop} {es : List Expr} {ds : List Datum} {q r : Position} {p : Program}
    (h : IsScript .expr b names setup isWork (.array es q) (.array [] r) p)
    (hsetup : ∀ f ∈ setup, isReserved f = false) (hes : constants? es = some ds) :
    IsScript .callOnly b names setup isWork (.literal (.array ds) q) (.literal (.array []) r)
      p.simplified := by
  obtain ⟨w, call, hcall, hbody⟩ := h.body
  obtain ⟨n, hn⟩ : ∃ n, simplificationBound = n + 4 := ⟨10 ^ 15 - 4, by decide⟩
  refine ⟨?_, h.closures, w, call, hcall, ?_⟩
  · exact stubs_simplified h.functions
  · show Script.simplified simplificationBound p.body = _
    rw [hn, hbody]
    exact simplified_statements hcall w n hsetup hes q r

end ScriptHost.Batch
