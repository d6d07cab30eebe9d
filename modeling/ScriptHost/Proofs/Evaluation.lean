import Mathlib
import ScriptHost.Script.Evaluation

/-!
# Runs that end with a value

What a run gives and which machine it leaves, whatever the count of its operations. Without limits
the count is all that the operations change, so that runs can be followed rule by rule.
-/

namespace ScriptHost.Script

variable {ω α β : Type}

instance : LawfulMonad (Run ω) :=
  .mk' (Run ω)
    (fun r => by
      funext m
      show Run.bind r (fun a => pure a) m = r m
      rw [Run.bind]
      rcases r m with ⟨_ | _ | _ | _, _⟩ <;> rfl)
    (fun _ _ => rfl)
    (fun r f g => by
      funext m
      show Run.bind (Run.bind r f) g m = Run.bind r (fun a => Run.bind (f a) g) m
      simp only [Run.bind]
      rcases r m with ⟨_ | _ | _ | _, _⟩ <;> rfl)

/-- A run that goes on ends with a value if both parts do. -/
theorem Run.bind_eq_value {r : Run ω α} {f : α → Run ω β} {m m' : Machine ω} {b : β} :
    (r >>= f) m = (.value b, m') ↔
      ∃ a after, r m = (.value a, after) ∧ f a after = (.value b, m') := by
  show Run.bind r f m = _ ↔ _
  rw [Run.bind]
  split <;> simp_all

/-- A run goes on after a value. -/
theorem Run.bind_value {r : Run ω α} {m m' : Machine ω} {a : α} (h : r m = (.value a, m'))
    (f : α → Run ω β) : (r >>= f) m = f a m' := by
  show Run.bind r f m = f a m'
  rw [Run.bind, h]

/-- A run does not go on after a fault. -/
theorem Run.bind_fault {r : Run ω α} {m m' : Machine ω} {x : Fault} (h : r m = (.fault x, m'))
    (f : α → Run ω β) : (r >>= f) m = (.fault x, m') := by
  show Run.bind r f m = (.fault x, m')
  rw [Run.bind, h]

/-- A run with a value at hand goes on after a value. -/
theorem Focus.bind_value {r : Focus ω α} {d d' : Datum} {m m' : Machine ω} {a : α}
    (h : r d m = (.value a, d', m')) (f : α → Focus ω β) : (r >>= f) d m = f a d' m' := by
  simp only [Bind.bind, h]

/-- The machine with another count of operations. -/
def Machine.counting (m : Machine ω) (n : ℕ) : Machine ω := { m with operations := n }

/-- A change that has nothing to do with the count of operations. -/
def Machine.Uncounted (f : Machine ω → Machine ω) : Prop := ∀ m n,
  f (m.counting n) = (f m).counting n

/-- A run gives a value and leaves a machine, but for the count of operations. -/
def Run.Gives (r : Run ω α) (m : Machine ω) (a : α) (m' : Machine ω) : Prop :=
  ∀ j, ∃ k, r (m.counting j) = (.value a, m'.counting k)

/-- A run with a value at hand gives a value and leaves another value and a machine. -/
def Focus.Gives (r : Focus ω α) (d : Datum) (m : Machine ω) (a : α) (d' : Datum)
    (m' : Machine ω) : Prop :=
  ∀ j, ∃ k, r d (m.counting j) = (.value a, d', m'.counting k)

namespace Run.Gives

variable {r : Run ω α} {f : α → Run ω β} {m m' m'' : Machine ω} {a : α} {b : β}

/-- A value is given as it is. -/
theorem pure (a : α) (m : Machine ω) : Gives (Pure.pure a) m a m := fun j => ⟨j, rfl⟩

/-- A run goes on with the value of the run before it. -/
theorem bind (h : Gives r m a m') (hf : Gives (f a) m' b m'') : Gives (r >>= f) m b m'' := by
  intro j
  obtain ⟨k, hr⟩ := h j
  obtain ⟨l, hf⟩ := hf k
  refine ⟨l, ?_⟩
  show Run.bind r f (m.counting j) = _
  rw [Run.bind, hr]
  exact hf

/-- The machine may be asked for what has nothing to do with the count. -/
theorem machine {f : Machine ω → Run ω β} (hsame : ∀ j, f (m.counting j) = f m)
    (h : Gives (f m) m b m') : Gives (Run.machine >>= f) m b m' := by
  intro j
  obtain ⟨k, hf⟩ := h j
  refine ⟨k, ?_⟩
  rw [← hf, ← hsame j]
  rfl

/-- A change of the machine. -/
theorem update {g : Machine ω → Machine ω} (hg : Machine.Uncounted g) (m : Machine ω) :
    Gives (Run.update g) m () (g m) := fun j => ⟨j, by rw [← hg m j]; rfl⟩

/-- A run that gives a value has no fault to change. -/
theorem mapFault (h : Gives r m a m') (g : Fault → Fault) : Gives (r.mapFault g) m a m' := by
  intro j
  obtain ⟨k, hr⟩ := h j
  exact ⟨k, by rw [Run.mapFault, hr]⟩

/-- A run that gives a value has no fault to place. -/
theorem placed (h : Gives r m a m') (pos : Position) : Gives (r.placed pos) m a m' :=
  h.mapFault _

/-- A change of the machine after a run. -/
theorem afterwards (h : Gives r m a m') {g : Machine ω → Machine ω → Machine ω}
    (hg : ∀ j k, g (m.counting j) (m'.counting k) = (g m m').counting k) :
    Gives (r.afterwards g) m a (g m m') := by
  intro j
  obtain ⟨k, hr⟩ := h j
  exact ⟨k, by simp only [Run.afterwards, hr, hg j k]⟩

/-- A run with a value at hand, which is put back. -/
theorem focus {r : Focus ω α} {d d' : Datum} (h : r.Gives d m a d' m')
    {put : Datum → Machine ω → Machine ω} (hput : Machine.Uncounted (put d')) :
    Gives (Run.focus d r put) m a (put d' m') := by
  intro j
  obtain ⟨k, hr⟩ := h j
  exact ⟨k, by simp only [Run.focus, hr, hput m' k]⟩

/-- Runs that leave the machine as it is give their values one after the other. -/
theorem mapM {f : α → Run ω β} {as : List α} {bs : List β}
    (h : List.Forall₂ (fun a b => Gives (f a) m b m) as bs) : Gives (as.mapM f) m bs m := by
  induction h with
  | nil => exact pure [] m
  | cons hfirst _ ih =>
    rw [List.mapM_cons]
    exact bind hfirst (bind ih (pure _ m))

end Run.Gives

namespace Focus.Gives

variable {r : Focus ω α} {f : α → Focus ω β} {d d' d'' : Datum} {m m' m'' : Machine ω} {a : α}
  {b : β}

/-- A value is given as it is. -/
theorem pure (a : α) (d : Datum) (m : Machine ω) : Gives (Pure.pure a) d m a d m :=
  fun j => ⟨j, rfl⟩

/-- A run goes on with the value of the run before it. -/
theorem bind (h : Gives r d m a d' m') (hf : Gives (f a) d' m' b d'' m'') :
    Gives (r >>= f) d m b d'' m'' := by
  intro j
  obtain ⟨k, hr⟩ := h j
  obtain ⟨l, hf⟩ := hf k
  exact ⟨l, (Focus.bind_value hr f).trans hf⟩

/-- The value at hand. -/
theorem target (d : Datum) (m : Machine ω) : Gives Focus.target d m d d m := fun j => ⟨j, rfl⟩

/-- A run that leaves the value at hand alone. -/
theorem lift {r : Run ω α} (h : r.Gives m a m') (d : Datum) : Gives (Focus.lift r) d m a d m' := by
  intro j
  obtain ⟨k, hr⟩ := h j
  exact ⟨k, by rw [Focus.lift, hr]⟩

/-- A run with a part of the value at hand, which is put back. -/
theorem part {rebuild : Datum → Datum → Datum} {whole : Datum} (h : Gives r d m a d' m') :
    Gives (Focus.part d rebuild r) whole m a (rebuild whole d') m' := by
  intro j
  obtain ⟨k, hr⟩ := h j
  exact ⟨k, by rw [Focus.part, hr]⟩

/-- A run with another value at hand, which is lost. -/
theorem lost {whole : Datum} (h : Gives r d m a d' m') : Gives (Focus.lost d r) whole
    m a whole m' :=
  part h

/-- A call with the value at hand as its first argument. -/
theorem effect {r : Datum → Run ω Effect} {v : Datum} {left : Option Datum}
    (h : (r d).Gives m (v, left) m') : Gives (Focus.effect r) d m v (left.getD d) m' := by
  intro j
  obtain ⟨k, hr⟩ := h j
  exact ⟨k, by rw [Focus.effect, hr]⟩

end Focus.Gives

/-- An engine without limits on operations and sizes, and with room for a call. -/
structure Engine.Unlimited (e : Engine ω) : Prop where
  /-- Operations are not limited. -/
  operations : e.limits.maxOperations = 0
  /-- Sizes are not limited. -/
  sizes : hasSizeLimit e.limits = false
  /-- A function may be called. -/
  calls : 1 ≤ e.limits.maxCallLevels

namespace Evaluation

variable {e : Engine ω} {ev : Evaluator ω} {m m' : Machine ω} {n : ℕ}

/-- Counting an operation is never a fault. -/
theorem tick_gives (he : e.Unlimited) (pos : Position) (m : Machine ω) :
    (tick e pos).Gives m () m := by
  intro j
  refine ⟨j + 1, ?_⟩
  rw [tick]
  simp only [he.operations, bne_self_eq_false, Bool.false_and, Bool.false_eq_true, if_false]
  rfl

/-- No value is too large. -/
theorem checkSize_gives (he : e.Unlimited) (d : Datum) (pos : Position) (m : Machine ω) :
    (checkSize e d pos).Gives m () m := by
  have hexcess : d.excess? e.limits = none := by simp [Datum.excess?, he.sizes]
  rw [checkSize, hexcess]
  exact .pure () m

/-! ## Expressions -/

/-- Each rule refers to rules that are nested less. -/
theorem within_expression (e : Engine ω) (n : ℕ) (x : Expr) :
    (Evaluator.within e (n + 1)).expression x = expressionRule e (Evaluator.within e n) x := rfl

/-- Each rule refers to rules that are nested less. -/
theorem within_statement (e : Engine ω) (n : ℕ) (s : Stmt) :
    (Evaluator.within e (n + 1)).statement s = statementRule e (Evaluator.within e n) s := rfl

/-- An expression gives what its rule gives. -/
theorem expression_gives (he : e.Unlimited) {x : Expr} {d : Datum}
    (h : (valueRule e (Evaluator.within e n) x).Gives m d m') :
    ((Evaluator.within e (n + 1)).expression x).Gives m d m' :=
  .bind (tick_gives he _ m) h

/-- A statement gives what its rule gives. -/
theorem statement_gives (he : e.Unlimited) {s : Stmt} {d : Datum}
    (h : (actionRule e (Evaluator.within e n) s).Gives m d m') :
    ((Evaluator.within e (n + 1)).statement s).Gives m d m' :=
  .bind (tick_gives he _ m) h

/-- A value gives itself. -/
theorem literal_gives (he : e.Unlimited) (d : Datum) (pos : Position) (m : Machine ω) :
    ((Evaluator.within e (n + 1)).expression (.literal d pos)).Gives m d m :=
  expression_gives he (.pure d m)

/-- A variable that is no function and has its own value. -/
structure Holds (e : Engine ω) (m : Machine ω) (x : String) (known : Bool) (d : Datum) : Prop where
  /-- The name is that of a variable. -/
  notFunction : isFunctionWord e x known = false
  /-- The variable has the value. -/
  lookup : m.lookup? x = some ⟨x, false, .own d⟩

/-- A name that stands for no function is looked up. -/
theorem variableValue_eq {x : String} {known : Bool} (h : isFunctionWord e x known = false)
    (pos : Position) (m : Machine ω) : variableValue e x known pos m =
      match m.lookup? x with
      | some v => (.value (m.content v.slot), m)
      | none => (.fault (.raised (.variableNotFound x) pos), m) :=
  congrFun (if_neg (by simp [h])) m

/-- A variable gives its value. -/
theorem variableValue_gives {x : String} {known : Bool} {d : Datum} (h : Holds e m x known d)
    (pos : Position) : (variableValue e x known pos).Gives m d m := by
  intro j
  have hlookup : (m.counting j).lookup? x = some ⟨x, false, .own d⟩ := h.lookup
  refine ⟨j, ?_⟩
  rw [variableValue_eq h.notFunction, hlookup]
  rfl

/-- A variable gives its value. -/
theorem var_gives (he : e.Unlimited) {x : String} {known : Bool} {d : Datum}
    (h : Holds e m x known d) (pos : Position) :
    ((Evaluator.within e (n + 1)).expression (.var x known pos)).Gives m d m :=
  expression_gives he (variableValue_gives h pos)

/-- Setting a variable has nothing to do with the count of operations. -/
theorem setVariable_uncounted (x : String) (d : Datum) :
    Machine.Uncounted (ω := ω) (Machine.setVariable x d) := by
  intro m j
  have hlocals : (m.counting j).locals = m.locals := rfl
  rw [Machine.setVariable, Machine.setVariable, hlocals]
  cases m.locals.findIdx? (·.name == x) with
  | none => rfl
  | some i =>
    dsimp only
    cases m.locals[i]? with
    | none => rfl
    | some v =>
      obtain ⟨_, _, slot⟩ := v
      cases slot <;> rfl

/-- A variable may be set to its own value. -/
theorem setVariable_self {x : String} {c : Bool} {d : Datum}
    (h : m.lookup? x = some ⟨x, c, .own d⟩) : m.setVariable x d = m := by
  obtain ⟨hname, i, hi, hat, hbefore⟩ := List.find?_eq_some_iff_getElem.mp h
  have hindex : m.locals.findIdx? (·.name == x) = some i :=
    List.findIdx?_eq_some_iff_getElem.mpr
      ⟨hi, by rw [hat]; exact hname, fun j hj => by simpa using hbefore j hj⟩
  rw [Machine.setVariable, hindex]
  simp only [List.getElem?_eq_getElem hi, hat]
  rw [← hat, List.set_getElem_self]

/-- A run on the value of a variable, which is put back. -/
theorem onVariable_gives {x : String} {known : Bool} {d d' : Datum} (h : Holds e m x known d)
    (pos : Position) {run : Access → Focus ω α} {a : α} (hrun : (run .place).Gives d m a d' m') :
    (onVariable e x known pos run).Gives m a (m'.setVariable x d') := by
  refine .bind (variableValue_gives h pos) fun j => ?_
  have hlookup : (m.counting j).lookup? x = some ⟨x, false, .own d⟩ := h.lookup
  obtain ⟨k, hk⟩ := Run.Gives.focus hrun (setVariable_uncounted x d') j
  refine ⟨k, (congrFun (if_neg (by simp [h.notFunction])) _).trans ?_⟩
  simp only [hlookup]
  exact hk

/-- What is reached from a variable. -/
theorem chain_gives (he : e.Unlimited) {x : String} {known : Bool} {d d' v : Datum}
    {links : List Link} {steps : Path} (h : Holds e m x known d) (pos : Position)
    (hsteps : (path e (Evaluator.within e n) links).Gives m steps m)
    (hrun : (follow e (Evaluator.within e n) .place steps).Gives d m v d' m') :
    ((Evaluator.within e (n + 1)).expression (.chain (.var x known pos) links)).Gives m v
      (m'.setVariable x d') := by
  refine expression_gives he (.bind hsteps (.bind (tick_gives he pos m) (.machine ?_ ?_)))
  · intro j
    rfl
  · rw [h.lookup]
    exact .placed (onVariable_gives h pos hrun) _

end Evaluation

end ScriptHost.Script
