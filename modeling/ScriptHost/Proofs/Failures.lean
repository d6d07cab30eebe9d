import Mathlib
import ScriptHost.Proofs.Calls

/-!
# Runs that fail

A failure of a host function is carried by a fault through everything that a running script is in
the middle of: call frames and positions are added to the fault, and what it carries stays. Only
handlers of the script, and native functions that ask a callback for an order, look at faults
themselves.
-/

namespace ScriptHost.Script

/-! ## What a fault carries -/

/-- A change of faults that keeps the failures they carry. -/
def KeepsFailures (g : Fault → Fault) : Prop :=
  ∀ x f, Failure.carried? x = some f → Failure.carried? (g x) = some f

/-- A fault at another position carries the same. -/
theorem carried?_withPosition (x : Fault) (pos : Position) :
    Failure.carried? (x.withPosition pos) = Failure.carried? x := by
  cases x <;> rfl

/-- Placing a fault keeps the failure that it carries. -/
theorem keepsFailures_atIfNone (pos : Position) : KeepsFailures (·.atIfNone pos) := by
  intro x f hx
  dsimp only [Fault.atIfNone]
  split
  · exact (carried?_withPosition x pos).trans hx
  · exact hx

/-- Leaving a function keeps the failure that a fault carries. -/
theorem keepsFailures_leaveCall (name : String) (pos : Position) :
    KeepsFailures (Evaluation.leaveCall name pos) := by
  intro x f hx
  rw [Evaluation.leaveCall]
  split
  · exact (carried?_withPosition x pos).trans hx
  · exact hx

variable {ω α β : Type}

/-- A run ends in a fault that carries a failure, and leaves a world. -/
def Run.FailsOn (r : Run ω α) (m : Machine ω) (f : Failure) (w : ω) : Prop :=
  ∃ x m', r m = (.fault x, m') ∧ Failure.carried? x = some f ∧ m'.world = w

/-- A run with a value at hand ends in a fault that carries a failure, and leaves a world. -/
def Focus.FailsOn (r : Focus ω α) (d : Datum) (m : Machine ω) (f : Failure) (w : ω) : Prop :=
  ∃ x d' m', r d m = (.fault x, d', m') ∧ Failure.carried? x = some f ∧ m'.world = w

namespace Run.FailsOn

variable {r : Run ω α} {g : α → Run ω β} {m m' : Machine ω} {a : α} {f : Failure} {w : ω}

/-- Nothing comes after a run that fails. -/
theorem bind (h : FailsOn r m f w) (g : α → Run ω β) : FailsOn (r >>= g) m f w := by
  obtain ⟨x, after, hr, hx, hw⟩ := h
  refine ⟨x, after, ?_, hx, hw⟩
  show Run.bind r g m = _
  rw [Run.bind, hr]

/-- A run may fail after another one has ended with a value. -/
theorem after (hr : r m = (.value a, m')) (h : FailsOn (g a) m' f w) :
    FailsOn (r >>= g) m f w := by
  obtain ⟨x, after, hg, hx, hw⟩ := h
  refine ⟨x, after, ?_, hx, hw⟩
  show Run.bind r g m = _
  rw [Run.bind, hr]
  exact hg

/-- A fault may be changed into one that carries the same. -/
theorem mapFault (h : FailsOn r m f w) {g : Fault → Fault} (hg : KeepsFailures g) :
    FailsOn (r.mapFault g) m f w := by
  obtain ⟨x, after, hr, hx, hw⟩ := h
  exact ⟨g x, after, by rw [Run.mapFault, hr], hg x f hx, hw⟩

/-- A fault may be placed. -/
theorem placed (h : FailsOn r m f w) (pos : Position) : FailsOn (r.placed pos) m f w :=
  h.mapFault (keepsFailures_atIfNone pos)

/-- The machine may be changed after a run, but for its world. -/
theorem afterwards (h : FailsOn r m f w) {g : Machine ω → Machine ω → Machine ω}
    (hg : ∀ m m', (g m m').world = m'.world) : FailsOn (r.afterwards g) m f w := by
  obtain ⟨x, after, hr, hx, hw⟩ := h
  exact ⟨x, g m after, by rw [Run.afterwards, hr], hx, (hg m after).trans hw⟩

/-- A run may be started on a changed machine. -/
theorem between {before : Machine ω → Machine ω} (h : FailsOn r (before m) f w)
    {after : Machine ω → Machine ω → Machine ω} (hafter : ∀ m m', (after m m').world = m'.world) :
    FailsOn (fun m => match r (before m) with | (o, m') => (o, after m m')) m f w := by
  obtain ⟨x, m', hr, hx, hw⟩ := h
  exact ⟨x, after m m', by simp only [hr], hx, (hafter m m').trans hw⟩

/-- The value at hand is put back however a run ends. -/
theorem focus {r : Focus ω α} {d : Datum} (h : r.FailsOn d m f w)
    {put : Datum → Machine ω → Machine ω} (hput : ∀ d m, (put d m).world = m.world) :
    FailsOn (Run.focus d r put) m f w := by
  obtain ⟨x, d', after, hr, hx, hw⟩ := h
  exact ⟨x, put d' after, by rw [Run.focus, hr], hx, (hput d' after).trans hw⟩

/-- A fault is no return to catch. -/
theorem catchReturn {r : Run ω Datum} (h : FailsOn r m f w) :
    FailsOn (Evaluation.catchReturn r) m f w := by
  obtain ⟨x, after, hr, hx, hw⟩ := h
  exact ⟨x, after, by rw [Evaluation.catchReturn, hr], hx, hw⟩

/-- Losing the value at hand does not change a fault. -/
theorem focusLost_iff {r : Focus ω α} {d : Datum} :
    FailsOn (Run.focusLost d r) m f w ↔ r.FailsOn d m f w := by
  refine ⟨?_, fun h => focus h fun _ _ => rfl⟩
  rintro ⟨x, m', hr, hx, hw⟩
  cases hrun : r d m with
  | mk o left =>
    rw [Run.focusLost, Run.focus, hrun] at hr
    cases hr
    exact ⟨x, left.1, left.2, hrun, hx, hw⟩

end Run.FailsOn

namespace Focus.FailsOn

variable {r : Focus ω α} {g : α → Focus ω β} {d d' : Datum} {m m' : Machine ω} {a : α}
  {f : Failure} {w : ω}

/-- Nothing comes after a run that fails. -/
theorem bind (h : FailsOn r d m f w) (g : α → Focus ω β) : FailsOn (r >>= g) d m f w := by
  obtain ⟨x, left, after, hr, hx, hw⟩ := h
  exact ⟨x, left, after, by simp only [Bind.bind, hr], hx, hw⟩

/-- A run may fail after another one has ended with a value. -/
theorem after (hr : r d m = (.value a, d', m')) (h : FailsOn (g a) d' m' f w) :
    FailsOn (r >>= g) d m f w := by
  obtain ⟨x, left, after, hg, hx, hw⟩ := h
  exact ⟨x, left, after, (Focus.bind_value hr g).trans hg, hx, hw⟩

/-- A run that leaves the value at hand alone. -/
theorem lift {r : Run ω α} (h : r.FailsOn m f w) (d : Datum) :
    FailsOn (Focus.lift r) d m f w := by
  obtain ⟨x, after, hr, hx, hw⟩ := h
  exact ⟨x, d, after, by rw [Focus.lift, hr], hx, hw⟩

/-- A part of the value at hand is put back however a run ends. -/
theorem part (h : FailsOn r d m f w) (rebuild : Datum → Datum → Datum) (whole : Datum) :
    FailsOn (Focus.part d rebuild r) whole m f w := by
  obtain ⟨x, left, after, hr, hx, hw⟩ := h
  exact ⟨x, rebuild whole left, after, by rw [Focus.part, hr], hx, hw⟩

/-- A call with the value at hand as its first argument. -/
theorem effect {r : Datum → Run ω Effect} (h : (r d).FailsOn m f w) :
    FailsOn (Focus.effect r) d m f w := by
  obtain ⟨x, after, hr, hx, hw⟩ := h
  exact ⟨x, d, after, by rw [Focus.effect, hr], hx, hw⟩

/-- A run on a value that is only passed on. -/
theorem asEffect {r : Focus ω Datum} (h : FailsOn r d m f w) :
    (Focus.asEffect r d).FailsOn m f w := by
  obtain ⟨x, left, after, hr, hx, hw⟩ := h
  exact ⟨x, after, by rw [Focus.asEffect, hr], hx, hw⟩

end Focus.FailsOn

/-! ## Runs that give a value or fail -/

/-- A run ends with a value and leaves a machine, but for the count of operations, or it fails and
leaves a world. -/
def Run.Ends (r : Run ω α) (m : Machine ω) : Except (Failure × ω) (α × Machine ω) → Prop
  | .ok (a, m') => r.Gives m a m'
  | .error (f, w) => ∀ j, r.FailsOn (m.counting j) f w

/-- A run with a value at hand ends with a value and leaves another one, or it fails. -/
def Focus.Ends (r : Focus ω α) (d : Datum) (m : Machine ω) :
    Except (Failure × ω) (α × Datum × Machine ω) → Prop
  | .ok (a, d', m') => r.Gives d m a d' m'
  | .error (f, w) => ∀ j, r.FailsOn d (m.counting j) f w

namespace Run.Ends

variable {r : Run ω α} {g : α → Run ω β} {m m' : Machine ω} {a : α}
  {o : Except (Failure × ω) (α × Machine ω)} {o' : Except (Failure × ω) (β × Machine ω)}

/-- Runs one after the other. -/
theorem bind {k : α × Machine ω → Except (Failure × ω) (β × Machine ω)} (h : Ends r m o)
    (hg : ∀ a m', o = .ok (a, m') → Ends (g a) m' (k (a, m'))) :
    Ends (r >>= g) m (o >>= k) := by
  match o with
  | .ok (a, m') =>
    have hnext := hg a m' rfl
    show Ends (r >>= g) m (k (a, m'))
    match hout : k (a, m') with
    | .ok (b, m'') =>
      rw [hout] at hnext
      exact Gives.bind h hnext
    | .error (f, w) =>
      rw [hout] at hnext
      intro j
      obtain ⟨k, hr⟩ := h j
      exact .after hr (hnext k)
  | .error (f, w) => exact fun j => (h j).bind g

/-- A run after one that gives a value. -/
theorem after (hr : r.Gives m a m') (h : Ends (g a) m' o') : Ends (r >>= g) m o' := by
  have hr' : Ends r m (.ok (a, m')) := hr
  refine hr'.bind (k := fun _ => o') fun b m'' heq => ?_
  cases heq
  exact h

/-- A run before one that gives a value. -/
theorem before {k : α × Machine ω → β × Machine ω} (h : Ends r m o)
    (hg : ∀ a m', o = .ok (a, m') → (g a).Gives m' (k (a, m')).1 (k (a, m')).2) :
    Ends (r >>= g) m (o.map k) := by
  have hbind := h.bind (g := g) (k := fun p => .ok (k p)) hg
  cases o <;> exact hbind

/-- The machine may be asked for what has nothing to do with the count. -/
theorem machine {g : Machine ω → Run ω β} (hsame : ∀ j, g (m.counting j) = g m)
    (h : Ends (g m) m o') : Ends (Run.machine >>= g) m o' := by
  cases o' with
  | ok p => exact Gives.machine hsame h
  | error p =>
    intro j
    have hg := h j
    rw [← hsame j] at hg
    exact .after rfl hg

/-- The failure of a run may be placed. -/
theorem placed (h : Ends r m o) (pos : Position) : Ends (r.placed pos) m o := by
  cases o with
  | ok p => exact Gives.placed h pos
  | error p => exact fun j => (h j).placed pos

/-- A change of the machine after a run, however it ends. -/
theorem afterwards (h : Ends r m o) {g : Machine ω → Machine ω → Machine ω}
    (hg : ∀ m' j k, g (m.counting j) (m'.counting k) = (g m m').counting k)
    (hworld : ∀ m m', (g m m').world = m'.world) :
    Ends (r.afterwards g) m (o.map fun p => (p.1, g m p.2)) := by
  cases o with
  | ok p => exact Gives.afterwards h (hg p.2)
  | error p => exact fun j => (h j).afterwards hworld

/-- A run with a value at hand, which is put back however the run ends. -/
theorem focus {r : Focus ω α} {d : Datum} {o : Except (Failure × ω) (α × Datum × Machine ω)}
    (h : r.Ends d m o) {put : Datum → Machine ω → Machine ω}
    (hput : ∀ d, Machine.Uncounted (put d)) (hworld : ∀ d m, (put d m).world = m.world) :
    Ends (Run.focus d r put) m (o.map fun p => (p.1, put p.2.1 p.2.2)) := by
  cases o with
  | ok p => exact Gives.focus h (hput p.2.1)
  | error p => exact fun j => FailsOn.focus (h j) hworld

end Run.Ends

/-- A run that leaves the value at hand alone. -/
theorem Focus.Ends.lift {r : Run ω α} {m : Machine ω} {o : Except (Failure × ω) (α × Machine ω)}
    (h : r.Ends m o) (d : Datum) :
    (Focus.lift r).Ends d m (o.map fun p => (p.1, d, p.2)) := by
  cases o with
  | ok p => exact Focus.Gives.lift h d
  | error p => exact fun j => Focus.FailsOn.lift (h j) d

/-- Setting a variable leaves the world as it is. -/
theorem Machine.setVariable_world (name : String) (d : Datum) (m : Machine ω) :
    (m.setVariable name d).world = m.world := by
  rw [Machine.setVariable]
  split
  · rfl
  · split <;> rfl

namespace Evaluation

variable {e : Engine ω} {ev : Evaluator ω} {m m' : Machine ω} {f : Failure} {w : ω}

/-! ## Functions of the script -/

/-- The machine inside a function of the script, which may see the variables of its caller and may
have an object. -/
def insideFunction (g : Function) (args : List Slot) (inScope : Bool) (self : Option Datum)
    (m : Machine ω) : Machine ω :=
  { m with
    locals := ((g.params.zip args).map fun (name, slot) =>
      (⟨name, false, slot⟩ : Variable)).reverse ++
      (if inScope then m.locals else [])
    self
    level := m.level + 1 }

/-- A function with a body that the limit on calls allows is entered. -/
theorem enter_eq {g : Function} {args : List Slot} {pos : Position} {inScope : Bool}
    {self : Option Datum} (hbody : g.body ≠ []) (htick : tick e pos m = (.value (), m'))
    (hlevel : m'.level < e.limits.maxCallLevels) : enter e ev g args pos inScope self m =
      match (catchReturn (statements ev g.body)).mapFault (leaveCall g.name pos)
        (insideFunction g args inScope self m') with
      | (o, after) =>
        (o, after.self, { after with
          locals := if inScope then (after.rewind m'.locals.length).locals else m'.locals
          self := m'.self
          level := m'.level }) := by
  have hempty : g.body.isEmpty = false := by simpa using hbody
  rw [enter, hempty, htick]
  simp only [Bool.false_eq_true, if_false, if_neg (Nat.not_lt.mpr hlevel)]
  rfl

/-- A function of the script fails if its body does. -/
theorem enter_failsOn {g : Function} {args : List Slot} {pos : Position} {inScope : Bool}
    {self : Option Datum} (hbody : g.body ≠ []) (htick : tick e pos m = (.value (), m'))
    (hlevel : m'.level < e.limits.maxCallLevels)
    (h : (statements ev g.body).FailsOn (insideFunction g args inScope self m') f w) :
    ∃ x self' after, enter e ev g args pos inScope self m = (.fault x, self', after) ∧
      Failure.carried? x = some f ∧ after.world = w := by
  obtain ⟨x, after, hr, hx, hw⟩ := h.catchReturn.mapFault (keepsFailures_leaveCall g.name pos)
  rw [enter_eq hbody htick hlevel, hr]
  exact ⟨x, _, _, rfl, hx, hw⟩

/-- A function of the script that is called fails if its body does. -/
theorem callFunction_failsOn {g : Function} {args : List Slot} {pos : Position} {inScope : Bool}
    (hbody : g.body ≠ []) (htick : tick e pos m = (.value (), m'))
    (hlevel : m'.level < e.limits.maxCallLevels)
    (h : (statements ev g.body).FailsOn (insideFunction g args inScope none m') f w) :
    (callFunction e ev g args pos inScope).FailsOn m f w := by
  obtain ⟨x, self', after, henter, hx, hw⟩ := enter_failsOn hbody htick hlevel h
  exact ⟨x, after, by rw [callFunction, henter], hx, hw⟩

/-- A function of the script that is called as a method fails if its body does. -/
theorem callOn_failsOn {g : Function} {args : List Slot} {pos : Position} {d : Datum}
    (hbody : g.body ≠ []) (htick : tick e pos m = (.value (), m'))
    (hlevel : m'.level < e.limits.maxCallLevels)
    (h : (statements ev g.body).FailsOn (insideFunction g args false (some d) m') f w) :
    (callOn e ev g args pos).FailsOn d m f w := by
  obtain ⟨x, self', after, henter, hx, hw⟩ := enter_failsOn hbody htick hlevel h
  exact ⟨x, self'.getD d, after, by rw [callOn, henter], hx, hw⟩

/-! ## Loops -/

/-- The body of a loop fails. -/
theorem bodyRound_failsOn {body : List Stmt} (h : (blockRule ev body).FailsOn m f w) :
    (bodyRound ev body).FailsOn m f w := by
  obtain ⟨x, after, hr, hx, hw⟩ := h
  exact ⟨x, after, by rw [bodyRound, hr], hx, hw⟩

/-- A loop fails if its first round does. -/
theorem repeated_failsOn {round : Run ω Round} (h : round.FailsOn m f w) (n : ℕ) :
    (repeated round (n + 1)).FailsOn m f w := by
  obtain ⟨x, after, hr, hx, hw⟩ := h
  exact ⟨x, after, by rw [repeated, hr], hx, hw⟩

/-- After a round that does not end a loop, the loop goes on. -/
theorem repeated_goOn {round : Run ω Round} {r : Round} (hround : round m = (.value r, m'))
    (hr : ∀ d, r ≠ .done d) (n : ℕ) : repeated round (n + 1) m = repeated round n m' := by
  rw [repeated, hround]
  cases r with
  | done d => exact absurd rfl (hr d)
  | goOn => rfl
  | cut => rfl

/-- The machine on which a round over items begins. -/
def beginRound (hasCounter : Bool) (i : ℤ) (d : Datum) (m : Machine ω) : Machine ω :=
  setAt 0 d (if hasCounter then setAt 1 (.int i) m else m)

/-- A loop over items fails if the round for the first item does. -/
theorem forRounds_failsOn {round : Run ω Round} {hasCounter : Bool} {i : ℤ} {items rest : Items}
    {d : Datum} (hitems : items.next? = some (d, rest))
    (h : round.FailsOn (beginRound hasCounter i d m) f w) (n : ℕ) :
    (forRounds round hasCounter (n + 1) i items).FailsOn m f w := by
  obtain ⟨x, after, hr, hx, hw⟩ := h
  rw [beginRound] at hr
  refine ⟨x, after, ?_, hx, hw⟩
  rw [forRounds, hitems]
  simp only [hr]

/-- After a round that does not end a loop over items, the loop goes on. -/
theorem forRounds_goOn {round : Run ω Round} {hasCounter : Bool} {i : ℤ} {items rest : Items}
    {d : Datum} (hitems : items.next? = some (d, rest)) {r : Round}
    (hround : round (beginRound hasCounter i d m) = (.value r, m')) (hr : ∀ d, r ≠ .done d)
    (n : ℕ) :
    forRounds round hasCounter (n + 1) i items m =
      forRounds round hasCounter n (i + 1) rest m' := by
  rw [beginRound] at hround
  rw [forRounds, hitems]
  simp only [hround]

/-! ## Handlers and callbacks -/

/-- A fault is handed to its handler. -/
theorem guardedRule_fault {body : List Stmt} {x : Fault}
    (hbody : blockRule ev body m = (.fault x, m'))
    (hx : x.isSystem = false) (name : Option String) (handler : List Stmt) :
    guardedRule ev body name handler m = handle ev x name handler m' := by
  rw [guardedRule, hbody]
  simp only [hx]
  rfl

/-- A fault that carries a failure does not say that a function is not there. -/
theorem isMissing_of_carried? {x : Fault} (hx : Failure.carried? x = some f) (c : Callback) :
    c.isMissing x = false := by
  cases x with
  | raised cause pos => cases hx
  | _ => rfl

/-- The first way to call back fails. -/
theorem firstPresent_failsOn {r : Run ω Effect} (h : r.FailsOn m f w) (c : Callback)
    (rest : List (Run ω Effect)) : (c.firstPresent (r :: rest)).FailsOn m f w := by
  obtain ⟨x, after, hr, hx, hw⟩ := h
  refine ⟨.inCall c.caller "" x c.pos, after, ?_, hx, hw⟩
  rw [Callback.firstPresent]
  simp [hr, isMissing_of_carried? hx]

/-- After a way to call back that is not there, the others are tried. -/
theorem firstPresent_missing {c : Callback} {r : Run ω Effect} {rest : List (Run ω Effect)}
    {x : Fault} (hr : r m = (.fault x, m')) (hx : c.isMissing x = true) (hrest : rest ≠ []) :
    c.firstPresent (r :: rest) m = c.firstPresent rest m := by
  rw [Callback.firstPresent]
  simp [hr, hx, hrest]

end Evaluation

end ScriptHost.Script
