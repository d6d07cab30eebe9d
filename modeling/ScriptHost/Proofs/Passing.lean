import Mathlib
import ScriptHost.Proofs.HostCalls

/-!
# Where failures pass

While a run is in the middle of another run, a fault of the inner one ends the outer one, unless the
outer one has a handler for it. This module says which runs pass on the faults of which runs inside
of them: all rules do, but for a block with a handler around it, and for the native functions that
take a fault of a callback for an answer. A failure of a host function then leaves any number of
such runs as it is.
-/

namespace ScriptHost.Script

variable {ω : Type}

/-- A run on a machine. -/
structure Point (ω : Type) : Type 1 where
  /-- The type of its value. -/
  {α : Type}
  /-- The run. -/
  run : Run ω α
  /-- The machine. -/
  machine : Machine ω

/-- A run on a machine ends in a fault that carries a failure, and leaves a world. -/
def Point.FailsOn (p : Point ω) (f : Failure) (w : ω) : Prop := p.run.FailsOn p.machine f w

section

open Evaluation

/-- A run comes to another run inside of it, and looks at none of its faults. -/
inductive Point.PassesOn : Point ω → Point ω → Prop where
  /-- The first of two runs. -/
  | first {α β : Type} (r : Run ω α) (g : α → Run ω β) (m : Machine ω) :
      PassesOn ⟨r >>= g, m⟩ ⟨r, m⟩
  /-- The second of two runs, after a value of the first one. -/
  | second {α β : Type} {r : Run ω α} {m m' : Machine ω} {a : α} (h : r m = (.value a, m'))
      (g : α → Run ω β) :
      PassesOn ⟨r >>= g, m⟩ ⟨g a, m'⟩
  /-- A run that asks for the machine. -/
  | asking {α : Type} (r : Machine ω → Run ω α) (m : Machine ω) :
      PassesOn ⟨fun m => r m m, m⟩ ⟨r m, m⟩
  /-- A run whose faults are placed or named. -/
  | named {α : Type} {g : Fault → Fault} (hg : KeepsFailures g) (r : Run ω α) (m : Machine ω) :
      PassesOn ⟨r.mapFault g, m⟩ ⟨r, m⟩
  /-- A run on a changed machine, which is changed again afterwards, but for its world. -/
  | between {α : Type} (r : Run ω α) (before : Machine ω → Machine ω)
      {after : Machine ω → Machine ω → Machine ω} (hafter : ∀ m m', (after m m').world = m'.world)
      (m : Machine ω) :
      PassesOn ⟨fun m => match r (before m) with | (o, m') => (o, after m m'), m⟩ ⟨r, before m⟩
  /-- The body of a function. -/
  | function {e : Engine ω} {ev : Evaluator ω} {g : Function} {pos : Position} {m m' : Machine ω}
      (hbody : g.body ≠ []) (htick : tick e pos m = (.value (), m'))
      (hlevel : m'.level < e.limits.maxCallLevels) (args : List Slot) (inScope : Bool) :
      PassesOn ⟨callFunction e ev g args pos inScope, m⟩
        ⟨statements ev g.body, insideFunction g args inScope none m'⟩
  /-- The body of a function that is called as a method. -/
  | method {e : Engine ω} {ev : Evaluator ω} {g : Function} {pos : Position} {m m' : Machine ω}
      (hbody : g.body ≠ []) (htick : tick e pos m = (.value (), m'))
      (hlevel : m'.level < e.limits.maxCallLevels) (args : List Slot) (d : Datum) :
      PassesOn ⟨Run.focusLost d (callOn e ev g args pos), m⟩
        ⟨statements ev g.body, insideFunction g args false (some d) m'⟩
  /-- A text that is run as a script, which may return. -/
  | returning (r : Run ω Datum) (m : Machine ω) : PassesOn ⟨catchReturn r, m⟩ ⟨r, m⟩
  /-- The body of a loop. -/
  | body (ev : Evaluator ω) (body : List Stmt) (m : Machine ω) :
      PassesOn ⟨bodyRound ev body, m⟩ ⟨blockRule ev body, m⟩
  /-- The first round of a loop. -/
  | firstRound (round : Run ω Round) (n : ℕ) (m : Machine ω) :
      PassesOn ⟨repeated round (n + 1), m⟩ ⟨round, m⟩
  /-- The rounds of a loop after the first one. -/
  | laterRounds {round : Run ω Round} {r : Round} {m m' : Machine ω}
      (h : round m = (.value r, m')) (hr : ∀ d, r ≠ .done d) (n : ℕ) :
      PassesOn ⟨repeated round (n + 1), m⟩ ⟨repeated round n, m'⟩
  /-- The round of a loop over items for the first of them. -/
  | firstItem (round : Run ω Round) {hasCounter : Bool} (i : ℤ) {items rest : Items} {d : Datum}
      (hitems : items.next? = some (d, rest)) (n : ℕ) (m : Machine ω) :
      PassesOn ⟨forRounds round hasCounter (n + 1) i items, m⟩ ⟨round, beginRound hasCounter i d m⟩
  /-- The rounds of a loop over items after the first of them. -/
  | laterItems {round : Run ω Round} {hasCounter : Bool} {i : ℤ} {items rest : Items} {d : Datum}
      {r : Round} {m m' : Machine ω} (hitems : items.next? = some (d, rest))
      (h : round (beginRound hasCounter i d m) = (.value r, m')) (hr : ∀ d, r ≠ .done d) (n : ℕ) :
      PassesOn ⟨forRounds round hasCounter (n + 1) i items, m⟩
        ⟨forRounds round hasCounter n (i + 1) rest, m'⟩
  /-- The handler of a fault. -/
  | handler {ev : Evaluator ω} {body : List Stmt} {m m' : Machine ω} {x : Fault}
      (h : blockRule ev body m = (.fault x, m')) (hx : x.isSystem = false) (name : Option String)
      (handler : List Stmt) :
      PassesOn ⟨guardedRule ev body name handler, m⟩ ⟨handle ev x name handler, m'⟩
  /-- The first way to call back. -/
  | firstWay (c : Callback) (r : Run ω Effect) (rest : List (Run ω Effect)) (m : Machine ω) :
      PassesOn ⟨c.firstPresent (r :: rest), m⟩ ⟨r, m⟩
  /-- The other ways to call back, if the function is not there for the first one. -/
  | otherWays {c : Callback} {r : Run ω Effect} {rest : List (Run ω Effect)} {m m' : Machine ω}
      {x : Fault} (h : r m = (.fault x, m')) (hx : c.isMissing x = true) (hrest : rest ≠ []) :
      PassesOn ⟨c.firstPresent (r :: rest), m⟩ ⟨c.firstPresent rest, m⟩
  /-- A run with a value at hand, which is put back. -/
  | putBack {α : Type} (d : Datum) (r : Focus ω α) {put : Datum → Machine ω → Machine ω}
      (hput : ∀ d m, (put d m).world = m.world) (m : Machine ω) :
      PassesOn ⟨Run.focus d r put, m⟩ ⟨Run.focusLost d r, m⟩
  /-- A run on a value, with what is left of it. -/
  | left (d : Datum) (r : Focus ω Datum) (m : Machine ω) :
      PassesOn ⟨Focus.asEffect r d, m⟩ ⟨Run.focusLost d r, m⟩
  /-- The first of two runs with a value at hand. -/
  | firstAtHand {α β : Type} (d : Datum) (r : Focus ω α) (g : α → Focus ω β) (m : Machine ω) :
      PassesOn ⟨Run.focusLost d (r >>= g), m⟩ ⟨Run.focusLost d r, m⟩
  /-- The second of two runs with a value at hand. -/
  | secondAtHand {α β : Type} {d d' : Datum} {r : Focus ω α} {m m' : Machine ω} {a : α}
      (h : r d m = (.value a, d', m')) (g : α → Focus ω β) :
      PassesOn ⟨Run.focusLost d (r >>= g), m⟩ ⟨Run.focusLost d' (g a), m'⟩
  /-- A run that asks for the value at hand and for the machine. -/
  | askingAtHand {α : Type} (d : Datum) (r : Datum → Machine ω → Focus ω α) (m : Machine ω) :
      PassesOn ⟨Run.focusLost d fun d m => r d m d m, m⟩ ⟨Run.focusLost d (r d m), m⟩
  /-- A run that leaves the value at hand alone. -/
  | alone {α : Type} (d : Datum) (r : Run ω α) (m : Machine ω) :
      PassesOn ⟨Run.focusLost d (Focus.lift r), m⟩ ⟨r, m⟩
  /-- A run on a part of the value at hand. -/
  | part {α : Type} (d whole : Datum) (rebuild : Datum → Datum → Datum) (r : Focus ω α)
      (m : Machine ω) :
      PassesOn ⟨Run.focusLost whole (Focus.part d rebuild r), m⟩ ⟨Run.focusLost d r, m⟩
  /-- A call with the value at hand as its first argument. -/
  | call (d : Datum) (r : Datum → Run ω Effect) (m : Machine ω) :
      PassesOn ⟨Run.focusLost d (Focus.effect r), m⟩ ⟨r d, m⟩

end

namespace Point

variable {p q : Point ω} {f : Failure} {w : ω}

/-- A run fails if it comes to the same as one that does. -/
theorem failsOn_of_eq {α : Type} {r r' : Run ω α} {m m' : Machine ω} (heq : r m = r' m')
    (h : r'.FailsOn m' f w) : r.FailsOn m f w := by
  obtain ⟨x, after, hr, hx, hw⟩ := h
  exact ⟨x, after, heq.trans hr, hx, hw⟩

/-- **A failure goes through a run that passes on faults.** -/
theorem PassesOn.failsOn (h : p.PassesOn q) (hq : q.FailsOn f w) : p.FailsOn f w := by
  cases h with
  | first r g m => exact Run.FailsOn.bind hq g
  | second hr g => exact .after hr hq
  | asking r m => exact hq
  | named hg r m => exact Run.FailsOn.mapFault hq hg
  | between r before hafter m => exact Run.FailsOn.between hq hafter
  | function hbody htick hlevel args inScope =>
    exact Evaluation.callFunction_failsOn hbody htick hlevel hq
  | method hbody htick hlevel args d =>
    exact Run.FailsOn.focusLost_iff.mpr (Evaluation.callOn_failsOn hbody htick hlevel hq)
  | returning r m => exact Run.FailsOn.catchReturn hq
  | body ev body m => exact Evaluation.bodyRound_failsOn hq
  | firstRound round n m => exact Evaluation.repeated_failsOn hq n
  | laterRounds hround hr n => exact failsOn_of_eq (Evaluation.repeated_goOn hround hr n) hq
  | firstItem round i hitems n m => exact Evaluation.forRounds_failsOn hitems hq n
  | laterItems hitems hround hr n =>
    exact failsOn_of_eq (Evaluation.forRounds_goOn hitems hround hr n) hq
  | handler hbody hx name handler =>
    exact failsOn_of_eq (Evaluation.guardedRule_fault hbody hx name handler) hq
  | firstWay c r rest m => exact Evaluation.firstPresent_failsOn hq c rest
  | otherWays hr hx hrest => exact failsOn_of_eq (Evaluation.firstPresent_missing hr hx hrest) hq
  | putBack d r hput m => exact Run.FailsOn.focus (Run.FailsOn.focusLost_iff.mp hq) hput
  | left d r m => exact Focus.FailsOn.asEffect (Run.FailsOn.focusLost_iff.mp hq)
  | firstAtHand d r g m =>
    exact Run.FailsOn.focusLost_iff.mpr ((Run.FailsOn.focusLost_iff.mp hq).bind g)
  | secondAtHand hr g =>
    exact Run.FailsOn.focusLost_iff.mpr (.after hr (Run.FailsOn.focusLost_iff.mp hq))
  | askingAtHand d r m => exact hq
  | alone d r m => exact Run.FailsOn.focusLost_iff.mpr (Focus.FailsOn.lift hq d)
  | part d whole rebuild r m =>
    have hpart : r.FailsOn d m f w := Run.FailsOn.focusLost_iff.mp hq
    exact (Run.FailsOn.focusLost_iff (r := Focus.part d rebuild r)).mpr (hpart.part rebuild whole)
  | call d r m => exact Run.FailsOn.focusLost_iff.mpr (.effect hq)

/-- **A failure goes through any number of runs that pass on faults.** -/
theorem failsOn_of_passesOn (h : Relation.ReflTransGen PassesOn p q) (hq : q.FailsOn f w) :
    p.FailsOn f w := by
  induction h with
  | refl => exact hq
  | tail _ hlast ih => exact ih (hlast.failsOn hq)

/-! ## Calls in each other -/

section

open Evaluation

variable {e : Engine ω} {ev : Evaluator ω} {m m' m'' : Machine ω} {n : ℕ}

/-- A statement passes on the faults of its rule. -/
theorem passesOn_statement {s : Stmt} (htick : tick e s.position m = (.value (), m')) :
    PassesOn ⟨(Evaluator.within e (n + 1)).statement s, m⟩
      ⟨actionRule e (Evaluator.within e n) s, m'⟩ := .second htick _

/-- A call by name of a function of the script passes on the faults of the function. -/
theorem passesOn_call {name : String} {args : List Expr} (hfree : isReserved name = false)
    {g : Function} (hfunction : function? e name args.length = some g) {ds : List Datum}
    (hargs : callArguments e ev args m = (.value ds, m')) (pos : Position) :
    Relation.ReflTransGen PassesOn ⟨valueRule e ev (.call name args false pos), m⟩
      ⟨callFunction e ev g (ds.map .own) pos false, m'⟩ := by
  have hrule : valueRule e ev (.call name args false pos) =
      callArguments e ev args >>= callOnArguments e ev name args pos :=
    (callRule_eq hfree args false pos).trans (callNamed_arguments e ev name args pos)
  rw [← length_slots hargs] at hfunction
  have hplain : Relation.ReflTransGen PassesOn ⟨callValues e ev name ds false pos, m'⟩
      ⟨callFunction e ev g (ds.map .own) pos false, m'⟩ := by
    refine .head (.first _ _ m') ?_
    rw [callByName_function hfunction]
    exact .single (.first _ _ m')
  rw [hrule]
  refine .head (.second hargs _) ?_
  cases args with
  | nil => exact hplain
  | cons x rest =>
    cases x with
    | this selfPos =>
      refine .head (.first _ _ m') ?_
      rw [callByName_function hfunction]
      exact .single (.first _ _ m')
    | var v known varPos =>
      obtain ⟨access, haccess⟩ := variableAccess_value e v known m'
      refine .head (.second haccess _) (.head (.first _ _ m') ?_)
      rw [callByName_function hfunction]
      exact .single (.first _ _ m')
    | _ => exact hplain

end

end Point

end ScriptHost.Script
