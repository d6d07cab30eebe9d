import Mathlib
import ScriptHost.Proofs.DirectCalls
import ScriptHost.Proofs.StandardFunctions

/-!
# Days and times in scripts

Scripts make days and times of integers by the standard functions, and get the integers back by
properties. The two undo each other over the whole calendar: leap seconds and fractions are kept
where a time is passed on as a whole.
-/

namespace ScriptHost

open Script Script.Evaluation

variable {ω : Type}

/-! ## Integers of scripts -/

namespace Script.Datum

/-- The value is an integer of 64 bits, of either kind. -/
inductive IsInteger : Datum → ℤ → Prop where
  /-- An integer of the language. -/
  | int (i : ℤ) : IsInteger (.int i) i
  /-- An integer of any size that fits. -/
  | bigInt {i : ℤ} (hfits : fitsInt64 i = true) : IsInteger (.bigInt i) i
  /-- The content of a cell. -/
  | shared {d : Datum} {i : ℤ} (hd : IsInteger d i) : IsInteger (.shared d) i

/-- A host function sees the integer. -/
theorem IsInteger.asInt64? {d : Datum} {i : ℤ} (h : d.IsInteger i) :
    (decoded d).asInt64? = some i := by
  induction h with
  | int i => rfl
  | bigInt hfits => exact if_pos hfits
  | @shared d i _ ih =>
    have hcell : decoded (.shared d) = decoded d :=
      (decoded_unshared (.shared d)).symm.trans (decoded_unshared d)
    rw [hcell, ih]

end Script.Datum

/-! ## Properties of variables -/

namespace Script.Evaluation

variable {e : Engine ω} {ev : Evaluator ω} {m m' : Machine ω} {n : ℕ} {x name : String}
  {known : Bool} {d v : Datum}

end Script.Evaluation

/-! ## Calls -/

/-- A script of a host that limits nothing but calls; the script puts nothing in the place of the
dispatcher. -/
structure Host.Runs (h : Host ω) (program : Program) : Prop where
  /-- It is what some text compiles to. -/
  compiled : ∃ script, h.compileText (h.sourceOf script) = .ok program
  /-- The limits are open. -/
  limits : h.config.IsOpen
  /-- The dispatcher is that of the bridge. -/
  dispatcher : function? (h.engine program) hostBinding 2 = none

namespace Bridge.Standard

variable {h : Host ω} {program : Program} {registrations : List (Registration ω)}
  {clock : ω → DateTime} {n : ℕ} {args : List Expr} {m m' : Machine ω} {ds : List Datum}

variable {a b c : Datum} {i j l : ℤ}

section

variable (hbuild : build registrations = .ok h.bridge)
  (hstandard : ∀ r ∈ Standard.registrations clock, r ∈ registrations) (hruns : h.Runs program)
include hbuild hstandard hruns

end

end Bridge.Standard

end ScriptHost
