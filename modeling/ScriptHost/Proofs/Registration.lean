import Mathlib
import ScriptHost.Proofs.BridgeTexts
import ScriptHost.Proofs.DirectCalls

/-!
# Registering host functions

A bridge is built from registrations in order. The first one with a bad name, or with the name of
an earlier one, is the failure. Without such a registration the bridge has exactly the registered
functions, and a call runs the function of its name, once and on the arguments as they are.
-/

namespace ScriptHost

open ScriptHost.Script

variable {ω : Type}

/-! ## Names -/

/-- A name that a host function may have. -/
structure IsFunctionName (name : String) : Prop where
  /-- The first character is a letter or an underscore. -/
  starts : ∃ c rest, name.toList = c :: rest ∧ isWordStart c = true
  /-- The characters are letters, digits and underscores. -/
  characters : ∀ c ∈ name.toList, isWordPart c = true
  /-- There are not underscores only. -/
  other : ∃ c ∈ name.toList, c ≠ '_'
  /-- The name is no reserved word. -/
  unreserved : isReserved name = false
  /-- The name is not that of the dispatcher. -/
  ne_hostBinding : name ≠ hostBinding

/-- The check of a name on its own finds no problem exactly where the rules are kept. -/
theorem nameProblem?_eq_none_iff {name : String} :
    nameProblem? name = none ↔ IsFunctionName name := by
  rw [nameProblem?]
  constructor
  · intro h
    split at h
    · cases h
    · next c rest heq =>
      split_ifs at h with hstart hpart hunder hreserved
      rw [Bool.not_eq_true, Bool.or_eq_false_iff, beq_eq_false_iff_ne] at hreserved
      simp only [Bool.not_eq_true, Bool.not_eq_false', List.all_eq_true] at hstart hpart
      refine ⟨⟨c, rest, heq, hstart⟩, ?_, ?_, hreserved.1, hreserved.2⟩
      · rw [heq]
        exact List.forall_mem_cons.mpr ⟨isWordPart_of_isWordStart hstart, hpart⟩
      · rw [heq]
        simpa only [List.all_eq_true, beq_iff_eq, not_forall, exists_prop] using hunder
  · rintro ⟨⟨c, rest, heq, hstart⟩, hparts, hother, hreserved, hne⟩
    rw [heq] at hparts hother
    have hunder : ¬ (c :: rest).all (· == '_') = true := by
      simpa only [List.all_eq_true, beq_iff_eq, not_forall, exists_prop] using hother
    have hrest : rest.all isWordPart = true :=
      List.all_eq_true.mpr fun d hd => hparts d (List.mem_cons_of_mem c hd)
    simp [heq, hstart, hrest, hunder, hreserved, hne]

/-! ## Building -/

namespace Bridge

variable {registrations before : List (Registration ω)} {r : Registration ω} {b : Bridge ω}
  {functions : List (String × HostFunction ω)}

/-- A registration is refused behind others, for its name alone or for an earlier one of the same
name. -/
def Refuses (before : List (Registration ω)) (r : Registration ω) : Prop :=
  ¬ IsFunctionName r.name ∨ ∃ q ∈ before, q.name = r.name

/-- None of the registrations that come behind others is refused. -/
def RefusesNone (before registrations : List (Registration ω)) : Prop :=
  ∀ earlier r later, registrations = earlier ++ r :: later → ¬ Refuses (before ++ earlier) r

/-- What a refused registration fails with. -/
def refusal (r : Registration ω) : Failure :=
  .invalidFunction r.name ((nameProblem? r.name).getD .twice).message

/-- Nothing is refused where nothing comes. -/
theorem RefusesNone.nil : RefusesNone before [] := by
  intro earlier r later h
  cases earlier <;> cases h

/-- A registration that is not refused may come first. -/
theorem RefusesNone.cons {rest : List (Registration ω)} (hfirst : ¬ Refuses before r)
    (hrest : RefusesNone (before ++ [r]) rest) : RefusesNone before (r :: rest) := by
  intro earlier q later h
  cases earlier with
  | nil =>
    cases h
    rwa [List.append_nil]
  | cons first earlier =>
    cases h
    have hnot := hrest earlier q later rfl
    rwa [List.append_assoc] at hnot

/-- A step of building either refuses the registration or goes on with its function. -/
theorem build_go_cons (hfunctions : ∀ name, Fields.contains name functions = true ↔
      ∃ q ∈ before, q.name = name) (rest : List (Registration ω)) :
    (Refuses before r → build.go functions (r :: rest) = .error (refusal r)) ∧
      (¬ Refuses before r →
        build.go functions (r :: rest) =
          build.go (Fields.insert r.name r.function functions) rest) := by
  rw [build.go, refusal, Refuses, ← nameProblem?_eq_none_iff, ← hfunctions r.name]
  cases nameProblem? r.name with
  | some problem => simp
  | none => cases Fields.contains r.name functions <;> simp

/-- The names of the functions after a registration. -/
theorem contains_insert_iff (hfunctions : ∀ name, Fields.contains name functions = true ↔
      ∃ q ∈ before, q.name = name) (name : String) :
    Fields.contains name (Fields.insert r.name r.function functions) = true ↔
      ∃ q ∈ before ++ [r], q.name = name := by
  have hname := hfunctions name
  simp only [Fields.contains] at hname ⊢
  rw [Fields.get?_insert]
  simp only [List.mem_append, List.mem_singleton, or_and_right, exists_or, exists_eq_left,
    ← hname]
  split
  · next heq => simp [heq]
  · next hne => simp [hne]

/-- Building goes through, or ends at the first registration that is refused. -/
theorem build_go_cases (hfunctions : ∀ name, Fields.contains name functions = true ↔
      ∃ q ∈ before, q.name = name) (registrations : List (Registration ω)) :
    (RefusesNone before registrations ∧ ∃ b, build.go functions registrations = .ok b) ∨
      ∃ earlier r later, registrations = earlier ++ r :: later ∧ RefusesNone before earlier ∧
        Refuses (before ++ earlier) r ∧
        build.go functions registrations = .error (refusal r) := by
  induction registrations generalizing before functions with
  | nil => exact .inl ⟨.nil, _, rfl⟩
  | cons r rest ih =>
    obtain ⟨hrefused, haccepted⟩ := build_go_cons (r := r) hfunctions rest
    by_cases hr : Refuses before r
    · refine .inr ⟨[], r, rest, rfl, .nil, ?_, hrefused hr⟩
      rwa [List.append_nil]
    · rw [haccepted hr]
      rcases ih (contains_insert_iff hfunctions) with
        ⟨hnone, hok⟩ | ⟨earlier, q, later, rfl, hnone, hq, herror⟩
      · exact .inl ⟨hnone.cons hr, hok⟩
      · refine .inr ⟨r :: earlier, q, later, rfl, hnone.cons hr, ?_, herror⟩
        rwa [List.append_assoc] at hq

/-! ## Calling -/

/-- The function of a registration is found under its name. -/
theorem get?_of_build (hbuild : build registrations = .ok b) (hr : r ∈ registrations) :
    Fields.get? r.name b.functions = some r.function := by
  have hsorted := (build_go List.Pairwise.nil (by simp) hbuild).1
  have hmem : (r.name, r.function) ∈ b.functions :=
    (perm_of_build hbuild).mem_iff.mpr (List.mem_map.mpr ⟨r, hr, rfl⟩)
  exact Fields.get?_of_mem hsorted hmem

/-- A function that is found under a name was registered under it. -/
theorem registered_of_get? (hbuild : build registrations = .ok b) {name : String}
    {f : HostFunction ω} (hf : Fields.get? name b.functions = some f) :
    ∃ r ∈ registrations, r.name = name ∧ r.function = f := by
  have hmem := (perm_of_build hbuild).mem_iff.mp (Fields.mem_of_get? hf)
  obtain ⟨r, hr, heq⟩ := List.mem_map.mp hmem
  cases heq
  exact ⟨r, hr, rfl, rfl⟩

/-- A call that fits no registration fails for the host function, and nothing else happens. -/
theorem call_unregistered (hbuild : build registrations = .ok b) {name : String}
    {args : List Value} (hnone : ∀ r ∈ registrations, r.name = name →
      args.length ≠ r.function.arity) (world : ω) :
    ∃ message, b.call name args world =
      { outcome := .error (.hostFunction name message none), world, log := [] } := by
  rw [call]
  split
  · exact ⟨_, rfl⟩
  · next f hf =>
    obtain ⟨r, hr, hname, rfl⟩ := registered_of_get? hbuild hf
    rw [if_neg (by simpa using hnone r hr hname)]
    exact ⟨_, rfl⟩

/-- **A bridge has exactly the registered functions.** Building fails exactly where a registration
has a bad name or the name of an earlier one, and the failure names the first such registration.
Otherwise the names are those of the registrations in strictly ascending order. A call under the
name of a registration with as many arguments as its function takes is one run of the function on
these very arguments. Any other call fails for the host function of its name, with the world as it
was and nothing logged. -/
theorem build_registers (registrations : List (Registration ω)) :
    ((∃ f, build registrations = .error f) ↔
      ∃ before r after, registrations = before ++ r :: after ∧ Refuses before r) ∧
    (∀ f, build registrations = .error f →
      ∃ before r after, registrations = before ++ r :: after ∧
        RefusesNone [] before ∧ Refuses before r ∧ f = refusal r) ∧
    ∀ b, build registrations = .ok b →
      b.names.Pairwise (· < ·) ∧ (∀ name, name ∈ b.names ↔ ∃ r ∈ registrations, r.name = name) ∧
      ∀ name args world,
        (∀ r ∈ registrations, r.name = name → args.length = r.function.arity →
          b.call name args world = r.function.run args world) ∧
        ((∀ r ∈ registrations, r.name = name → args.length ≠ r.function.arity) →
          ∃ message, b.call name args world =
            { outcome := .error (.hostFunction name message none), world, log := [] }) := by
  have hempty : ∀ name, Fields.contains name ([] : List (String × HostFunction ω)) = true ↔
      ∃ q ∈ ([] : List (Registration ω)), q.name = name := by
    simp [Fields.contains, Fields.get?]
  refine ⟨?_, ?_, ?_⟩
  · rcases build_go_cases hempty registrations with
      ⟨hnone, b, hok⟩ | ⟨before, r, after, rfl, -, hr, herror⟩
    · rw [build, hok]
      refine iff_of_false (by simp) ?_
      rintro ⟨before, r, after, heq, hr⟩
      exact hnone before r after heq hr
    · exact iff_of_true ⟨_, herror⟩ ⟨before, r, after, rfl, hr⟩
  · intro f hf
    rcases build_go_cases hempty registrations with
      ⟨-, b, hok⟩ | ⟨before, r, after, rfl, hnone, hr, herror⟩
    · cases hok.symm.trans hf
    · exact ⟨before, r, after, rfl, hnone, hr, Except.error.inj (hf.symm.trans herror)⟩
  · intro b hbuild
    have hnames : b.names.Perm (registrations.map (·.name)) := by
      simpa [names, Fields.keys, Function.comp_def] using (perm_of_build hbuild).map Prod.fst
    refine ⟨?_, fun name => ?_, fun name args world => ⟨?_, ?_⟩⟩
    · exact (build_go List.Pairwise.nil (by simp) hbuild).1.map Prod.fst fun _ _ => id
    · rw [hnames.mem_iff, List.mem_map]
    · rintro r hr rfl harity
      exact call_registered (get?_of_build hbuild hr) harity world
    · exact fun hnone => call_unregistered hbuild hnone world

end Bridge

end ScriptHost
