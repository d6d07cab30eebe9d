import ScriptHost.Proofs.Entries
import ScriptHost.Proofs.Histories
import ScriptHost.Proofs.Keeping
import ScriptHost.Proofs.Provenance.Simplification
import ScriptHost.Proofs.Provenance.Statements

/-!
# Which script a failure names

A failure that a host function raises leaves the script as it was raised, below any number of call
frames, but for the name of a script if it has none. All other failures of a prepared script are
made where it is compiled, run or projected, and name it.
-/

namespace ScriptHost

open Script

variable {ω α : Type}

/-! ## Failures that faults carry -/

namespace Script

/-- A fault inside calls, the outermost one first; a call has a name, a source and a position. -/
def Fault.within (x : Fault) : List (String × String × Position) → Fault
  | [] => x
  | (name, source, pos) :: frames => .inCall name source (x.within frames) pos

/-- A fault is a thrown failure, below any number of call frames. -/
def Fault.Carries (x : Fault) (f : Failure) : Prop :=
  ∃ frames payload pos, x = (Fault.thrown payload pos).within frames ∧ payload.unshared = .failure f

namespace Failure

/-- What is found below call frames. -/
theorem carried?_within (x : Fault) (frames : List (String × String × Position)) :
    carried? (x.within frames) = carried? x := by
  induction frames with
  | nil => rfl
  | cons frame rest ih => exact ih

/-- A failure is found in the faults that carry it. -/
theorem carried?_eq_some_iff {x : Fault} {f : Failure} : carried? x = some f ↔ x.Carries f := by
  constructor
  · intro h
    induction x using carried?.induct with
    | case1 payload pos f' hpayload =>
      rw [carried?, hpayload] at h
      cases h
      exact ⟨[], payload, pos, rfl, hpayload⟩
    | case2 payload pos hother =>
      rw [carried?] at h
      split at h
      · next hpayload => exact absurd hpayload (hother _)
      · cases h
    | case3 name source inner pos ih =>
      obtain ⟨frames, payload, start, rfl, hpayload⟩ := ih h
      exact ⟨(name, source, pos) :: frames, payload, start, rfl, hpayload⟩
    | case4 cause pos => cases h
  · rintro ⟨frames, payload, pos, rfl, hpayload⟩
    rw [carried?_within, carried?, hpayload]

/-- A failure of a host function without a script gets the one that it left. -/
theorem ofFault_host {x : Fault} {name message : String}
    (hx : x.Carries (.hostFunction name message none)) (script : String) :
    ofFault x script = .hostFunction name message (some script) := by
  rw [ofFault, carried?_eq_some_iff.mpr hx]
  rfl

/-- Any other failure that is carried stays as it is. -/
theorem ofFault_carried {x : Fault} {f : Failure} (hx : x.Carries f)
    (hf : ∀ name message, f ≠ .hostFunction name message none) (script : String) :
    ofFault x script = f := by
  rw [ofFault, carried?_eq_some_iff.mpr hx]
  dsimp only
  unfold inScript
  split
  · exact absurd rfl (hf _ _)
  · rfl

/-- A fault that carries no failure is one of the script. -/
theorem ofFault_own {x : Fault} (hx : ∀ f, ¬x.Carries f) (script : String) :
    ofFault x script = .execution x script := by
  rw [ofFault, Option.eq_none_iff_forall_ne_some.mpr fun f hf => hx f (carried?_eq_some_iff.mp hf)]

end Failure

/-- A traced fault carries a failure of its origin. -/
theorem Fault.Traced.failure {o : Origin} {x : Fault} (hx : x.Traced o) {f : Failure}
    (hcarries : x.Carries f) : o.failure f := by
  obtain ⟨frames, payload, pos, rfl, hpayload⟩ := hcarries
  induction frames with
  | nil =>
    have hcontent := (Datum.traced_unshared payload).mpr hx
    rwa [hpayload, Datum.Traced] at hcontent
  | cons frame rest ih => exact ih hx

end Script

/-! ## What a host adds -/

/-- A registered function answers some call with a failure. -/
def Host.Raises (h : Host ω) (f : Failure) : Prop :=
  ∃ entry ∈ h.bridge.functions, ∃ args world, (entry.2.run args world).outcome = .error f

/-- A call of a name that has no function, or with the wrong number of arguments, fails without
naming a script. All other failures are raised by registered functions. -/
theorem Host.call_error {h : Host ω} {name : String} {args : List Value} {world : ω} {f : Failure}
    (hcall : (h.bridge.call name args world).outcome = .error f) :
    (∃ message, f = .hostFunction name message none) ∨ h.Raises f := by
  unfold Bridge.call at hcall
  split at hcall
  · cases hcall
    exact .inl ⟨_, rfl⟩
  · next function hfunction =>
    split at hcall
    · exact .inr ⟨_, Fields.mem_of_get? hfunction, args, world, hcall⟩
    · cases hcall
      exact .inl ⟨_, rfl⟩

/-- Where the failures and log events of scripts come from: they print, and they call functions of
the host. -/
def Host.origin (h : Host ω) : Origin where
  failure f := ∃ name args world, (h.bridge.call name args world).outcome = .error f
  event event :=
    (∃ text, event = .printed text) ∨ (∃ text line, event = .debugged text line) ∨
      ∃ name args world, event ∈ (h.bridge.call name args world).log

/-- A compiled text holds no failures. -/
theorem Host.traced_compileText {h : Host ω} {o : Origin} {text : String} {program : Program}
    (hcompiled : h.compileText text = .ok program) : program.Traced o := by
  rw [compileText] at hcompiled
  split at hcompiled
  · next p hp =>
    cases hcompiled
    exact Program.traced_simplified (Program.traced_ofText? hp)
  · cases hcompiled

/-- The engine of a host keeps to the origin of the host. -/
theorem Host.traced_engine (h : Host ω) {program : Program} (hprogram : program.Traced h.origin) :
    (h.engine program).Traced h.origin where
  functions := hprogram.functions
  closures := hprogram.closures
  failed name args world _ hf := ⟨name, args, world, hf⟩
  logged name args world _ hevent := .inr (.inr ⟨name, args, world, hevent⟩)
  printed text := .inl ⟨text, rfl⟩
  debugged text line := .inr (.inl ⟨text, line, rfl⟩)

/-- Variables of the host hold no failures. -/
theorem traced_machine {o : Origin} (vars : List (String × Value)) (world : ω) :
    ((encodeBindings vars).machine world).Traced o where
  locals v hv := by
    obtain ⟨p, hp, rfl⟩ := List.mem_map.mp (List.mem_reverse.mp hv)
    obtain ⟨q, -, rfl⟩ := List.mem_map.mp hp
    exact traced_encode q.2
  self := by simp [Bindings.machine]
  cells := by simp [Bindings.machine]
  log := by simp [Bindings.machine]

namespace Prepared

/-- A faithful script holds no failures. -/
theorem IsFaithful.traced {h : Host ω} {p : Prepared} (hp : p.IsFaithful h) {o : Origin}
    {program : Program} (hprogram : p.program h = .ok program) : program.Traced o := by
  rw [hp.program_eq] at hprogram
  exact Host.traced_compileText hprogram

/-- The run of a script on variables keeps to the origin of the host. -/
theorem IsFaithful.traced_run {h : Host ω} {p : Prepared} (hp : p.IsFaithful h) {program : Program}
    (hprogram : p.program h = .ok program) (vars : List (String × Value)) (world : ω) :
    ((h.engine program).run Engine.ample program.body
        ((encodeBindings vars).machine world)).1.Traced h.origin ∧
      ((h.engine program).run Engine.ample program.body
        ((encodeBindings vars).machine world)).2.Traced h.origin :=
  Engine.traced_run (h.traced_engine (hp.traced hprogram)) _ (hp.traced hprogram).body
    (traced_machine vars world)

/-- The run of a script ends in a fault. -/
def EndsIn (h : Host ω) (p : Prepared) (vars : Bindings) (world : ω) (x : Fault) : Prop :=
  ∃ program m, p.program h = .ok program ∧
    (h.engine program).run Engine.ample program.body (vars.machine world) = (.fault x, m)

/-- The run of a script ends in a fault that carries a failure with which a registered function
answers. -/
def FailsInside (h : Host ω) (p : Prepared) (vars : Bindings) (world : ω) (f : Failure) : Prop :=
  (∃ x, p.EndsIn h vars world x ∧ x.Carries f) ∧ h.Raises f

/-- A failure of an execution is made in one of three places: the text does not compile, the run
ends in a fault, or the value is refused. -/
theorem outcome_error {h : Host ω} {p : Prepared} {vars : Bindings} {projection : Projection α}
    {s : Store ω} {f : Failure} (hfails : (p.outcome h vars projection s).1 = some (.error f)) :
    p.program h = .error f ∨ (∃ x, p.EndsIn h vars s.world x ∧ f = .ofFault x p.source) ∨
      ∃ d, projection.read d = some (.error f) := by
  rw [outcome] at hfails
  cases hprogram : p.program h with
  | error f' =>
    rw [hprogram] at hfails
    cases hfails
    exact .inl rfl
  | ok program =>
    simp only [hprogram, run] at hfails
    cases hrun : (h.engine program).run Engine.ample program.body (vars.machine s.world) with
    | mk ending m =>
      rw [hrun] at hfails
      cases ending with
      | value d => exact .inr (.inr ⟨d, hfails⟩)
      | fault x =>
        cases hfails
        exact .inr (.inl ⟨x, ⟨program, m, hprogram, hrun⟩, rfl⟩)
      | exhausted => cases hfails

/-- So is a failure of an execution that may be logged. -/
theorem evaluate_error {h : Host ω} {p : Prepared} {vars : Bindings} {options : ExecutionOptions}
    {projection : Projection α} {s : Store ω} {f : Failure}
    (hfails : (p.evaluate h vars options projection s).1 = some (.error f)) :
    p.program h = .error f ∨ (∃ x, p.EndsIn h vars s.world x ∧ f = .ofFault x p.source) ∨
      ∃ d, projection.read d = some (.error f) := by
  have hlogged := congrArg Prod.fst (p.evaluate_noticed h vars options projection s)
  have hstart : (if options.log then s.record (.starting p.source) else s).world = s.world := by
    split <;> rfl
  rw [← hstart]
  exact outcome_error (hlogged.symm.trans hfails)

/-- A faithful script that is not compiled names itself. -/
theorem IsFaithful.program_error {h : Host ω} {p : Prepared} (hp : p.IsFaithful h) {f : Failure}
    (hfails : p.program h = .error f) : ∃ problem pos, f = .compile problem pos p.source := by
  rw [hp.program_eq] at hfails
  simp only [program, afresh, Host.compileText] at hfails
  split at hfails <;> cases hfails
  exact ⟨_, _, rfl⟩

/-- What a host function raises inside a script is carried to its end. -/
theorem IsFaithful.failsInside {h : Host ω} {p : Prepared} (hp : p.IsFaithful h)
    {vars : List (String × Value)} {world : ω} {x : Fault}
    (hx : p.EndsIn h (encodeBindings vars) world x) {f : Failure} (hcarries : x.Carries f)
    (hf : ∀ name message, f ≠ .hostFunction name message none) :
    p.FailsInside h (encodeBindings vars) world f := by
  refine ⟨⟨x, hx, hcarries⟩, ?_⟩
  obtain ⟨program, m, hprogram, hrun⟩ := hx
  have htraced := (hp.traced_run hprogram vars world).1
  rw [hrun] at htraced
  obtain ⟨name, args, w, hcall⟩ := Fault.Traced.failure htraced hcarries
  rcases Host.call_error hcall with ⟨message, rfl⟩ | hraises
  · exact absurd rfl (hf name message)
  · exact hraises

/-- A failure of a script is one of its text, of a host function that it has called, of its run or
of its value, or was raised by a host function just as it is. -/
theorem IsFaithful.error_cases {h : Host ω} {p : Prepared} (hp : p.IsFaithful h) {entry : Entry α}
    {s : Store ω} {f : Failure} (hfails : (entry.perform h p s).1 = some (.error f)) :
    (∃ problem pos, f = .compile problem pos p.source) ∨
      (∃ name message, f = .hostFunction name message (some p.source)) ∨
      (∃ x, p.EndsIn h (encodeBindings entry.vars) s.world x ∧ f = .execution x p.source) ∨
      (∃ expected actual, f = .projection expected actual) ∨
      (∀ name message, f ≠ .hostFunction name message none) ∧
        p.FailsInside h (encodeBindings entry.vars) s.world f := by
  rw [entry.perform_eq h p] at hfails
  rcases evaluate_error hfails with hprogram | ⟨x, hx, rfl⟩ | ⟨d, hread⟩
  · exact .inl (hp.program_error hprogram)
  · by_cases hcarries : ∃ f, x.Carries f
    · obtain ⟨f, hf⟩ := hcarries
      by_cases hhost : ∃ name message, f = .hostFunction name message none
      · obtain ⟨name, message, rfl⟩ := hhost
        exact .inr (.inl ⟨name, message, Failure.ofFault_host hf p.source⟩)
      · simp only [not_exists] at hhost
        rw [Failure.ofFault_carried hf hhost]
        exact .inr (.inr (.inr (.inr ⟨hhost, hp.failsInside hx hf hhost⟩)))
    · exact .inr (.inr (.inl ⟨x, hx, Failure.ofFault_own (not_exists.mp hcarries) p.source⟩))
  · exact .inr (.inr (.inr (.inl (Entry.read_error hread))))

/-- A failure of a script names the script, or is of a kind that names none, or was raised by a host
function just as it is. -/
theorem IsFaithful.error_named {h : Host ω} {p : Prepared} (hp : p.IsFaithful h) {entry : Entry α}
    {s : Store ω} {f : Failure} (hfails : (entry.perform h p s).1 = some (.error f)) :
    f.script? = some p.source ∨ (∃ expected actual, f = .projection expected actual) ∨
      (∀ name message, f ≠ .hostFunction name message none) ∧
        p.FailsInside h (encodeBindings entry.vars) s.world f := by
  rcases hp.error_cases hfails with ⟨_, _, rfl⟩ | ⟨_, _, rfl⟩ | ⟨_, _, rfl⟩ | hprojection | hinside
  · exact .inl rfl
  · exact .inl rfl
  · exact .inl rfl
  · exact .inr (.inl hprojection)
  · exact .inr (.inr hinside)

/-- **Failures name their scripts.** A fault below any number of call frames gives the failure that
it carries. Only a failure of a host function that names no script changes: it gets the script that
it leaves. A fault that carries no failure is a failure of the script. Hence the failures of a
prepared script, however it is executed, name its full text, unless a host function has raised them
with another one. -/
theorem failures_named (h : Host ω) (p : Prepared) (hp : p.IsFaithful h) :
    (∀ (x : Fault) (script : String),
      (∀ name message, x.Carries (.hostFunction name message none) →
        Failure.ofFault x script = .hostFunction name message (some script)) ∧
      (∀ f, x.Carries f → (∀ name message, f ≠ .hostFunction name message none) →
        Failure.ofFault x script = f) ∧
      ((∀ f, ¬x.Carries f) → Failure.ofFault x script = .execution x script)) ∧
    ∀ (α : Type) (entry : Entry α) (s : Store ω) (f : Failure),
      (entry.perform h p s).1 = some (.error f) →
        (∀ problem pos script, f = .compile problem pos script →
          f.script? = some p.source ∨ p.FailsInside h (encodeBindings entry.vars) s.world f) ∧
        (∀ fault script, f = .execution fault script →
          f.script? = some p.source ∨ p.FailsInside h (encodeBindings entry.vars) s.world f) ∧
        (∀ name message script, f = .hostFunction name message script →
          f.script? = some p.source ∨
            (∃ own, script = some own) ∧
              p.FailsInside h (encodeBindings entry.vars) s.world f) := by
  refine ⟨fun x script => ⟨fun name message hx => Failure.ofFault_host hx script,
    fun f hx hf => Failure.ofFault_carried hx hf script,
    fun hx => Failure.ofFault_own hx script⟩, fun α entry s f hfails => ?_⟩
  have hnamed := hp.error_named hfails
  refine ⟨?_, ?_, ?_⟩
  · rintro problem pos script rfl
    rcases hnamed with hsource | ⟨_, _, ⟨⟩⟩ | ⟨-, hinside⟩
    · exact .inl hsource
    · exact .inr hinside
  · rintro fault script rfl
    rcases hnamed with hsource | ⟨_, _, ⟨⟩⟩ | ⟨-, hinside⟩
    · exact .inl hsource
    · exact .inr hinside
  · rintro name message script rfl
    rcases hnamed with hsource | ⟨_, _, ⟨⟩⟩ | ⟨hown, hinside⟩
    · exact .inl hsource
    · refine .inr ⟨Option.ne_none_iff_exists'.mp ?_, hinside⟩
      rintro rfl
      exact hown name message rfl

/-- A host function that runs a script of its own keeps the name of that script, below two calls. -/
theorem failures_named_nested :
    let inner := Failure.hostFunction "inner" "no" (some "inner()")
    let outer : HostFunction Unit := ⟨0, fun _ world => ⟨.error inner, world, []⟩⟩
    let h : Host Unit := { bridge := ⟨[("outer", outer)]⟩ }
    let p := h.prepare "fn f() \x7b outer() \x7d f()"
    p.IsFaithful h ∧ (Entry.run.perform h p { world := () }).1 = some (.error inner) ∧
      p.FailsInside h [] () inner := by
  intro inner outer h p
  have hp : p.IsFaithful h := isFaithful_afresh h p.source
  have hends : failsIn (·.hostFunction? == some ("inner", "no", some "inner()"))
      (Entry.run.perform h p { world := () }).1 = true := by decide +kernel
  have hfails : (Entry.run.perform h p { world := () }).1 = some (.error inner) := by
    obtain ⟨f, hf, htest⟩ := exists_of_failsIn hends
    rw [hf, Failure.eq_of_hostFunction? (beq_iff_eq.mp htest)]
  refine ⟨hp, hfails, ?_⟩
  obtain ⟨-, -, hnamed⟩ := (failures_named h p hp).2 Value .run { world := () } inner hfails
  rcases hnamed _ _ _ rfl with hsource | ⟨-, hinside⟩
  · exact absurd hsource (by decide +kernel)
  · exact hinside

end Prepared

end ScriptHost
