import ScriptHost.Proofs.Provenance

/-!
# The log of a call

A call that runs a script goes alike whether it is logged or not. With logging, its own events are
the text of the script, before everything that the script writes, and the result or the failure,
after it.
-/

namespace ScriptHost

open Script

variable {ω α : Type}

/-! ## With logging and without -/

/-- The same host with runs logged or not. -/
def Host.logging (h : Host ω) (log : Bool) : Host ω :=
  { h with config := { h.config with logScripts := log } }

/-- Whether runs are logged by default does not matter to a run. -/
theorem Prepared.run_logging (h : Host ω) (log : Bool) (p : Prepared) :
    p.run (h.logging log) = p.run h := by
  have hengine : (h.logging log).engine = h.engine := rfl
  funext program vars s
  rw [run, run, hengine]

/-- Nor to an execution, which has its own options. -/
theorem Prepared.evaluate_logging (h : Host ω) (log : Bool) (p : Prepared) :
    p.evaluate (α := α) (h.logging log) = p.evaluate h := by
  have hprogram : p.program (h.logging log) = p.program h := rfl
  funext vars options projection s
  simp only [evaluate, outcome, run_logging, hprogram]

/-- Nor to the execution of a batch. -/
theorem Batch.execute_logging (h : Host ω) (log : Bool) (b : Batch) (names : List String)
    (rows : List Row) (options : ExecutionOptions) (s : Store ω) :
    b.execute (h.logging log) names rows options s = b.execute h names rows options s := by
  have hcompile : (h.logging log).compile = h.compile := rfl
  have hchain : (h.logging log).chain = h.chain := rfl
  simp only [execute, Prepared.evaluate_logging, hcompile, hchain]

/-- The same way to execute a script with the run logged or not. -/
def Entry.logging (log : Bool) : Entry α → Entry α
  | execute vars options => execute vars { options with log }
  | entry => entry

/-- The same way to evaluate a batch with the run logged or not. -/
def BatchEntry.logging (log : Bool) : BatchEntry α → BatchEntry α
  | execute options => execute { options with log }
  | entry => entry

/-! ## What a call writes -/

/-- An event of a part of the program, with a severity and a wording. -/
def LogEvent.Reads (event : LogEvent) (target : String) (level : LogLevel) (message : String) :
    Prop :=
  event.target = target ∧ event.level = level ∧ event.message = message

/-- What comes from a script: what it prints, and what registered functions write to the log. -/
def Host.Writes (h : Host ω) (event : LogEvent) : Prop :=
  event.target = "rhai_bridge::script" ∨
    ∃ entry ∈ h.bridge.functions, ∃ args world, event ∈ (entry.2.run args world).log

/-- The events at the end of a call: one with the result, shown as a text, or with the failure. -/
def EndsLog (shows : α → String → Prop) : Option (Except Failure α) → List LogEvent → Prop
  | some (.ok a), last => ∃ event text, last = [event] ∧ shows a text ∧
      event.Reads "rhai_bridge::executor" .info ("eval result: " ++ text)
  | some (.error f), last => ∃ event, last = [event] ∧
      event.Reads "rhai_bridge::executor" .warn ("eval failed: " ++ f.message)
  | none, last => last = []

/-- A call that runs a text goes alike whether it is logged or not. With logging, the text comes
before what the script writes, and the end of the call after it. -/
def IsLogged (h : Host ω) (source : String) (shows : α → String → Prop) (s : Store ω)
    (call : Bool → Option (Except Failure α) × Store ω) : Prop :=
  ∃ (result : Option (Except Failure α)) (world : ω) (cache : Cache Program)
    (prepared script last : List LogEvent) (first : LogEvent),
    (∀ event ∈ prepared, event.target = "rhai_bridge::prepare") ∧
    first.Reads "rhai_bridge::executor" .info source ∧
    (∀ event ∈ script, h.Writes event) ∧
    EndsLog shows result last ∧
    ∀ log, (call log).1 = result ∧ (call log).2.world = world ∧ (call log).2.cache = cache ∧
      (call log).2.events =
        s.events ++ prepared ++ if log then first :: (script ++ last) else script

/-- How the log shows the results of a way to execute a script. -/
def Entry.Shows (h : Host ω) (entry : Entry α) (a : α) (text : String) : Prop :=
  text = (entry.projection h).describe a

/-- How the log shows the results of a way to evaluate a batch: as host values, also when they are
asked for as values of a host type. -/
def BatchEntry.Shows : BatchEntry α → α → String → Prop
  | eval, values, text | execute _, values, text => text = Value.describeList values
  | evalInto t, results, text =>
    ∃ values : List Value, values.mapM t.ofValue = .ok results ∧ text = Value.describeList values

/-- The results of a batch, if there are any, can be read as they are asked for. -/
def BatchEntry.Reads (h : Host ω) (b : Batch) (names : List String) (rows : List Row)
    (s : Store ω) : BatchEntry α → Prop
  | evalInto t => ∀ values, (b.eval h names rows s).1 = some (.ok values) →
      ∃ results, values.mapM t.ofValue = .ok results
  | eval | execute _ => True

/-! ## Runs -/

/-- A call of the host writes what its function writes. -/
theorem Host.writes_of_origin {h : Host ω} {event : LogEvent} (hevent : h.origin.event event) :
    h.Writes event := by
  rcases hevent with ⟨text, rfl⟩ | ⟨text, line, rfl⟩ | ⟨name, args, world, hevent⟩
  · exact .inl rfl
  · exact .inl rfl
  · unfold Bridge.call at hevent
    split at hevent
    · cases hevent
    · next function hfunction =>
      split at hevent
      · exact .inr ⟨_, Fields.mem_of_get? hfunction, args, world, hevent⟩
      · cases hevent

/-- The end of a run in the log. -/
def lastEvents (describe : α → String) : Option (Except Failure α) → List LogEvent
  | some (.ok a) => [.finished (describe a)]
  | some (.error f) => [.failed f.message]
  | none => []

/-- The end of a run in the log is as it should be. -/
theorem endsLog_lastEvents (describe : α → String) (result : Option (Except Failure α)) :
    EndsLog (fun a text => text = describe a) result (lastEvents describe result) := by
  match result with
  | some (.ok a) => exact ⟨_, _, rfl, rfl, rfl, rfl, rfl⟩
  | some (.error f) => exact ⟨_, rfl, rfl, rfl, rfl⟩
  | none => rfl

namespace Prepared

variable {h : Host ω} {p : Prepared}

/-- How a script goes depends on the world, and what it writes is put on top of the log. -/
theorem IsFaithful.outcome_writes (hp : p.IsFaithful h) (vars : List (String × Value))
    (projection : Projection α) (world : ω) :
    ∃ (result : Option (Except Failure α)) (after : ω) (script : List LogEvent),
      (∀ event ∈ script, h.Writes event) ∧
      ∀ s : Store ω, s.world = world → p.outcome h (encodeBindings vars) projection s =
        (result, { s with world := after, log := script.reverse ++ s.log }) := by
  cases hprogram : p.program h with
  | error f =>
    refine ⟨some (.error f), world, [], by simp, ?_⟩
    rintro s rfl
    rw [outcome, hprogram]
    rfl
  | ok program =>
    have htraced := (hp.traced_run hprogram vars world).2
    cases hrun : (h.engine program).run Engine.ample program.body
        ((encodeBindings vars).machine world) with
    | mk ending m =>
      rw [hrun] at htraced
      have hwrites : ∀ event ∈ m.log.reverse, h.Writes event := fun event hevent =>
        Host.writes_of_origin (htraced.log event (List.mem_reverse.mp hevent))
      have hlog (s : Store ω) : m.log ++ s.log = m.log.reverse.reverse ++ s.log := by
        rw [List.reverse_reverse]
      cases ending with
      | value d =>
        refine ⟨projection.read d, m.world, m.log.reverse, hwrites, ?_⟩
        rintro s rfl
        simp only [outcome, hprogram, run, hrun, hlog]
      | fault x =>
        refine ⟨some (.error (.ofFault x p.source)), m.world, m.log.reverse, hwrites, ?_⟩
        rintro s rfl
        simp only [outcome, hprogram, run, hrun, hlog]
      | exhausted =>
        refine ⟨none, m.world, m.log.reverse, hwrites, ?_⟩
        rintro s rfl
        simp only [outcome, hprogram, run, hrun, hlog]

/-- An execution that is logged puts the text below what the script writes, and the end above. -/
theorem IsFaithful.evaluate_writes (hp : p.IsFaithful h) (vars : List (String × Value))
    (projection : Projection α) (world : ω) :
    ∃ (result : Option (Except Failure α)) (after : ω) (script : List LogEvent),
      (∀ event ∈ script, h.Writes event) ∧
      ∀ (s : Store ω) (options : ExecutionOptions), s.world = world →
        p.evaluate h (encodeBindings vars) options projection s =
          (result, { s with
            world := after
            log := (if options.log then
              lastEvents projection.describe result ++ script.reverse ++ [.starting p.source]
              else script.reverse) ++ s.log }) := by
  obtain ⟨result, after, script, hwrites, houtcome⟩ := hp.outcome_writes vars projection world
  refine ⟨result, after, script, hwrites, ?_⟩
  rintro s options rfl
  rw [evaluate]
  cases hlog : options.log with
  | false => exact houtcome s rfl
  | true =>
    simp only [if_true]
    rw [houtcome (s.record (.starting p.source)) rfl]
    cases result with
    | none => simp [Store.record, lastEvents]
    | some answer => cases answer <;> simp [Store.record, lastEvents]

/-- An execution is logged as it should be, in a store whose log has grown since the call. -/
theorem IsFaithful.isLogged (hp : p.IsFaithful h) (vars : List (String × Value))
    (projection : Projection α) (options : Bool → ExecutionOptions)
    (hoptions : ∀ log, (options log).log = log) {s t : Store ω} (prepared : List LogEvent)
    (hprepared : ∀ event ∈ prepared, event.target = "rhai_bridge::prepare")
    (hevents : t.events = s.events ++ prepared) :
    IsLogged h p.source (fun a text => text = projection.describe a) s fun log =>
      p.evaluate h (encodeBindings vars) (options log) projection t := by
  obtain ⟨result, after, script, hwrites, heq⟩ := hp.evaluate_writes vars projection t.world
  refine ⟨result, after, t.cache, prepared, script, lastEvents projection.describe result,
    .starting p.source, hprepared, ⟨rfl, rfl, rfl⟩, hwrites, endsLog_lastEvents _ result, ?_⟩
  intro log
  beta_reduce
  rw [heq t (options log) rfl, hoptions, ← hevents]
  refine ⟨rfl, rfl, rfl, ?_⟩
  cases log with
  | false => simp [Store.events]
  | true =>
    have hlast : (lastEvents projection.describe result).reverse =
        lastEvents projection.describe result := by
      unfold lastEvents
      split <;> rfl
    simp [Store.events, hlast]

end Prepared

/-! ## Batches -/

/-- Compiling a text ahead that compiles writes only that it was found or kept. -/
theorem Host.compile_writes {h : Host ω} {s : Store ω} (hs : s.IsFaithful h) {script : String}
    {program : Program} (hcompiled : h.compileText (h.sourceOf script) = .ok program) :
    ∃ (t : Store ω) (prepared : List LogEvent),
      h.compile script s = (.ok ⟨h.sourceOf script, some program⟩, t) ∧
        (∀ event ∈ prepared, event.target = "rhai_bridge::prepare") ∧
        t.events = s.events ++ prepared := by
  rw [compile]
  cases hfound : s.cache.find? (h.sourceOf script) with
  | some p =>
    obtain rfl : p = program := Except.ok.inj ((hs.find? hfound).symm.trans hcompiled)
    exact ⟨_, [.cacheHit (h.sourceOf script).utf8ByteSize], rfl, by simp [LogEvent.target],
      by simp [Store.events, Store.record]⟩
  | none =>
    simp only [hcompiled]
    split
    · exact ⟨s, [], rfl, by simp, by simp⟩
    · exact ⟨_, [.cacheFill (s.cache.insert h.config.cacheCapacity (h.sourceOf script) program).size], rfl,
        by simp [LogEvent.target], by simp [Store.events, Store.record]⟩

/-- The answer of a logged call may be turned into another one with the same end. -/
theorem IsLogged.map {β : Type} {h : Host ω} {source : String} {shows : α → String → Prop}
    {shows' : β → String → Prop} {s : Store ω}
    {call : Bool → Option (Except Failure α) × Store ω}
    (hcall : IsLogged h source shows s call)
    {g : Option (Except Failure α) → Option (Except Failure β)}
    (hends : ∀ last, EndsLog shows (call true).1 last → EndsLog shows' (g (call true).1) last) :
    IsLogged h source shows' s fun log => (g (call log).1, (call log).2) := by
  obtain ⟨result, world, cache, prepared, script, last, first, hprepared, hfirst, hscript, hlast,
    hlog⟩ := hcall
  rw [(hlog true).1] at hends
  refine ⟨g result, world, cache, prepared, script, last, first, hprepared, hfirst, hscript,
    hends last hlast, fun log => ?_⟩
  obtain ⟨hresult, hrest⟩ := hlog log
  exact ⟨congrArg g hresult, hrest⟩

/-- The answer is the same with logging and without. -/
theorem IsLogged.answer_eq {h : Host ω} {source : String} {shows : α → String → Prop} {s : Store ω}
    {call : Bool → Option (Except Failure α) × Store ω} (hcall : IsLogged h source shows s call)
    (log log' : Bool) : (call log).1 = (call log').1 := by
  obtain ⟨_, _, _, _, _, _, _, _, _, _, _, hlog⟩ := hcall
  exact (hlog log).1.trans (hlog log').1.symm

/-- The results of a batch as values of a host type come from those as host values. -/
theorem Batch.evalInto_eq (h : Host ω) (b : Batch) (t : Target) (names : List String)
    (rows : List Row) (s : Store ω) :
    b.evalInto h t names rows s =
      (t.ofOutcome (b.eval h names rows s).1, (b.eval h names rows s).2) := by
  rw [evalInto]
  split
  all_goals
    next heval => rw [heval]; rfl

/-- A batch with results has a script that compiles. -/
theorem Batch.script_of_eval {h : Host ω} {b : Batch} {names : List String} {rows : List Row}
    {s t : Store ω} (hs : s.IsFaithful h) {values : List Value}
    (heval : b.eval h names rows s = (some (.ok values), t)) :
    ∃ script program, b.script names = .ok script ∧
      h.compileText (h.sourceOf script) = .ok program := by
  rw [eval, execute] at heval
  split at heval
  · cases heval
  · next script hscript =>
    have hfst := h.compile_eq hs script
    cases hcompiled : h.compileText (h.sourceOf script) with
    | error f =>
      split at heval
      · cases heval
      · next p after hcompile =>
        rw [hcompile, hcompiled] at hfst
        cases hfst
    | ok program => exact ⟨script, program, hscript, hcompiled⟩

/-- A batch whose script compiles is logged as it should be. -/
theorem Batch.isLogged_execute {h : Host ω} {s : Store ω} (hs : s.IsFaithful h) {b : Batch}
    {names : List String} {script : String} (hscript : b.script names = .ok script)
    {program : Program} (hcompiled : h.compileText (h.sourceOf script) = .ok program)
    (rows : List Row) (options : Bool → ExecutionOptions) (c : Chain)
    (hoptions : ∀ log, (options log).log = log) (hchain : ∀ log, h.chain (options log) = c) :
    IsLogged h (h.sourceOf script) (fun values text => text = Value.describeList values) s
      fun log => b.execute h names rows (options log) s := by
  obtain ⟨t, prepared, hcompile, hprepared, hevents⟩ := Host.compile_writes hs hcompiled
  have hp : Prepared.IsFaithful h ⟨h.sourceOf script, some program⟩ := by
    rintro _ ⟨⟩
    exact hcompiled
  have heq (log : Bool) : b.execute h names rows (options log) s =
      Prepared.evaluate h ⟨h.sourceOf script, some program⟩
        (encodeBindings [(rowsName, .list (rows.map .map))]) (options log) (projection c) t := by
    rw [execute, hscript]
    simp only [hcompile, hchain]
    rfl
  simp only [heq]
  exact hp.isLogged _ (projection c) options hoptions prepared hprepared hevents

/-- So is a way to evaluate one, if the results can be read as they are asked for. -/
theorem BatchEntry.isLogged {h : Host ω} {s : Store ω} (hs : s.IsFaithful h) {b : Batch}
    {names : List String} {script : String} (hscript : b.script names = .ok script)
    {program : Program} (hcompiled : h.compileText (h.sourceOf script) = .ok program)
    {rows : List Row} {entry : BatchEntry α} (hreads : entry.Reads h b names rows s) :
    IsLogged h (h.sourceOf script) entry.Shows s fun log =>
      (entry.logging log).perform (h.logging log) b names rows s := by
  have hdefault := Batch.isLogged_execute hs hscript hcompiled rows
    (fun log => ⟨log, h.config.translate⟩) (h.chain h.config.defaultOptions)
    (fun _ => rfl) fun _ => rfl
  have heval (log : Bool) : b.eval (h.logging log) names rows s =
      b.execute h names rows ⟨log, h.config.translate⟩ s :=
    b.execute_logging h log names rows _ s
  cases entry with
  | eval =>
    simp only [logging, perform, heval]
    exact hdefault
  | execute options =>
    simp only [logging, perform, Batch.execute_logging]
    exact Batch.isLogged_execute hs hscript hcompiled rows (fun log => { options with log })
      (h.chain options) (fun _ => rfl) fun _ => rfl
  | evalInto t =>
    simp only [logging, perform, Batch.evalInto_eq, heval]
    refine hdefault.map fun last hlast => ?_
    -- Whether the values can be read is known of the call on the host as it is.
    have hread : ∀ values, (b.execute h names rows ⟨true, h.config.translate⟩ s).1 =
        some (.ok values) → ∃ results, values.mapM t.ofValue = .ok results :=
      fun values hvalues =>
        hreads values ((hdefault.answer_eq h.config.logScripts true).trans hvalues)
    generalize (b.execute h names rows ⟨true, h.config.translate⟩ s).1 = answer at hlast hread ⊢
    match answer with
    | some (.ok values) =>
      obtain ⟨event, text, heq, hshown, hevent⟩ := hlast
      obtain ⟨results, hresults⟩ := hread values rfl
      have hanswer : t.ofOutcome (some (.ok values)) = some (.ok results) := congrArg some hresults
      rw [hanswer]
      exact ⟨event, text, heq, ⟨values, hresults, hshown⟩, hevent⟩
    | some (.error f) => exact hlast
    | none => exact hlast

/-- **Calls are logged.** With logging, the events of a call that runs a script are the text of the
script, then what the script and the host functions write, and then the result or the failure.
Without logging they are what the script and the host functions write. The answer and what a call
leaves do not depend on logging. This holds of all ways to execute a prepared script, and of all
ways to evaluate a batch whose script compiles, if its results can be read as they are asked for; a
batch with a name that may not be the name of a row variable has no script, and is refused without
an event. -/
theorem calls_logged (h : Host ω) :
    (∀ p : Prepared, p.IsFaithful h → ∀ (α : Type) (entry : Entry α) (s : Store ω),
      IsLogged h p.source (entry.Shows h) s fun log =>
        (entry.logging log).perform (h.logging log) p s) ∧
    (∀ (b : Batch) (names : List String) (rows : List Row) (s : Store ω), s.IsFaithful h →
      ∀ script, b.script names = .ok script →
      ∀ program, h.compileText (h.sourceOf script) = .ok program →
      ∀ (α : Type) (entry : BatchEntry α), entry.Reads h b names rows s →
        IsLogged h (h.sourceOf script) entry.Shows s fun log =>
          (entry.logging log).perform (h.logging log) b names rows s) ∧
    ∀ (b : Batch) (names : List String) (rows : List Row) (s : Store ω) (f : Failure),
      b.script names = .error f → ∀ (α : Type) (entry : BatchEntry α) (log : Bool),
        (entry.logging log).perform (h.logging log) b names rows s = (some (.error f), s) := by
  refine ⟨fun p hp α entry s => ?_, fun b names rows s hs script hscript program hcompiled α entry
    hreads => BatchEntry.isLogged hs hscript hcompiled hreads,
    fun b names rows s f hscript α entry log => ?_⟩
  · have heq (log : Bool) : (entry.logging log).perform (h.logging log) p =
        p.evaluate h (encodeBindings entry.vars) ((entry.logging log).options (h.logging log))
          (entry.projection h) := by
      rw [Entry.perform_eq, Prepared.evaluate_logging]
      cases entry <;> rfl
    simp only [heq]
    refine hp.isLogged entry.vars (entry.projection h)
      (fun log => (entry.logging log).options (h.logging log)) (fun log => ?_) []
      (by simp) (by simp)
    cases entry <;> rfl
  · have hexecute (options : ExecutionOptions) :
        b.execute (h.logging log) names rows options s = (some (.error f), s) := by
      rw [Batch.execute, hscript]
    cases entry with
    | eval => exact hexecute _
    | execute options => exact hexecute _
    | evalInto t =>
      have heval : b.eval (h.logging log) names rows s = (some (.error f), s) := hexecute _
      simp only [BatchEntry.logging, BatchEntry.perform, Batch.evalInto_eq, heval]
      rfl

/-- A script that prints and a batch with one row are logged. -/
theorem calls_logged_one_row :
    let h : Host Unit := { bridge := .empty }
    let s : Store Unit := { world := () }
    let p := h.prepare "print(1); 2"
    let b : Batch := { result := "x" }
    let entry : BatchEntry (List Typed) := .evalInto ⟨"i64", .int64⟩
    let rows : List Row := [[("x", .int 7)]]
    IsLogged h p.source (Entry.run.Shows h) s
        (fun log => (Entry.run.logging log).perform (h.logging log) p s) ∧
      ∃ script, b.script ["x"] = .ok script ∧ IsLogged h (h.sourceOf script) entry.Shows s
        fun log => (entry.logging log).perform (h.logging log) b ["x"] rows s := by
  obtain ⟨after, hends⟩ : ∃ after, Batch.eval { bridge := .empty } { result := "x" } ["x"]
      [[("x", .int 7)]] { world := () } = (some (.ok [.int 7]), after) := by
    have hvalue : endsIn (·.mapM Value.int? == some [7]) (Batch.eval { bridge := .empty }
        { result := "x" } ["x"] [[("x", .int 7)]] { world := () }).1 = true := by decide +kernel
    obtain ⟨values, hvalues, htest⟩ := exists_of_endsIn hvalue
    rw [Value.eq_of_mapM_int? (beq_iff_eq.mp htest)] at hvalues
    exact ⟨_, Prod.ext hvalues rfl⟩
  intro h s p b entry rows
  obtain ⟨hprepared, hbatch, -⟩ := calls_logged h
  have heval : b.eval h ["x"] rows s = (some (.ok [.int 7]), after) := hends
  obtain ⟨script, program, hscript, hcompiled⟩ := Batch.script_of_eval (Store.IsFaithful.empty h () []) heval
  refine ⟨hprepared p (Prepared.isFaithful_afresh h _) Value .run s, script, hscript,
    hbatch b ["x"] rows s (Store.IsFaithful.empty h () []) script hscript program hcompiled _ entry ?_⟩
  intro values hvalues
  rw [heval] at hvalues
  cases hvalues
  exact ⟨[.int 7], rfl⟩

/-- A batch that is refused for the name of a row variable is not logged, with any text. -/
theorem refused_batch_unlogged :
    let h : Host Unit := { bridge := .empty }
    let s : Store Unit := { world := () }
    let call (log : Bool) := (BatchEntry.eval.logging log).perform (h.logging log) { result := "1" }
      ["a b"] [[]] s
    (call true).1 = some (.error (.custom "invalid batch variable name 'a b'")) ∧
      (call true).2.events = [] ∧
      ∀ source, ¬IsLogged h source BatchEntry.eval.Shows s call := by
  intro h s call
  refine ⟨rfl, rfl, ?_⟩
  rintro source ⟨_, _, _, prepared, script, last, first, -, -, -, -, hlog⟩
  obtain ⟨-, -, -, hevents⟩ := hlog true
  have hnone : [] = [] ++ prepared ++ first :: (script ++ last) := hevents
  simp at hnone

end ScriptHost
