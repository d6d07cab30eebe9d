import ScriptHost.Proofs.Session

/-!
# Histories of requests

A caller sees the answers to its requests and not the cache. Whether a script is compiled ahead or
for every run, and whatever the cache keeps or forgets, the answers are those of a host that
compiles every text afresh whenever it runs.
-/

namespace ScriptHost

open Script

variable {ω : Type}

/-! ## What a store keeps -/

/-- The scripts that a store keeps are the scripts of their texts. -/
def Store.IsFaithful (h : Host ω) (s : Store ω) : Prop :=
  ∀ e ∈ s.cache.entries, h.compileText e.key = .ok e.item

/-- Making room adds no entry. -/
theorem Cache.mem_of_mem_trimmed {α : Type} {capacity : ℕ} {entries : List (CacheEntry α)}
    {e : CacheEntry α} (he : e ∈ trimmed capacity entries) : e ∈ entries := by
  induction entries using trimmed.induct capacity with
  | case1 entries hlarge ih =>
    rw [trimmed, if_pos hlarge] at he
    have hkept := ih he
    rw [withoutOldest] at hkept
    split at hkept
    · exact List.mem_of_mem_filter hkept
    · cases hkept
  | case2 entries hsmall => rwa [trimmed, if_neg hsmall] at he

namespace Store.IsFaithful

variable {h : Host ω} {s : Store ω}

/-- A store without scripts is faithful. -/
theorem empty (h : Host ω) (world : ω) (log : List LogEvent) :
    IsFaithful h { world, log } := fun _ he => nomatch he

/-- Only the cache matters. -/
theorem of_cache_eq {s' : Store ω} (hs : s.IsFaithful h) (heq : s'.cache = s.cache) :
    s'.IsFaithful h := fun e he => hs e (heq ▸ he)

/-- A script that is found is the script of the text. -/
theorem find? (hs : s.IsFaithful h) {text : String} {p : Program}
    (hfound : s.cache.find? text = some p) : h.compileText text = .ok p := by
  obtain ⟨e, he, rfl⟩ := Option.map_eq_some_iff.mp hfound
  have hkey : e.key = text := by simpa using List.find?_some he
  exact hkey ▸ hs e (List.mem_of_find?_eq_some he)

/-- Compiling a script ahead keeps a store faithful. -/
theorem compile (hs : s.IsFaithful h) (script : String) :
    (h.compile script s).2.IsFaithful h := by
  intro e he
  rw [Host.compile_cache, Host.cacheAfter] at he
  split at he
  · obtain ⟨old, hold, rfl⟩ := List.mem_map.mp he
    have hkept := hs old hold
    split <;> exact hkept
  · exact hs e he
  · next p _ hcompiled =>
    split at he
    · exact hs e he
    · rcases List.mem_cons.mp (Cache.mem_of_mem_trimmed he) with rfl | hold
      · exact hcompiled
      · exact hs e (List.mem_of_mem_filter hold)

/-- Whatever is done on a host, its store stays faithful. -/
theorem applyAll {ops : List Operation} (world : ω) (log : List LogEvent) :
    (Operation.applyAll h { world, log } ops).IsFaithful h := by
  obtain ⟨ordered, hordered⟩ := Operation.applyAll_remembers h world log ops
  exact fun e he => hordered.compiled e (hordered.ranked.perm.mem_iff.mpr he)

end Store.IsFaithful

/-- Compiling a script ahead compiles its full text, or finds what this gave. -/
theorem Host.compile_eq {h : Host ω} {s : Store ω} (hs : s.IsFaithful h) (script : String) :
    (h.compile script s).1 =
      (h.compileText (h.sourceOf script)).map fun p => ⟨h.sourceOf script, some p⟩ := by
  rw [compile]
  cases hfound : s.cache.find? (h.sourceOf script) with
  | some p =>
    rw [hs.find? hfound]
    rfl
  | none =>
    cases h.compileText (h.sourceOf script) with
    | error f => rfl
    | ok p =>
      dsimp only
      split <;> rfl

/-- Compiling a script ahead leaves the world as it is. -/
theorem Host.compile_world (h : Host ω) (script : String) (s : Store ω) :
    (h.compile script s).2.world = s.world := by
  rw [compile]
  cases s.cache.find? (h.sourceOf script) with
  | some p => rfl
  | none =>
    cases h.compileText (h.sourceOf script) with
    | error f => rfl
    | ok p =>
      dsimp only
      split <;> rfl

/-! ## Executions -/

/-- What a caller notices of a step on a store: its answer, and the world after it. -/
def noticed {α : Type} (r : α × Store ω) : α × ω := (r.1, r.2.world)

/-- Whether an answer is a value that passes a test. -/
def endsIn {α : Type} (test : α → Bool) : Option (Except Failure α) → Bool
  | some (.ok a) => test a
  | _ => false

/-- An answer that is a value passing a test. -/
theorem exists_of_endsIn {α : Type} {test : α → Bool} {answer : Option (Except Failure α)}
    (h : endsIn test answer = true) : ∃ a, answer = some (.ok a) ∧ test a = true := by
  unfold endsIn at h
  split at h
  · exact ⟨_, rfl, h⟩
  · cases h

/-- Whether an answer is a failure that passes a test. -/
def failsIn {α : Type} (test : Failure → Bool) : Option (Except Failure α) → Bool
  | some (.error f) => test f
  | _ => false

/-- An answer that is a failure passing a test. -/
theorem exists_of_failsIn {α : Type} {test : Failure → Bool} {answer : Option (Except Failure α)}
    (h : failsIn test answer = true) : ∃ f, answer = some (.error f) ∧ test f = true := by
  unfold failsIn at h
  split at h
  · exact ⟨_, rfl, h⟩
  · cases h

namespace Script.Failure

/-- What a failure of a host function says, if it is one. -/
def hostFunction? : Failure → Option (String × String × Option String)
  | hostFunction name message script => some (name, message, script)
  | _ => none

/-- Only a failure of a host function says so. -/
theorem eq_of_hostFunction? {f : Failure} {name message : String} {script : Option String}
    (h : f.hostFunction? = some (name, message, script)) :
    f = hostFunction name message script := by
  unfold hostFunction? at h
  split at h
  · cases h
    rfl
  · cases h

/-- What a failure of a projection says, if it is one. -/
def projection? : Failure → Option (String × String)
  | projection expected actual => some (expected, actual)
  | _ => none

/-- Only a failure of a projection says so. -/
theorem eq_of_projection? {f : Failure} {expected actual : String}
    (h : f.projection? = some (expected, actual)) : f = projection expected actual := by
  unfold projection? at h
  split at h
  · cases h
    rfl
  · cases h

end Script.Failure

namespace Value

/-- The integer, if the value is one of 64 bits. -/
def int? : Value → Option Int
  | int i => some i
  | _ => none

/-- The integers, if the value is a sequence of them. -/
def ints? (v : Value) : Option (List Int) := v.asList?.bind (·.mapM int?)

/-- Only an integer gives itself. -/
theorem eq_of_int? {v : Value} {i : Int} (h : v.int? = some i) : v = int i := by
  unfold int? at h
  split at h
  · rw [Option.some.inj h]
  · cases h

/-- Only a list of integers gives them. -/
theorem eq_of_mapM_int? {vs : List Value} {is : List Int} (h : vs.mapM int? = some is) :
    vs = is.map int := by
  induction vs generalizing is with
  | nil =>
    cases h
    rfl
  | cons v rest ih =>
    rw [List.mapM_cons] at h
    obtain ⟨i, hi, h⟩ := Option.bind_eq_some_iff.mp h
    obtain ⟨others, hothers, h⟩ := Option.bind_eq_some_iff.mp h
    cases h
    rw [eq_of_int? hi, ih hothers, List.map_cons]

/-- Only a sequence of integers gives them. -/
theorem eq_of_ints? {v : Value} {is : List Int} (h : v.ints? = some is) :
    v = list (is.map int) := by
  obtain ⟨items, hitems, h⟩ := Option.bind_eq_some_iff.mp h
  unfold asList? at hitems
  split at hitems
  · rw [← eq_of_mapM_int? h, Option.some.inj hitems]
  · cases hitems

end Value

namespace Prepared

/-- A full text, to be compiled when it runs. -/
def afresh (text : String) : Prepared := ⟨text, none⟩

/-- A script compiled ahead is the script of its text. -/
def IsFaithful (h : Host ω) (p : Prepared) : Prop :=
  ∀ program, p.program? = some program → h.compileText p.source = .ok program

/-- Preparing without compiling is faithful. -/
theorem isFaithful_afresh (h : Host ω) (text : String) : (afresh text).IsFaithful h :=
  fun _ hprogram => nomatch hprogram

/-- A faithful script is the one that compiling its text gives. -/
theorem IsFaithful.program_eq {h : Host ω} {p : Prepared} (hp : p.IsFaithful h) :
    p.program h = (afresh p.source).program h := by
  rw [program]
  split
  · next program hprogram => exact (hp program hprogram).symm
  · rfl

variable {α : Type}

/-- What a run gives depends on the text, the script, the variables and the world alone. -/
theorem run_noticed (h : Host ω) (p : Prepared) (program : Program) (vars : Bindings)
    {s t : Store ω} (hworld : s.world = t.world) :
    noticed (p.run h program vars s) =
      noticed ((afresh p.source).run h program vars t) := by
  simp only [run, noticed, afresh, hworld]
  split <;> rfl

/-- Two scripts whose runs cannot be told apart have the same projected values. -/
theorem outcome_congr {h : Host ω} {p q : Prepared} {vars : Bindings} {s t : Store ω}
    (hprogram : p.program h = q.program h)
    (hrun : ∀ program, noticed (p.run h program vars s) = noticed (q.run h program vars t))
    (hworld : s.world = t.world) (projection : Projection α) :
    noticed (p.outcome h vars projection s) = noticed (q.outcome h vars projection t) := by
  rw [outcome, outcome, hprogram]
  cases q.program h with
  | error f => simp only [noticed, hworld]
  | ok program =>
    have hrun := hrun program
    dsimp only
    generalize p.run h program vars s = r at hrun
    generalize q.run h program vars t = r' at hrun
    obtain ⟨ending, after⟩ := r
    obtain ⟨ending', after'⟩ := r'
    obtain ⟨rfl, hafter⟩ : ending = ending' ∧ after.world = after'.world := Prod.mk.inj hrun
    cases ending with
    | none => exact Prod.ext rfl hafter
    | some answer => cases answer <;> exact Prod.ext rfl hafter

/-- What the projected value of a run gives depends on no more than the run. -/
theorem IsFaithful.outcome_noticed {h : Host ω} {p : Prepared} (hp : p.IsFaithful h)
    (vars : Bindings) (projection : Projection α) {s t : Store ω} (hworld : s.world = t.world) :
    noticed (p.outcome h vars projection s) =
      noticed ((afresh p.source).outcome h vars projection t) :=
  outcome_congr hp.program_eq (fun program => p.run_noticed h program vars hworld) hworld projection

/-- Nor does it depend on what has been written so far. -/
theorem outcome_log (h : Host ω) (p : Prepared) (vars : Bindings) (projection : Projection α)
    {s t : Store ω} (hworld : s.world = t.world) :
    noticed (p.outcome h vars projection s) = noticed (p.outcome h vars projection t) := by
  refine outcome_congr rfl (fun program => ?_) hworld projection
  have hs := p.run_noticed h program vars hworld
  have ht := p.run_noticed h program vars (Eq.refl t.world)
  exact hs.trans ht.symm

/-- Logging changes neither the outcome of an execution nor the world. -/
theorem evaluate_noticed (h : Host ω) (p : Prepared) (vars : Bindings)
    (options : ExecutionOptions) (projection : Projection α) (s : Store ω) :
    noticed (p.evaluate h vars options projection s) = noticed (p.outcome h vars projection
      (if options.log then s.record (.starting p.source) else s)) := by
  rw [evaluate]
  generalize p.outcome h vars projection
    (if options.log then s.record (.starting p.source) else s) = r
  obtain ⟨o, after⟩ := r
  cases options.log with
  | false => rfl
  | true =>
    cases o with
    | none => rfl
    | some answer => cases answer <;> rfl

/-- An execution gives the outcome of its script, whether it is logged or not. -/
theorem evaluate_eq_outcome (h : Host ω) (p : Prepared) (vars : Bindings)
    (options : ExecutionOptions) (projection : Projection α) (s : Store ω) :
    noticed (p.evaluate h vars options projection s) = noticed (p.outcome h vars projection s) := by
  rw [evaluate_noticed]
  refine p.outcome_log h vars projection ?_
  split <;> rfl

/-- An execution of a faithful script is one of its text, compiled afresh in any store of the same
world. -/
theorem IsFaithful.evaluate_noticed {h : Host ω} {p : Prepared} (hp : p.IsFaithful h)
    (vars : Bindings) (options : ExecutionOptions) (projection : Projection α) {s t : Store ω}
    (hworld : s.world = t.world) :
    noticed (p.evaluate h vars options projection s) =
      noticed ((afresh p.source).evaluate h vars options projection t) := by
  rw [Prepared.evaluate_noticed, Prepared.evaluate_noticed]
  refine hp.outcome_noticed vars projection ?_
  split <;> exact hworld

/-- A text that does not compile fails whenever it is executed, before anything has run. -/
theorem evaluate_afresh_error {h : Host ω} {text : String} {f : Failure}
    (hfail : h.compileText text = .error f) (vars : Bindings) (options : ExecutionOptions)
    (projection : Projection α) (s : Store ω) :
    noticed ((afresh text).evaluate h vars options projection s) = (some (.error f), s.world) := by
  have hprogram : (afresh text).program h = .error f := hfail
  rw [Prepared.evaluate_noticed, outcome, hprogram]
  cases options.log <;> rfl

end Prepared

/-- A batch executes its script as if it was compiled afresh. -/
theorem Batch.execute_noticed {h : Host ω} {s : Store ω} (hs : s.IsFaithful h) (b : Batch)
    (names : List String) (rows : List Row) (options : ExecutionOptions) {script : String}
    (hscript : b.script names = .ok script) {t : Store ω} (hworld : s.world = t.world) :
    noticed (b.execute h names rows options s) =
      noticed ((Prepared.afresh (h.sourceOf script)).evaluate h
        [(rowsName, encode (.list (rows.map .map)))] options (projection (h.chain options)) t) := by
  have hfst := h.compile_eq hs script
  have hafter := h.compile_world script s
  rw [execute, hscript]
  dsimp only
  generalize h.compile script s = r at hfst hafter
  obtain ⟨compiled, after⟩ := r
  obtain rfl : compiled = _ := hfst
  cases hcompiled : h.compileText (h.sourceOf script) with
  | error f =>
    rw [Prepared.evaluate_afresh_error hcompiled, ← hworld, ← hafter]
    rfl
  | ok program =>
    have hp : Prepared.IsFaithful h ⟨h.sourceOf script, some program⟩ := by
      rintro _ ⟨⟩
      exact hcompiled
    exact hp.evaluate_noticed _ options _ (hafter.trans hworld)

/-! ## What a run of the engine tells -/

namespace Prepared

variable {α : Type} {h : Host ω} {text : String} {program : Program}

/-- A run that ends with a value has its projection as its outcome. -/
theorem evaluate_value (hcompiled : h.compileText text = .ok program) {vars : Bindings}
    {s : Store ω} {d : Datum} {m : Machine ω}
    (hrun : (h.engine program).run Engine.ample program.body (vars.machine s.world) = (.value d, m))
    (options : ExecutionOptions) (projection : Projection α) :
    noticed ((afresh text).evaluate h vars options projection s) =
      (projection.read d, m.world) := by
  have hprogram : (afresh text).program h = .ok program := hcompiled
  have hstart : (if options.log then s.record (.starting text) else s).world = s.world := by
    split <;> rfl
  rw [← hstart] at hrun
  rw [Prepared.evaluate_noticed, outcome, hprogram]
  simp only [run, afresh, hrun]
  rfl

/-- A run that ends in a fault fails as the fault says. -/
theorem evaluate_fault (hcompiled : h.compileText text = .ok program) {vars : Bindings}
    {s : Store ω} {f : Fault} {m : Machine ω}
    (hrun : (h.engine program).run Engine.ample program.body (vars.machine s.world) = (.fault f, m))
    (options : ExecutionOptions) (projection : Projection α) :
    noticed ((afresh text).evaluate h vars options projection s) =
      (some (.error (.ofFault f text)), m.world) := by
  have hprogram : (afresh text).program h = .ok program := hcompiled
  have hstart : (if options.log then s.record (.starting text) else s).world = s.world := by
    split <;> rfl
  rw [← hstart] at hrun
  rw [Prepared.evaluate_noticed, outcome, hprogram]
  simp only [run, afresh, hrun]
  rfl

/-- A run that ends in a fault with a failure in it fails with that failure, which names the
script. -/
theorem evaluate_carried (hcompiled : h.compileText text = .ok program) {vars : Bindings}
    {s : Store ω} {x : Fault} {f : Failure} {m : Machine ω}
    (hrun : (h.engine program).run Engine.ample program.body (vars.machine s.world) = (.fault x, m))
    (hcarried : Failure.carried? x = some f) (options : ExecutionOptions)
    (projection : Projection α) :
    noticed ((afresh text).evaluate h vars options projection s) =
      (some (.error (f.inScript text)), m.world) := by
  rw [evaluate_fault hcompiled hrun options projection, Failure.ofFault, hcarried]

end Prepared

/-! ## Requests and answers -/

/-- A request to a host. Prepared scripts are known by their number, the first one prepared having
the number zero. -/
inductive Request : Type 1 where
  /-- Prepare a script that is compiled anew for every run. -/
  | prepare (script : String)
  /-- Prepare a script that is compiled ahead. -/
  | compile (script : String)
  /-- Drop all compiled scripts from the cache. -/
  | clear
  /-- Execute a prepared script and project its value. -/
  | run (number : ℕ) (vars : Bindings) (options : ExecutionOptions) {α : Type}
      (projection : Projection α)
  /-- Evaluate a batch on rows; the results are host values. -/
  | batch (b : Batch) (names : List String) (rows : List Row) (options : ExecutionOptions)
  /-- Evaluate a batch on rows; the results are values of a host type. -/
  | batchInto (b : Batch) (t : Target) (names : List String) (rows : List Row)

/-- The answer to a request. -/
inductive Answer : Type 1 where
  /-- There is nothing to tell. -/
  | done
  /-- The full text of a script that has been prepared, or why it has not. -/
  | prepared (text : Except Failure String)
  /-- How an execution ended. -/
  | ended {α : Type} (outcome : Option (Except Failure α))

/-- Results of a batch as values of a host type. -/
def Target.ofOutcome (t : Target) :
    Option (Except Failure (List Value)) → Option (Except Failure (List Typed)) :=
  Option.map fun result => result.bind fun values => values.mapM t.ofValue

/-- A host in use: its store, and the scripts prepared so far. -/
structure Conversation (ω : Type) where
  /-- The store. -/
  store : Store ω
  /-- The prepared scripts, first one first. -/
  scripts : List Prepared := []

/-- The answer of a host to a request, and the host after it. -/
def Conversation.ask (h : Host ω) (c : Conversation ω) : Request → Answer × Conversation ω
  | .prepare script =>
    let p := h.prepare script
    (.prepared (.ok p.source), { c with scripts := c.scripts ++ [p] })
  | .compile script =>
    match h.compile script c.store with
    | (.ok p, s) => (.prepared (.ok p.source), ⟨s, c.scripts ++ [p]⟩)
    | (.error f, s) => (.prepared (.error f), { c with store := s })
  | .clear => (.done, { c with store := c.store.clearCache })
  | .run number vars options projection =>
    match c.scripts[number]? with
    | none => (.done, c)
    | some p =>
      let (o, s) := p.evaluate h vars options projection c.store
      (.ended o, { c with store := s })
  | .batch b names rows options =>
    let (o, s) := b.execute h names rows options c.store
    (.ended o, { c with store := s })
  | .batchInto b t names rows =>
    let (o, s) := b.evalInto h t names rows c.store
    (.ended o, { c with store := s })

/-- What a host without a cache has to remember. -/
structure Memory (ω : Type) where
  /-- The world. -/
  world : ω
  /-- The full texts of the prepared scripts, first one first. -/
  texts : List String := []

namespace Memory

/-- Execute a full text: compile it now, in a store without anything. -/
def execute {α : Type} (h : Host ω) (m : Memory ω) (text : String) (vars : Bindings)
    (options : ExecutionOptions) (projection : Projection α) :
    Option (Except Failure α) × ω :=
  noticed ((Prepared.afresh text).evaluate h vars options projection { world := m.world })

/-- Evaluate a batch: compile its script now. -/
def batch (h : Host ω) (m : Memory ω) (b : Batch) (names : List String) (rows : List Row)
    (options : ExecutionOptions) : Option (Except Failure (List Value)) × ω :=
  match b.script names with
  | .error f => (some (.error f), m.world)
  | .ok script =>
    m.execute h (h.sourceOf script) [(Batch.rowsName, encode (.list (rows.map .map)))] options
      (Batch.projection (h.chain options))

/-- The answer to a request when every script is compiled afresh. -/
def ask (h : Host ω) (m : Memory ω) : Request → Answer × Memory ω
  | .prepare script =>
    let text := h.sourceOf script
    (.prepared (.ok text), { m with texts := m.texts ++ [text] })
  | .compile script =>
    let text := h.sourceOf script
    match h.compileText text with
    | .ok _ => (.prepared (.ok text), { m with texts := m.texts ++ [text] })
    | .error f => (.prepared (.error f), m)
  | .clear => (.done, m)
  | .run number vars options projection =>
    match m.texts[number]? with
    | none => (.done, m)
    | some text =>
      let (o, world) := m.execute h text vars options projection
      (.ended o, { m with world })
  | .batch b names rows options =>
    let (o, world) := m.batch h b names rows options
    (.ended o, { m with world })
  | .batchInto b t names rows =>
    let (o, world) := m.batch h b names rows h.config.defaultOptions
    (.ended (t.ofOutcome o), { m with world })

end Memory

/-- The answers to requests, asked in order of a state that changes with each. -/
def askAll {σ : Type} (ask : σ → Request → Answer × σ) : σ → List Request → List Answer × σ
  | c, [] => ([], c)
  | c, request :: rest =>
    let (answer, after) := ask c request
    let (answers, last) := askAll ask after rest
    (answer :: answers, last)

/-! ## The two hosts side by side -/

/-- A host in use and one that compiles every text afresh have come to the same point. -/
structure Conversation.Matches (h : Host ω) (c : Conversation ω) (m : Memory ω) : Prop where
  /-- The worlds are the same. -/
  world : c.store.world = m.world
  /-- What the store keeps are the scripts of their texts. -/
  store : c.store.IsFaithful h
  /-- So are the prepared scripts. -/
  scripts : ∀ p ∈ c.scripts, p.IsFaithful h
  /-- The prepared scripts have the remembered texts. -/
  texts : c.scripts.map (·.source) = m.texts

namespace Conversation.Matches

variable {h : Host ω} {c : Conversation ω} {m : Memory ω}

/-- One more faithful script is one more text. -/
theorem add (hc : c.Matches h m) {s : Store ω} (hworld : s.world = c.store.world)
    (hs : s.IsFaithful h) {p : Prepared} (hp : p.IsFaithful h) :
    Matches h ⟨s, c.scripts ++ [p]⟩ { m with texts := m.texts ++ [p.source] } where
  world := hworld.trans hc.world
  store := hs
  scripts := by
    intro q hq
    rcases List.mem_append.mp hq with hq | hq
    · exact hc.scripts q hq
    · exact List.mem_singleton.mp hq ▸ hp
  texts := by rw [List.map_append, hc.texts, List.map_singleton]

/-- A step that only runs leaves both at the same point again. -/
theorem ran {α : Type} (hc : c.Matches h m) {r : α × Store ω} {r' : α × ω} (heq : noticed r = r')
    (hs : r.2.IsFaithful h) :
    r.1 = r'.1 ∧ Matches h { c with store := r.2 } { m with world := r'.2 } := by
  subst heq
  exact ⟨rfl, rfl, hs, hc.scripts, hc.texts⟩

/-- Both evaluate a batch alike. -/
theorem batch (hc : c.Matches h m) (b : Batch) (names : List String) (rows : List Row)
    (options : ExecutionOptions) :
    noticed (b.execute h names rows options c.store) = m.batch h b names rows options ∧
      (b.execute h names rows options c.store).2.IsFaithful h := by
  have hcache := b.execute_cache h names rows options c.store
  cases hscript : b.script names with
  | error f =>
    rw [hscript] at hcache
    refine ⟨?_, hc.store.of_cache_eq hcache⟩
    simp only [Batch.execute, Memory.batch, hscript, noticed, hc.world]
  | ok script =>
    rw [hscript] at hcache
    refine ⟨?_, (hc.store.compile script).of_cache_eq hcache⟩
    rw [Batch.execute_noticed hc.store b names rows options hscript
      (t := { world := m.world }) hc.world]
    simp only [Memory.batch, Memory.execute, hscript]

/-- One request gets one answer of both, and leaves them at the same point. -/
theorem ask (hc : c.Matches h m) (request : Request) :
    (c.ask h request).1 = (m.ask h request).1 ∧
      Matches h (c.ask h request).2 (m.ask h request).2 := by
  cases request with
  | prepare script => exact ⟨rfl, hc.add rfl hc.store (Prepared.isFaithful_afresh h _)⟩
  | compile script =>
    have hfst := h.compile_eq hc.store script
    have hafter := h.compile_world script c.store
    have hstore := hc.store.compile script
    simp only [Conversation.ask, Memory.ask]
    generalize h.compile script c.store = r at hfst hafter hstore
    obtain ⟨compiled, after⟩ := r
    obtain rfl : compiled = _ := hfst
    cases hcompiled : h.compileText (h.sourceOf script) with
    | error f => exact ⟨rfl, hafter.trans hc.world, hstore, hc.scripts, hc.texts⟩
    | ok program =>
      have hp : Prepared.IsFaithful h ⟨h.sourceOf script, some program⟩ := by
        rintro _ ⟨⟩
        exact hcompiled
      exact ⟨rfl, hc.add hafter hstore hp⟩
  | clear => exact ⟨rfl, hc.world, (fun _ he => nomatch he), hc.scripts, hc.texts⟩
  | run number vars options projection =>
    have htext : m.texts[number]? = c.scripts[number]?.map (·.source) := by
      rw [← hc.texts, List.getElem?_map]
    simp only [Conversation.ask, Memory.ask, htext]
    cases hp : c.scripts[number]? with
    | none => exact ⟨rfl, hc⟩
    | some p =>
      have hrun := (hc.scripts p (List.mem_of_getElem? hp)).evaluate_noticed vars options projection
        (s := c.store) (t := { world := m.world }) hc.world
      obtain ⟨heq, hmatch⟩ := hc.ran hrun
        (hc.store.of_cache_eq (p.evaluate_cache h vars options projection c.store))
      exact ⟨congrArg Answer.ended heq, hmatch⟩
  | batch b names rows options =>
    obtain ⟨hbatch, hstore⟩ := hc.batch b names rows options
    obtain ⟨heq, hmatch⟩ := hc.ran hbatch hstore
    exact ⟨congrArg Answer.ended heq, hmatch⟩
  | batchInto b t names rows =>
    obtain ⟨hbatch, hstore⟩ := hc.batch b names rows h.config.defaultOptions
    obtain ⟨heq, hmatch⟩ := hc.ran hbatch hstore
    have hinto : b.evalInto h t names rows c.store =
        (t.ofOutcome (b.execute h names rows h.config.defaultOptions c.store).1,
          (b.execute h names rows h.config.defaultOptions c.store).2) := by
      rw [Batch.evalInto, Batch.eval]
      split
      all_goals
        next hexecute => rw [hexecute]; rfl
    simp only [Conversation.ask, Memory.ask, hinto]
    exact ⟨congrArg (fun o => Answer.ended (t.ofOutcome o)) heq, hmatch⟩

/-- All requests get the same answers of both. -/
theorem askAll (hc : c.Matches h m) (requests : List Request) :
    (ScriptHost.askAll (Conversation.ask h) c requests).1 =
        (ScriptHost.askAll (Memory.ask h) m requests).1 ∧
      Matches h (ScriptHost.askAll (Conversation.ask h) c requests).2
        (ScriptHost.askAll (Memory.ask h) m requests).2 := by
  induction requests generalizing c m with
  | nil => exact ⟨rfl, hc⟩
  | cons request rest ih =>
    obtain ⟨heq, hmatch⟩ := hc.ask request
    obtain ⟨hrest, hlast⟩ := ih hmatch
    exact ⟨List.cons_eq_cons.mpr ⟨heq, hrest⟩, hlast⟩

end Conversation.Matches

/-- **No answer tells whether and when a script was compiled.** Any requests to a new host, of any
capacity, get the answers that they get when every script is compiled afresh from its full text
whenever it runs, and leave the same world. After them, compiling a script ahead fails exactly as
the compilation in an execution of the script does, and then every execution ends in this failure
and runs nothing; otherwise the compiled script and the script that is compiled for every run have
the same outcomes in all stores of the same world, whatever their caches hold. -/
theorem askAll_eq_afresh (h : Host ω) (world : ω) (log : List LogEvent)
    (requests : List Request) :
    let used := askAll (Conversation.ask h) ⟨{ world, log }, []⟩ requests
    let afresh := askAll (Memory.ask h) ⟨world, []⟩ requests
    used.1 = afresh.1 ∧
    used.2.store.world = afresh.2.world ∧
    (∀ script f, (h.compile script used.2.store).1 = .error f ↔
      (h.prepare script).program h = .error f) ∧
    (∀ script f, (h.compile script used.2.store).1 = .error f →
      (∃ problem pos, f = .compile problem pos (h.sourceOf script)) ∧
      ∀ {α : Type} vars options (projection : Projection α) s,
        noticed ((h.prepare script).evaluate h vars options projection s) =
          (some (.error f), s.world)) ∧
    (∀ script p, (h.compile script used.2.store).1 = .ok p →
      ∀ {α : Type} vars options (projection : Projection α) s s', s.world = s'.world →
        noticed (p.evaluate h vars options projection s) =
          noticed ((h.prepare script).evaluate h vars options projection s')) := by
  intro used afresh
  have hstart : Conversation.Matches h ⟨{ world, log }, []⟩ ⟨world, []⟩ :=
    ⟨rfl, .empty h world log, (fun _ hp => nomatch hp), rfl⟩
  obtain ⟨hanswers, hlast⟩ := hstart.askAll requests
  have hcompile (script : String) : (h.compile script used.2.store).1 =
      ((h.prepare script).program h).map fun p => ⟨h.sourceOf script, some p⟩ :=
    h.compile_eq hlast.store script
  have hfails (script : String) (f : Failure) :
      (h.compile script used.2.store).1 = .error f ↔ (h.prepare script).program h = .error f := by
    rw [hcompile]
    cases (h.prepare script).program h <;> simp [Except.map]
  refine ⟨hanswers, hlast.world, hfails, fun script f hfail => ?_, fun script p hok => ?_⟩
  · have hcompiled : h.compileText (h.sourceOf script) = .error f := (hfails script f).mp hfail
    refine ⟨?_, fun vars options projection s =>
      Prepared.evaluate_afresh_error hcompiled vars options projection s⟩
    rw [Host.compileText] at hcompiled
    split at hcompiled
    · cases hcompiled
    · next problem pos _ =>
      cases hcompiled
      exact ⟨problem, pos, rfl⟩
  · intro α vars options projection s s' hworld
    rw [hcompile] at hok
    obtain ⟨program, hprogram, rfl⟩ : ∃ program, (h.prepare script).program h = .ok program ∧
        p = ⟨h.sourceOf script, some program⟩ := by
      cases hprogram : (h.prepare script).program h with
      | error f => rw [hprogram] at hok; cases hok
      | ok program => rw [hprogram] at hok; cases hok; exact ⟨program, rfl, rfl⟩
    have hp : Prepared.IsFaithful h ⟨h.sourceOf script, some program⟩ := by
      rintro _ ⟨⟩
      exact hprogram
    exact hp.evaluate_noticed vars options projection hworld

end ScriptHost
