import ScriptHost.Batch
import ScriptHost.Projection.Native

/-!
# Ways to execute a script

All ways to execute a prepared script are one execution. They differ in the variables, the options
and the projection only. A batch is evaluated in three ways, each with a script of its own.
-/

namespace ScriptHost

open Script

variable {ω α : Type}

/-- A way to execute a prepared script, by the type of its results. -/
inductive Entry : Type → Type where
  /-- Without variables. -/
  | run : Entry Value
  /-- With variables. -/
  | eval (vars : List (String × Value)) : Entry Value
  /-- With variables and options. -/
  | execute (vars : List (String × Value)) (options : ExecutionOptions) : Entry Value
  /-- With variables; the result is a script value of a type. -/
  | evalAs (t : NativeType) (vars : List (String × Value)) : Entry Datum
  /-- With variables; the result is a value of a host type. -/
  | evalInto (t : Target) (vars : List (String × Value)) : Entry Typed

namespace Entry

/-- Execute a prepared script. -/
def perform (h : Host ω) (p : Prepared) :
    Entry α → Store ω → Option (Except Failure α) × Store ω
  | run => p.eval h []
  | eval vars => p.eval h vars
  | execute vars options => p.execute h vars options
  | evalAs t vars => p.evalAs h t vars
  | evalInto t vars => p.evalInto h t vars

/-- The variables. -/
def vars : Entry α → List (String × Value)
  | run => []
  | eval vars | execute vars _ | evalAs _ vars | evalInto _ vars => vars

/-- The options. -/
def options (h : Host ω) : Entry α → ExecutionOptions
  | execute _ options => options
  | run | eval _ | evalAs .. | evalInto .. => h.config.defaultOptions

/-- How the result is read. -/
def projection (h : Host ω) : Entry α → Projection α
  | run | eval _ => Prepared.decoding (h.chain h.config.defaultOptions)
  | execute _ options => Prepared.decoding (h.chain options)
  | evalAs t _ => t.projection
  | evalInto t _ => t.projection h.rules

/-- A way to execute a script is an execution with its own variables, options and projection. -/
theorem perform_eq (h : Host ω) (p : Prepared) (entry : Entry α) :
    entry.perform h p =
      p.evaluate h (encodeBindings entry.vars) (entry.options h) (entry.projection h) := by
  cases entry <;> rfl

/-- A value that cannot be read is refused for its type. -/
theorem read_error {h : Host ω} {entry : Entry α} {d : Datum} {f : Failure}
    (hread : (entry.projection h).read d = some (.error f)) :
    ∃ expected actual, f = .projection expected actual := by
  have hdecoding (c : Chain) : (Prepared.decoding c).read d ≠ some (.error f) := by
    intro h
    obtain ⟨v, -, hv⟩ := Option.map_eq_some_iff.mp h
    cases hv
  cases entry with
  | run => exact absurd hread (hdecoding _)
  | eval vars => exact absurd hread (hdecoding _)
  | execute vars options => exact absurd hread (hdecoding _)
  | evalAs t vars =>
    simp only [projection, NativeType.projection] at hread
    split at hread <;> cases hread
    exact ⟨_, _, rfl⟩
  | evalInto t vars =>
    obtain ⟨v, -, hv⟩ := Option.map_eq_some_iff.mp hread
    rw [Target.ofValue] at hv
    split at hv <;> cases hv
    exact ⟨_, _, rfl⟩

end Entry

/-- A way to evaluate a batch, by the type of its results. -/
inductive BatchEntry : Type → Type where
  /-- As host values. -/
  | eval : BatchEntry (List Value)
  /-- As host values, with options. -/
  | execute (options : ExecutionOptions) : BatchEntry (List Value)
  /-- As values of a host type. -/
  | evalInto (t : Target) : BatchEntry (List Typed)

/-- Evaluate a batch on rows. -/
def BatchEntry.perform (h : Host ω) (b : Batch) (names : List String) (rows : List Row) :
    BatchEntry α → Store ω → Option (Except Failure α) × Store ω
  | eval => b.eval h names rows
  | execute options => b.execute h names rows options
  | evalInto t => b.evalInto h t names rows

end ScriptHost
