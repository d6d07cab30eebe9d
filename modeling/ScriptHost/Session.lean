import ScriptHost.Batch
import ScriptHost.Projection.Native

/-!
# Sessions

What a caller does with one host over time: it prepares and compiles scripts, runs prepared ones,
evaluates batches and drops the compiled scripts. Only the store of the host changes.
-/

namespace ScriptHost

open Script

/-- An operation on a host. -/
inductive Operation : Type 1 where
  /-- Prepare a script that is compiled anew for every run. -/
  | prepare (script : String)
  /-- Compile a script ahead. -/
  | compile (script : String)
  /-- Drop all compiled scripts. -/
  | clear
  /-- Run a prepared script and project its value. -/
  | run (p : Prepared) (vars : Bindings) (options : ExecutionOptions) {α : Type}
      (projection : Projection α)
  /-- Evaluate a batch on rows; the results are host values. -/
  | batch (b : Batch) (names : List String) (rows : List Row) (options : ExecutionOptions)
  /-- Evaluate a batch on rows; the results are values of a host type. -/
  | batchInto (b : Batch) (t : Target) (names : List String) (rows : List Row)

namespace Operation

variable {ω : Type}

/-- The store after an operation. -/
def apply (h : Host ω) (s : Store ω) : Operation → Store ω
  | prepare _ => s
  | compile script => (h.compile script s).2
  | clear => s.clearCache
  | run p vars options projection => (p.evaluate h vars options projection s).2
  | batch b names rows options => (b.execute h names rows options s).2
  | batchInto b t names rows => (b.evalInto h t names rows s).2

/-- The store after operations, first one first. -/
def applyAll (h : Host ω) (s : Store ω) (ops : List Operation) : Store ω := ops.foldl (apply h) s

end Operation

end ScriptHost
