import ScriptHost.Host

/-!
# Executions

An execution binds variables, runs a prepared script and projects its value. With logging, the text
of the script comes first and the result or the failure last. An execution that meets no end within
its bound has no answer.
-/

namespace ScriptHost

open Script

/-- The variables of an execution; of several of one name the last counts. -/
abbrev Bindings := List (String × Datum)

/-- How results are read and shown. -/
structure Projection (α : Type) where
  /-- The result of a value; no answer if it cannot be told. -/
  read : Datum → Option (Except Failure α)
  /-- The text of a result in the log. -/
  describe : α → String

/-- Encode variables. -/
def encodeBindings (vars : List (String × Value)) : Bindings :=
  vars.map fun (name, v) => (name, encode v)

/-- The machine on which a script starts. -/
def Bindings.machine {ω : Type} (vars : Bindings) (world : ω) : Machine ω :=
  { locals := (vars.map fun (name, d) => (⟨name, false, .own d⟩ : Variable)).reverse, world }

/-- The engine that runs a script. -/
def Host.engine {ω : Type} (h : Host ω) (program : Program) : Engine ω :=
  { limits := h.config.toLimits, functions := program.functions, closures := program.closures,
    bridge := h.bridge }

namespace Prepared

variable {ω α : Type}

/-- The script of a prepared text, compiled now if it has not been. -/
def program (h : Host ω) (p : Prepared) : Except Failure Program :=
  match p.program? with
  | some program => .ok program
  | none => h.compileText p.source

/-- Run a script on variables; what it writes comes after the log so far. -/
def run (h : Host ω) (p : Prepared) (program : Program) (vars : Bindings) (s : Store ω) :
    Option (Except Failure Datum) × Store ω :=
  let (ending, m) := (h.engine program).run Engine.ample program.body (vars.machine s.world)
  let s := { s with world := m.world, log := m.log ++ s.log }
  match ending with
  | .value d => (some (.ok d), s)
  | .fault f => (some (.error (.ofFault f p.source)), s)
  | .exhausted => (none, s)

/-- Run a script on variables and project its value. -/
def outcome (h : Host ω) (p : Prepared) (vars : Bindings) (projection : Projection α)
    (s : Store ω) : Option (Except Failure α) × Store ω :=
  match p.program h with
  | .error f => (some (.error f), s)
  | .ok program =>
    match p.run h program vars s with
    | (some (.ok d), s) => (projection.read d, s)
    | (some (.error f), s) => (some (.error f), s)
    | (none, s) => (none, s)

/-- One execution. -/
def evaluate (h : Host ω) (p : Prepared) (vars : Bindings) (options : ExecutionOptions)
    (projection : Projection α) (s : Store ω) : Option (Except Failure α) × Store ω :=
  let s := if options.log then s.record (.starting p.source) else s
  let (o, s) := p.outcome h vars projection s
  let s :=
    if options.log then
      match o with
      | some (.ok a) => s.record (.finished (projection.describe a))
      | some (.error f) => s.record (.failed f.message)
      | none => s
    else s
  (o, s)

/-- Results as host values. -/
def decoding (c : Chain) : Projection Value where
  read d := (c.decode d).map .ok
  describe := Value.describe

/-- Execute with variables and options; the result is a host value. -/
def execute (h : Host ω) (p : Prepared) (vars : List (String × Value))
    (options : ExecutionOptions) : Store ω → Option (Except Failure Value) × Store ω :=
  p.evaluate h (encodeBindings vars) options (decoding (h.chain options))

/-- Execute with variables and the options of the configuration. -/
def eval (h : Host ω) (p : Prepared) (vars : List (String × Value)) :
    Store ω → Option (Except Failure Value) × Store ω :=
  p.execute h vars h.config.defaultOptions

end Prepared

end ScriptHost
