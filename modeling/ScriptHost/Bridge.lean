import ScriptHost.Failure
import ScriptHost.Log
import ScriptHost.Value.Text

/-!
# Host functions

A bridge is a registry of host functions by name. Every script that is run with a bridge starts
with one line for each function, which passes the arguments on to a single dispatcher. Host
functions may depend on the host's world and change it.
-/

namespace ScriptHost

open Script

/-- The name of the dispatcher. -/
def hostBinding : String := "host_call"

/-- The answer of a host function. -/
structure Reply (ω : Type) where
  /-- The value or the failure. -/
  outcome : Except Failure Value
  /-- The world after the call. -/
  world : ω
  /-- What the call wrote to the log. -/
  log : List LogEvent := []

/-- A host function. -/
structure HostFunction (ω : Type) where
  /-- The number of arguments. -/
  arity : Nat
  /-- The function itself. -/
  run : List Value → ω → Reply ω

/-- A host function under a name. -/
structure Registration (ω : Type) where
  /-- The name for scripts. -/
  name : String
  /-- The function. -/
  function : HostFunction ω

/-- Registered functions in the order of their names. -/
structure Bridge (ω : Type) where
  /-- The functions by name. -/
  functions : List (String × HostFunction ω)

/-- What a name of a host function does wrong. -/
inductive NameProblem where
  /-- The first character. -/
  | start
  /-- A later character. -/
  | character
  /-- The name has underscores only. -/
  | underscores
  /-- The name is a word of the language. -/
  | reserved
  /-- The name has a function already. -/
  | twice
  deriving DecidableEq, Repr

/-- The wording of a name's problem. -/
def NameProblem.message : NameProblem → String
  | start => "must start with a letter or underscore"
  | character => "must contain only letters, digits and underscores"
  | underscores => "must contain a letter or digit"
  | reserved => "is a reserved word"
  | twice => "registered twice"

/-- The first problem of a name on its own. -/
def nameProblem? (name : String) : Option NameProblem :=
  match name.toList with
  | [] => some .start
  | c :: rest =>
    if !isWordStart c then some .start
    else if !rest.all isWordPart then some .character
    else if (c :: rest).all (· == '_') then some .underscores
    else if isReserved name || name == hostBinding then some .reserved
    else none

/-- The line of a script that defines a function of this name and arity. -/
def stub (name : String) (arity : Nat) : String :=
  let params := joined ", " ((List.range arity).map fun i => "a" ++ toString i)
  "fn " ++ name ++ "(" ++ params ++ ") \x7b " ++ hostBinding ++ "(\"" ++ name ++ "\", [" ++
    params ++ "]) \x7d\n"

namespace Bridge

variable {ω : Type}

/-- No functions. -/
def empty : Bridge ω := ⟨[]⟩

/-- Register functions in order; the first bad name is the failure. -/
def build (registrations : List (Registration ω)) : Except Failure (Bridge ω) :=
  let rec go (functions : List (String × HostFunction ω)) :
      List (Registration ω) → Except Failure (Bridge ω)
    | [] => .ok ⟨functions⟩
    | r :: rest =>
      match nameProblem? r.name with
      | some problem => .error (.invalidFunction r.name problem.message)
      | none =>
        if Fields.contains r.name functions then
          .error (.invalidFunction r.name NameProblem.twice.message)
        else go (Fields.insert r.name r.function functions) rest
  go [] registrations

/-- The names in ascending order. -/
def names (b : Bridge ω) : List String := Fields.keys b.functions

/-- What every script starts with. -/
def preamble (b : Bridge ω) : String := "".intercalate (b.functions.map fun p => stub p.1 p.2.arity)

/-- Call a function directly. -/
def call (b : Bridge ω) (name : String) (args : List Value) (world : ω) : Reply ω :=
  match Fields.get? name b.functions with
  | none => { outcome := .error (.host name "no such function"), world }
  | some f =>
    if args.length == f.arity then f.run args world
    else
      { outcome := .error (.host name
          ("expected " ++ toString f.arity ++ " arguments, got " ++ toString args.length)), world }

/-- The text of a bridge. -/
def describe (b : Bridge ω) : String :=
  "FunctionBridge \x7b functions: [" ++ joined ", " (b.names.map Text.quoted) ++ "] \x7d"

end Bridge

end ScriptHost
