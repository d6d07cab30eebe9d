import ScriptHost.Bridge

/-!
# Standard functions

Host functions for logging and for making dates and times. Today and now come from a clock that is
part of the host's world.
-/

namespace ScriptHost.Bridge

open Script

variable {ω : Type}

namespace Standard

/-- The argument at an index; the null if there is none. -/
def argument (args : List Value) (index : Nat) : Value := args.getD index .null

/-- A 64-bit integer argument. -/
def intArgument (name : String) (args : List Value) (index : Nat) : Except Failure Int :=
  match (argument args index).asInt64? with
  | some i => .ok i
  | none =>
    .error (.host name ("argument " ++ toString index ++ " must be an integer, got " ++
      (argument args index).describe))

/-- An integer argument that fits 32 bits without a sign. -/
def naturalArgument (name : String) (args : List Value) (index : Nat) : Except Failure Nat := do
  let i ← intArgument name args index
  if 0 ≤ i && i < (2 ^ 32 : Int) then .ok i.toNat
  else .error (.host name ("argument " ++ toString index ++ " out of range: " ++ toString i))

/-- The day of a year, month and day. -/
def date (args : List Value) : Except Failure Value := do
  let year ← intArgument "date" args 0
  if !(-(2 ^ 31 : Int) ≤ year && year < (2 ^ 31 : Int)) then
    .error (.host "date" ("year out of range: " ++ toString year))
  else
    let month ← naturalArgument "date" args 1
    let day ← naturalArgument "date" args 2
    match Date.ofParts? year month day with
    | some d => .ok (.date d)
    | none =>
      .error (.host "date" ("invalid date " ++ toString year ++ "-" ++ toString month ++ "-" ++
        toString day))

/-- The time of an hour, minute and second. -/
def time (args : List Value) : Except Failure Value := do
  let hour ← naturalArgument "time" args 0
  let minute ← naturalArgument "time" args 1
  let second ← naturalArgument "time" args 2
  match Time.ofParts? hour minute second 0 with
  | some t => .ok (.time t)
  | none =>
    .error (.host "time" ("invalid time " ++ toString hour ++ ":" ++ toString minute ++ ":" ++
      toString second))

/-- A day and a time of the day together. -/
def dateTime (args : List Value) : Except Failure Value :=
  match argument args 0, argument args 1 with
  | .date d, .time t => .ok (.dateTime ⟨d, t⟩)
  | d, t =>
    .error (.host "datetime" ("expected a date and a time, got " ++ d.describe ++ " and " ++
      t.describe))

/-- The text that `log` writes: texts as they are, other values with their kind. -/
def logText : Value → String
  | .string s => s
  | v => v.describe

/-- A function that leaves the world as it is. -/
def pure (name : String) (arity : Nat) (f : List Value → Except Failure Value) : Registration ω :=
  ⟨name, arity, fun args world => { outcome := f args, world }⟩

/-- The standard functions, given the clock of the world. -/
def registrations (clock : ω → DateTime) : List (Registration ω) :=
  [⟨"log", 1, fun args world =>
      { outcome := .ok .null, world, log := [.printed (logText (argument args 0))] }⟩,
    pure "date" 3 date, pure "time" 3 time, pure "datetime" 2 dateTime,
    ⟨"today", 0, fun _ world => { outcome := .ok (.date (clock world).date), world }⟩,
    ⟨"now", 0, fun _ world => { outcome := .ok (.dateTime (clock world)), world }⟩]

end Standard

/-- A bridge with the standard functions alone. -/
def standard (clock : ω → DateTime) : Except Failure (Bridge ω) :=
  build (Standard.registrations clock)

end ScriptHost.Bridge
