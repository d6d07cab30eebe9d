/-!
# Log events

What a host writes to its log: the scripts it runs and how they end, the use of its cache, and
what the scripts themselves print.
-/

namespace ScriptHost

/-- The severity of an event. -/
inductive LogLevel where
  /-- Details. -/
  | debug
  /-- Normal course. -/
  | info
  /-- Something failed. -/
  | warn
  deriving DecidableEq, Repr

/-- The word for a severity. -/
def LogLevel.name : LogLevel → String
  | debug => "DEBUG"
  | info => "INFO"
  | warn => "WARN"

/-- An entry of the log. -/
inductive LogEvent where
  /-- The text of a script that starts to run. -/
  | starting (source : String)
  /-- The result of a run. -/
  | finished (result : String)
  /-- The failure of a run. -/
  | failed (message : String)
  /-- A compiled script was found; its size in bytes. -/
  | cacheHit (size : Nat)
  /-- A compiled script was stored; the number of stored scripts after it. -/
  | cacheFill (entries : Nat)
  /-- A text printed by a script. -/
  | printed (text : String)
  /-- A diagnostic text of a script, and its line. -/
  | debugged (text : String) (line : Option Nat)
  deriving DecidableEq, Repr

namespace LogEvent

/-- The severity of an event. -/
def level : LogEvent → LogLevel
  | failed _ => .warn
  | cacheHit _ | cacheFill _ | debugged .. => .debug
  | _ => .info

/-- The part of the program that an event comes from. -/
def target : LogEvent → String
  | starting _ | finished _ | failed _ => "rhai_bridge::executor"
  | cacheHit _ | cacheFill _ => "rhai_bridge::prepare"
  | printed _ | debugged .. => "rhai_bridge::script"

/-- The text of an event. -/
def message : LogEvent → String
  | starting source => source
  | finished result => "eval result: " ++ result
  | failed message => "eval failed: " ++ message
  | cacheHit _ => "compiled script cache hit"
  | cacheFill _ => "cached compiled script"
  | printed text => text
  | debugged text _ => text

/-- Further named details of an event. -/
def details : LogEvent → List (String × String)
  | cacheHit size => [("len", toString size)]
  | cacheFill entries => [("size", toString entries)]
  | debugged _ (some line) => [("line", toString line)]
  | _ => []

end LogEvent

end ScriptHost
