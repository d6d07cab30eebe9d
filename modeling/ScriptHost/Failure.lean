import ScriptHost.Script.FaultText

/-!
# Failures

The wording of a failure, the script it belongs to, and the record of details given to a caller. A
failure that a host function raised is recovered from the fault that carried it through the script.
-/

namespace ScriptHost.Script.Failure

/-- A failure of a host function, raised outside any script so far. -/
def host (name message : String) : Failure := .hostFunction name message none

/-- The wording of a failure. -/
def message : Failure → String
  | .compile problem pos _ => "Parse error: " ++ problem.message ++ pos.trailer
  | .execution fault _ => "Runtime error: " ++ fault.text
  | .projection expected actual => "Cannot project " ++ actual ++ " result as " ++ expected
  | .inaccessibleField field reason => "Cannot read field '" ++ field ++ "': " ++ reason
  | .invalidFunction name reason => "Invalid host function '" ++ name ++ "': " ++ reason
  | .hostFunction name message _ => "Host function '" ++ name ++ "' failed: " ++ message
  | .custom message => message

/-- The script that failed, if it is known. -/
def script? : Failure → Option String
  | .compile _ _ script => some script
  | .execution _ script => some script
  | .hostFunction _ _ script => script
  | _ => none

/-- Name the script of a host function's failure, unless it is known already. -/
def inScript (script : String) : Failure → Failure
  | .hostFunction name message none => .hostFunction name message (some script)
  | f => f

/-- The failure that a fault carries, below any number of call frames. -/
def carried? : Fault → Option Failure
  | .thrown payload _ =>
    match payload.unshared with
    | .failure f => some f
    | _ => none
  | .inCall _ _ inner _ => carried? inner
  | .raised .. => none

/-- The failure of a script that ended in a fault. -/
def ofFault (fault : Fault) (script : String) : Failure :=
  match carried? fault with
  | some f => f.inScript script
  | none => .execution fault script

/-- The details of a failure. -/
structure Details where
  /-- The category. -/
  category : String
  /-- The wording, without the name of the category where the engine gave it. -/
  message : String
  /-- The line, where it is known. -/
  location : Option String
  /-- The call frames, where they are known. -/
  backtrace : Option (List String)
  /-- The script, where it is known. -/
  code : Option String
  deriving DecidableEq, Repr

/-- A position as a location. -/
def locationText (pos : Position) : Option String := pos.line?.map fun n => "line " ++ toString n

/-- The details of a failure. -/
def details (f : Failure) : Details :=
  let plain (category : String) : Details := ⟨category, f.message, none, none, f.script?⟩
  match f with
  | .compile problem pos _ =>
    ⟨"parse", problem.message ++ pos.trailer, locationText pos, none, f.script?⟩
  | .execution fault _ =>
    let frames := fault.frames
    ⟨"runtime", fault.text, locationText fault.position,
      if frames.isEmpty then none else some frames, f.script?⟩
  | .projection .. => plain "projection"
  | .inaccessibleField .. => plain "bean"
  | .invalidFunction .. => plain "host"
  | .hostFunction .. => plain "host"
  | .custom _ => plain "custom"

end ScriptHost.Script.Failure
