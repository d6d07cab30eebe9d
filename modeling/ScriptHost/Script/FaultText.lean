import ScriptHost.Script.DatumText

/-!
# Text of faults

A fault shows its cause and its position; a fault inside a call is followed by one line for each
call frame, the innermost first.
-/

namespace ScriptHost.Script.Fault

/-- The wording of a fault below a frame from `source`. -/
def textFrom (source : String) : Fault → String
  | thrown payload pos =>
    let shown := payload.text
    (if payload.isUnit || shown.isEmpty then "Runtime error" else "Runtime error: " ++ shown) ++
      origin source ++ pos.trailer
  | inCall name inSource inner pos =>
    inner.textFrom inSource ++
      (if isClosureName name then "\nin closure call"
        else "\nin call to function '" ++ name ++ "'") ++
      (if inSource.isEmpty then "" else " (from '" ++ inSource ++ "')") ++ origin source ++
      pos.trailer
  | raised cause pos => cause.message ++ origin source ++ pos.trailer
where
  /-- The mark of the source that the surrounding frame came from. -/
  origin (source : String) : String := if source.isEmpty then "" else " @ '" ++ source ++ "'"

/-- The wording of a fault. -/
def text (f : Fault) : String := f.textFrom ""

/-- The name of a frame with its line, if it has one. -/
def frameText (name : String) (pos : Position) : String :=
  match pos.line? with
  | some line => "at " ++ name ++ " (line " ++ toString line ++ ")"
  | none => "at " ++ name

/-- The call frames, outermost first, and the top level of the script if the fault has a line. -/
def frames : Fault → List String
  | inCall name _ inner pos => frameText name pos :: inner.frames
  | thrown _ pos => if pos.isNone then [] else [frameText "<main>" pos]
  | raised _ pos => if pos.isNone then [] else [frameText "<main>" pos]

end ScriptHost.Script.Fault
