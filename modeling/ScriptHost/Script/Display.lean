import ScriptHost.Script.DatumText

/-!
# What scripts show

The two texts that a script itself gets of a value: the displayed one and the inspected one. They
differ from the texts of the value in faults where the host has registered texts of its own: dates,
times and big integers.
-/

namespace ScriptHost.Script

mutual

/-- The text that a script sees when it inspects a value. -/
def Datum.inspected : Datum → String
  | .array items => "[" ++ ", ".intercalate (inspectedItems items) ++ "]"
  | .map fields => "#\x7b" ++ ", ".intercalate (inspectedFields fields) ++ "\x7d"
  | .bigInt i => toString i
  | .date d => d.text
  | .time t => t.text
  | .dateTime t => t.text
  | .handle id => (Datum.handle id).scriptTypeName
  | .shared d => d.inspected
  | d => d.literal

/-- The inspected text of every item. -/
def inspectedItems : List Datum → List String
  | [] => []
  | d :: rest => d.inspected :: inspectedItems rest

/-- Quoted key and inspected text of every field. -/
def inspectedFields : List (String × Datum) → List String
  | [] => []
  | (k, d) :: rest => (Text.quoted k ++ ": " ++ d.inspected) :: inspectedFields rest

end

/-- The text that a script displays for a value. -/
def Datum.displayed (d : Datum) : String :=
  match d.unshared with
  | .array items => (Datum.array items).inspected
  | .map fields => (Datum.map fields).inspected
  | .bigInt i => toString i
  | .date d => d.text
  | .time t => t.text
  | .dateTime t => t.spacedText
  | .handle id => (Datum.handle id).scriptTypeName
  | d => d.text

end ScriptHost.Script
