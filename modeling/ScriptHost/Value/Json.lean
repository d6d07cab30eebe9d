import ScriptHost.Value.Basic

/-!
# Host values and JSON

A host value as JSON: integers beyond 64 bits, decimals, dates and callables become text; numbers
that are not finite and handles become null; exact values lose their mark. A JSON value as a host
value: integers beyond 64 bits become big integers.
-/

namespace ScriptHost.Value

mutual

/-- The value as JSON. -/
def toJson : Value → Json
  | null => .null
  | bool b => .bool b
  | int i => .int i
  | float x => if Double.isFinite x then .float x else .null
  | decimal d => .string d.text
  | bigInt i => if fitsInt64 i then .int i else .string (toString i)
  | string s => .string s
  | date d => .string d.text
  | time t => .string t.text
  | dateTime t => .string t.text
  | list items => .array (toJsonItems items)
  | map fields => .object (toJsonFields fields)
  | exact inner => toJson inner
  | handle _ => .null
  | callable name => .string name

/-- Every item as JSON. -/
def toJsonItems : List Value → List Json
  | [] => []
  | v :: rest => toJson v :: toJsonItems rest

/-- Every field as JSON. -/
def toJsonFields : List (String × Value) → List (String × Json)
  | [] => []
  | (k, v) :: rest => (k, toJson v) :: toJsonFields rest

end

/-- An integer of either size. -/
def ofInt (i : Int) : Value := if fitsInt64 i then int i else bigInt i

mutual

/-- The host value of a JSON value. -/
def ofJson : Json → Value
  | .null => null
  | .bool b => bool b
  | .int i => ofInt i
  | .float x => float x
  | .string s => string s
  | .array items => list (ofJsonItems items)
  | .object fields => map (ofJsonFields fields)

/-- The host value of every item. -/
def ofJsonItems : List Json → List Value
  | [] => []
  | j :: rest => ofJson j :: ofJsonItems rest

/-- The host value of every field. -/
def ofJsonFields : List (String × Json) → List (String × Value)
  | [] => []
  | (k, j) :: rest => (k, ofJson j) :: ofJsonFields rest

end

end ScriptHost.Value
