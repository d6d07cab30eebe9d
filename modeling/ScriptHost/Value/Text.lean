import ScriptHost.Value.Basic

/-!
# Text of host values

The text that names a value's kind and shows its content, used in logs and error messages.
-/

namespace ScriptHost.Value

mutual

/-- Kind and content of a value. -/
def describe : Value → String
  | null => "Null"
  | bool b => "Bool(" ++ toString b ++ ")"
  | int i => "Int(" ++ toString i ++ ")"
  | float x => "Float(" ++ FloatNotation.diagnostic.text x ++ ")"
  | decimal d => "Decimal(" ++ d.text ++ ")"
  | bigInt i => "BigInt(" ++ toString i ++ ")"
  | string s => "String(" ++ Text.quoted s ++ ")"
  | date d => "Date(" ++ d.text ++ ")"
  | time t => "Time(" ++ t.text ++ ")"
  | dateTime t => "DateTime(" ++ t.text ++ ")"
  | list items => "List([" ++ joined ", " (describeItems items) ++ "])"
  | map fields => "Map(\x7b" ++ joined ", " (describeFields fields) ++ "\x7d)"
  | exact inner => "Ref(" ++ describe inner ++ ")"
  | handle _ => "Opaque(HostObject(_))"
  | callable name => "Callable(" ++ Text.quoted name ++ ")"

/-- The text of every item. -/
def describeItems : List Value → List String
  | [] => []
  | v :: rest => describe v :: describeItems rest

/-- Quoted key and text of every field. -/
def describeFields : List (String × Value) → List String
  | [] => []
  | (k, v) :: rest => (Text.quoted k ++ ": " ++ describe v) :: describeFields rest

end

/-- The text of a sequence of values. -/
def describeList (items : List Value) : String := "[" ++ joined ", " (describeItems items) ++ "]"

end ScriptHost.Value
