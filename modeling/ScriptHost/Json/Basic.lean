import ScriptHost.Fields
import ScriptHost.Number.FloatText
import ScriptHost.Text.Quoted

/-!
# JSON values

The JSON data model with integers apart from floating-point numbers, and the text in which logs show
such a value.
-/

namespace ScriptHost

/-- A JSON value. -/
inductive Json where
  /-- The null. -/
  | null
  /-- A truth value. -/
  | bool (b : Bool)
  /-- An integer. -/
  | int (i : Int)
  /-- A finite number with a fraction or an exponent. -/
  | float (x : Float)
  /-- A text. -/
  | string (s : String)
  /-- A sequence. -/
  | array (items : List Json)
  /-- An object. -/
  | object (fields : List (String × Json))
  deriving Inhabited

/-- The least 64-bit integer. -/
def minInt64 : Int := -(2 ^ 63)

/-- The greatest 64-bit integer. -/
def maxInt64 : Int := 2 ^ 63 - 1

/-- Whether an integer fits 64 bits. -/
def fitsInt64 (i : Int) : Bool := minInt64 ≤ i && i ≤ maxInt64

/-- Join texts with a separator. -/
def joined (separator : String) (texts : List String) : String := separator.intercalate texts

mutual

/-- Put every object into key order; of a repeated key the last entry counts. -/
def Json.canonical : Json → Json
  | .array items => .array (canonicalItems items)
  | .object fields => .object (Fields.ofList (canonicalFields fields))
  | j => j

/-- `Json.canonical` on every item. -/
def canonicalItems : List Json → List Json
  | [] => []
  | j :: rest => j.canonical :: canonicalItems rest

/-- `Json.canonical` on every value. -/
def canonicalFields : List (String × Json) → List (String × Json)
  | [] => []
  | (k, j) :: rest => (k, j.canonical) :: canonicalFields rest

end

mutual

/-- The text of a value in logs. -/
def Json.logText : Json → String
  | .null => "Null"
  | .bool b => "Bool(" ++ toString b ++ ")"
  | .int i => "Number(" ++ toString i ++ ")"
  | .float x => "Number(" ++ FloatNotation.json.text x ++ ")"
  | .string s => "String(" ++ Text.quoted s ++ ")"
  | .array items => "Array [" ++ joined ", " (logTexts items) ++ "]"
  | .object fields => "Object \x7b" ++ joined ", " (logFields fields) ++ "\x7d"

/-- `Json.logText` of every item. -/
def logTexts : List Json → List String
  | [] => []
  | j :: rest => j.logText :: logTexts rest

/-- Quoted key and `Json.logText` of every field. -/
def logFields : List (String × Json) → List String
  | [] => []
  | (k, j) :: rest => (Text.quoted k ++ ": " ++ j.logText) :: logFields rest

end

end ScriptHost
