import ScriptHost.Number.FloatText
import ScriptHost.Script.Datum
import ScriptHost.Text.Quoted

/-!
# Text of script values

Two texts of a value: the plain one, and the literal one that quotes texts and characters. Elements
of containers show their literal text. Values without a text of their own show the name of their
type.
-/

namespace ScriptHost.Script

/-- The bounds of a range around `mark`; a bound at the end of the integers is left out. -/
def rangeText (low : Int) (mark : String) (high : Int) : String :=
  toString low ++ mark ++ (if high == 2 ^ 63 - 1 then "" else toString high)

/-- Bytes in hexadecimal, in groups of eight. -/
def blobText (bytes : List Nat) : String :=
  let hex (b : Nat) : List Char :=
    let digits := Nat.toDigits 16 b
    List.replicate (2 - digits.length) '0' ++ digits
  let rec go : Nat → List Nat → List Char
    | _, [] => []
    | i, b :: rest => (if 0 < i && i % 8 == 0 then [' '] else []) ++ hex b ++ go (i + 1) rest
  "[" ++ String.ofList (go 0 bytes) ++ "]"

mutual

/-- The literal text of a value. -/
def Datum.literal : Datum → String
  | .unit => "()"
  | .bool b => toString b
  | .int i => toString i
  | .float x => FloatNotation.diagnostic.text x
  | .decimal d => d.text
  | .string s => Text.quoted s
  | .char c => Text.quotedChar c
  | .array items => "[" ++ ", ".intercalate (literals items) ++ "]"
  | .blob bytes => blobText bytes
  | .map fields => "#\x7b" ++ ", ".intercalate (literalFields fields) ++ "\x7d"
  | .fnPtr name curried =>
    match curried with
    | [] => "Fn(" ++ name ++ ")"
    | _ => "Fn(" ++ ", ".intercalate (name :: literalCaptures curried) ++ ")"
  | .range low high => rangeText low ".." high
  | .rangeInclusive low high => rangeText low "..=" high
  | .sized _ i => toString i
  | .single bits => FloatNotation.pointed.singleText bits
  | .shared d => d.literal ++ " (shared)"
  | .bigInt i => (Datum.bigInt i).typeName
  | .date d => (Datum.date d).typeName
  | .time t => (Datum.time t).typeName
  | .dateTime t => (Datum.dateTime t).typeName
  | .steps a b c => (Datum.steps a b c).typeName
  | .handle id => (Datum.handle id).typeName
  | .failure _ => (Datum.failure default).typeName
  | .foreign name => name

/-- The literal text of every item. -/
def literals : List Datum → List String
  | [] => []
  | d :: rest => d.literal :: literals rest

/-- Quoted key and literal text of every field. -/
def literalFields : List (String × Datum) → List String
  | [] => []
  | (k, d) :: rest => (Text.quoted k ++ ": " ++ d.literal) :: literalFields rest

/-- The literal text of curried values. -/
def literalCaptures : List Capture → List String
  | [] => []
  | .value d :: rest => d.literal :: literalCaptures rest
  | .cell _ :: rest => "<shared>" :: literalCaptures rest

end

/-- The plain text of a value. -/
def Datum.text (d : Datum) : String :=
  match d.unshared with
  | .unit => ""
  | .string s => s
  | .char c => String.singleton c
  | .float x => FloatNotation.script.text x
  | .single bits => FloatNotation.plain.singleText bits
  | .fnPtr name _ => "Fn(" ++ name ++ ")"
  | d => d.literal

mutual

/-- The text of a value in JSON, as far as the value has a counterpart there. -/
def Datum.jsonText : Datum → String
  | .unit => "null"
  | .shared d => d.jsonText
  | .array items => "[" ++ ",".intercalate (jsonTexts items) ++ "]"
  | .blob bytes => "[" ++ ",".intercalate (bytes.map toString) ++ "]"
  | .map fields => "\x7b" ++ ",".intercalate (jsonFields fields) ++ "\x7d"
  | .fnPtr name [] => Text.quoted name
  | .fnPtr name curried => "[" ++ ",".intercalate (Text.quoted name :: jsonCaptures curried) ++ "]"
  | d => d.literal

/-- The text of every item. -/
def jsonTexts : List Datum → List String
  | [] => []
  | d :: rest => d.jsonText :: jsonTexts rest

/-- Quoted key and text of every field. -/
def jsonFields : List (String × Datum) → List String
  | [] => []
  | (k, d) :: rest => (Text.quoted k ++ ":" ++ d.jsonText) :: jsonFields rest

/-- The text of curried values. -/
def jsonCaptures : List Capture → List String
  | [] => []
  | .value d :: rest => d.jsonText :: jsonCaptures rest
  | .cell _ :: rest => "null" :: jsonCaptures rest

end

end ScriptHost.Script
