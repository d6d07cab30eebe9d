import ScriptHost.Calendar.Reading
import ScriptHost.Number.Decimal
import ScriptHost.Value.Json

/-!
# Reading JSON by a schema

A schema says what a JSON value has to look like, and what is read from it. Fields of a record are
read in the order of their names; what a schema does not name is left out. A variant is its name
alone, or an object with its name as the only key.
-/

namespace ScriptHost

mutual

/-- What a JSON value has to look like. -/
inductive Schema where
  /-- A 64-bit integer. -/
  | int64
  /-- An integer of eight bits without a sign. -/
  | byte
  /-- A number. -/
  | double
  /-- A truth value. -/
  | bool
  /-- A text. -/
  | text
  /-- The null, or a value. -/
  | optional (item : Schema)
  /-- A sequence. -/
  | list (item : Schema)
  /-- A mapping from texts. -/
  | mapping (item : Schema)
  /-- A decimal number, as a number or a text. -/
  | decimal
  /-- A day, as a text. -/
  | date
  /-- A time of the day, as a text. -/
  | time
  /-- A time of a day, as a text. -/
  | dateTime
  /-- A record with named fields. -/
  | record (name : String) (fields : List (String × Schema))
  /-- One of several named variants. -/
  | choice (variants : List (String × Content))
  /-- Any value. -/
  | any

/-- What a variant holds. -/
inductive Content where
  /-- Nothing. -/
  | nothing
  /-- A value. -/
  | one (item : Schema)
  /-- Named fields. -/
  | fields (fields : List (String × Schema))

end

/-- A value read by a schema. -/
inductive Typed where
  /-- An integer. -/
  | int (i : Int)
  /-- A number. -/
  | double (x : Float)
  /-- A truth value. -/
  | bool (b : Bool)
  /-- A text. -/
  | text (s : String)
  /-- No value. -/
  | absent
  /-- A value that might have been left out. -/
  | present (t : Typed)
  /-- A sequence. -/
  | list (items : List Typed)
  /-- A mapping. -/
  | mapping (fields : List (String × Typed))
  /-- A decimal number. -/
  | decimal (d : Decimal)
  /-- A day. -/
  | date (d : Date)
  /-- A time of the day. -/
  | time (t : Time)
  /-- A time of a day. -/
  | dateTime (t : DateTime)
  /-- A record, or a variant with named fields. -/
  | record (name : String) (fields : List (String × Typed))
  /-- A variant without content. -/
  | variant (name : String)
  /-- A variant with a value. -/
  | wrapped (name : String) (t : Typed)
  /-- A JSON value. -/
  | json (j : Json)
  deriving Inhabited

/-- Why a JSON value does not fit a schema. -/
inductive Misfit where
  /-- A value of another kind. -/
  | kind (found expected : String)
  /-- A value out of range. -/
  | value (found expected : String)
  /-- A sequence of another length. -/
  | length (found : Nat) (expected : String)
  /-- A field is missing. -/
  | missing (name : String)
  /-- No variant has this name. -/
  | variant (name : String) (known : List String)
  /-- A text that cannot be read. -/
  | unreadable (reason : String)
  deriving DecidableEq, Repr

/-- A name between marks. -/
def marked (name : String) : String :=
  String.singleton (Char.ofNat 96) ++ name ++ String.singleton (Char.ofNat 96)

/-- The wording of a misfit. -/
def Misfit.message : Misfit → String
  | kind found expected => "invalid type: " ++ found ++ ", expected " ++ expected
  | value found expected => "invalid value: " ++ found ++ ", expected " ++ expected
  | length n expected => "invalid length " ++ toString n ++ ", expected " ++ expected
  | missing name => "missing field " ++ marked name
  | variant name known =>
    "unknown variant " ++ marked name ++
      match known with
      | [] => ", there are no variants"
      | [a] => ", expected " ++ marked a
      | [a, b] => ", expected " ++ marked a ++ " or " ++ marked b
      | _ => ", expected one of " ++ joined ", " (known.map marked)
  | unreadable reason => reason

namespace Schema

/-- What a JSON value is called in a message. -/
def kindOf : Json → String
  | .null => "null"
  | .bool b => "boolean " ++ marked (toString b)
  | .int i => "integer " ++ marked (toString i)
  | .float x => "floating point " ++ marked (FloatNotation.json.text x)
  | .string s => "string " ++ Text.quoted s
  | .array _ => "sequence"
  | .object _ => "map"

/-- A JSON value of the wrong kind. -/
def wrong {α : Type} (j : Json) (expected : String) : Except Misfit α :=
  .error (.kind (kindOf j) expected)

/-- An integer within bounds. -/
def readInt (low high : Int) (expected : String) : Json → Except Misfit Typed
  | .int i =>
    if low ≤ i && i ≤ high then .ok (.int i) else .error (.value (kindOf (.int i)) expected)
  | j => wrong j expected

/-- A text that another reader reads. -/
def readText {ε α : Type} (reader : String → Except ε α) (reason : ε → String) (make : α → Typed)
    (expected : String) : Json → Except Misfit Typed
  | .string s =>
    match reader s with
    | .ok a => .ok (make a)
    | .error e => .error (.unreadable (reason e))
  | j => wrong j expected

/-- A decimal number. -/
def readDecimal (j : Json) : Except Misfit Typed :=
  let expected := "a Decimal type representing a fixed-point number"
  let reading (s : String) : Except Misfit Typed :=
    match Decimal.ofText s with
    | .ok d => .ok (.decimal d)
    | .error _ => .error (.value (kindOf j) expected)
  match j with
  | .int i => reading (toString i)
  | .float x => reading (FloatNotation.plain.text x)
  | .string s => reading s
  | j => wrong j expected

/-- The end of an expectation on a number of elements. -/
def elementsText (n : Nat) : String :=
  " with " ++ toString n ++ (if n == 1 then " element" else " elements")

/-- How the value of a field is read. -/
structure FieldReader where
  /-- The name of the field. -/
  name : String
  /-- Whether the field may be left out. -/
  isOptional : Bool
  /-- How its value is read. -/
  read : Json → Except Misfit Typed

/-- Read the values whose names are fields, in the order of the values. -/
def readFields (fields : List FieldReader) :
    List (String × Json) → Except Misfit (List (String × Typed))
  | [] => .ok []
  | (name, j) :: rest =>
    match fields.find? (·.name == name) with
    | none => readFields fields rest
    | some field => do
      let t ← field.read j
      return (name, t) :: (← readFields fields rest)

/-- Put the values that were read in the order of the fields. -/
def arranged (found : List (String × Typed)) :
    List FieldReader → Except Misfit (List (String × Typed))
  | [] => .ok []
  | field :: rest => do
    let value ←
      match found.find? (·.1 == field.name) with
      | some p => .ok p
      | none => if field.isOptional then .ok (field.name, .absent) else .error (.missing field.name)
    return value :: (← arranged found rest)

/-- Read an object as fields. -/
def readObject (fields : List FieldReader) (values : List (String × Json)) :
    Except Misfit (List (String × Typed)) := do
  arranged (← readFields fields values) fields

/-- Read values as fields in their order. -/
def readInOrder (expected : String) : (count : Nat) → List FieldReader → List Json →
    Except Misfit (List (String × Typed))
  | _, [], _ => .ok []
  | n, _ :: _, [] => .error (.length n expected)
  | n, field :: fields, j :: values => do
    let t ← field.read j
    return (field.name, t) :: (← readInOrder expected (n + 1) fields values)

/-- Read a record. -/
def readRecord (name : String) (fields : List FieldReader) (j : Json) : Except Misfit Typed :=
  let expected := "struct " ++ name
  match j with
  | .object values => (readObject fields values).map (.record name)
  | .array values => do
    let read ← readInOrder (expected ++ elementsText fields.length) 0 fields values
    if fields.length < values.length then .error (.length values.length "fewer elements in array")
    else return .record name read
  | j => wrong j expected

/-- How what is under the name of a variant is read. -/
structure VariantReader where
  /-- The name of the variant. -/
  name : String
  /-- How its content is read, if there is any. -/
  read : Option Json → Except Misfit Typed

/-- Read one of several variants. -/
def readVariant (variants : List VariantReader) (j : Json) : Except Misfit Typed :=
  let choose (name : String) (content : Option Json) : Except Misfit Typed :=
    match variants.find? (·.name == name) with
    | some v => v.read content
    | none => .error (.variant name (variants.map (·.name)))
  match j with
  | .string name => choose name none
  | .object [(name, content)] => choose name (some content)
  | .object _ => .error (.value "map" "map with a single key")
  | j => wrong j "string or map"

/-- Whether a field of this kind may be left out. -/
def isOptional : Schema → Bool
  | optional _ => true
  | _ => false

mutual

/-- Read a JSON value. -/
def read : Schema → Json → Except Misfit Typed
  | int64, j => readInt minInt64 maxInt64 "i64" j
  | byte, j => readInt 0 255 "u8" j
  | double, j =>
    match j with
    | .int i => .ok (.double (Double.ofInt i))
    | .float x => .ok (.double x)
    | j => wrong j "f64"
  | bool, j =>
    match j with
    | .bool b => .ok (.bool b)
    | j => wrong j "a boolean"
  | text, j =>
    match j with
    | .string t => .ok (.text t)
    | j => wrong j "a string"
  | optional item, j =>
    match j with
    | .null => .ok .absent
    | j => (read item j).map .present
  | list item, j =>
    match j with
    | .array js => (js.mapM (read item)).map .list
    | j => wrong j "a sequence"
  | mapping item, j =>
    match j with
    | .object fields =>
      (fields.mapM fun p => (read item p.2).map fun t => (p.1, t)).map .mapping
    | j => wrong j "a map"
  | decimal, j => readDecimal j
  | date, j => readText Date.ofText Calendar.ReadError.message .date "a formatted date string" j
  | time, j => readText Time.ofText Calendar.ReadError.message .time "a formatted time string" j
  | dateTime, j =>
    readText DateTime.ofText Calendar.ReadError.message .dateTime
      "a formatted date and time string" j
  | record name fields, j => readRecord name (fieldReaders fields) j
  | choice variants, j => readVariant (variantReaders variants) j
  | any, j => .ok (.json j)

/-- The readers of fields. -/
def fieldReaders : List (String × Schema) → List FieldReader
  | [] => []
  | (name, s) :: rest => ⟨name, s.isOptional, read s⟩ :: fieldReaders rest

/-- The readers of variants. -/
def variantReaders : List (String × Content) → List VariantReader
  | [] => []
  | (name, c) :: rest => ⟨name, readContent name c⟩ :: variantReaders rest

/-- Read what a variant holds. -/
def readContent (name : String) : Content → Option Json → Except Misfit Typed
  | .nothing, content =>
    match content with
    | none => .ok (.variant name)
    | some .null => .ok (.variant name)
    | some j => wrong j "unit"
  | .one item, content =>
    match content with
    | some j => (read item j).map (.wrapped name)
    | none => .error (.kind "unit variant" "newtype variant")
  | .fields fields, content =>
    match content with
    | some (.object values) => (readObject (fieldReaders fields) values).map (.record name)
    | some j => wrong j "struct variant"
    | none => .error (.kind "unit variant" "struct variant")

end

end Schema

namespace Typed

mutual

/-- The text of a value in logs. -/
def describe : Typed → String
  | int i => toString i
  | double x => FloatNotation.diagnostic.text x
  | bool b => toString b
  | text s => Text.quoted s
  | absent => "None"
  | present t => "Some(" ++ t.describe ++ ")"
  | list items => "[" ++ joined ", " (describeItems items) ++ "]"
  | mapping fields => "\x7b" ++ joined ", " (describeFields true fields) ++ "\x7d"
  | decimal d => d.text
  | date d => d.text
  | time t => t.text
  | dateTime t => t.text
  | record name fields => name ++ " \x7b " ++ joined ", " (describeFields false fields) ++ " \x7d"
  | variant name => name
  | wrapped name t => name ++ "(" ++ t.describe ++ ")"
  | json j => j.logText

/-- The text of every item. -/
def describeItems : List Typed → List String
  | [] => []
  | t :: rest => t.describe :: describeItems rest

/-- The name and the text of every field; names are quoted or not. -/
def describeFields (areQuoted : Bool) : List (String × Typed) → List String
  | [] => []
  | (k, t) :: rest =>
    ((if areQuoted then Text.quoted k else k) ++ ": " ++ t.describe) ::
      describeFields areQuoted rest

end

end Typed

end ScriptHost
