import ScriptHost.Bean.Serialization

/-!
# The meaning of a serialization

Which serializations are accepted, which of them are null or have fields, and what they stand for:
as JSON, where variants are tagged from outside, and as a host value, where integers are of the
narrower kind wherever they fit.
-/

namespace ScriptHost

open Script

/-! ## Leaves -/

/-- The value of a leaf. -/
def Leaf.value : Leaf → Value
  | date d => .date d
  | time t => .time t
  | dateTime t => .dateTime t
  | decimal d => .decimal d

/-- The leaf with the sign dropped if it is a decimal zero. -/
def Leaf.unsignZero : Leaf → Leaf
  | decimal d => decimal d.unsignZero
  | l => l

/-! ## Integers of the narrower kind -/

mutual

/-- Every integer in a value is of the narrower kind if it fits 64 bits, and only then. -/
def Value.HasTightIntegers : Value → Prop
  | .int i => fitsInt64 i = true
  | .bigInt i => fitsInt64 i = false
  | .list items => AreTight items
  | .map fields => AreFieldsTight fields
  | .exact v => v.HasTightIntegers
  | _ => True

/-- `Value.HasTightIntegers` of every item. -/
def AreTight : List Value → Prop
  | [] => True
  | v :: rest => v.HasTightIntegers ∧ AreTight rest

/-- `Value.HasTightIntegers` of every field. -/
def AreFieldsTight : List (String × Value) → Prop
  | [] => True
  | (_, v) :: rest => v.HasTightIntegers ∧ AreFieldsTight rest

end

namespace Serialization

/-! ## What is accepted -/

/-- The text that a serialization is, if it is one. -/
def text? : Serialization → Option String
  | char c => some c.toString
  | text s => some s
  | unitVariant variant => some variant
  | present s => s.text?
  | newtypeStruct name s => if (LeafKind.ofMark? name).isSome then none else s.text?
  | _ => none

/-- The text of a key: texts, integers and truth values have one. -/
def keyText? : Serialization → Option String
  | bool b => some (toString b)
  | int _ _ i _ => some (toString i)
  | char c => some c.toString
  | text s => some s
  | unitVariant variant => some variant
  | present s => s.keyText?
  | newtypeStruct name s => if (LeafKind.ofMark? name).isSome then none else s.keyText?
  | _ => none

/-- The leaf that stands under a mark, if it is a text that reads as one. -/
def marked? (kind : LeafKind) (s : Serialization) : Option Value :=
  s.text?.bind fun text => (kind.read text).toOption

mutual

/-- No part refuses, marked leaves read, and every value of a mapping has a key with a text. -/
def Accepted : Serialization → Prop
  | present s => s.Accepted
  | newtypeStruct name s =>
    s.Accepted ∧ ∀ kind, LeafKind.ofMark? name = some kind → (s.marked? kind).isSome = true
  | newtypeVariant _ s => s.Accepted
  | seq items => AcceptedItems items
  | tuple items => AcceptedItems items
  | tupleStruct _ items => AcceptedItems items
  | tupleVariant _ items => AcceptedItems items
  | map entries => AcceptedEntries entries
  | record _ fields => AcceptedFields fields
  | recordVariant _ fields => AcceptedFields fields
  | refused _ => False
  | _ => True

/-- Every item is accepted. -/
def AcceptedItems : List Serialization → Prop
  | [] => True
  | s :: rest => s.Accepted ∧ AcceptedItems rest

/-- Every key is there, is accepted and has a text, and every value is accepted. -/
def AcceptedEntries : List (Option Serialization × Serialization) → Prop
  | [] => True
  | (none, _) :: _ => False
  | (some key, s) :: rest =>
    key.Accepted ∧ key.keyText?.isSome = true ∧ s.Accepted ∧ AcceptedEntries rest

/-- Every field is accepted. -/
def AcceptedFields : List (String × Serialization) → Prop
  | [] => True
  | (_, s) :: rest => s.Accepted ∧ AcceptedFields rest

end

/-- Whether a serialization is null. -/
def isNull : Serialization → Bool
  | absent => true
  | unit => true
  | unitStruct _ => true
  | leafOption none => true
  | present s => s.isNull
  | newtypeStruct name s => (LeafKind.ofMark? name).isNone && s.isNull
  | _ => false

/-- Whether a serialization has fields: mappings, records and variants with content do. -/
def hasFields : Serialization → Bool
  | map _ => true
  | record _ _ => true
  | newtypeVariant _ _ => true
  | tupleVariant _ _ => true
  | recordVariant _ _ => true
  | present s => s.hasFields
  | newtypeStruct name s => (LeafKind.ofMark? name).isNone && s.hasFields
  | _ => false

/-! ## What it stands for -/

mutual

/-- The JSON of a serialization: variants are tagged from outside, integers beyond 64 bits and
leaves are texts, and numbers that are not finite are null. -/
def document : Serialization → Json
  | bool b => .bool b
  | int _ _ i _ => if fitsInt64 i then .int i else .string (toString i)
  | single bits =>
    if Double.isFinite (Double.ofSingleBits bits.toNat) then
      .float (Double.ofSingleBits bits.toNat)
    else .null
  | double x => if Double.isFinite x then .float x else .null
  | char c => .string c.toString
  | text s => .string s
  | bytes bs => .array (bs.map fun b => .int b.toNat)
  | absent => .null
  | present s => s.document
  | unit => .null
  | unitStruct _ => .null
  | unitVariant variant => .string variant
  | newtypeStruct name s =>
    match LeafKind.ofMark? name with
    | none => s.document
    | some kind => ((s.marked? kind).map Value.toJson).getD .null
  | newtypeVariant variant s => .object [(variant, s.document)]
  | seq items => .array (documents items)
  | tuple items => .array (documents items)
  | tupleStruct _ items => .array (documents items)
  | tupleVariant variant items => .object [(variant, .array (documents items))]
  | map entries => .object (Fields.ofList (entryDocuments entries))
  | record _ fields => .object (Fields.ofList (fieldDocuments fields))
  | recordVariant variant fields =>
    .object [(variant, .object (Fields.ofList (fieldDocuments fields)))]
  | leaf l => .string l.unsignZero.text
  | leafOption none => .null
  | leafOption (some l) => .string l.unsignZero.text
  | refused _ => .null

/-- The JSON of items. -/
def documents : List Serialization → List Json
  | [] => []
  | s :: rest => s.document :: documents rest

/-- The JSON of values under the texts of their keys. -/
def entryDocuments : List (Option Serialization × Serialization) → List (String × Json)
  | [] => []
  | (none, _) :: rest => entryDocuments rest
  | (some key, s) :: rest => (key.keyText?.getD "", s.document) :: entryDocuments rest

/-- The JSON of fields. -/
def fieldDocuments : List (String × Serialization) → List (String × Json)
  | [] => []
  | (name, s) :: rest => (name, s.document) :: fieldDocuments rest

end

mutual

/-- The host value of a serialization. -/
def value : Serialization → Value
  | bool b => .bool b
  | int _ _ i _ => if fitsInt64 i then .int i else .bigInt i
  | single bits => .float (Double.ofSingleBits bits.toNat)
  | double x => .float x
  | char c => .string c.toString
  | text s => .string s
  | bytes bs => .list (bs.map fun b => .int b.toNat)
  | absent => .null
  | present s => s.value
  | unit => .null
  | unitStruct _ => .null
  | unitVariant variant => .string variant
  | newtypeStruct name s =>
    match LeafKind.ofMark? name with
    | none => s.value
    | some kind => (s.marked? kind).getD .null
  | newtypeVariant variant s => .map [(variant, s.value)]
  | seq items => .list (values items)
  | tuple items => .list (values items)
  | tupleStruct _ items => .list (values items)
  | tupleVariant variant items => .map [(variant, .list (values items))]
  | map entries => .map (Fields.ofList (entryValues entries))
  | record _ fields => .map (Fields.ofList (fieldValues fields))
  | recordVariant variant fields => .map [(variant, .map (Fields.ofList (fieldValues fields)))]
  | leaf l => l.unsignZero.value
  | leafOption none => .null
  | leafOption (some l) => l.unsignZero.value
  | refused _ => .null

/-- The host values of items. -/
def values : List Serialization → List Value
  | [] => []
  | s :: rest => s.value :: values rest

/-- The host values of entries under the texts of their keys. -/
def entryValues : List (Option Serialization × Serialization) → List (String × Value)
  | [] => []
  | (none, _) :: rest => entryValues rest
  | (some key, s) :: rest => (key.keyText?.getD "", s.value) :: entryValues rest

/-- The host values of fields. -/
def fieldValues : List (String × Serialization) → List (String × Value)
  | [] => []
  | (name, s) :: rest => (name, s.value) :: fieldValues rest

end

end Serialization

end ScriptHost
