import ScriptHost.Bean

/-!
# Beans as JSON

The JSON of a bean: variants are tagged from outside, marked leaves are their text, and numbers that
are not finite are null. Integers beyond 64 bits and keys without a text have no JSON.
-/

namespace ScriptHost.Bean

/-- A JSON integer: any of 64 bits, with or without a sign. -/
def jsonInt? (i : Int) : Option Json :=
  if minInt64 ≤ i && i < 2 ^ 64 then some (.int i) else none

/-- The text of a key. -/
def jsonKey? : Bean → Option String
  | .bool b => some (toString b)
  | .int i => some (toString i)
  | .float x => if Double.isFinite x then some (FloatNotation.json.text x) else none
  | .text s => some s
  | .unitVariant variant => some variant
  | .newtype _ b => jsonKey? b
  | _ => none

mutual

/-- The JSON of a bean. -/
def toJson? : Bean → Option Json
  | .bool b => some (.bool b)
  | .int i => jsonInt? i
  | .float x => some (if Double.isFinite x then .float x else .null)
  | .text s => some (.string s)
  | .bytes bs => some (.array (bs.map fun (b : Nat) => .int b))
  | .absent => some .null
  | .present b => toJson? b
  | .unitVariant variant => some (.string variant)
  | .newtype _ b => toJson? b
  | .newtypeVariant variant b => (toJson? b).map fun j => .object [(variant, j)]
  | .seq items => (toJsonItems? items).map .array
  | .tupleVariant variant items =>
    (toJsonItems? items).map fun js => .object [(variant, .array js)]
  | .map entries => (toJsonEntries? [] entries).map .object
  | .record fields => (toJsonFields? [] fields).map .object
  | .recordVariant variant fields =>
    (toJsonFields? [] fields).map fun js => .object [(variant, .object js)]
  | .refused _ => none

/-- The JSON of every item. -/
def toJsonItems? : List Bean → Option (List Json)
  | [] => some []
  | b :: rest => do
    let j ← toJson? b
    let js ← toJsonItems? rest
    some (j :: js)

/-- The JSON of entries, written over those before them. -/
def toJsonEntries? (done : List (String × Json)) :
    List (Option Bean × Bean) → Option (List (String × Json))
  | [] => some done
  | (none, _) :: _ => none
  | (some key, b) :: rest => do
    let k ← jsonKey? key
    let j ← toJson? b
    toJsonEntries? (Fields.insert k j done) rest

/-- The JSON of fields, written over those before them. -/
def toJsonFields? (done : List (String × Json)) :
    List (String × Bean) → Option (List (String × Json))
  | [] => some done
  | (k, b) :: rest => do
    let j ← toJson? b
    toJsonFields? (Fields.insert k j done) rest

end

end ScriptHost.Bean
