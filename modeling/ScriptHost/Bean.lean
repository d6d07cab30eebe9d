import ScriptHost.Calendar.Reading
import ScriptHost.Failure
import ScriptHost.Value.Json
import ScriptHost.Value.Text

/-!
# Beans

A bean is a structured host object as its serialization presents it. Flattening turns it into host
values: records and maps into mappings, variants with content into mappings with one key, and leaves
marked as dates, times or decimals into values of those kinds. A failure names the path of the part
that failed.
-/

namespace ScriptHost

open Script

/-- A structured object, as a tree of serialized parts. -/
inductive Bean where
  /-- A truth value. -/
  | bool (b : Bool)
  /-- An integer of any width. -/
  | int (i : Int)
  /-- A floating-point number. -/
  | float (x : Float)
  /-- A text. -/
  | text (s : String)
  /-- A sequence of bytes. -/
  | bytes (bs : List Nat)
  /-- Nothing: a unit or an empty option. -/
  | absent
  /-- A filled option. -/
  | present (b : Bean)
  /-- A variant without content. -/
  | unitVariant (variant : String)
  /-- A type of one part. -/
  | newtype (name : String) (b : Bean)
  /-- A variant of one part. -/
  | newtypeVariant (variant : String) (b : Bean)
  /-- A sequence or a tuple. -/
  | seq (items : List Bean)
  /-- A variant of several parts. -/
  | tupleVariant (variant : String) (items : List Bean)
  /-- Keys and values; an entry may lack its key. -/
  | map (entries : List (Option Bean × Bean))
  /-- Named fields. -/
  | record (fields : List (String × Bean))
  /-- A variant with named fields. -/
  | recordVariant (variant : String) (fields : List (String × Bean))
  /-- A part that refuses to be serialized. -/
  | refused (message : String)
  deriving Inhabited

/-- The kinds of marked leaves. -/
inductive LeafKind where
  /-- A day. -/
  | date
  /-- A time of the day. -/
  | time
  /-- A time of a day. -/
  | dateTime
  /-- A decimal number. -/
  | decimal
  deriving DecidableEq, Repr

/-- The name that marks a leaf. -/
def LeafKind.mark : LeafKind → String
  | date => "$rhai_bridge::bean::Date"
  | time => "$rhai_bridge::bean::Time"
  | dateTime => "$rhai_bridge::bean::DateTime"
  | decimal => "$rhai_bridge::bean::Decimal"

/-- The kind of leaf that a name marks. -/
def LeafKind.ofMark? (name : String) : Option LeafKind :=
  [date, time, dateTime, decimal].find? fun k => k.mark == name

/-- The value of a leaf's text, or the wording of what is wrong with it. -/
def LeafKind.read (kind : LeafKind) (text : String) : Except String Value :=
  match kind with
  | date => (Date.ofText text).mapError (·.message) |>.map .date
  | time => (Time.ofText text).mapError (·.message) |>.map .time
  | dateTime => (DateTime.ofText text).mapError (·.message) |>.map .dateTime
  | decimal => (Decimal.ofText text).mapError (·.message) |>.map .decimal

/-- A leaf that keeps its kind. -/
inductive Leaf where
  /-- A day. -/
  | date (d : Date)
  /-- A time of the day. -/
  | time (t : Time)
  /-- A time of a day. -/
  | dateTime (t : DateTime)
  /-- A decimal number. -/
  | decimal (d : Decimal)
  deriving DecidableEq

/-- The kind of a leaf. -/
def Leaf.kind : Leaf → LeafKind
  | date _ => .date
  | time _ => .time
  | dateTime _ => .dateTime
  | decimal _ => .decimal

/-- The text of a leaf. -/
def Leaf.text : Leaf → String
  | date d => d.text
  | time t => t.text
  | dateTime t => t.text
  | decimal d => d.text

/-- A leaf as a marked part of a bean. -/
def Leaf.bean (leaf : Leaf) : Bean := .newtype leaf.kind.mark (.text leaf.text)

/-- What keeps a part from being flattened. -/
inductive BeanProblem where
  /-- A marked leaf is no text. -/
  | leafWithoutText (mark : String)
  /-- The text of a marked leaf does not read. -/
  | invalidLeaf (text reason : String)
  /-- A key that has no text. -/
  | unsupportedKey (key : Value)
  /-- A value without a key. -/
  | missingKey
  /-- The part refused. -/
  | refused (message : String)
  /-- The bean as a whole is no record and no map. -/
  | noFields (v : Value)

/-- The wording of a problem. -/
def BeanProblem.message : BeanProblem → String
  | leafWithoutText mark => mark ++ " leaf must serialize as text"
  | invalidLeaf text reason => "invalid leaf '" ++ text ++ "': " ++ reason
  | unsupportedKey key => "unsupported map key " ++ key.describe
  | missingKey => "map value without a key"
  | refused message => message
  | noFields v => "expected a struct or map, got " ++ v.describe

/-- A problem with the path of the part it lies in, outermost first. -/
structure BeanFault where
  /-- Keys, names and indices that lead to the part. -/
  path : List String
  /-- The problem. -/
  problem : BeanProblem

/-- The fault one level further out. -/
def BeanFault.below (step : String) (f : BeanFault) : BeanFault := { f with path := step :: f.path }

/-- The fault as a failure; the bean itself is the root. -/
def BeanFault.failure (f : BeanFault) : Failure :=
  .inaccessibleField (if f.path.isEmpty then "<root>" else joined "." f.path) f.problem.message

namespace Bean

/-- A problem right here. -/
def problem {α : Type} (p : BeanProblem) : Except BeanFault α := .error ⟨[], p⟩

/-- The value of a part of one: leaves that are marked are read. -/
def leafValue (name : String) (inner : Value) : Except BeanFault Value :=
  match LeafKind.ofMark? name with
  | none => .ok inner
  | some kind =>
    match inner with
    | .string s =>
      match kind.read s with
      | .ok v => .ok v
      | .error reason => problem (.invalidLeaf s reason)
    | _ => problem (.leafWithoutText name)

/-- The text of a key. -/
def keyText : Value → Except BeanFault String
  | .string s => .ok s
  | .int i => .ok (toString i)
  | .bigInt i => .ok (toString i)
  | .bool b => .ok (toString b)
  | v => problem (.unsupportedKey v)

/-- A mapping with one key. -/
def tagged (variant : String) (v : Value) : Value := .map [(variant, v)]

mutual

/-- The host value of a bean. -/
def flattenValue : Bean → Except BeanFault Value
  | .bool b => .ok (.bool b)
  | .int i => .ok (Value.ofInt i)
  | .float x => .ok (.float x)
  | .text s => .ok (.string s)
  | .bytes bs => .ok (.list (bs.map fun (b : Nat) => .int b))
  | .absent => .ok .null
  | .present b => flattenValue b
  | .unitVariant variant => .ok (.string variant)
  | .newtype name b =>
    match flattenValue b with
    | .ok v => leafValue name v
    | .error e => .error e
  | .newtypeVariant variant b =>
    match flattenValue b with
    | .ok v => .ok (tagged variant v)
    | .error e => .error (e.below variant)
  | .seq items => (flattenItems 0 items).map .list
  | .tupleVariant variant items => (flattenItems 0 items).map fun vs => tagged variant (.list vs)
  | .map entries => (flattenEntries [] entries).map .map
  | .record fields => (flattenFields [] fields).map .map
  | .recordVariant variant fields =>
    (flattenFields [] fields).map fun vs => tagged variant (.map vs)
  | .refused message => problem (.refused message)

/-- The host values of items, numbered from `index`. -/
def flattenItems (index : Nat) : List Bean → Except BeanFault (List Value)
  | [] => .ok []
  | b :: rest =>
    match flattenValue b with
    | .error e => .error (e.below (toString index))
    | .ok v =>
      match flattenItems (index + 1) rest with
      | .error e => .error e
      | .ok vs => .ok (v :: vs)

/-- The host values of entries, written over those before them. -/
def flattenEntries (done : List (String × Value)) :
    List (Option Bean × Bean) → Except BeanFault (List (String × Value))
  | [] => .ok done
  | (none, _) :: _ => problem .missingKey
  | (some key, b) :: rest =>
    match flattenValue key with
    | .error e => .error e
    | .ok k =>
      match keyText k with
      | .error e => .error e
      | .ok k =>
        match flattenValue b with
        | .error e => .error (e.below k)
        | .ok v => flattenEntries (Fields.insert k v done) rest

/-- The host values of fields, written over those before them. -/
def flattenFields (done : List (String × Value)) :
    List (String × Bean) → Except BeanFault (List (String × Value))
  | [] => .ok done
  | (k, b) :: rest =>
    match flattenValue b with
    | .error e => .error (e.below k)
    | .ok v => flattenFields (Fields.insert k v done) rest

end

/-- Flatten a bean into fields; nothing for an absent bean. -/
def flatten (b : Bean) : Except Failure (Option (List (String × Value))) :=
  match flattenValue b with
  | .error e => .error e.failure
  | .ok .null => .ok none
  | .ok (.map fields) => .ok (some fields)
  | .ok v => .error (BeanFault.failure ⟨[], .noFields v⟩)

end Bean

end ScriptHost
