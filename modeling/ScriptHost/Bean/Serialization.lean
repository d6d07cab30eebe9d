import ScriptHost.Bean

/-!
# Serializations

The calls with which a structured object presents itself, one by one. Calls that differ only in the
width of a number, in the name of a type or in how a sequence is announced give the same bean.
-/

namespace ScriptHost

/-- How many bits the integers of a call have. -/
inductive IntWidth where
  /-- Eight bits. -/
  | bits8
  /-- Sixteen bits. -/
  | bits16
  /-- Thirty-two bits. -/
  | bits32
  /-- Sixty-four bits. -/
  | bits64
  /-- A hundred and twenty-eight bits. -/
  | bits128
  deriving DecidableEq, Repr

namespace IntWidth

/-- The number of bits. -/
def bits : IntWidth → Nat
  | bits8 => 8
  | bits16 => 16
  | bits32 => 32
  | bits64 => 64
  | bits128 => 128

/-- Whether an integer fits, with a sign or without. -/
def holds (width : IntWidth) (signed : Bool) (i : Int) : Bool :=
  if signed then -(2 ^ (width.bits - 1)) ≤ i && i < 2 ^ (width.bits - 1)
  else 0 ≤ i && i < 2 ^ width.bits

end IntWidth

/-- The calls that serialize a structured object, as a tree. -/
inductive Serialization where
  /-- A truth value. -/
  | bool (b : Bool)
  /-- An integer of a width, with a sign or without. -/
  | int (width : IntWidth) (signed : Bool) (i : Int) (holds : width.holds signed i = true)
  /-- A 32-bit floating-point number. -/
  | single (bits : UInt32)
  /-- A 64-bit floating-point number. -/
  | double (x : Float)
  /-- A character. -/
  | char (c : Char)
  /-- A text. -/
  | text (s : String)
  /-- A sequence of bytes. -/
  | bytes (bs : List UInt8)
  /-- An empty option. -/
  | absent
  /-- A filled option. -/
  | present (s : Serialization)
  /-- The unit. -/
  | unit
  /-- A type without parts. -/
  | unitStruct (name : String)
  /-- A variant without content. -/
  | unitVariant (variant : String)
  /-- A type of one part. -/
  | newtypeStruct (name : String) (s : Serialization)
  /-- A variant of one part. -/
  | newtypeVariant (variant : String) (s : Serialization)
  /-- A sequence. -/
  | seq (items : List Serialization)
  /-- A tuple. -/
  | tuple (items : List Serialization)
  /-- A type of several parts. -/
  | tupleStruct (name : String) (items : List Serialization)
  /-- A variant of several parts. -/
  | tupleVariant (variant : String) (items : List Serialization)
  /-- Keys and values; a value may come without a key before it. -/
  | map (entries : List (Option Serialization × Serialization))
  /-- A type with named fields. -/
  | record (name : String) (fields : List (String × Serialization))
  /-- A variant with named fields. -/
  | recordVariant (variant : String) (fields : List (String × Serialization))
  /-- A leaf that keeps its kind. -/
  | leaf (l : Leaf)
  /-- An optional leaf that keeps its kind. -/
  | leafOption (l : Option Leaf)
  /-- A refusal to be serialized. -/
  | refused (message : String)
  deriving Inhabited

namespace Serialization

mutual

/-- The bean of a serialization. -/
def bean : Serialization → Bean
  | bool b => .bool b
  | int _ _ i _ => .int i
  | single bits => .float (Double.ofSingleBits bits.toNat)
  | double x => .float x
  | char c => .text c.toString
  | text s => .text s
  | bytes bs => .bytes (bs.map (·.toNat))
  | absent => .absent
  | present s => .present s.bean
  | unit => .absent
  | unitStruct _ => .absent
  | unitVariant variant => .unitVariant variant
  | newtypeStruct name s => .newtype name s.bean
  | newtypeVariant variant s => .newtypeVariant variant s.bean
  | seq items => .seq (beans items)
  | tuple items => .seq (beans items)
  | tupleStruct _ items => .seq (beans items)
  | tupleVariant variant items => .tupleVariant variant (beans items)
  | map entries => .map (entryBeans entries)
  | record _ fields => .record (fieldBeans fields)
  | recordVariant variant fields => .recordVariant variant (fieldBeans fields)
  | leaf l => l.bean
  | leafOption none => .absent
  | leafOption (some l) => .present l.bean
  | refused message => .refused message

/-- The beans of items. -/
def beans : List Serialization → List Bean
  | [] => []
  | s :: rest => s.bean :: beans rest

/-- The beans of keys and values. -/
def entryBeans : List (Option Serialization × Serialization) → List (Option Bean × Bean)
  | [] => []
  | (none, s) :: rest => (none, s.bean) :: entryBeans rest
  | (some key, s) :: rest => (some key.bean, s.bean) :: entryBeans rest

/-- The beans of fields. -/
def fieldBeans : List (String × Serialization) → List (String × Bean)
  | [] => []
  | (name, s) :: rest => (name, s.bean) :: fieldBeans rest

end

end Serialization

end ScriptHost
