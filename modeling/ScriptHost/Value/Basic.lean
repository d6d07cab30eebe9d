import ScriptHost.Calendar.Basic
import ScriptHost.Json.Basic
import ScriptHost.Number.Decimal

/-!
# Host values

The values that a host binds into a script and gets back from it, with their accessors and their
equality. Values of different kinds are never equal, and handles are equal when they name the same
object.
-/

namespace ScriptHost

/-- A value on the host's side. -/
inductive Value where
  /-- Nothing. -/
  | null
  /-- A truth value. -/
  | bool (b : Bool)
  /-- A 64-bit integer. -/
  | int (i : Int)
  /-- A floating-point number. -/
  | float (x : Float)
  /-- A decimal number. -/
  | decimal (d : Decimal)
  /-- An integer of any size. -/
  | bigInt (i : Int)
  /-- A text. -/
  | string (s : String)
  /-- A day. -/
  | date (d : Date)
  /-- A time of the day. -/
  | time (t : Time)
  /-- A time of a day. -/
  | dateTime (t : DateTime)
  /-- A sequence. -/
  | list (items : List Value)
  /-- A mapping. -/
  | map (fields : List (String × Value))
  /-- A value that reaches the script with its numbers exactly as they are. -/
  | exact (inner : Value)
  /-- A host object, known by its identity. -/
  | handle (id : Nat)
  /-- A script function, known by its name. -/
  | callable (name : String)
  deriving Inhabited

namespace Value

/-- Whether this is the null. -/
def isNull : Value → Bool
  | null => true
  | _ => false

/-- The truth value, if it is one. -/
def asBool? : Value → Option Bool
  | bool b => some b
  | _ => none

/-- The integer, if it is one and fits 64 bits. -/
def asInt64? : Value → Option Int
  | int i => some i
  | bigInt i => if fitsInt64 i then some i else none
  | _ => none

/-- The number as a double, if it is one. -/
def asFloat? : Value → Option Float
  | int i => some (Double.ofInt i)
  | float x => some x
  | decimal d => some d.toFloat
  | bigInt i => some (Double.ofInt i)
  | _ => none

/-- The text, if it is one. -/
def asString? : Value → Option String
  | string s => some s
  | _ => none

/-- The items, if it is a sequence. -/
def asList? : Value → Option (List Value)
  | list items => some items
  | _ => none

/-- The fields, if it is a mapping. -/
def asMap? : Value → Option (List (String × Value))
  | map fields => some fields
  | _ => none

/-- The value of a key, if it is a mapping that has it. -/
def get? (v : Value) (key : String) : Option Value := v.asMap?.bind (Fields.get? key)

mutual

/-- Equality: numbers by value within their kind, handles by identity. -/
def beq : Value → Value → Bool
  | null, null => true
  | bool a, bool b => a == b
  | int a, int b => a == b
  | float a, float b => a == b
  | decimal a, decimal b => a.equal b
  | bigInt a, bigInt b => a == b
  | string a, string b => a == b
  | date a, date b => a == b
  | time a, time b => a == b
  | dateTime a, dateTime b => a == b
  | list a, list b => beqItems a b
  | map a, map b => beqFields a b
  | exact a, exact b => beq a b
  | handle a, handle b => a == b
  | callable a, callable b => a == b
  | _, _ => false

/-- Equality item by item. -/
def beqItems : List Value → List Value → Bool
  | [], [] => true
  | a :: as, b :: bs => beq a b && beqItems as bs
  | _, _ => false

/-- Equality field by field. -/
def beqFields : List (String × Value) → List (String × Value) → Bool
  | [], [] => true
  | (k, a) :: as, (l, b) :: bs => k == l && beq a b && beqFields as bs
  | _, _ => false

end

instance : BEq Value := ⟨beq⟩

end Value

end ScriptHost
