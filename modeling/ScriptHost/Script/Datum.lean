import ScriptHost.Calendar.Basic
import ScriptHost.Fields
import ScriptHost.Number.Decimal
import ScriptHost.Script.Cause
import ScriptHost.Script.Position

/-!
# Script values, faults and failures

The values of the script language, the faults that end a running script, and the failures that the
host sees. The three are one family: a fault may carry a value that a script threw, and a failure of
a host function travels through the script as such a value.
-/

namespace ScriptHost.Script

/-- Machine integers that scripts can hold but not compute with. -/
inductive SizedKind where
  /-- Unsigned, eight bits. -/
  | u8
  /-- Signed, 32 bits. -/
  | i32
  /-- Unsigned, 64 bits. -/
  | u64
  deriving DecidableEq, Repr

mutual

/-- A script value. -/
inductive Datum where
  /-- The empty value. -/
  | unit
  /-- A truth value. -/
  | bool (b : Bool)
  /-- A 64-bit integer. -/
  | int (i : Int)
  /-- A floating-point number. -/
  | float (x : Float)
  /-- A decimal number. -/
  | decimal (d : Decimal)
  /-- An integer of any size. -/
  | bigInt (i : Int)
  /-- A text. -/
  | string (s : String)
  /-- A character. -/
  | char (c : Char)
  /-- A day. -/
  | date (d : Date)
  /-- A time of the day. -/
  | time (t : Time)
  /-- A time of a day. -/
  | dateTime (t : DateTime)
  /-- An array. -/
  | array (items : List Datum)
  /-- A sequence of bytes. -/
  | blob (bytes : List Nat)
  /-- An object map. -/
  | map (fields : List (String × Datum))
  /-- A function pointer with the arguments that come before all others. -/
  | fnPtr (name : String) (curried : List Capture)
  /-- The integers from `low` up to but not `high`. -/
  | range (low high : Int)
  /-- The integers from `low` up to `high`. -/
  | rangeInclusive (low high : Int)
  /-- The numbers from `start` by `step` until `stop`. -/
  | steps (start stop step : Int)
  /-- A host object, known by its identity. -/
  | handle (id : Nat)
  /-- A failure of a host function on its way through the script. -/
  | failure (f : Failure)
  /-- A machine integer. -/
  | sized (kind : SizedKind) (i : Int)
  /-- A 32-bit floating-point number, by its bits. -/
  | single (bits : Nat)
  /-- A value of a type that the engine does not know. -/
  | foreign (typeName : String)
  /-- The content of a cell that closures share. -/
  | shared (content : Datum)

/-- A curried argument of a function pointer. -/
inductive Capture where
  /-- A value of its own. -/
  | value (d : Datum)
  /-- A cell of the running script. -/
  | cell (id : Nat)

/-- A fault that ends a running script. -/
inductive Fault where
  /-- A value thrown by the script or by a host function. -/
  | thrown (payload : Datum) (pos : Position)
  /-- A fault inside a called function, from a named source. -/
  | inCall (name source : String) (inner : Fault) (pos : Position)
  /-- Something that went wrong. -/
  | raised (cause : Cause) (pos : Position)

/-- Why preparing or running a script gives no value. -/
inductive Failure where
  /-- The text is no script. -/
  | compile (problem : ParseProblem) (pos : Position) (script : String)
  /-- The script ended in a fault. -/
  | execution (fault : Fault) (script : String)
  /-- The result is not of the wanted type. -/
  | projection (expected actual : String)
  /-- A field of a bean has no value. -/
  | inaccessibleField (field reason : String)
  /-- A host function that cannot be registered. -/
  | invalidFunction (name reason : String)
  /-- A host function failed; the script is known once the failure has left it. -/
  | hostFunction (name message : String) (script : Option String)
  /-- A failure in the host's own words. -/
  | custom (message : String)

end

instance : Inhabited Datum := ⟨.unit⟩
instance : Inhabited Fault := ⟨.raised .unboundThis .none⟩
instance : Inhabited Failure := ⟨.custom ""⟩

namespace Datum

/-- The content of shared cells, the value itself otherwise. -/
def unshared : Datum → Datum
  | shared d => unshared d
  | d => d

/-- The type of a value by its full name. -/
def typeName : Datum → String
  | unit => "()"
  | bool _ => "bool"
  | int _ => "i64"
  | float _ => "f64"
  | decimal _ => "decimal"
  | bigInt _ => "num_bigint::bigint::BigInt"
  | string _ => "string"
  | char _ => "char"
  | date _ => "chrono::naive::date::NaiveDate"
  | time _ => "chrono::naive::time::NaiveTime"
  | dateTime _ => "chrono::naive::datetime::NaiveDateTime"
  | array _ => "array"
  | blob _ => "blob"
  | map _ => "map"
  | fnPtr .. => "Fn"
  | range .. => "core::ops::range::Range<i64>"
  | rangeInclusive .. => "core::ops::range::RangeInclusive<i64>"
  | steps .. => "rhai::packages::iter_basic::StepRange<i64>"
  | handle _ => "rhai_bridge::value::HostObject"
  | failure _ => "rhai_bridge::error::ScriptError"
  | sized .u8 _ => "u8"
  | sized .i32 _ => "i32"
  | sized .u64 _ => "u64"
  | single _ => "f32"
  | foreign name => name
  | shared d => typeName d

/-- The type of a value by the name that scripts see. -/
def scriptTypeName (d : Datum) : String :=
  match d.unshared with
  | bigInt _ => "BigInt"
  | date _ => "Date"
  | time _ => "Time"
  | dateTime _ => "DateTime"
  | range .. => "range"
  | rangeInclusive .. => "range="
  | handle _ => "HostObject"
  | d => d.typeName

/-- The type of a value as the signature of a missing function spells it. -/
def signatureTypeName (d : Datum) : String :=
  match d.unshared with
  | string _ => "&str | ImmutableString | String"
  | d => d.scriptTypeName

/-- Whether the value is the empty one. -/
def isUnit (d : Datum) : Bool :=
  match d.unshared with
  | unit => true
  | _ => false

end Datum

namespace Fault

/-- The position of the fault itself. -/
def position : Fault → Position
  | thrown _ p => p
  | inCall _ _ _ p => p
  | raised _ p => p

/-- The fault at another position. -/
def withPosition (p : Position) : Fault → Fault
  | thrown v _ => thrown v p
  | inCall name source inner _ => inCall name source inner p
  | raised c _ => raised c p

/-- The fault, placed at a position if it has none. -/
def atIfNone (f : Fault) (p : Position) : Fault :=
  if f.position.isNone then f.withPosition p else f

/-- Whether no `catch` of the script sees the fault. -/
def isSystem : Fault → Bool
  | raised c _ => c.isSystem
  | _ => false

/-- The fault inside all call frames. -/
def innermost : Fault → Fault
  | inCall _ _ inner _ => innermost inner
  | f => f

end Fault

end ScriptHost.Script
