import ScriptHost.Execution

/-!
# Results as script values of one type

A result may be asked for as a value of one type of the script language. A result of another type
is refused with both names.
-/

namespace ScriptHost

open Script

/-- A type of script values that can be asked for. -/
inductive NativeType where
  /-- 64-bit integers. -/
  | int
  /-- Floating-point numbers. -/
  | float
  /-- Truth values. -/
  | bool
  /-- Characters. -/
  | char
  /-- The empty value. -/
  | unit
  /-- Texts, copied. -/
  | text
  /-- Texts, as scripts hold them. -/
  | sharedText
  /-- Decimal numbers. -/
  | decimal
  /-- Integers of any size. -/
  | bigInt
  /-- Days. -/
  | date
  /-- Times of the day. -/
  | time
  /-- Times of a day. -/
  | dateTime
  /-- Arrays. -/
  | array
  /-- Bytes. -/
  | blob
  /-- Object maps. -/
  | map
  /-- Function pointers. -/
  | fnPtr
  /-- Host objects. -/
  | handle
  /-- All values. -/
  | any
  deriving DecidableEq, Repr

namespace NativeType

/-- The full name of a type. -/
def name : NativeType → String
  | int => "i64"
  | float => "f64"
  | bool => "bool"
  | char => "char"
  | unit => "()"
  | text => "alloc::string::String"
  | sharedText => "rhai::types::immutable_string::ImmutableString"
  | decimal => "rust_decimal::decimal::Decimal"
  | bigInt => "num_bigint::bigint::BigInt"
  | date => "chrono::naive::date::NaiveDate"
  | time => "chrono::naive::time::NaiveTime"
  | dateTime => "chrono::naive::datetime::NaiveDateTime"
  | array => "alloc::vec::Vec<rhai::types::dynamic::Dynamic>"
  | blob => "alloc::vec::Vec<u8>"
  | map =>
    "alloc::collections::btree::map::BTreeMap<" ++
      "smartstring::SmartString<smartstring::config::LazyCompact>, rhai::types::dynamic::Dynamic>"
  | fnPtr => "rhai::types::fn_ptr::FnPtr"
  | handle => "rhai_bridge::value::HostObject"
  | any => "rhai::types::dynamic::Dynamic"

/-- Whether a value is of a type. -/
def holds : NativeType → Datum → Bool
  | int, .int _ => true
  | float, .float _ => true
  | bool, .bool _ => true
  | char, .char _ => true
  | unit, .unit => true
  | text, .string _ => true
  | sharedText, .string _ => true
  | decimal, .decimal _ => true
  | bigInt, .bigInt _ => true
  | date, .date _ => true
  | time, .time _ => true
  | dateTime, .dateTime _ => true
  | array, .array _ => true
  | blob, .blob _ => true
  | map, .map _ => true
  | fnPtr, .fnPtr .. => true
  | handle, .handle _ => true
  | any, _ => true
  | _, _ => false

/-- The text of a value of a type in the log. -/
def describe (t : NativeType) (d : Datum) : String :=
  match t, d with
  | bigInt, .bigInt i => toString i
  | date, .date d => d.text
  | time, .time t => t.text
  | dateTime, .dateTime t => t.text
  | blob, .blob bytes => "[" ++ joined ", " (bytes.map toString) ++ "]"
  | map, .map fields => "\x7b" ++ joined ", " (literalFields fields) ++ "\x7d"
  | handle, _ => "HostObject(_)"
  | _, d => d.literal

/-- Results as values of a type. -/
def projection (t : NativeType) : Projection Datum where
  read d :=
    if t.holds d.unshared then some (.ok d.unshared)
    else some (.error (.projection t.name d.typeName))
  describe := t.describe

end NativeType

/-- Execute with variables; the result is a script value of a type. -/
def Prepared.evalAs {ω : Type} (h : Host ω) (p : Prepared) (t : NativeType)
    (vars : List (String × Value)) : Store ω → Option (Except Failure Datum) × Store ω :=
  p.evaluate h (encodeBindings vars) h.config.defaultOptions t.projection

end ScriptHost
