import ScriptHost.Script.Datum
import ScriptHost.Value.Basic

/-!
# Host values as script values

Encoding turns a host value into a script value. Outside exact values it lowers decimals and big
integers whose magnitude lies below the greatest 64-bit integer to floating-point numbers and
integers, so that scripts can compute with them. Decoding of scalars is the way back.
-/

namespace ScriptHost

open Script

/-- Magnitudes below this bound are lowered. -/
def loweringBound : Nat := 2 ^ 63 - 1

/-- A decimal number in a script; lowered where it is small. -/
def lowerDecimal (d : Decimal) : Datum :=
  if d.magnitudeBelow loweringBound then .float d.toFloat else .decimal d

/-- A big integer in a script; lowered where it is small. -/
def lowerBigInt (i : Int) : Datum := if i.natAbs < loweringBound then .int i else .bigInt i

mutual

/-- The script value of a host value; numbers are lowered if `lower`. -/
def encodeWith (lower : Bool) : Value → Datum
  | .null => .unit
  | .bool b => .bool b
  | .int i => .int i
  | .float x => .float x
  | .decimal d => if lower then lowerDecimal d else .decimal d
  | .bigInt i => if lower then lowerBigInt i else .bigInt i
  | .string s => .string s
  | .date d => .date d
  | .time t => .time t
  | .dateTime t => .dateTime t
  | .list items => .array (encodeItems lower items)
  | .map fields => .map (encodeFields lower fields)
  | .exact inner => encodeWith false inner
  | .handle id => .handle id
  | .callable name => if isFunctionName name then .fnPtr name [] else .string name

/-- The script value of every item. -/
def encodeItems (lower : Bool) : List Value → List Datum
  | [] => []
  | v :: rest => encodeWith lower v :: encodeItems lower rest

/-- The script value of every field. -/
def encodeFields (lower : Bool) : List (String × Value) → List (String × Datum)
  | [] => []
  | (k, v) :: rest => (k, encodeWith lower v) :: encodeFields lower rest

end

/-- The script value of a host value. -/
def encode (v : Value) : Datum := encodeWith true v

/-- The host value of a scalar script value; `none` for containers, function pointers and values of
unknown types. -/
def decodeScalar? (d : Datum) : Option Value :=
  match d.unshared with
  | .unit => some .null
  | .bool b => some (.bool b)
  | .int i => some (.int i)
  | .float x => some (.float x)
  | .decimal d => some (.decimal d)
  | .bigInt i => some (.bigInt i)
  | .string s => some (.string s)
  | .char c => some (.string (String.singleton c))
  | .date d => some (.date d)
  | .time t => some (.time t)
  | .dateTime t => some (.dateTime t)
  | .handle id => some (.handle id)
  | _ => none

end ScriptHost
