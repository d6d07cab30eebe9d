import ScriptHost.Number.Power

/-!
# Binary floating point

How the bits of a floating-point number spell its value, for any split of a word into exponent
and fraction. Conversions from exact integers and ratios round to the nearest number, ties to the
even one.
-/

namespace ScriptHost

/-- The split of a floating-point word. -/
structure BinaryLayout where
  /-- Number of stored fraction bits. -/
  fractionBits : Nat
  /-- Number of exponent bits. -/
  exponentBits : Nat

/-- Sixty-four-bit numbers. -/
def BinaryLayout.double : BinaryLayout := ⟨52, 11⟩

/-- Thirty-two-bit numbers. -/
def BinaryLayout.single : BinaryLayout := ⟨23, 8⟩

/-- What a floating-point word stands for. -/
inductive BinaryValue where
  /-- No number. -/
  | nan
  /-- An infinity of the given sign. -/
  | infinite (negative : Bool)
  /-- The number `± mantissa · 2 ^ exponent`. -/
  | finite (negative : Bool) (mantissa : Nat) (exponent : Int)
  deriving DecidableEq, Repr

namespace BinaryLayout

/-- The exponent of the least significant bit of the smallest numbers. -/
def minExponent (l : BinaryLayout) : Int :=
  2 - (2 ^ (l.exponentBits - 1) : Nat) - l.fractionBits

/-- The value that a word stands for. -/
def decode (l : BinaryLayout) (bits : Nat) : BinaryValue :=
  let fraction := bits % 2 ^ l.fractionBits
  let exponent := bits / 2 ^ l.fractionBits % 2 ^ l.exponentBits
  let negative := bits / 2 ^ (l.fractionBits + l.exponentBits) % 2 == 1
  if exponent == 2 ^ l.exponentBits - 1 then
    if fraction == 0 then .infinite negative else .nan
  else if exponent == 0 then .finite negative fraction l.minExponent
  else .finite negative (2 ^ l.fractionBits + fraction) (l.minExponent + exponent - 1)

end BinaryLayout

namespace Double

/-- A number as sign, mantissa and exponent. -/
def parts (x : Float) : BinaryValue := BinaryLayout.double.decode x.toBits.toNat

/-- The nearest number to an integer; infinite beyond the range. -/
def ofInt (i : Int) : Float :=
  let magnitude := Float.ofScientific i.natAbs false 0
  if i < 0 then -magnitude else magnitude

/-- The number whose bits are given. -/
def ofBits (bits : Nat) : Float := Float.ofBits (UInt64.ofNat bits)

/-- Not-a-number. -/
def nan : Float := ofBits 0x7ff8000000000000

/-- Whether the number is neither infinite nor not-a-number. -/
def isFinite (x : Float) : Bool :=
  match parts x with
  | .finite .. => true
  | _ => false

/-- Whether the sign bit is set. -/
def isNegative (x : Float) : Bool := x.toBits.toNat / 2 ^ 63 == 1

/-- The magnitude of the number with its fraction dropped, `none` for infinities and
not-a-number. -/
def truncate? (x : Float) : Option Int :=
  match parts x with
  | .finite negative m e =>
    let magnitude : Nat := if 0 ≤ e then m * 2 ^ e.toNat else m / 2 ^ (-e).toNat
    some (if negative then -(magnitude : Int) else magnitude)
  | _ => none

/-- The nearest whole number, halves away from zero. -/
def roundHalfAway (x : Float) : Float :=
  match parts x with
  | .finite negative m e =>
    if 0 ≤ e then x
    else
      let d := 2 ^ (-e).toNat
      let magnitude := ofInt ((2 * m + d) / (2 * d) : Nat)
      if negative then -magnitude else magnitude
  | _ => x

/-- The double with the value of a thirty-two-bit word. -/
def ofSingleBits (bits : Nat) : Float :=
  match BinaryLayout.single.decode bits with
  | .nan => nan
  | .infinite negative => if negative then -(1.0 / 0.0) else 1.0 / 0.0
  | .finite negative m e =>
    let power := if 0 ≤ e then ofInt (2 ^ e.toNat : Nat) else 1.0 / ofInt (2 ^ (-e).toNat : Nat)
    let magnitude := ofInt m * power
    if negative then -magnitude else magnitude

end Double

end ScriptHost
