import ScriptHost.Number.Binary

/-!
# Decimal numbers

Signed decimal numbers with up to 28 places and a mantissa below 2⁹⁶. A number keeps its scale, so
`1.50` and `1.5` are equal in value and differ in text. The reader rounds places beyond the 28th
and those that no longer fit the mantissa.
-/

namespace ScriptHost

/-- The greatest number of decimal places. -/
def maxDecimalScale : Nat := 28

/-- Mantissas lie below this bound. -/
def decimalBound : Nat := 2 ^ 96

/-- The number `± mantissa / 10 ^ scale`. -/
structure Decimal where
  /-- The sign; a zero may carry it too. -/
  negative : Bool
  /-- The digits as one integer. -/
  mantissa : Nat
  /-- The number of places after the point. -/
  scale : Nat
  mantissa_lt : mantissa < decimalBound := by decide
  scale_le : scale ≤ maxDecimalScale := by decide
  deriving DecidableEq

/-- Why a text is no decimal number. -/
inductive DecimalError where
  /-- The text is empty. -/
  | empty
  /-- A second point. -/
  | secondPoint
  /-- A separator before any digit. -/
  | leadingSeparator
  /-- A character that no number holds. -/
  | unknownCharacter
  /-- A sign or a point and no digit. -/
  | noDigits
  /-- Too many digits before the point. -/
  | tooManyDigits
  /-- Rounding leads out of the range. -/
  | roundingOverflow
  deriving DecidableEq, Repr

/-- The wording of a decimal error. -/
def DecimalError.message : DecimalError → String
  | empty => "Invalid decimal: empty"
  | secondPoint => "Invalid decimal: two decimal points"
  | leadingSeparator => "Invalid decimal: must start lead with a number"
  | unknownCharacter => "Invalid decimal: unknown character"
  | noDigits => "Invalid decimal: no digits found"
  | tooManyDigits => "Invalid decimal: overflow from too many digits"
  | roundingOverflow => "Invalid decimal: overflow from mantissa after rounding"

namespace Decimal

instance : Inhabited Decimal := ⟨{ negative := false, mantissa := 0, scale := 0 }⟩

/-- Zero without places. -/
def zero : Decimal := { negative := false, mantissa := 0, scale := 0 }

/-- The number with the given parts, if they are in range. -/
def make? (negative : Bool) (mantissa scale : Nat) : Option Decimal :=
  if h : mantissa < decimalBound ∧ scale ≤ maxDecimalScale then
    some { negative, mantissa, scale, mantissa_lt := h.1, scale_le := h.2 }
  else none

/-- An integer, if its magnitude fits. -/
def ofInt? (i : Int) : Option Decimal := make? (i < 0) i.natAbs 0

/-- Mantissa with sign. -/
def signed (d : Decimal) : Int := if d.negative then -(d.mantissa : Int) else d.mantissa

/-- Whether the number is zero, of either sign and any scale. -/
def isZero (d : Decimal) : Bool := d.mantissa == 0

/-- The number without its sign. -/
def abs (d : Decimal) : Decimal := { d with negative := false }

/-- The number with the other sign. -/
def neg (d : Decimal) : Decimal := { d with negative := !d.negative }

/-- The number with the sign dropped if it is zero. -/
def unsignZero (d : Decimal) : Decimal :=
  { d with negative := d.negative && d.mantissa != 0 }

/-- Order by value. -/
def compare (a b : Decimal) : Ordering :=
  Ord.compare (a.signed * 10 ^ b.scale) (b.signed * 10 ^ a.scale)

/-- Equality of value: scale and sign of zero do not matter. -/
def equal (a b : Decimal) : Bool := a.signed * 10 ^ b.scale == b.signed * 10 ^ a.scale

/-- Whether the magnitude of the number lies below an integer bound. -/
def magnitudeBelow (d : Decimal) (bound : Nat) : Bool := d.mantissa < bound * 10 ^ d.scale

/-- The text of the number: sign, whole part, and exactly `scale` places. -/
def text (d : Decimal) : String :=
  let digits := Nat.toDigits 10 d.mantissa
  let padded := List.replicate (d.scale + 1 - digits.length) '0' ++ digits
  let whole := padded.take (padded.length - d.scale)
  let places := padded.drop (padded.length - d.scale)
  let point := if d.scale == 0 then [] else ['.']
  String.ofList ((if d.negative then ['-'] else []) ++ whole ++ point ++ places)

/-- The nearest whole number below in magnitude. -/
def truncate (d : Decimal) : Int :=
  let magnitude : Nat := d.mantissa / 10 ^ d.scale
  if d.negative then -(magnitude : Int) else magnitude

/-- The number as a double: whole numbers exactly rounded, others by adding the rounded fraction
to the rounded whole part and rounding the sum once more at the number's own scale. -/
def toFloat (d : Decimal) : Float :=
  let magnitude :=
    if d.scale == 0 then Double.ofInt d.mantissa
    else
      let unit := 10 ^ d.scale
      let whole := Double.ofInt (d.mantissa / unit : Nat)
      let fraction := Double.ofInt (d.mantissa % unit : Nat) / Double.ofInt unit
      if fraction == 0.0 then whole
      else Double.roundHalfAway ((whole + fraction) * Double.ofInt unit) / Double.ofInt unit
  if d.negative then -magnitude else magnitude

/-- Finish a reading. -/
def finish (negative : Bool) (mantissa scale : Nat) : Except DecimalError Decimal :=
  match make? negative mantissa scale with
  | some d => .ok d.unsignZero
  | none => .error .tooManyDigits

/-- End a reading at the first character that no longer fits, rounding on it. -/
def roundOn (negative : Bool) (mantissa scale : Nat) (c : Char) :
    Except DecimalError Decimal :=
  let digit? : Except DecimalError Nat :=
    if c.isDigit then .ok (c.toNat - '0'.toNat)
    else if c = '_' || c = '.' then .ok 0
    else .error .unknownCharacter
  match digit? with
  | .error e => .error e
  | .ok digit =>
    if digit < 5 then finish negative mantissa scale
    else if mantissa + 1 < decimalBound then finish negative (mantissa + 1) scale
    else if scale == 0 then .error .roundingOverflow
    else finish negative ((mantissa + 5) / 10) (scale - 1)

/-- The number with a different power of ten, if it fits. -/
def shift? (negative : Bool) (mantissa : Nat) (scale : Int) : Option Decimal :=
  if scale < 0 then
    if scale < -(maxDecimalScale : Int) && mantissa != 0 then none
    else make? negative (mantissa * 10 ^ (-scale).toNat) 0
  else make? negative mantissa scale.toNat

/-- The power of ten after the digits of a number. -/
def readExponent (negative : Bool) (mantissa scale : Nat) (cs : List Char) :
    Except DecimalError Decimal :=
  let (negativeExponent, digits) :=
    match cs with
    | '-' :: r => (true, r)
    | '+' :: r => (false, r)
    | r => (false, r)
  if digits.isEmpty then .error .noDigits
  else if !digits.all Char.isDigit then .error .unknownCharacter
  else if 9 < digits.length then .error .tooManyDigits
  else
    let n := digits.foldl (fun n c => n * 10 + (c.toNat - '0'.toNat)) 0
    match shift? negative mantissa (scale - (if negativeExponent then -(n : Int) else n)) with
    | some d => .ok d.unsignZero
    | none => .error .tooManyDigits

/-- Read digits, at most one point, separators after the first digit, and a power of ten. -/
def readDigits (negative : Bool) :
    List Char → (point seen : Bool) → (mantissa scale : Nat) → Except DecimalError Decimal
  | [], _, seen, mantissa, scale =>
    if seen then finish negative mantissa scale else .error .noDigits
  | c :: rest, point, seen, mantissa, scale =>
    if seen && point && scale == maxDecimalScale then roundOn negative mantissa scale c
    else if c.isDigit then
      let next := mantissa * 10 + (c.toNat - '0'.toNat)
      if next < decimalBound then
        readDigits negative rest point true next (if point then scale + 1 else scale)
      else if point then roundOn negative mantissa scale c
      else .error .tooManyDigits
    else if c = '.' then
      if point then .error .secondPoint else readDigits negative rest true seen mantissa scale
    else if c = '_' then
      if seen then readDigits negative rest point seen mantissa scale
      else .error .leadingSeparator
    else if seen && (c = 'e' || c = 'E') then readExponent negative mantissa scale rest
    else .error .unknownCharacter

/-- Read a decimal number: an optional sign, digits, a point, separators between digits, and a
power of ten after `e`. -/
def ofText (s : String) : Except DecimalError Decimal :=
  match s.toList with
  | [] => .error .empty
  | '-' :: rest => readDigits true rest false false 0 0
  | '+' :: rest => readDigits false rest false false 0 0
  | cs => readDigits false cs false false 0 0

end Decimal

end ScriptHost
