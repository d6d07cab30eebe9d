import ScriptHost.Number.Binary

/-!
# Shortest decimal digits

The decimal text of a floating-point number is chosen on the coarsest power-of-ten grid that has a
point in the interval of reals rounding to the number; of two such points the nearer one is taken.
-/

namespace ScriptHost

/-- A positive decimal number `digits · 10 ^ exponent`. -/
structure DecimalDigits where
  /-- The digits as one integer. -/
  digits : Nat
  /-- The power of ten of the last digit. -/
  exponent : Int
  deriving DecidableEq, Repr

/-- The interval of positive reals that round to a number: `value` and the two ends over the
common denominator `scale`. -/
structure RoundingInterval where
  /-- Numerator of the lower end. -/
  low : Nat
  /-- Numerator of the number itself. -/
  value : Nat
  /-- Numerator of the upper end. -/
  high : Nat
  /-- The common denominator. -/
  scale : Nat
  /-- Whether the ends themselves round to the number. -/
  closed : Bool

namespace RoundingInterval

/-- The interval around `mantissa · 2 ^ exponent` in a layout. -/
def around (l : BinaryLayout) (mantissa : Nat) (exponent : Int) : RoundingInterval :=
  let atBinade := mantissa == 2 ^ l.fractionBits && l.minExponent < exponent
  let low := if atBinade then 4 * mantissa - 1 else 4 * mantissa - 2
  let up := 2 ^ exponent.toNat
  ⟨low * up, 4 * mantissa * up, (4 * mantissa + 2) * up, 4 * 2 ^ (-exponent).toNat,
    mantissa % 2 == 0⟩

/-- Whether `n · 10 ^ k` lies in the interval. -/
def holds (r : RoundingInterval) (n : Nat) (k : Int) : Bool :=
  let x := n * 10 ^ k.toNat * r.scale
  let unit := 10 ^ (-k).toNat
  if r.closed then r.low * unit ≤ x && x ≤ r.high * unit
  else r.low * unit < x && x < r.high * unit

/-- The point of the grid `10 ^ k` in the interval that is nearest to the number. -/
def gridPoint? (r : RoundingInterval) (k : Int) : Option Nat :=
  let num := r.value * 10 ^ (-k).toNat
  let den := r.scale * 10 ^ k.toNat
  let below := num / den
  match 0 < below && r.holds below k, r.holds (below + 1) k with
  | true, true => if 2 * (num % den) ≤ den then some below else some (below + 1)
  | true, false => some below
  | false, true => some (below + 1)
  | false, false => none

/-- The first grid with a point in the interval, from `10 ^ k` downwards. -/
def search (r : RoundingInterval) : Nat → Int → DecimalDigits
  | 0, k => ⟨0, k⟩
  | fuel + 1, k =>
    match r.gridPoint? k with
    | some n => ⟨n, k⟩
    | none => r.search fuel (k - 1)

/-- A power of ten above the number. -/
def startExponent (r : RoundingInterval) : Int :=
  if r.scale ≤ r.value then (Nat.toDigits 10 (r.value / r.scale)).length
  else 2 - (Nat.toDigits 10 (r.scale / r.value)).length

end RoundingInterval

/-- The shortest decimal that reads back as `mantissa · 2 ^ exponent`, for a positive mantissa. -/
def shortestDigits (l : BinaryLayout) (mantissa : Nat) (exponent : Int) : DecimalDigits :=
  let r := RoundingInterval.around l mantissa exponent
  r.search 30 r.startExponent

end ScriptHost
