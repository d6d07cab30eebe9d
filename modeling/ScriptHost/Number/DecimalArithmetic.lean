import ScriptHost.Number.Decimal

/-!
# Arithmetic on decimal numbers

Sums and products are exact where they fit, and otherwise lose places by rounding half to even.
Quotients take as many places as fit, and give back trailing zeros in groups.
-/

namespace ScriptHost.Decimal

/-- `n / 10 ^ places` rounded, halves to even. -/
def roundHalfEven (n places : Nat) : Nat :=
  let unit := 10 ^ places
  let q := n / unit
  let r := n % unit
  if unit < 2 * r || (2 * r == unit && q % 2 == 1) then q + 1 else q

/-- Drop places, at least `places`, until the digits fit; `none` if they run out. -/
def fit? (negative : Bool) (digits scale : Nat) : Nat → Nat → Option Decimal
  | 0, _ => none
  | fuel + 1, places =>
    if scale < places then none
    else if decimalBound ≤ digits / 10 ^ places then fit? negative digits scale fuel (places + 1)
    else
      let rounded := roundHalfEven digits places
      if rounded < decimalBound then make? negative rounded (scale - places)
      else if scale == places then none
      else make? negative (roundHalfEven rounded 1) (scale - places - 1)

/-- The number with these digits, rounded as far as needed. -/
def ofDigits? (negative : Bool) (digits scale : Nat) : Option Decimal :=
  fit? negative digits scale 64 (scale - maxDecimalScale)

/-- The sum, `none` if it is too large. -/
def add? (a b : Decimal) : Option Decimal :=
  if a.isZero then some b
  else if b.isZero then some a
  else
    let scale := max a.scale b.scale
    let sum := a.signed * 10 ^ (scale - a.scale) + b.signed * 10 ^ (scale - b.scale)
    let negative := if sum == 0 then a.negative else sum < 0
    ofDigits? negative sum.natAbs scale

/-- The difference, `none` if it is too large. -/
def sub? (a b : Decimal) : Option Decimal :=
  if a.isZero then some (if b.isZero then b else b.neg) else add? a b.neg

/-- The product, `none` if it is too large. -/
def mul? (a b : Decimal) : Option Decimal :=
  if a.isZero || b.isZero then some zero
  else
    let scale := a.scale + b.scale
    if a.mantissa < 2 ^ 32 && b.mantissa < 2 ^ 32 && 47 < scale then some zero
    else ofDigits? (a.negative != b.negative) (a.mantissa * b.mantissa) scale

/-- The most places, at most nine, by which a quotient can still grow. -/
def growth (quotient : Nat) (scale : Int) : Nat → Nat
  | 0 => 0
  | n + 1 =>
    if scale + (n + 1 : Nat) ≤ maxDecimalScale && quotient * 10 ^ (n + 1) < decimalBound then n + 1
    else growth quotient scale n

/-- Halve the excess of a quotient that just left the range. -/
private def shrink? (quotient : Nat) (scale : Int) (inexact : Bool) :
    Option (Nat × Int) :=
  if scale < 1 then none
  else
    let q := quotient / 10
    let r := quotient % 10
    some (if 5 < r || (r == 5 && (inexact || q % 2 == 1)) then q + 1 else q, scale - 1)

/-- Give back trailing zeros of an inexact division: four, two, then one place. -/
def dropZeros (quotient : Nat) (scale : Int) : Nat × Int :=
  let drop (places : Nat) (q : Nat × Int) : Nat × Int :=
    if (places : Int) ≤ q.2 && q.1 % 10 ^ places == 0 then (q.1 / 10 ^ places, q.2 - places) else q
  let eights := if quotient % 2 ^ 32 == 0 && quotient != 0 then drop 8 (quotient, scale)
    else (quotient, scale)
  drop 1 (drop 2 (drop 4 eights))

/-- The steps of a division: grow the quotient while a remainder is left and places fit. -/
def divideSteps (divisor : Nat) : Nat → (quotient remainder : Nat) → Int → Bool →
    Option (Nat × Int × Bool)
  | 0, quotient, _, scale, inexact => some (quotient, scale, inexact)
  | fuel + 1, quotient, remainder, scale, inexact =>
    let grow (places : Nat) (inexact : Bool) : Option (Nat × Int × Bool) :=
      let scaled := remainder * 10 ^ places
      let next := quotient * 10 ^ places + scaled / divisor
      let rest := scaled % divisor
      let scale := scale + places
      if decimalBound ≤ quotient * 10 ^ places then none
      else if decimalBound ≤ next then
        (shrink? next scale (rest != 0)).map fun (q, s) => (q, s, inexact)
      else divideSteps divisor fuel next rest scale inexact
    if remainder == 0 then
      if 0 ≤ scale then some (quotient, scale, inexact) else grow (min 9 (-scale).toNat) inexact
    else
      let places := growth quotient scale 9
      if places == 0 then
        if scale < 0 then none
        else if divisor < 2 * remainder || (2 * remainder == divisor && quotient % 2 == 1) then
          if quotient + 1 < decimalBound then some (quotient + 1, scale, true)
          else (shrink? (quotient + 1) scale true).map fun (q, s) => (q, s, true)
        else some (quotient, scale, true)
      else grow places true

/-- The quotient by a divisor other than zero, `none` if it is too large. -/
def div? (a b : Decimal) : Option Decimal :=
  if b.isZero then none
  else if a.isZero then some zero
  else
    match divideSteps b.mantissa 64 (a.mantissa / b.mantissa) (a.mantissa % b.mantissa)
        ((a.scale : Int) - b.scale) false with
    | none => none
    | some (q, s, inexact) =>
      let (q, s) := if inexact then dropZeros q s else (q, s)
      make? (a.negative != b.negative) q s.toNat

/-- The remainder of the truncated division by a divisor other than zero. -/
def rem? (a b : Decimal) : Option Decimal :=
  if b.isZero then none
  else if a.isZero then some zero
  else
    match a.abs.compare b.abs with
    | .eq => some zero
    | .lt => some a
    | .gt =>
      let scale := max a.scale b.scale
      let r := a.mantissa * 10 ^ (scale - a.scale) % (b.mantissa * 10 ^ (scale - b.scale))
      make? a.negative r scale

/-- The same number without trailing zeros, within a number of steps. -/
private def trimmed? (negative : Bool) : Nat → (mantissa scale : Nat) → Option Decimal
  | 0, mantissa, scale => make? negative mantissa scale
  | n + 1, mantissa, scale =>
    if scale != 0 && mantissa % 10 == 0 then trimmed? negative n (mantissa / 10) (scale - 1)
    else make? negative mantissa scale

/-- The same number without trailing zeros. -/
def normalized? (d : Decimal) : Option Decimal :=
  if d.isZero then some zero else trimmed? d.negative maxDecimalScale d.mantissa d.scale

/-- The product of the squares that an exponent asks for, within a number of its bits. -/
private def squares? : Nat → (exponent : Nat) → (base : Decimal) → (product : Decimal) →
    Option Decimal
  | 0, _, _, product => some product
  | n + 1, exponent, base, product => do
    let product ← if exponent % 2 == 1 then product.mul? base else some product
    if exponent / 2 == 0 then some product
    else squares? n (exponent / 2) (← base.mul? base) product

/-- The number one. -/
def one : Decimal :=
  { negative := false, mantissa := 1, scale := 0,
    mantissa_lt := Nat.le_of_ble_eq_true rfl, scale_le := Nat.zero_le _ }

/-- A power with a natural exponent by repeated squaring; cubes and higher powers drop trailing
zeros. -/
def powNat? (a : Decimal) (n : Nat) : Option Decimal :=
  if n == 0 then some one
  else if a.isZero then some zero
  else if a.equal one then some one
  else
    match n with
    | 1 => some a
    | 2 => a.mul? a
    | n => (squares? 64 n a one).bind normalized?

/-- A power whose exponent is a whole number below 2³² in magnitude; `none` for all others and if
it is too large. -/
def pow? (a b : Decimal) : Option Decimal :=
  if b.isZero then some one
  else if a.isZero then some zero
  else if a.equal one then some one
  else if b.equal one then some a
  else do
    let exponent ← b.normalized?
    if exponent.scale != 0 || 2 ^ 32 ≤ exponent.mantissa then none
    else
      let power ← a.powNat? exponent.mantissa
      if exponent.negative then one.div? power else some power

/-- Means of a guess and its counterpart until they stay the same, within a number of steps. -/
private def means? (d : Decimal) : Nat → (last guess : Decimal) → Option Decimal
  | 0, _, guess => some guess
  | n + 1, last, guess =>
    if last.equal guess then some guess
    else do means? d n guess (← (← guess.add? (← d.div? guess)).div? (← one.add? one))

/-- The square root, `none` of a negative number. -/
def sqrt? (d : Decimal) : Option Decimal :=
  if d.negative then none
  else if d.isZero then some zero
  else do
    let half ← d.div? (← one.add? one)
    let guess := if half.isZero then d else half
    means? d 1000 (← guess.add? one) guess

end ScriptHost.Decimal
