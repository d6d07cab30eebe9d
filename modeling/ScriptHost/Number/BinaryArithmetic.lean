import ScriptHost.Number.Binary

/-!
# Remainders of floating-point numbers

The remainder of a division is exact: it is found in integers, on the grid of the finer number.
-/

namespace ScriptHost.Double

/-- The remainder of a division that drops the fraction of the quotient; it has the sign of the
dividend. -/
def rem (x y : Float) : Float :=
  match parts x, parts y with
  | .finite negative m e, .finite _ n f =>
    if n == 0 then nan
    else
      let low := if e ≤ f then e else f
      let r := (m * 2 ^ (e - low).toNat) % (n * 2 ^ (f - low).toNat)
      let magnitude := Float.scaleB (ofInt r) low
      if negative then -magnitude else magnitude
  | .finite .., .infinite _ => x
  | _, _ => nan

end ScriptHost.Double
