import ScriptHost.Number.Shortest

/-!
# Text of floating-point numbers

Every text shows the shortest digits that read back. The texts differ in where the positional
notation ends and in whether a whole number keeps a fraction, and each is one `FloatNotation`.
-/

namespace ScriptHost

/-- How a floating-point number is written. -/
structure FloatNotation where
  /-- Whether a non-zero magnitude is written with an exponent; given the number and the exponent
  of its first digit. -/
  scientific : Float → Int → Bool
  /-- Whether a whole number in positional notation ends in `.0`. -/
  keepsPoint : Bool
  /-- Whether a negative zero shows its sign. -/
  signsZero : Bool

namespace FloatNotation

/-- Diagnostics: an exponent from 10¹⁶ up and below 10⁻⁴. -/
def diagnostic : FloatNotation := ⟨fun _ e => 16 ≤ e || e < -4, true, true⟩

/-- Plain: always positional, no point in whole numbers. -/
def plain : FloatNotation := ⟨fun _ _ => false, false, true⟩

/-- Positional, with a point in every number. -/
def pointed : FloatNotation := ⟨fun _ _ => false, true, true⟩

/-- JSON: an exponent from 10¹⁶ up and below 10⁻⁵. -/
def json : FloatNotation := ⟨fun _ e => 16 ≤ e || e < -5, true, true⟩

/-- Scripts: an exponent above 10¹³ and below 10⁻¹³, both bounds taken in single precision. -/
def script : FloatNotation :=
  ⟨fun x _ => Double.ofSingleBits 0x551184e7 < x.abs || x.abs < Double.ofSingleBits 0x29e12e13,
    true, false⟩

end FloatNotation

namespace DecimalDigits

/-- The digits, first to last. -/
def digitChars (d : DecimalDigits) : List Char := Nat.toDigits 10 d.digits

/-- The exponent of the first digit. -/
def leadingExponent (d : DecimalDigits) : Int := d.exponent + d.digitChars.length - 1

/-- One digit before the point and an exponent after `e`. -/
def scientificText (d : DecimalDigits) : String :=
  let exponent := "e" ++ toString d.leadingExponent
  match d.digitChars with
  | [] => "0" ++ exponent
  | [c] => String.singleton c ++ exponent
  | c :: rest => String.singleton c ++ "." ++ String.ofList rest ++ exponent

/-- No exponent; `.0` after a whole number if `keepsPoint`. -/
def positionalText (d : DecimalDigits) (keepsPoint : Bool) : String :=
  let chars := d.digitChars
  if 0 ≤ d.exponent then
    String.ofList (chars ++ List.replicate d.exponent.toNat '0') ++
      (if keepsPoint then ".0" else "")
  else
    let places := (-d.exponent).toNat
    if places < chars.length then
      String.ofList (chars.take (chars.length - places)) ++ "." ++
        String.ofList (chars.drop (chars.length - places))
    else "0." ++ String.ofList (List.replicate (places - chars.length) '0' ++ chars)

end DecimalDigits

namespace FloatNotation

/-- The text of a word of any layout; `x` is the same number as a double. -/
def textOf (style : FloatNotation) (l : BinaryLayout) (bits : Nat) (x : Float) : String :=
  match l.decode bits with
  | .nan => "NaN"
  | .infinite negative => if negative then "-inf" else "inf"
  | .finite negative 0 _ =>
    (if negative && style.signsZero then "-" else "") ++ (if style.keepsPoint then "0.0" else "0")
  | .finite negative m e =>
    let d := shortestDigits l m e
    let body :=
      if style.scientific x d.leadingExponent then d.scientificText
      else d.positionalText style.keepsPoint
    if negative then "-" ++ body else body

/-- The text of a number. -/
def text (style : FloatNotation) (x : Float) : String :=
  style.textOf .double x.toBits.toNat x

/-- The text of a thirty-two-bit word. -/
def singleText (style : FloatNotation) (bits : Nat) : String :=
  style.textOf .single bits (Double.ofSingleBits bits)

end FloatNotation

end ScriptHost
