import ScriptHost.Calendar.Basic
import ScriptHost.Number.Power
import ScriptHost.Text.Classes

/-!
# Reading dates and times

Numbers may have blanks before them and need no padding; blanks may also stand before a
punctuation mark and at the end. Seconds are optional in a time of day that stands alone.
-/

namespace ScriptHost.Calendar

/-- Why a text is no date or time. -/
inductive ReadError where
  /-- The text ends too early. -/
  | tooShort
  /-- A character that does not fit. -/
  | invalid
  /-- A number outside its range. -/
  | outOfRange
  /-- Text after the end. -/
  | tooLong
  deriving DecidableEq, Repr

/-- The wording of a reading error. -/
def ReadError.message : ReadError → String
  | tooShort => "premature end of input"
  | invalid => "input contains invalid characters"
  | outOfRange => "input is out of range"
  | tooLong => "trailing input"

/-- Drop leading blanks. -/
def dropBlanks (cs : List Char) : List Char := cs.dropWhile Text.isBlank

/-- A number of one to `width` digits; it must fit 64 bits. -/
def number (width : Nat) (cs : List Char) : Except ReadError (Nat × List Char) :=
  match cs with
  | [] => .error .tooShort
  | _ =>
    let digits := (cs.take width).takeWhile Char.isDigit
    if digits.isEmpty then .error .invalid
    else
      let n := digits.foldl (fun n c => n * 10 + (c.toNat - '0'.toNat)) 0
      if 2 ^ 63 ≤ n then .error .outOfRange else .ok (n, cs.drop digits.length)

/-- A blank-led number of at most two digits between bounds. -/
def field (low high : Nat) (cs : List Char) : Except ReadError (Nat × List Char) := do
  let (n, rest) ← number 2 (dropBlanks cs)
  if low ≤ n && n ≤ high then .ok (n, rest) else .error .outOfRange

/-- A blank-led year: four digits at most without a sign, any number of them after one. -/
def year (cs : List Char) : Except ReadError (Int × List Char) := do
  let cs := dropBlanks cs
  let (n, rest) ← match cs with
    | '-' :: r => (number r.length r).map fun (n, rest) => (-(n : Int), rest)
    | '+' :: r => (number r.length r).map fun (n, rest) => ((n : Int), rest)
    | _ => (number 4 cs).map fun (n, rest) => ((n : Int), rest)
  if -(2 ^ 31 : Int) ≤ n && n < (2 ^ 31 : Int) then .ok (n, rest) else .error .outOfRange

/-- A punctuation mark. -/
def mark (c : Char) : List Char → Except ReadError (List Char)
  | [] => .error .tooShort
  | d :: rest => if d = c then .ok rest else .error .invalid

/-- A fraction of a second in nanoseconds, zero if there is none; digits beyond the ninth are
dropped. -/
def fraction : List Char → Except ReadError (Nat × List Char)
  | '.' :: cs => do
    let (n, rest) ← number 9 cs
    let places := cs.length - rest.length
    .ok (n * 10 ^ (9 - places), rest.dropWhile Char.isDigit)
  | cs => .ok (0, cs)

/-- Nothing may be left. -/
def atEnd : List Char → Except ReadError Unit
  | [] => .ok ()
  | _ => .error .tooLong

/-- Year, month and day, and the blanks after them. -/
def dateParts (cs : List Char) : Except ReadError ((Int × Nat × Nat) × List Char) := do
  let (y, cs) ← year cs
  let cs ← mark '-' (dropBlanks cs)
  let (m, cs) ← field 1 12 cs
  let cs ← mark '-' (dropBlanks cs)
  let (d, cs) ← field 1 31 cs
  .ok ((y, m, d), dropBlanks cs)

/-- Hour and minute. -/
def hourMinute (cs : List Char) : Except ReadError ((Nat × Nat) × List Char) := do
  let (h, cs) ← field 0 23 cs
  let cs ← mark ':' (dropBlanks cs)
  let (m, cs) ← field 0 59 cs
  .ok ((h, m), cs)

/-- A second and its fraction, after a colon, and the blanks after them. -/
def secondNano (cs : List Char) : Except ReadError ((Nat × Nat) × List Char) := do
  let cs ← mark ':' (dropBlanks cs)
  let (s, cs) ← field 0 60 cs
  let (n, cs) ← fraction cs
  .ok ((s, n), dropBlanks cs)

/-- Demand that a day or time exists. -/
def existing {α : Type} : Option α → Except ReadError α
  | some a => .ok a
  | none => .error .outOfRange

/-- The time with these parts, where second 60 is a leap second. -/
def timeOf? (hour minute second nano : Nat) : Option Time :=
  if second == 60 then Time.ofParts? hour minute 59 (nano + 1000000000)
  else Time.ofParts? hour minute second nano

end ScriptHost.Calendar

namespace ScriptHost

open Calendar

/-- Read a date. -/
def Date.ofText (s : String) : Except ReadError Date := do
  let ((y, m, d), rest) ← dateParts s.toList
  atEnd rest
  existing (Date.ofParts? y m d)

/-- Read a time of the day. Seconds that do not read as a whole are left over as trailing text. -/
def Time.ofText (s : String) : Except ReadError Time := do
  let ((h, m), rest) ← hourMinute s.toList
  match secondNano rest with
  | .ok ((s, n), rest) =>
    atEnd rest
    existing (timeOf? h m s n)
  | .error _ =>
    atEnd (dropBlanks rest)
    existing (timeOf? h m 0 0)

/-- Read a date and a time around `T`. -/
def DateTime.ofText (s : String) : Except ReadError DateTime := do
  let ((y, mo, d), rest) ← dateParts s.toList
  let rest ← mark 'T' rest
  let ((h, m), rest) ← hourMinute rest
  let ((s, n), rest) ← secondNano rest
  atEnd rest
  let date ← existing (Date.ofParts? y mo d)
  let time ← existing (timeOf? h m s n)
  .ok ⟨date, time⟩

end ScriptHost
