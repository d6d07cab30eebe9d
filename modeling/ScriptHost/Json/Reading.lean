import ScriptHost.Json.Basic

/-!
# Reading JSON text

A reader for one JSON text. Integers up to 64 bits stay integers; every other number is scaled from
its first digits, as many as fit 64 bits, by a power of ten in floating-point arithmetic. Entries of
objects are kept in reading order, repeated keys included.
-/

namespace ScriptHost.Json

/-- A step of the reading: the rest after what was read, `none` on a fault. -/
abbrev Read (α : Type) := List Char → Option (α × List Char)

/-- Drop the four blanks of JSON. -/
def dropSpace (cs : List Char) : List Char :=
  cs.dropWhile fun c => c = ' ' || c = '\n' || c = '\t' || c = '\r'

/-- A significand scaled by a power of ten, `none` where it leaves the range. -/
def scaled? (significand : Nat) (exponent : Int) : Option Float :=
  let rec go : Nat → Float → Int → Option Float
    | 0, f, _ => some f
    | fuel + 1, f, e =>
      if e.natAbs ≤ 308 then
        let power := Float.ofScientific 1 false e.natAbs
        if 0 ≤ e then
          let f := f * power
          if Double.isFinite f then some f else none
        else some (f / power)
      else if f == 0.0 then some f
      else if 0 ≤ e then none
      else go fuel (f / Float.ofScientific 1 false 308) (e + 308)
  go (exponent.natAbs / 308 + 2) (Double.ofInt significand) exponent

/-- A floating-point number with a sign. -/
def signedFloat (negative : Bool) (x : Option Float) : Option Json :=
  x.map fun f => .float (if negative then -f else f)

/-- The exponent of a number, after its `e`, and the rest. -/
def readExponent (negative : Bool) (significand : Nat) (start : Int) : Read Json := fun cs =>
  let (negativeExponent, cs) := match cs with
    | '+' :: r => (false, r)
    | '-' :: r => (true, r)
    | r => (false, r)
  let digits := cs.takeWhile Char.isDigit
  let rest := cs.dropWhile Char.isDigit
  if digits.isEmpty then none
  else
    let n := digits.foldl (fun n c => n * 10 + (c.toNat - '0'.toNat)) 0
    if 2 ^ 31 ≤ n then
      if significand != 0 && !negativeExponent then none
      else some (.float (if negative then -0.0 else 0.0), rest)
    else
      let e := if negativeExponent then start - n else start + n
      (signedFloat negative (scaled? significand e)).map (·, rest)

/-- After the digits of a number: its exponent, if there is one. -/
def finishNumber (negative : Bool) (significand : Nat) (exponent : Int) : Read Json
  | 'e' :: rest => readExponent negative significand exponent rest
  | 'E' :: rest => readExponent negative significand exponent rest
  | rest => (signedFloat negative (scaled? significand exponent)).map (·, rest)

/-- Digits after the point; those that no longer fit the significand are dropped. -/
def readPlaces (negative : Bool) : (significand : Nat) → (exponent : Int) → Read Json
  | significand, exponent, c :: rest =>
    if c.isDigit then
      let next := significand * 10 + (c.toNat - '0'.toNat)
      if next < 2 ^ 64 then readPlaces negative next (exponent - 1) rest
      else finishNumber negative significand exponent (rest.dropWhile Char.isDigit)
    else finishNumber negative significand exponent (c :: rest)
  | significand, exponent, [] => finishNumber negative significand exponent []

/-- The point of a number and the digits after it. -/
def readFraction (negative : Bool) (significand : Nat) (exponent : Int) : Read Json
  | c :: rest => if c.isDigit then readPlaces negative significand exponent (c :: rest) else none
  | [] => none

/-- Digits before the point; those that no longer fit the significand only count. -/
def readWhole (digits : List Char) : Nat × Nat :=
  digits.foldl (fun (significand, dropped) c =>
    let next := significand * 10 + (c.toNat - '0'.toNat)
    if dropped == 0 && next < 2 ^ 64 then (next, 0) else (significand, dropped + 1)) (0, 0)

/-- A number, after its sign. -/
def readUnsigned (negative : Bool) : Read Json := fun cs =>
  let digits := cs.takeWhile Char.isDigit
  let rest := cs.dropWhile Char.isDigit
  match digits with
  | [] => none
  | '0' :: _ :: _ => none
  | _ =>
    let (significand, dropped) := readWhole digits
    match rest with
    | '.' :: rest => readFraction negative significand dropped rest
    | 'e' :: rest => readExponent negative significand dropped rest
    | 'E' :: rest => readExponent negative significand dropped rest
    | rest =>
      if dropped != 0 then (signedFloat negative (scaled? significand dropped)).map (·, rest)
      else if !negative then some (.int significand, rest)
      else if significand == 0 || 2 ^ 63 < significand then
        some (.float (-(Double.ofInt significand)), rest)
      else some (.int (-(significand : Int)), rest)

/-- Four hexadecimal digits. -/
def readHex4 : Read Nat
  | a :: b :: c :: d :: rest => do
    let digit (x : Char) : Option Nat :=
      if x.isDigit then some (x.toNat - '0'.toNat)
      else if 'a' ≤ x && x ≤ 'f' then some (x.toNat - 'a'.toNat + 10)
      else if 'A' ≤ x && x ≤ 'F' then some (x.toNat - 'A'.toNat + 10)
      else none
    let a ← digit a
    let b ← digit b
    let c ← digit c
    let d ← digit d
    some (((a * 16 + b) * 16 + c) * 16 + d, rest)
  | _ => none

/-- An escape, after its backslash. -/
def readEscape : Read Char
  | '"' :: rest => some ('"', rest)
  | '\\' :: rest => some ('\\', rest)
  | '/' :: rest => some ('/', rest)
  | 'b' :: rest => some ('\x08', rest)
  | 'f' :: rest => some ('\x0c', rest)
  | 'n' :: rest => some ('\n', rest)
  | 'r' :: rest => some ('\r', rest)
  | 't' :: rest => some ('\t', rest)
  | 'u' :: rest =>
    match readHex4 rest with
    | none => none
    | some (n, rest) =>
      if 0xD800 ≤ n && n ≤ 0xDBFF then
        match rest with
        | '\\' :: 'u' :: rest =>
          match readHex4 rest with
          | some (m, rest) =>
            if 0xDC00 ≤ m && m ≤ 0xDFFF then
              some (Char.ofNat (0x10000 + (n - 0xD800) * 0x400 + (m - 0xDC00)), rest)
            else none
          | none => none
        | _ => none
      else if 0xDC00 ≤ n && n ≤ 0xDFFF then none
      else some (Char.ofNat n, rest)
  | _ => none

/-- The characters of a string up to its closing quote. -/
def readChars : Nat → List Char → Read String
  | 0, _, _ => none
  | _, _, [] => none
  | fuel + 1, acc, c :: rest =>
    if c = '"' then some (String.ofList acc.reverse, rest)
    else if c = '\\' then
      match readEscape rest with
      | some (d, rest) => readChars fuel (d :: acc) rest
      | none => none
    else if c.toNat < 0x20 then none
    else readChars fuel (c :: acc) rest

/-- The elements of an array after the first bracket, given a reader for one. -/
def readItems (item : Read Json) : Nat → List Json → Read Json
  | 0, _, _ => none
  | fuel + 1, acc, cs =>
    match item cs with
    | none => none
    | some (j, rest) =>
      match dropSpace rest with
      | ',' :: rest => readItems item fuel (j :: acc) rest
      | ']' :: rest => some (.array (j :: acc).reverse, rest)
      | _ => none

/-- The entries of an object after the first brace, given a reader for a value. -/
def readEntries (value : Read Json) : Nat → List (String × Json) → Read Json
  | 0, _, _ => none
  | fuel + 1, acc, cs =>
    match dropSpace cs with
    | '"' :: rest =>
      match readChars (rest.length + 1) [] rest with
      | none => none
      | some (k, rest) =>
        match dropSpace rest with
        | ':' :: rest =>
          match value rest with
          | none => none
          | some (j, rest) =>
            match dropSpace rest with
            | ',' :: rest => readEntries value fuel ((k, j) :: acc) rest
            | '\x7d' :: rest => some (.object ((k, j) :: acc).reverse, rest)
            | _ => none
        | _ => none
    | _ => none

/-- A value nested less deeply than `depth`. -/
def readValue : (depth : Nat) → Read Json
  | 0, _ => none
  | depth + 1, cs =>
    match dropSpace cs with
    | 'n' :: 'u' :: 'l' :: 'l' :: rest => some (.null, rest)
    | 't' :: 'r' :: 'u' :: 'e' :: rest => some (.bool true, rest)
    | 'f' :: 'a' :: 'l' :: 's' :: 'e' :: rest => some (.bool false, rest)
    | '"' :: rest =>
      (readChars (rest.length + 1) [] rest).map fun (s, rest) => (.string s, rest)
    | '[' :: rest =>
      if depth == 0 then none
      else
        match dropSpace rest with
        | ']' :: rest => some (.array [], rest)
        | rest => readItems (readValue depth) rest.length [] rest
    | '\x7b' :: rest =>
      if depth == 0 then none
      else
        match dropSpace rest with
        | '\x7d' :: rest => some (.object [], rest)
        | rest => readEntries (readValue depth) rest.length [] rest
    | '-' :: rest => readUnsigned true rest
    | c :: rest => if c.isDigit then readUnsigned false (c :: rest) else none
    | [] => none

/-- The greatest nesting of arrays and objects is one less. -/
def maxDepth : Nat := 128

/-- Read a text that holds one value, entries of objects as they stand. -/
def ofText? (s : String) : Option Json :=
  match readValue maxDepth s.toList with
  | some (j, rest) => if (dropSpace rest).isEmpty then some j else none
  | none => none

end ScriptHost.Json
