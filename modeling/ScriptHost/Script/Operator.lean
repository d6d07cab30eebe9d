import ScriptHost.Json.Basic
import ScriptHost.Number.BinaryArithmetic
import ScriptHost.Number.DecimalArithmetic
import ScriptHost.Script.DatumText

/-!
# Operators on basic values

What the operators of the language make of numbers, texts, truth values and ranges. Integers are
checked: a result outside 64 bits is a fault. Integers mix with floating-point numbers and with
decimal numbers, but these two do not mix. Values of different types are unequal and in no order.
-/

namespace ScriptHost.Script.Operator

/-- The result of an operation. -/
abbrev Result := Except Cause Datum

/-- Arithmetic that has no result. -/
def undefined (what lhs symbol rhs : String) : Result :=
  .error (.arithmetic (what ++ ": " ++ lhs ++ " " ++ symbol ++ " " ++ rhs))

/-- An integer result within 64 bits. -/
def checkedInt (i : Int) (what : String) (a : Int) (symbol : String) (b : Int) : Result :=
  if fitsInt64 i then .ok (.int i) else undefined what (toString a) symbol (toString b)

/-- The least 64 bits of an integer. -/
def wrapInt (i : Int) : Int := i.bmod (2 ^ 64)

/-- Bits moved to the left; a negative distance moves to the right. -/
def shiftLeft (a b : Int) : Int :=
  if 0 ≤ b then (if 64 ≤ b then 0 else wrapInt (a * 2 ^ b.toNat))
  else if b ≤ -64 then (if a < 0 then -1 else 0)
  else a / 2 ^ (-b).toNat

/-- Bits moved to the right. -/
def shiftRight (a b : Int) : Int := shiftLeft a (-b)

/-- A bitwise operation on 64-bit integers. -/
def bitwise (f : Nat → Nat → Nat) (a b : Int) : Int :=
  wrapInt (f (a % 2 ^ 64).toNat (b % 2 ^ 64).toNat)

/-- A power of integers. -/
def power (a b : Int) : Result :=
  let overflow := undefined "Exponential overflow" (toString a) "**" (toString b)
  if 2 ^ 32 - 1 < b then overflow
  else if b < 0 then
    undefined "Integer raised to a negative index" (toString a) "**" (toString b)
  else if a.natAbs ≤ 1 then
    .ok (.int (if b == 0 || (a == -1 && b % 2 == 0) then 1 else a))
  else if 64 < b then overflow
  else checkedInt (a ^ b.toNat) "Exponential overflow" a "**" b

/-- A comparison. -/
def compared? (symbol : String) (o : Ordering) : Option Bool :=
  match symbol with
  | "==" => some (o == .eq)
  | "!=" => some (o != .eq)
  | "<" => some (o == .lt)
  | "<=" => some (o != .gt)
  | ">" => some (o == .gt)
  | ">=" => some (o != .lt)
  | _ => none

/-- A comparison as a result. -/
def comparison? (symbol : String) (o : Ordering) : Option Result :=
  (compared? symbol o).map fun b => .ok (.bool b)

/-- Operators on integers. -/
def int? (symbol : String) (a b : Int) : Option Result :=
  match symbol with
  | "+" => some (checkedInt (a + b) "Addition overflow" a "+" b)
  | "-" => some (checkedInt (a - b) "Subtraction overflow" a "-" b)
  | "*" => some (checkedInt (a * b) "Multiplication overflow" a "*" b)
  | "/" =>
    some (if b == 0 then undefined "Division by zero" (toString a) "/" (toString b)
      else checkedInt (a.tdiv b) "Division overflow" a "/" b)
  | "%" =>
    some (if b == 0 || (a == minInt64 && b == -1) then
        undefined "Modulo division by zero or overflow" (toString a) "%" (toString b)
      else .ok (.int (a.tmod b)))
  | "**" => some (power a b)
  | "<<" => some (.ok (.int (shiftLeft a b)))
  | ">>" => some (.ok (.int (shiftRight a b)))
  | "&" => some (.ok (.int (bitwise (· &&& ·) a b)))
  | "|" => some (.ok (.int (bitwise (· ||| ·) a b)))
  | "^" => some (.ok (.int (bitwise (· ^^^ ·) a b)))
  | ".." => some (.ok (.range a b))
  | "..=" => some (.ok (.rangeInclusive a b))
  | _ => comparison? symbol (compare a b)

/-- Operators on floating-point numbers. -/
def float? (symbol : String) (a b : Float) : Option Result :=
  let number (x : Float) : Option Result := some (.ok (.float x))
  let truth (b : Bool) : Option Result := some (.ok (.bool b))
  match symbol with
  | "+" => number (a + b)
  | "-" => number (a - b)
  | "*" => number (a * b)
  | "/" => number (a / b)
  | "%" => number (Double.rem a b)
  | "**" => number (Float.pow a b)
  | "==" => truth (a == b)
  | "!=" => truth (a != b)
  | "<" => truth (a < b)
  | "<=" => truth (a ≤ b)
  | ">" => truth (b < a)
  | ">=" => truth (b ≤ a)
  | _ => none

/-- Operators on decimal numbers. -/
def decimal? (symbol : String) (a b : Decimal) : Option Result :=
  let checked (d : Option Decimal) (what : String) : Option Result :=
    some (match d with
      | some d => .ok (.decimal d)
      | none => undefined what a.text symbol b.text)
  match symbol with
  | "+" => checked (a.add? b) "Addition overflow"
  | "-" => checked (a.sub? b) "Subtraction overflow"
  | "*" => checked (a.mul? b) "Multiplication overflow"
  | "/" =>
    if b.isZero then checked none "Division by zero" else checked (a.div? b) "Division overflow"
  | "%" => checked (a.rem? b) "Modulo division by zero or overflow"
  | "**" => checked (a.pow? b) "Exponential overflow"
  | _ => comparison? symbol (a.compare b)

/-- A text without all occurrences of another one, which is not empty. -/
def without (fuel : Nat) (part : List Char) (cs : List Char) : List Char :=
  match fuel with
  | 0 => cs
  | fuel + 1 =>
    match cs with
    | [] => []
    | c :: rest =>
      if part.isPrefixOf cs then without fuel part (cs.drop part.length)
      else c :: without fuel part rest

/-- A text without all occurrences of another one. -/
def withoutText (s part : String) : String :=
  if part.isEmpty then s
  else String.ofList (without (s.length + 1) part.toList s.toList)

/-- Operators on texts. -/
def text? (symbol : String) (a b : String) : Option Result :=
  match symbol with
  | "+" => some (.ok (.string (a ++ b)))
  | "-" => some (.ok (.string (withoutText a b)))
  | _ => comparison? symbol (compare a b)

/-- Operators on truth values. -/
def bool? (symbol : String) (a b : Bool) : Option Result :=
  match symbol with
  | "&" => some (.ok (.bool (a && b)))
  | "|" => some (.ok (.bool (a || b)))
  | "^" => some (.ok (.bool (a != b)))
  | _ => comparison? symbol (compare a b)

/-- Operators on bytes. -/
def blob? (symbol : String) (a b : List Nat) : Option Result :=
  match symbol with
  | "+" => some (.ok (.blob (a ++ b)))
  | "==" => some (.ok (.bool (a == b)))
  | "!=" => some (.ok (.bool (a != b)))
  | _ => none

/-- The comparisons of values of different types: they are unequal and in no order. -/
def unlike? (symbol : String) : Option Result :=
  match symbol with
  | "!=" => some (.ok (.bool true))
  | "==" | "<" | "<=" | ">" | ">=" => some (.ok (.bool false))
  | _ => none

/-- The place of a value's type among the types; values of one type have one place. -/
def typeIndex : Datum → Nat
  | .unit => 0 | .bool _ => 1 | .int _ => 2 | .float _ => 3 | .decimal _ => 4 | .bigInt _ => 5
  | .string _ => 6 | .char _ => 7 | .date _ => 8 | .time _ => 9 | .dateTime _ => 10 | .array _ => 11
  | .blob _ => 12 | .map _ => 13 | .fnPtr .. => 14 | .range .. => 15 | .rangeInclusive .. => 16
  | .steps .. => 17 | .handle _ => 18 | .failure _ => 19 | .sized .u8 _ => 20 | .sized .i32 _ => 21
  | .sized .u64 _ => 22 | .single _ => 23 | .foreign _ => 24 | .shared _ => 25

/-- Whether a range holds a number. -/
def holds (low : Int) (i : Int) (high : Int) (inclusive : Bool) : Bool :=
  low ≤ i && (if inclusive then i ≤ high else i < high)

/-- Whether a text holds another one. -/
def containsText (s part : String) : Bool :=
  let rec go (part : List Char) : List Char → Bool
    | [] => part.isEmpty
    | c :: rest => part.isPrefixOf (c :: rest) || go part rest
  go part.toList s.toList

/-- What a container says about an item, where the language itself knows. -/
def contains? : Datum → Datum → Option Result
  | .string s, .string part => some (.ok (.bool (containsText s part)))
  | .string s, .char c => some (.ok (.bool (s.toList.contains c)))
  | .map fields, .string key => some (.ok (.bool (Fields.contains key fields)))
  | .range a b, .int i => some (.ok (.bool (holds a i b false)))
  | .rangeInclusive a b, .int i => some (.ok (.bool (holds a i b true)))
  | .blob bytes, .int i => some (.ok (.bool (bytes.any fun b => (b : Int) == i % 256)))
  | _, _ => none

/-- What an operator makes of two values, where the language itself knows. -/
def binary? (symbol : String) (lhs rhs : Datum) : Option Result :=
  match lhs, rhs with
  | .int a, .int b => int? symbol a b
  | .float a, .float b => float? symbol a b
  | .int a, .float b => float? symbol (Double.ofInt a) b
  | .float a, .int b => float? symbol a (Double.ofInt b)
  | .decimal a, .decimal b => decimal? symbol a b
  | .int a, .decimal b => (Decimal.ofInt? a).bind fun a => decimal? symbol a b
  | .decimal a, .int b => (Decimal.ofInt? b).bind fun b => decimal? symbol a b
  | .string a, .string b => text? symbol a b
  | .string a, .char b => text? symbol a (String.singleton b)
  | .char a, .string b =>
    if symbol == "-" then unlike? symbol else text? symbol (String.singleton a) b
  | .char a, .char b =>
    if symbol == "+" then some (.ok (.string (String.ofList [a, b])))
    else comparison? symbol (compare a b)
  | .bool a, .bool b => bool? symbol a b
  | .unit, .unit => comparison? symbol .eq
  | .blob a, .blob b => blob? symbol a b
  | .range a b, .range c d =>
    if symbol == "==" then some (.ok (.bool (a == c && b == d)))
    else if symbol == "!=" then some (.ok (.bool (a != c || b != d)))
    else none
  | .rangeInclusive a b, .rangeInclusive c d =>
    if symbol == "==" then some (.ok (.bool (a == c && b == d)))
    else if symbol == "!=" then some (.ok (.bool (a != c || b != d)))
    else none
  | a, b =>
    if symbol == "in" then contains? a b
    else if typeIndex a != typeIndex b then unlike? symbol
    else none

/-- The value of an operator in front of a value, where the language itself knows. -/
def unary? (symbol : String) (d : Datum) : Option Result :=
  match symbol, d with
  | "!", .bool b => some (.ok (.bool !b))
  | _, _ => none

end ScriptHost.Script.Operator
