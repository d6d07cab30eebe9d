import ScriptHost.Number.BinaryArithmetic
import ScriptHost.Script.Lexer
import ScriptHost.Script.Library.Basic

/-!
# Functions on numbers

Signs, rounding, conversions and elementary functions. Angles are in radians.
-/

namespace ScriptHost.Script.Library

/-- A failure of arithmetic. -/
def failsArithmetic (message : String) : Option Answer := fails (.arithmetic message)

/-- A decimal number, or an overflow. -/
def yieldsDecimal (what : String) : Option Decimal → Option Answer
  | some d => yields (.decimal d)
  | none => failsArithmetic what

/-- A float function of one argument. -/
def floatFunction (f : Float → Float) : Native
  | [.float x] => yields (.float (f x))
  | _ => none

/-! ## Signs -/

/-- An integer whose magnitude fits. -/
def checkedMagnitude (i : Int) : Option Answer :=
  if fitsInt64 i then yieldsInt i else failsArithmetic "integer overflow"

/-- The number with the other sign. -/
def negate : Native
  | [.int i] => checkedMagnitude (-i)
  | [.float x] => yields (.float (-x))
  | [.decimal d] => yields (.decimal d.neg)
  | _ => none

/-- The number itself. -/
def plus : Native
  | [.int i] => yieldsInt i
  | [.float x] => yields (.float x)
  | [.decimal d] => yields (.decimal d)
  | _ => none

/-- The magnitude of a number. -/
def abs : Native
  | [.int i] => checkedMagnitude i.natAbs
  | [.float x] => yields (.float x.abs)
  | [.decimal d] => yields (.decimal d.abs)
  | _ => none

/-- The sign of a number, as one, zero or minus one. -/
def sign : Native
  | [.int i] => yieldsInt i.sign
  | [.float x] =>
    if x.isNaN then failsArithmetic "Sign of NaN is undefined"
    else yieldsInt (if x == 0.0 then 0 else if x < 0.0 then -1 else 1)
  | [.decimal d] => yieldsInt d.signed.sign
  | _ => none

/-- Whether a number is zero. -/
def isZero : Native
  | [.int i] => yieldsBool (i == 0)
  | [.float x] => yieldsBool (x == 0.0)
  | [.decimal d] => yieldsBool d.isZero
  | _ => none

/-- Whether an integer is odd. -/
def isOdd : Native
  | [.int i] => yieldsBool (i % 2 == 1)
  | _ => none

/-- Whether an integer is even. -/
def isEven : Native
  | [.int i] => yieldsBool (i % 2 == 0)
  | _ => none

/-! ## Rounding -/

/-- A decimal number rounded to a whole one by `f` on sign, whole part and fraction in units. -/
def wholeDecimal (f : Int → Nat → Int) (d : Decimal) : Option Answer :=
  let unit := 10 ^ d.scale
  yieldsDecimal "Decimal overflow" (Decimal.ofInt? (f d.signed unit))

/-- Rounding to a whole number, by a function on doubles and one on fractions. -/
def rounding (onFloat : Float → Float) (onFraction : Int → Nat → Int) : Native
  | [.float x] => yields (.float (onFloat x))
  | [.decimal d] => wholeDecimal onFraction d
  | _ => none

/-- The nearest whole number to a fraction, halves to the even one. -/
def nearestEven (n : Int) (unit : Nat) : Int :=
  let magnitude := n.natAbs / unit
  let rest := n.natAbs % unit
  let rounded :=
    if unit < 2 * rest || (2 * rest == unit && magnitude % 2 == 1) then magnitude + 1 else magnitude
  if n < 0 then -(rounded : Int) else rounded

/-- A double with its fraction dropped. -/
def truncated (x : Float) : Float :=
  match Double.truncate? x with
  | some i => if i == 0 && Double.isNegative x then -0.0 else Double.ofInt i
  | none => x

/-- The fraction of a number. -/
def fraction : Native
  | [.float x] => yields (.float (x - truncated x))
  | [.decimal d] =>
    yieldsDecimal "Decimal overflow" (Decimal.make? d.negative (d.mantissa % 10 ^ d.scale) d.scale)
  | _ => none

/-! ## Conversions -/

/-- The value of a digit in a base up to 36. -/
def digitValue? (c : Char) : Option Nat :=
  if c.isDigit then some (c.toNat - '0'.toNat)
  else if c.isAlpha then some (c.toLower.toNat - 'a'.toNat + 10)
  else none

/-- Read an integer in a base. -/
def intOfDigits (base : Nat) (cs : List Char) : Except IntegerError Int :=
  let (negative, digits) : Bool × List Char := match cs with
    | '-' :: r => (true, r)
    | '+' :: r => (false, r)
    | r => (false, r)
  if cs.isEmpty then .error .empty
  else if digits.isEmpty then .error .digit
  else
    match digits.mapM fun c => (digitValue? c).filter (· < base) with
    | none => .error .digit
    | some ds =>
      let n := ds.foldl (fun n d => n * base + d) 0
      if negative then (if n ≤ 2 ^ 63 then .ok (-(n : Int)) else .error .tooSmall)
      else if n < 2 ^ 63 then .ok n else .error .tooLarge

/-- A text without blanks at its ends. -/
def trimmedChars (s : String) : List Char :=
  ((s.toList.dropWhile Text.isBlank).reverse.dropWhile Text.isBlank).reverse

/-- Read an integer. -/
def parseInt : Native
  | [.string s] => go s 10
  | [.string s, .int base] =>
    if 2 ≤ base && base ≤ 36 then go s base.toNat
    else failsArithmetic ("Invalid radix: '" ++ toString base ++ "'")
  | _ => none
where
  /-- Read an integer in a base. -/
  go (s : String) (base : Nat) : Option Answer :=
    match intOfDigits base (trimmedChars s) with
    | .ok i => yieldsInt i
    | .error e =>
      failsArithmetic ("Error parsing integer number '" ++ s ++ "': " ++ e.message)

/-- Read a floating-point number, also one that is no number. -/
def floatOfWord? (cs : List Char) : Option Float :=
  let (negative, word) : Bool × List Char := match cs with
    | '-' :: r => (true, r)
    | '+' :: r => (false, r)
    | r => (false, r)
  let word := String.ofList (word.map Char.toLower)
  if word == "inf" || word == "infinity" then some (if negative then -(1.0 / 0.0) else 1.0 / 0.0)
  else if word == "nan" then some Double.nan
  else floatOfText? cs

/-- Read a floating-point number. -/
def parseFloat : Native
  | [.string s] =>
    let cs := trimmedChars s
    match floatOfWord? cs with
    | some x => yields (.float x)
    | none =>
      failsArithmetic ("Error parsing floating-point number '" ++ s ++ "': " ++
        (if cs.isEmpty then "cannot parse float from empty string" else "invalid float literal"))
  | _ => none

/-- Read a decimal number. -/
def parseDecimal : Native
  | [.string s] =>
    match Decimal.ofText s with
    | .ok d => yields (.decimal d)
    | .error e => failsArithmetic ("Error parsing decimal number '" ++ s ++ "': " ++ e.message)
  | _ => none

/-- A number as an integer, its fraction dropped. -/
def toInt : Native
  | [.int i] => yieldsInt i
  | [.char c] => yieldsInt c.toNat
  | [.float x] =>
    let overflow := "Integer overflow: to_int(" ++ FloatNotation.plain.text x ++ ")"
    if x.isNaN then yieldsInt 0
    else
      match Double.truncate? x with
      | none => failsArithmetic overflow
      | some i =>
        if 2 ^ 63 < i || i < minInt64 then failsArithmetic overflow
        else yieldsInt (min i maxInt64)
  | [.decimal d] =>
    if fitsInt64 d.truncate then yieldsInt d.truncate
    else failsArithmetic ("Integer overflow: to_int(" ++ d.text ++ ")")
  | _ => none

/-- A number as a floating-point one. -/
def toFloat : Native
  | [.int i] => yields (.float (Double.ofInt i))
  | [.decimal d] => yields (.float d.toFloat)
  | _ => none

/-- An integer as a decimal number. -/
def toDecimal : Native
  | [.int i] => yieldsDecimal "Decimal overflow" (Decimal.ofInt? i)
  | _ => none

/-- The digits of the 64 bits of an integer in a base. -/
def toDigits (base : Nat) : Native
  | [.int i] => yieldsText (String.ofList (Nat.toDigits base (i % 2 ^ 64).toNat))
  | _ => none

/-! ## Elementary functions -/

/-- The square root of a number. -/
def squareRoot : Native
  | [.float x] => yields (.float x.sqrt)
  | [.decimal d] => yieldsDecimal ("Error taking the square root of " ++ d.text) d.sqrt?
  | _ => none

/-- The logarithm to base ten, or to a given base. -/
def log : Native
  | [.float x] => yields (.float x.log10)
  | [.float x, .float base] => yields (.float (x.log / base.log))
  | _ => none

/-- The length of the hypotenuse. -/
def hypot : Native
  | [.float x, .float y] => yields (.float (x * x + y * y).sqrt)
  | _ => none

/-- The angle of a point. -/
def atan : Native
  | [.float x] => yields (.float x.atan)
  | [.float y, .float x] => yields (.float (Float.atan2 y x))
  | _ => none

/-! ## The greater and the lesser -/

/-- One of two values, chosen by their order. -/
def extreme (greater : Bool) : Native
  | [.int a, .int b] => yieldsInt (if greater then max a b else min a b)
  | [.float a, .float b] => float a b
  | [.int a, .float b] => float (Double.ofInt a) b
  | [.float a, .int b] => float a (Double.ofInt b)
  | [.decimal a, .decimal b] => yields (.decimal (decimal a b))
  | [.int a, .decimal b] => (Decimal.ofInt? a).bind fun a => yields (.decimal (decimal a b))
  | [.decimal a, .int b] => (Decimal.ofInt? b).bind fun b => yields (.decimal (decimal a b))
  | [.string a, .string b] => yieldsText (if (a < b) == greater then b else a)
  | [.char a, .char b] => yields (.char (if (a < b) == greater then b else a))
  | _ => none
where
  /-- Of floating-point numbers. -/
  float (a b : Float) : Option Answer :=
    if a.isNaN then yields (.float b)
    else if b.isNaN then yields (.float a)
    else yields (.float (if (a < b) == greater then b else a))
  /-- Of decimal numbers. -/
  decimal (a b : Decimal) : Decimal := if (a.compare b == .lt) == greater then b else a

/-! ## Bits -/

/-- A bit of an integer. -/
def getBit : Native
  | [.int i, .int bit] =>
    match index? 64 bit with
    | some n => yieldsBool ((i % 2 ^ 64).toNat.testBit n)
    | none => fails (.bitBounds 64 bit)
  | _ => none

/-- An integer with a bit set or not. -/
def withBit (i : Int) (n : Nat) (value : Bool) : Int :=
  let word := (i % 2 ^ 64).toNat
  let cleared := if word.testBit n then word - 2 ^ n else word
  Operator.wrapInt (if value then cleared + 2 ^ n else cleared : Nat)

/-- Set a bit of an integer. -/
def setBit : Native
  | [.int i, .int bit, .bool value] =>
    match index? 64 bit with
    | some n => becomes (.int (withBit i n value))
    | none => fails (.bitBounds 64 bit)
  | _ => none

/-- The functions on numbers. -/
def numberFunctions : List (String × Native) :=
  [("-", negate), ("+", plus), ("abs", abs), ("sign", sign), ("is_zero", isZero), ("is_odd", isOdd),
    ("is_even", isEven), ("floor", rounding Float.floor fun n unit => n.fdiv unit),
    ("ceiling", rounding Float.ceil fun n unit => -((-n).fdiv unit)),
    ("round", rounding Double.roundHalfAway nearestEven),
    ("int", rounding truncated fun n unit => n.tdiv unit), ("fraction", fraction),
    ("parse_int", parseInt), ("parse_float", parseFloat), ("parse_decimal", parseDecimal),
    ("to_int", toInt), ("to_float", toFloat), ("to_decimal", toDecimal), ("to_hex", toDigits 16),
    ("to_octal", toDigits 8), ("to_binary", toDigits 2), ("sqrt", squareRoot),
    ("exp", floatFunction Float.exp), ("ln", floatFunction Float.log), ("log", log),
    ("sin", floatFunction Float.sin), ("cos", floatFunction Float.cos),
    ("tan", floatFunction Float.tan), ("asin", floatFunction Float.asin),
    ("acos", floatFunction Float.acos), ("atan", atan), ("sinh", floatFunction Float.sinh),
    ("cosh", floatFunction Float.cosh), ("tanh", floatFunction Float.tanh),
    ("asinh", floatFunction Float.asinh), ("acosh", floatFunction Float.acosh),
    ("atanh", floatFunction Float.atanh), ("hypot", hypot),
    ("to_degrees", floatFunction fun x => x * (180.0 / 3.141592653589793)),
    ("to_radians", floatFunction fun x => x * (3.141592653589793 / 180.0)),
    ("is_nan", fun
      | [.float x] => yieldsBool x.isNaN
      | _ => none),
    ("is_finite", fun
      | [.float x] => yieldsBool (Double.isFinite x)
      | _ => none),
    ("is_infinite", fun
      | [.float x] => yieldsBool x.isInf
      | _ => none),
    ("PI", fun
      | [] => yields (.float 3.141592653589793)
      | _ => none),
    ("E", fun
      | [] => yields (.float 2.718281828459045)
      | _ => none),
    ("min", extreme false), ("max", extreme true), ("get_bit", getBit), ("set_bit", setBit)]

end ScriptHost.Script.Library
