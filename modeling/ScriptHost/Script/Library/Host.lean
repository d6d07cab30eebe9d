import ScriptHost.Script.Library.Collection

/-!
# Functions on host values, and the whole library

What the host adds to the language: arithmetic on big integers and the parts of dates and times.
`answer?` looks a call up in all of the library, and `property?` a property that is no field.
-/

namespace ScriptHost.Script.Library

/-- The functions on big integers. -/
def bigFunction : String → Native
  | "+", [.bigInt a, .bigInt b] => yields (.bigInt (a + b))
  | "+", [.bigInt a, .int b] => yields (.bigInt (a + b))
  | "+", [.int a, .bigInt b] => yields (.bigInt (a + b))
  | "-", [.bigInt a, .bigInt b] => yields (.bigInt (a - b))
  | "-", [.bigInt a, .int b] => yields (.bigInt (a - b))
  | "*", [.bigInt a, .bigInt b] => yields (.bigInt (a * b))
  | "*", [.bigInt a, .int b] => yields (.bigInt (a * b))
  | "==", [.bigInt a, .bigInt b] => yieldsBool (a == b)
  | _, _ => none

/-- The functions that show values, and those that join texts and other values. -/
def showFunction : String → Native
  | "to_string", [d] => yieldsText d.displayed
  | "print", [d] => yieldsText d.displayed
  | "print", [] => yieldsText ""
  | "to_debug", [d] => yieldsText d.inspected
  | "debug", [d] => yieldsText d.inspected
  | "debug", [] => yieldsText ""
  | "+", [.string s, d] => yieldsText (s ++ d.displayed)
  | "+", [d, .string s] => yieldsText (d.displayed ++ s)
  | "+=", [.string s, d] => becomes (.string (s ++ d.displayed))
  | _, _ => none

/-- The functions on ranges and function pointers. -/
def valueFunction : String → Native
  | "range", [.int a, .int b] => yields (.range a b)
  | "range", [.int a, .int b, .int step] => steps a b step
  | "range", [.range a b, .int step] => steps a b step
  | "start", [.range a _] => yieldsInt a
  | "start", [.rangeInclusive a _] => yieldsInt a
  | "end", [.range _ b] => yieldsInt b
  | "end", [.rangeInclusive _ b] => yieldsInt b
  | "is_inclusive", [.range ..] => yieldsBool false
  | "is_inclusive", [.rangeInclusive ..] => yieldsBool true
  | "is_exclusive", [.range ..] => yieldsBool true
  | "is_exclusive", [.rangeInclusive ..] => yieldsBool false
  | "is_empty", [.range a b] => yieldsBool (b ≤ a)
  | "is_empty", [.rangeInclusive a b] => yieldsBool (b < a)
  | "name", [.fnPtr name _] => yieldsText name
  | "is_anonymous", [.fnPtr name _] => yieldsBool (isClosureName name)
  | "type_of", [d] => yieldsText d.scriptTypeName
  | "is_shared", [_] => yieldsBool false
  | _, _ => none
where
  /-- Numbers by steps. -/
  steps (a b step : Int) : Option Answer :=
    if step == 0 then fails (.arithmetic "step value cannot be zero") else yields (.steps a b step)

/-- Look up a function by its name and arguments. -/
def inTable (table : List (String × Native)) (name : String) (args : List Datum) : Option Answer :=
  table.findSome? fun (n, f) => if n == name then f args else none

/-- Answer with the operators of the language. -/
def operatorAnswer? (name : String) (args : List Datum) : Option Answer :=
  match args with
  | [a, b] =>
    match Operator.binary? name a b with
    | some r => ofResult r
    | none => none
  | [a] => (Operator.unary? name a).bind ofResult
  | _ => none

/-- The answer of the library to a call; `none` if no function takes these arguments. -/
def answer? (name : String) (args : List Datum) : Option Answer :=
  arrayQuestion name args
    <|> arrayChange name args
    <|> mapFunction name args
    <|> inTable numberFunctions name args
    <|> inTable textFunctions name args
    <|> blobFunction name args
    <|> bigFunction name args
    <|> valueFunction name args
    <|> operatorAnswer? name args
    <|> showFunction name args
    <|> late name args
where
  /-- Functions that take any item, after those that take a whole array. -/
  late : String → Native
    | "+=", [.array as, .array bs] => becomes (.array (as ++ bs))
    | "+=", [.array as, d] => becomes (.array (as ++ [d]))
    | "+=", [.blob bs, .blob cs] => becomes (.blob (bs ++ cs))
    | "+=", [.blob bs, .int b] => becomes (.blob (bs ++ [byteOf b]))
    | _, _ => none

/-- Functions without further arguments that can be read as properties too. -/
def readable : List String :=
  ["len", "is_empty", "bytes", "chars", "is_odd", "is_even", "is_zero", "floor", "ceiling", "round",
    "int", "fraction", "is_nan", "is_finite", "is_infinite", "start", "end", "is_inclusive",
    "is_exclusive", "name", "is_anonymous"]

/-- A property of a value that is no field of a map. -/
def property? (name : String) (d : Datum) : Option Datum :=
  match name, d with
  | "year", .date t => some (.int t.year)
  | "month", .date t => some (.int t.month)
  | "day", .date t => some (.int t.day)
  | "hour", .time t => some (.int t.hour)
  | "minute", .time t => some (.int t.minute)
  | "second", .time t => some (.int t.second)
  | "date", .dateTime t => some (.date t.date)
  | "time", .dateTime t => some (.time t.time)
  | "year", .dateTime t => some (.int t.date.year)
  | "month", .dateTime t => some (.int t.date.month)
  | "day", .dateTime t => some (.int t.date.day)
  | "hour", .dateTime t => some (.int t.time.hour)
  | "minute", .dateTime t => some (.int t.time.minute)
  | "second", .dateTime t => some (.int t.time.second)
  | name, d =>
    if readable.contains name then
      match answer? name [d] with
      | some ⟨.ok value, _⟩ => some value
      | _ => none
    else none

end ScriptHost.Script.Library
