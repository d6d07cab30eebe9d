import ScriptHost.Fields
import ScriptHost.Script.Display
import ScriptHost.Script.Operator

/-!
# Functions of the language

A native function answers for the arguments it is made for, and for no others. It may change its
first argument. Functions are looked up by name in tables; of several functions of one name the
first that answers is meant.
-/

namespace ScriptHost.Script

/-- What a native function makes of its arguments. -/
structure Answer where
  /-- The value, or why there is none. -/
  outcome : Except Cause Datum
  /-- The first argument, if it has changed. -/
  self : Option Datum := none

/-- A native function. -/
abbrev Native := List Datum → Option Answer

namespace Library

/-- A value. -/
def yields (d : Datum) : Option Answer := some { outcome := .ok d }

/-- An integer. -/
def yieldsInt (i : Int) : Option Answer := yields (.int i)

/-- A truth value. -/
def yieldsBool (b : Bool) : Option Answer := yields (.bool b)

/-- A text. -/
def yieldsText (s : String) : Option Answer := yields (.string s)

/-- A value, and a change of the first argument. -/
def changes (self value : Datum) : Option Answer := some { outcome := .ok value, self := some self }

/-- A change of the first argument. -/
def becomes (self : Datum) : Option Answer := changes self .unit

/-- A failure. -/
def fails (c : Cause) : Option Answer := some { outcome := .error c }

/-- A result of an operator. -/
def ofResult (r : Operator.Result) : Option Answer := some { outcome := r }

/-- The index of a number counted from the front, or from the end if it is negative. -/
def index? (size : Nat) (i : Int) : Option Nat :=
  if 0 ≤ i then (if i < size then some i.toNat else none)
  else if i.natAbs ≤ size then some (size - i.natAbs) else none

/-- Where a part begins, and how long it is, both kept within the whole. -/
def span (size : Nat) (start length : Int) : Nat × Nat :=
  if (size : Int) ≤ start then (size, 0)
  else
    let start := if 0 ≤ start then start.toNat else size - start.natAbs
    (start, min length.toNat (size - start))

/-- The part that a range stands for. -/
def rangeSpan (size : Nat) (low high : Int) : Nat × Nat :=
  let low := max low 0
  span size low (max high low - low)

/-- Items with a part replaced. -/
def spliced {α : Type} (items : List α) (part : Nat × Nat) (others : List α) : List α :=
  items.take part.1 ++ others ++ items.drop (part.1 + part.2)

/-- The items of a part. -/
def slice {α : Type} (items : List α) (part : Nat × Nat) : List α :=
  (items.drop part.1).take part.2

/-- The signature of a call that no function answers. -/
def signature (name : String) (args : List Datum) : String :=
  name ++ " (" ++ ", ".intercalate (args.map Datum.signatureTypeName) ++ ")"

/-- What a text is when it is sought as an integer. -/
inductive IntegerError where
  /-- Nothing is there. -/
  | empty
  /-- A character is no digit. -/
  | digit
  /-- The number is too large. -/
  | tooLarge
  /-- The number is too small. -/
  | tooSmall

/-- The wording of an integer error. -/
def IntegerError.message : IntegerError → String
  | empty => "cannot parse integer from empty string"
  | digit => "invalid digit found in string"
  | tooLarge => "number too large to fit in target type"
  | tooSmall => "number too small to fit in target type"

end Library

end ScriptHost.Script
