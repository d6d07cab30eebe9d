import ScriptHost.Script.ParseProblem

/-!
# Causes of run-time faults

What can go wrong while a script runs, apart from values the script throws itself.
-/

namespace ScriptHost.Script

/-- Why a running script fails. -/
inductive Cause where
  /-- A text given to the evaluator at run time is no script. -/
  | parsing (problem : ParseProblem)
  /-- No variable of this name. -/
  | variableNotFound (name : String)
  /-- The object has no such property. -/
  | propertyNotFound (name : String)
  /-- No such index; shows the index. -/
  | indexNotFound (index : String)
  /-- No function takes these arguments; shows name and argument types. -/
  | functionNotFound (signature : String)
  /-- No module at this path. -/
  | moduleNotFound (path : String)
  /-- A member access that cannot be carried out; the text may be empty. -/
  | member (message : String)
  /-- No indexer; shows the types. -/
  | indexer (signature : String)
  /-- The object of a method is not bound. -/
  | unboundThis
  /-- A value of one type where another is expected; either name may be empty. -/
  | typeMismatch (expected actual : String)
  /-- An array index out of range, with the length. -/
  | arrayBounds (length : Nat) (index : Int)
  /-- A string index out of range, with the length. -/
  | stringBounds (length : Nat) (index : Int)
  /-- A bit index out of range, with the width. -/
  | bitBounds (width : Nat) (index : Int)
  /-- A loop over something that has no items. -/
  | notIterable
  /-- An assignment to a constant. -/
  | constant (name : String)
  /-- A method that changes its object, called on a constant. -/
  | constantObject (method : String)
  /-- Arithmetic that has no result; the text may be empty. -/
  | arithmetic (message : String)
  /-- Too many calls in each other. -/
  | stackOverflow
  /-- The limit of operations is passed. -/
  | tooManyOperations
  /-- A value larger than its limit. -/
  | tooLarge (what : String)
  /-- A loop control that left its function. -/
  | strayLoopControl (isBreak : Bool)
  deriving Repr, DecidableEq

/-- The end of a message on something out of range: how many parts there are. -/
private def countText (none one many : String) : Nat → String
  | 0 => none
  | 1 => "only 1 " ++ one
  | n => "only " ++ toString n ++ " " ++ many

/-- The wording of a cause, without its position. -/
def Cause.message : Cause → String
  | parsing problem => "Syntax error: " ++ problem.message
  | variableNotFound s => "Variable not found: " ++ s
  | propertyNotFound s => "Property not found: " ++ s
  | indexNotFound s => "Invalid index: " ++ s
  | functionNotFound s => "Function not found: " ++ s
  | moduleNotFound s => "Module not found: " ++ s
  | member s => if s.isEmpty then "Malformed dot expression" else s
  | indexer s => "Indexer unavailable: " ++ s
  | unboundThis => "'this' not bound"
  | typeMismatch expected actual =>
    if actual.isEmpty then "Data type incorrect, expecting " ++ expected
    else if expected.isEmpty then "Data type incorrect: " ++ actual
    else "Data type incorrect: " ++ actual ++ " (expecting " ++ expected ++ ")"
  | arrayBounds n i =>
    "Array index " ++ toString i ++ " out of bounds: " ++
      countText "array is empty" "element in array" "elements in array" n
  | stringBounds n i =>
    "String index " ++ toString i ++ " out of bounds: " ++
      countText "string is empty" "character in string" "characters in string" n
  | bitBounds n i =>
    "Bit-field index " ++ toString i ++ " out of bounds: " ++
      countText "bit-field is zero-sized" "bit in bit-field" "bits in bit-field" n
  | notIterable => "For loop expects iterable type"
  | constant s => "Cannot modify constant " ++ s
  | constantObject s => "Non-pure method '" ++ s ++ "' cannot be called on constant"
  | arithmetic s => if s.isEmpty then "Arithmetic error" else s
  | stackOverflow => "Stack overflow"
  | tooManyOperations => "Too many operations"
  | tooLarge what => what ++ " too large"
  | strayLoopControl true => "'break' must be within a loop"
  | strayLoopControl false => "'continue' must be within a loop"

/-- A cause that no `catch` of the script sees and that no call frame is added to. -/
def Cause.isSystem : Cause → Bool
  | parsing _ | tooManyOperations | stackOverflow | tooLarge _ => true
  | _ => false

end ScriptHost.Script
