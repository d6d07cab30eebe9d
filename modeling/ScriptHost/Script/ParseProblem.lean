import ScriptHost.Script.Word

/-!
# Faults in a script text

What can be wrong with the text of a script, and the wording of each fault.
-/

namespace ScriptHost.Script

/-- Why a text is no script. -/
inductive ParseProblem where
  /-- The text ends inside a construct. -/
  | incomplete
  /-- A token or character that has no place where it stands. -/
  | unexpected (text : String)
  /-- A string without its closing quote. -/
  | openString
  /-- A string literal longer than the limit. -/
  | longString (limit : Nat)
  /-- An unknown escape. -/
  | escape (text : String)
  /-- A number with wrong digits. -/
  | number (text : String)
  /-- A character literal that holds no single character. -/
  | character (text : String)
  /-- An identifier without letters. -/
  | identifier (text : String)
  /-- A symbol of another notation, with the advice to give. -/
  | symbol (advice : String)
  /-- An operator that is none. -/
  | unknownOperator (text : String)
  /-- A token that has to stand here, and what for. -/
  | missingToken (token purpose : String)
  /-- One of several tokens has to stand here. -/
  | missingSymbol (what : String)
  /-- An index of a kind that cannot index. -/
  | malformedIndex (what : String)
  /-- A second entry under one key of a map literal. -/
  | duplicateProperty (name : String)
  /-- A second variable of one name. -/
  | duplicateVariable (name : String)
  /-- A condition on the default case of a switch. -/
  | conditionalDefault
  /-- A case after the default case of a switch. -/
  | caseAfterDefault
  /-- A number case after a range case. -/
  | numberAfterRange
  /-- A property name has to stand here. -/
  | propertyName
  /-- A variable name has to stand here. -/
  | variableName
  /-- A function definition inside a block or function. -/
  | nestedFunction
  /-- A second function of one name and arity. -/
  | duplicateFunction (name : String) (arity : Nat)
  /-- A function without a name. -/
  | functionName
  /-- A function without a parameter list. -/
  | functionParameters (name : String)
  /-- A second parameter of one name; a closure has no name. -/
  | duplicateParameter (function parameter : String)
  /-- A function without a body. -/
  | functionBody (name : String)
  /-- An export below the top level. -/
  | nestedExport
  /-- An assignment to a constant; the name may be empty. -/
  | constantAssignment (name : String)
  /-- An assignment to something that is no place. -/
  | invalidPlace (advice : String)
  /-- An expression nested too deeply. -/
  | tooDeep
  /-- A literal with too many elements. -/
  | largeLiteral (what : String) (limit : Nat)
  /-- A loop control outside loops. -/
  | outsideLoop
  /-- A reserved word or symbol. -/
  | reserved (text : String)
  /-- An expression of the wrong kind. -/
  | mismatch (wanted actual : String)
  /-- An expression of a certain kind has to stand here. -/
  | expressionExpected (what : String)
  /-- A variable that is not defined. -/
  | undefinedVariable (name : String)
  deriving DecidableEq, Repr, Inhabited

/-- The wording of a fault, without its position. -/
def ParseProblem.message : ParseProblem → String
  | incomplete => "Script is incomplete"
  | unexpected s => "Unexpected '" ++ s ++ "'"
  | openString => "Open string is not terminated"
  | longString n => "Length of string exceeds the maximum limit (" ++ toString n ++ ")"
  | escape s => "Invalid escape sequence: '" ++ s ++ "'"
  | number s => "Invalid number: '" ++ s ++ "'"
  | character s => "Invalid character: '" ++ s ++ "'"
  | identifier s => "Variable name is not proper: '" ++ s ++ "'"
  | symbol advice => advice
  | unknownOperator s => "Unknown operator: '" ++ s ++ "'"
  | missingToken token purpose => "Expecting '" ++ token ++ "' " ++ purpose
  | missingSymbol what => "Expecting " ++ (if what.isEmpty then "a symbol" else what)
  | malformedIndex what => what
  | duplicateProperty s => "Duplicated property for object map literal: " ++ s
  | duplicateVariable s => "Duplicated variable name: " ++ s
  | conditionalDefault => "This switch case cannot have a condition"
  | caseAfterDefault => "Default switch case must be the last"
  | numberAfterRange => "Numeric switch case cannot follow a range case"
  | propertyName => "Expecting name of a property"
  | variableName => "Expecting name of a variable"
  | nestedFunction =>
    "Function definitions must be at global level and cannot be inside a block or another function"
  | duplicateFunction s 0 => "Function " ++ s ++ " with no parameters already exists"
  | duplicateFunction s 1 => "Function " ++ s ++ " with 1 parameter already exists"
  | duplicateFunction s n =>
    "Function " ++ s ++ " with " ++ toString n ++ " parameters already exists"
  | functionName => "Expecting function name in function declaration"
  | functionParameters s => "Expecting parameters for function " ++ s
  | duplicateParameter f p =>
    "Duplicated parameter " ++ p ++ " for " ++
      (if f.isEmpty then "anonymous function" else "function " ++ f)
  | functionBody s =>
    "Expecting body statement block for " ++
      (if s.isEmpty then "anonymous function" else "function " ++ s)
  | nestedExport => "Export statement can only appear at global level"
  | constantAssignment s =>
    if s.isEmpty then "Cannot assign to a constant value" else "Cannot assign to constant " ++ s
  | invalidPlace advice =>
    if advice.isEmpty then "Expression cannot be assigned to" else advice
  | tooDeep => "Expression exceeds maximum complexity"
  | largeLiteral what n => what ++ " exceeds the maximum limit (" ++ toString n ++ ")"
  | outsideLoop => "Break statement should only be used inside a loop"
  | reserved s =>
    "'" ++ s ++ "' is a reserved " ++ (if isIdentifier s then "keyword" else "symbol")
  | mismatch wanted actual => "Expecting " ++ wanted ++ ", not " ++ actual
  | expressionExpected what => "Expecting " ++ what ++ " expression"
  | undefinedVariable s => "Undefined variable: " ++ s

end ScriptHost.Script
