import ScriptHost.Script.Datum

/-!
# Syntax of scripts

A script is a list of statements with the functions it defines. Every node keeps the position at
which its faults are reported. What follows a value (a property, a method call, an index) is kept
as one chain of links, in the order in which they are followed.
-/

namespace ScriptHost.Script

mutual

/-- An expression. -/
inductive Expr where
  /-- A value. -/
  | literal (d : Datum) (pos : Position)
  /-- A text made of segments. -/
  | interpolated (segments : List Expr) (pos : Position)
  /-- An array. -/
  | array (items : List Expr) (pos : Position)
  /-- An object map. -/
  | map (fields : List (String × Expr)) (pos : Position)
  /-- A variable; `known` tells that the text around it declares one of this name. -/
  | var (name : String) (known : Bool) (pos : Position)
  /-- The object of a method. -/
  | this (pos : Position)
  /-- A call by name; `inScope` runs the function among the variables of the caller. -/
  | call (name : String) (args : List Expr) (inScope : Bool) (pos : Position)
  /-- An operator on one or two operands. -/
  | operator (symbol : String) (operands : List Expr) (pos : Position)
  /-- All operands are true. -/
  | all (operands : List Expr) (pos : Position)
  /-- Some operand is true. -/
  | any (operands : List Expr) (pos : Position)
  /-- The first operand that is not empty. -/
  | coalesce (operands : List Expr) (pos : Position)
  /-- Statements with a value. -/
  | block (body : List Stmt) (pos : Position)
  /-- A value and what is reached from it. -/
  | chain (root : Expr) (links : List Link)

/-- A step from a value to a part of it. An optional step stops at the empty value. -/
inductive Link where
  /-- A property. -/
  | property (name : String) (isOptional : Bool) (opPos pos : Position)
  /-- A method call. -/
  | method (name : String) (args : List Expr) (isOptional : Bool) (opPos pos : Position)
  /-- An index. -/
  | index (key : Expr) (isOptional : Bool) (opPos : Position)

/-- A statement. -/
inductive Stmt where
  /-- Nothing. -/
  | noop (pos : Position)
  /-- An expression. -/
  | expr (e : Expr)
  /-- An expression that is a call, and counts as one step with it. -/
  | callOnly (e : Expr)
  /-- Statements with variables of their own. -/
  | block (body : List Stmt) (pos : Position)
  /-- An assignment, with the operator that combines the old value and the new one. -/
  | assign (op : Option String) (opPos : Position) (place value : Expr)
  /-- A declaration; one that `replaces` takes the place of the variable of its name. -/
  | declare (name : String) (isConstant replaces : Bool) (value : Expr) (pos : Position)
  /-- A choice. -/
  | choose (condition : Expr) (body : List Stmt) (bodyPos : Position) (other : List Stmt)
      (otherPos pos : Position)
  /-- A choice by value. -/
  | select (subject : Expr) (cases : List Case) (otherwise : Option Expr) (pos : Position)
  /-- A loop with its condition in front; the empty value is no condition. -/
  | whileLoop (condition : Expr) (body : List Stmt) (bodyPos pos : Position)
  /-- A loop with its condition at the end, which goes on while it has the value `goOn`. -/
  | doLoop (body : List Stmt) (condition : Expr) (goOn : Bool) (bodyPos pos : Position)
  /-- A loop over items. -/
  | forLoop (name : String) (counter : Option String) (items : Expr) (body : List Stmt)
      (bodyPos pos : Position)
  /-- The next round of a loop. -/
  | next (pos : Position)
  /-- The end of a loop. -/
  | leave (value : Option Expr) (pos : Position)
  /-- The end of a function. -/
  | ret (value : Option Expr) (pos : Position)
  /-- A fault made by the script. -/
  | throw (value : Option Expr) (pos : Position)
  /-- Statements with a handler for their faults. -/
  | guarded (body : List Stmt) (bodyPos : Position) (name : Option String) (handler : List Stmt)
      (handlerPos pos : Position)
  /-- The use of a module. -/
  | useModule (path : Expr) (pos : Position)
  /-- The release of a variable to other scripts. -/
  | release (name : String) (namePos pos : Position)
  /-- Variables that closures share from here on. -/
  | share (names : List (String × Position))

/-- A case of a choice by value: its values and ranges, its condition and its action. -/
inductive Case where
  /-- A case. -/
  | mk (patterns : List Datum) (condition action : Expr)

end

instance : Inhabited Expr := ⟨.literal .unit .none⟩
instance : Inhabited Stmt := ⟨.noop .none⟩
instance : Inhabited Link := ⟨.property "" false .none .none⟩
instance : Inhabited Case := ⟨.mk [] default default⟩

/-- A function of a script. -/
structure Function where
  /-- The name. -/
  name : String
  /-- The names of the parameters. -/
  params : List String
  /-- The statements. -/
  body : List Stmt
  deriving Inhabited

/-- A script. -/
structure Program where
  /-- The statements. -/
  body : List Stmt
  /-- The named functions. -/
  functions : List Function
  /-- The closures, under the names that their pointers carry. -/
  closures : List Function
  deriving Inhabited

namespace Link

/-- Where the operator of a step stands. -/
def opPos : Link → Position
  | property _ _ p _ => p
  | method _ _ _ p _ => p
  | index _ _ p => p

/-- Whether the step stops at the empty value. -/
def isOptional : Link → Bool
  | property _ o _ _ => o
  | method _ _ o _ _ => o
  | index _ o _ => o

end Link

namespace Case

/-- The values and ranges. -/
def patterns : Case → List Datum
  | mk ps _ _ => ps

/-- The condition. -/
def condition : Case → Expr
  | mk _ c _ => c

/-- The action. -/
def action : Case → Expr
  | mk _ _ a => a

end Case

namespace Expr

/-- Where an expression reports its faults. -/
def position : Expr → Position
  | literal _ p | interpolated _ p | array _ p | map _ p | var _ _ p | this p | call _ _ _ p
  | operator _ _ p | all _ p | any _ p | coalesce _ p | block _ p => p
  | chain root links =>
    match links with
    | [] => root.position
    | l :: _ => l.opPos

/-- Where an expression begins. -/
def startPosition : Expr → Position
  | interpolated (s :: _) _ => s.startPosition
  | all (e :: _) _ => e.startPosition
  | any (e :: _) _ => e.startPosition
  | coalesce (e :: _) _ => e.startPosition
  | chain root _ => root.startPosition
  | e => e.position

/-- The expression at another position. -/
def withPosition (e : Expr) (p : Position) : Expr :=
  match e with
  | literal d _ => literal d p
  | interpolated ss _ => interpolated ss p
  | array es _ => array es p
  | map fs _ => map fs p
  | var n k _ => var n k p
  | this _ => this p
  | call n args s _ => call n args s p
  | operator s es _ => operator s es p
  | all es _ => all es p
  | any es _ => any es p
  | coalesce es _ => coalesce es p
  | block b _ => block b p
  | chain root links => chain root links

end Expr

/-- Where a link reports its faults. -/
def Link.pos : Link → Position
  | .property _ _ _ p => p
  | .method _ _ _ _ p => p
  | .index key _ _ => key.startPosition

namespace Stmt

/-- Where a statement stands. -/
def position : Stmt → Position
  | noop p => p
  | expr e => e.startPosition
  | callOnly e => e.position
  | block _ p => p
  | assign _ p _ _ => p
  | declare _ _ _ _ p => p
  | choose _ _ _ _ _ p => p
  | select _ _ _ p => p
  | whileLoop _ _ _ p => p
  | doLoop _ _ _ _ p => p
  | forLoop _ _ _ _ _ p => p
  | next p => p
  | leave _ p => p
  | ret _ p => p
  | throw _ p => p
  | guarded _ _ _ _ _ p => p
  | useModule _ p => p
  | release _ _ p => p
  | share names =>
    match names with
    | [] => .none
    | (_, p) :: _ => p

/-- Whether the statement is empty. -/
def isNoop : Stmt → Bool
  | noop _ => true
  | _ => false

/-- Whether no semicolon has to follow. -/
def isSelfTerminated : Stmt → Bool
  | block .. | choose .. | select .. | whileLoop .. | forLoop .. | guarded .. => true
  | _ => false

/-- Whether the statement can have a value. -/
def hasValue : Stmt → Bool
  | choose .. | select .. | block .. | expr _ | callOnly _ => true
  | _ => false

/-- Whether the statement acts on the block around it. -/
def dependsOnBlock : Stmt → Bool
  | declare .. | useModule .. | release .. | share _ => true
  | _ => false

/-- Whether nothing after the statement is reached. -/
def endsFlow : Stmt → Bool
  | ret .. | throw .. | next _ | leave .. => true
  | _ => false

/-- The statements and the position of a block with this statement. -/
def asBlock : Stmt → List Stmt × Position
  | block body p => (body, p)
  | noop p => ([], p)
  | s => ([s], s.position)

end Stmt

end ScriptHost.Script
