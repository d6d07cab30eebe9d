import ScriptHost.Script.Operator
import ScriptHost.Script.Purity

/-!
# Simplification: the parts

A script is simplified before it runs: what is constant is computed, what can have no effect is left
out, and what is never reached too. The rules refer to each other through a record of passes. This
module holds that record and what a pass knows.
-/

namespace ScriptHost.Script

/-- What a pass knows and has done. -/
structure Progress where
  /-- The variables in sight, innermost first, with the values of those that are constant. -/
  known : List (String × Option Datum) := []
  /-- Whether values may take the place of the names of constants. -/
  propagates : Bool := true
  /-- Whether anything has changed. -/
  changed : Bool := false

/-- A pass over a part of a script. -/
abbrev Pass := StateM Progress

/-- What a block of statements is for. -/
structure Purpose where
  /-- Whether the value of the last statement is used. -/
  keepsValue : Bool
  /-- Whether the block is inside another one, so that its variables are seen nowhere else. -/
  isInner : Bool
  /-- Whether the block is all of a script or function, so that its end is a return. -/
  endsFunction : Bool

/-- The passes that the rules refer to. -/
structure Simplifier where
  /-- Simplify an expression. -/
  expression : Expr → Pass Expr
  /-- Simplify a statement whose value is used or not. -/
  statement : (keepsValue : Bool) → Stmt → Pass Stmt
  /-- Simplify statements. -/
  body : Purpose → List Stmt → Pass (List Stmt)
  /-- How often statements may be simplified again. -/
  rounds : Nat

namespace Simplification

/-- Note a change. -/
def changed {α : Type} (a : α) : Pass α := do
  modify fun p => { p with changed := true }
  pure a

/-- Put a variable in sight. -/
def declare (name : String) (value : Option Datum) : Pass Unit :=
  modify fun p => { p with known := (name, value) :: p.known }

/-- The value of a constant in sight. -/
def constantOf? (name : String) (p : Progress) : Option Datum :=
  (p.known.find? (·.1 == name)).bind (·.2)

/-- Whether an expression is a literal. -/
def isLiteral : Expr → Bool
  | .literal .. => true
  | _ => false

/-- A literal in the place of an argument that is as good as a value. -/
def settled (x : Expr) : Pass Expr :=
  if isLiteral x then pure x
  else
    match x.value? with
    | some d => changed (.literal d x.startPosition)
    | none => pure x

/-- Simplify the arguments of a call. -/
def arguments (s : Simplifier) (args : List Expr) : Pass (List Expr) := do
  (← args.mapM s.expression).mapM settled

end Simplification

end ScriptHost.Script
