/-!
# Positions in a script

Lines count from 1 and columns too; column 0 stands before the first character of a line, and line
0 is no position at all.
-/

namespace ScriptHost.Script

/-- A place in a script text. -/
structure Position where
  /-- The line, from 1; 0 for no position. -/
  line : Nat
  /-- The character within the line, from 1. -/
  column : Nat
  deriving DecidableEq, Repr, Inhabited

namespace Position

/-- No position. -/
def none : Position := ⟨0, 0⟩

/-- The position before the first character. -/
def start : Position := ⟨1, 0⟩

/-- Whether this is no position. -/
def isNone (p : Position) : Bool := p.line == 0

/-- One character further on the line. -/
def advance (p : Position) : Position := { p with column := p.column + 1 }

/-- Before the first character of the next line. -/
def nextLine (p : Position) : Position := ⟨p.line + 1, 0⟩

/-- The line, if there is a position. -/
def line? (p : Position) : Option Nat := if p.isNone then Option.none else some p.line

/-- The position as it ends a message: nothing if there is none. -/
def trailer (p : Position) : String :=
  if p.isNone then ""
  else " (line " ++ toString p.line ++ ", position " ++ toString p.column ++ ")"

/-- This position, or another one if it is none. -/
def orElse (p q : Position) : Position := if p.isNone then q else p

end Position

end ScriptHost.Script
