import ScriptHost.Script.Program
import ScriptHost.Script.Simplification.Expression
import ScriptHost.Script.Simplification.Statement

/-!
# Simplified scripts

The rules of simplification are closed over a bound on references in each other. The statements of a
script and of its functions are simplified; closures are run as they are written.
-/

namespace ScriptHost.Script

/-- The rules of simplification with references nested less than a bound. -/
def Simplifier.within : (bound : Nat) → Simplifier
  | 0 =>
    { expression := pure, statement := fun _ => pure, body := fun _ => pure, rounds := 0 }
  | n + 1 =>
    { expression := fun e => Simplification.expressionRule (within n) e
      statement := fun keepsValue stmt => Simplification.statementRule (within n) keepsValue stmt
      body := fun purpose body => Simplification.bodyRule (within n) purpose body
      rounds := n }

/-- Statements simplified as all of a script or function. -/
def simplified (bound : Nat) (body : List Stmt) : List Stmt :=
  ((Simplifier.within bound).body ⟨true, false, true⟩ body |>.run {}).1

/-- A bound that no script meets in practice. -/
def simplificationBound : Nat := 10 ^ 15

/-- A script with its statements and functions simplified. -/
def Program.simplified (p : Program) : Program :=
  { p with
    body := Script.simplified simplificationBound p.body
    functions := p.functions.map fun f =>
      { f with body := Script.simplified simplificationBound f.body } }

end ScriptHost.Script
