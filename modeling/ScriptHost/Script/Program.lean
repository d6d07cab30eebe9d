import ScriptHost.Script.Grammar.Statement
import ScriptHost.Script.Lexer

/-!
# From text to script

The rules of the grammar refer to each other; each reference takes away one unit of a bound that
grows with the number of tokens, so that the bound is never met.
-/

namespace ScriptHost.Script

/-- The grammar with references nested less than a bound. -/
def Grammar.within : Nat → Grammar
  | 0 =>
    let never {α : Type} : Parser α := Parser.fail .tooDeep .none
    { statement := fun _ => never, block := fun _ => never, expression := fun _ => never,
      operand := fun _ => never, operators := fun _ _ _ => never, primary := fun _ _ => never,
      index := fun _ _ _ _ => never, choice := fun _ => never }
  | n + 1 =>
    { statement := fun c => statementRule (within n) c
      block := fun c => blockRule (within n) c
      expression := fun c => expressionRule (within n) c
      operand := fun c => operandRule (within n) c
      operators := fun c p e => operatorsRule (within n) c p e
      primary := fun c d => primaryRule (within n) c d
      index := fun c e o k => indexRule (within n) c e o k
      choice := fun c => choiceRule (within n) c }

/-- Read a script within limits. -/
def Program.ofText? (limits : Limits) (text : String) : Except Complaint Program :=
  let placed := tokens limits.maxStringSize text
  let g := Grammar.within (8 * placed.length + 16)
  let c : Context := { limits, maxLevel := limits.maxExprDepth, isTop := true }
  match Grammar.scriptRule g c { tokens := placed } with
  | .error e => .error e
  | .ok (body, s) => .ok ⟨body, s.functions.reverse, s.closures.reverse⟩

end ScriptHost.Script
