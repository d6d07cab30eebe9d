import ScriptHost.Script.Evaluation.Statement

/-!
# Running a script

The rules of evaluation are closed over a bound on references in each other. A script runs on bound
variables until it has a value, leaves by `return` or `exit`, or ends in a fault.
-/

namespace ScriptHost.Script

variable {ω : Type}

/-- The rules of evaluation with references nested less than a bound. -/
def Evaluator.within (e : Engine ω) : (bound : Nat) → Evaluator ω
  | 0 =>
    { expression := fun _ => .exhausted, statement := fun _ => .exhausted,
      native := fun _ _ _ _ => .exhausted, rounds := 0 }
  | n + 1 =>
    { expression := fun x m => Evaluation.expressionRule e (within e n) x m
      statement := fun s m => Evaluation.statementRule e (within e n) s m
      native := fun name args access pos m =>
        Evaluation.callNative e (within e n) name args access pos m
      rounds := n }

/-- How a script ends. -/
inductive Ending where
  /-- With a value. -/
  | value (d : Datum)
  /-- In a fault. -/
  | fault (f : Fault)
  /-- Without an answer within its bound. -/
  | exhausted

/-- Run statements on a machine with a bound. -/
def Engine.run (e : Engine ω) (bound : Nat) (body : List Stmt) (m : Machine ω) :
    Ending × Machine ω :=
  match Evaluation.statements (Evaluator.within e bound) body m with
  | (.value d, m) => (.value d, m)
  | (.jump (.ret d), m) => (.value d, m)
  | (.jump (.exit d), m) => (.value d, m)
  | (.jump (.leave _), m) => (.fault (.raised (.strayLoopControl true) .none), m)
  | (.jump .next, m) => (.fault (.raised (.strayLoopControl false) .none), m)
  | (.fault f, m) => (.fault f, m)
  | (.exhausted, m) => (.exhausted, m)

/-- A bound that no run meets in practice. -/
def Engine.ample : Nat := 10 ^ 15

end ScriptHost.Script
