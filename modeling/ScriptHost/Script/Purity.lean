import ScriptHost.Fields
import ScriptHost.Script.DatumText
import ScriptHost.Script.Syntax

/-!
# Constants and purity

An expression is constant if its value can be read off it, and a statement is pure if leaving it
out changes nothing but its value.
-/

namespace ScriptHost.Script

mutual

/-- The value of a constant expression. -/
def Expr.constant? : Expr → Option Datum
  | .literal d _ => some d
  | .array items _ => (constants? items).map .array
  | .map fields _ => (constantFields? fields).map fun fs => .map (Fields.ofList fs)
  | .interpolated segments _ =>
    (constants? segments).map fun ds => .string ("".intercalate (ds.map Datum.text))
  | _ => none

/-- The values of constant expressions. -/
def constants? : List Expr → Option (List Datum)
  | [] => some []
  | e :: rest =>
    match e.constant?, constants? rest with
    | some d, some ds => some (d :: ds)
    | _, _ => none

/-- The values of constant fields. -/
def constantFields? : List (String × Expr) → Option (List (String × Datum))
  | [] => some []
  | (k, e) :: rest =>
    match e.constant?, constantFields? rest with
    | some d, some ds => some ((k, d) :: ds)
    | _, _ => none

end

/-- Whether an expression is constant. -/
def Expr.isConstant (e : Expr) : Bool := e.constant?.isSome

/-- The value of an expression that is as good as a value: a constant, or a range of constants. -/
def Expr.value? : Expr → Option Datum
  | .operator ".." [.literal (.int a) _, .literal (.int b) _] _ => some (.range a b)
  | .operator "..=" [.literal (.int a) _, .literal (.int b) _] _ => some (.rangeInclusive a b)
  | e => e.constant?

/-- Whether an expression is this truth value. -/
def Expr.isBool (b : Bool) : Expr → Bool
  | .literal (.bool c) _ => b == c
  | _ => false

/-- Whether an expression is the empty value. -/
def Expr.isUnit : Expr → Bool
  | .literal .unit _ => true
  | _ => false

mutual

/-- Whether an expression does nothing but have a value. -/
def Expr.isPure : Expr → Bool
  | .literal .. => true
  | .interpolated es _ => arePure es
  | .array es _ => arePure es
  | .map fields _ => areFieldsPure fields
  | .all es _ => arePure es
  | .any es _ => arePure es
  | .coalesce es _ => arePure es
  | .block body _ => isBodyPure body
  | .var .. => true
  | _ => false

/-- Whether all expressions are pure. -/
def arePure : List Expr → Bool
  | [] => true
  | e :: rest => e.isPure && arePure rest

/-- Whether all fields are pure. -/
def areFieldsPure : List (String × Expr) → Bool
  | [] => true
  | (_, e) :: rest => e.isPure && areFieldsPure rest

/-- Whether a statement does nothing but have a value. -/
def Stmt.isPure : Stmt → Bool
  | .noop _ => true
  | .expr e => e.isPure
  | .choose c body _ other _ _ => c.isPure && isBodyPure body && isBodyPure other
  | .select subject cases otherwise _ =>
    subject.isPure && areCasesPure cases && isDefaultPure otherwise
  | .whileLoop c _ _ _ => c.isBool false
  | .doLoop body c goOn _ _ => c.isBool (!goOn) && isBodyPure body
  | .forLoop _ _ items body _ _ => items.isPure && isBodyPure body
  | .block body _ => isBodyPure body
  | .guarded body _ _ handler _ _ => isBodyPure body && isBodyPure handler
  | _ => false

/-- Whether all statements are pure. -/
def isBodyPure : List Stmt → Bool
  | [] => true
  | s :: rest => s.isPure && isBodyPure rest

/-- Whether conditions and actions of all cases are pure. -/
def areCasesPure : List Case → Bool
  | [] => true
  | .mk _ c a :: rest => c.isPure && a.isPure && areCasesPure rest

/-- Whether a default action is pure. -/
def isDefaultPure : Option Expr → Bool
  | none => true
  | some e => e.isPure

end

mutual

/-- Whether a statement does nothing that is seen outside its block. -/
def Stmt.isInternallyPure : Stmt → Bool
  | .declare _ _ _ e _ => e.isPure
  | .expr e => isValueInternallyPure e
  | .useModule e _ => e.isPure
  | .release .. => true
  | s => s.isPure

/-- The same for the expression of a statement. -/
def isValueInternallyPure : Expr → Bool
  | .block body _ => isBodyInternallyPure body
  | e => e.isPure

/-- The same for all statements. -/
def isBodyInternallyPure : List Stmt → Bool
  | [] => true
  | s :: rest => s.isInternallyPure && isBodyInternallyPure rest

end

end ScriptHost.Script
