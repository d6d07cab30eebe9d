import ScriptHost.Script.Library.Host
import ScriptHost.Script.Machine
import ScriptHost.Script.Size
import ScriptHost.Decoding

/-!
# Evaluation: the parts

The rules of evaluation refer to each other through a record of runs, so that each rule is a
definition of its own; the record is closed over a bound on nested references. This module holds
that record, the counting of operations, and calls of functions.
-/

namespace ScriptHost.Script

/-- What stays the same while a script runs. -/
structure Engine (ω : Type) where
  /-- The limits. -/
  limits : Limits
  /-- The functions of the script. -/
  functions : List Function
  /-- The closures of the script. -/
  closures : List Function
  /-- The functions of the host. -/
  bridge : Bridge ω

/-- How a function may use its first argument. -/
inductive Access where
  /-- It is a copy. -/
  | copy
  /-- It is changed where it is. -/
  | place
  /-- It is where it is, and may not be changed. -/
  | constant
  deriving DecidableEq

/-- The runs that the rules of evaluation refer to. -/
structure Evaluator (ω : Type) where
  /-- The value of an expression. -/
  expression : Expr → Run ω Datum
  /-- The value of a statement. -/
  statement : Stmt → Run ω Datum
  /-- A call of a native function. -/
  native : String → List Datum → Access → Position → Run ω Effect
  /-- How many rounds a loop may have. -/
  rounds : Nat

namespace Evaluation

variable {ω : Type}

/-- Count an operation. -/
def tick (e : Engine ω) (pos : Position) : Run ω Unit := fun m =>
  let m := { m with operations := m.operations + 1 }
  if e.limits.maxOperations != 0 && e.limits.maxOperations < m.operations then
    (.fault (.raised .tooManyOperations pos), m)
  else (.value (), m)

/-- Check a value against the limits on sizes. -/
def checkSize (e : Engine ω) (d : Datum) (pos : Position) : Run ω Unit :=
  match d.excess? e.limits with
  | some c => .raise c pos
  | none => pure ()

/-- A value of the wrong type. -/
def mismatch {α : Type} (expected : String) (d : Datum) (pos : Position) : Run ω α :=
  .raise (.typeMismatch expected d.typeName) pos

/-- A truth value. -/
def asBool (d : Datum) (pos : Position) : Run ω Bool :=
  match d.unshared with
  | .bool b => pure b
  | d => mismatch "bool" d pos

/-- The value of a result. -/
def ofResult {α : Type} (r : Except Cause α) (pos : Position) : Run ω α :=
  match r with
  | .ok a => pure a
  | .error c => .raise c pos

/-! ## Blocks -/

/-- Run statements one after the other; the last value is the value. -/
def statements (ev : Evaluator ω) : List Stmt → Run ω Datum
  | [] => pure .unit
  | [s] => ev.statement s
  | s :: rest => do
    let _ ← ev.statement s
    statements ev rest

/-- Run statements with variables of their own. -/
def block (ev : Evaluator ω) (body : List Stmt) : Run ω Datum :=
  (statements ev body).afterwards fun before after => after.rewind before.locals.length

/-! ## Calls -/

/-- The function of the script with a name and a number of parameters. -/
def function? (e : Engine ω) (name : String) (arity : Nat) : Option Function :=
  e.functions.find? fun f => f.name == name && f.params.length == arity

/-- The closure of a name. -/
def closure? (e : Engine ω) (name : String) : Option Function :=
  e.closures.find? (·.name == name)

/-- How a fault leaves a called function. -/
def leaveCall (name : String) (pos : Position) (f : Fault) : Fault :=
  if f.isSystem then f.withPosition pos else .inCall name "" f pos

/-- Turn the end of a function into its value. -/
def catchReturn (r : Run ω Datum) : Run ω Datum := fun m =>
  match r m with
  | (.jump (.ret d), m) => (.value d, m)
  | o => o

/-- Enter a function of the script with values for its parameters, as a method of an object or
not; ends with what is left of the object too. With `inScope` it sees the variables of its
caller. -/
def enter (e : Engine ω) (ev : Evaluator ω) (f : Function) (args : List Slot) (pos : Position)
    (inScope : Bool) (self : Option Datum) (m : Machine ω) :
    Outcome Datum × Option Datum × Machine ω :=
  if f.body.isEmpty then (.value .unit, self, m)
  else
    match tick e pos m with
    | (.value (), m) =>
      if e.limits.maxCallLevels < m.level + 1 then
        (.fault (.raised .stackOverflow pos), self, m)
      else
        let params := (f.params.zip args).map fun (name, slot) => (⟨name, false, slot⟩ : Variable)
        let outer := if inScope then m.locals else []
        let inner :=
          { m with locals := params.reverse ++ outer, self, level := m.level + 1 }
        match (catchReturn (statements ev f.body)).mapFault (leaveCall f.name pos) inner with
        | (o, after) =>
          let locals :=
            if inScope then (after.rewind m.locals.length).locals else m.locals
          (o, after.self, { after with locals, self := m.self, level := m.level })
    | (.fault x, m) => (.fault x, self, m)
    | (.jump j, m) => (.jump j, self, m)
    | (.exhausted, m) => (.exhausted, self, m)

/-- Call a function of the script. -/
def callFunction (e : Engine ω) (ev : Evaluator ω) (f : Function) (args : List Slot)
    (pos : Position) (inScope : Bool) : Run ω Datum := fun m =>
  match enter e ev f args pos inScope none m with
  | (o, _, m) => (o, m)

/-- Call a function of the script as a method of the value at hand. -/
def callOn (e : Engine ω) (ev : Evaluator ω) (f : Function) (args : List Slot) (pos : Position) :
    Focus ω Datum := fun d m =>
  match enter e ev f args pos false (some d) m with
  | (o, self, m) => (o, self.getD d, m)

/-- The slot of a captured value. -/
def captureSlot : Capture → Slot
  | .value d => .own d
  | .cell id => .cell id

/-- The value of a slot. -/
def slotValue (s : Slot) : Run ω Datum := fun m => (.value (m.content s), m)

/-- Call a function by name: one of the script first, then a native one. -/
def callByName (e : Engine ω) (ev : Evaluator ω) (name : String) (args : List Slot)
    (access : Access) (pos : Position) (inScope : Bool) : Run ω Effect :=
  match function? e name args.length with
  | some f => return (← callFunction e ev f args pos inScope, none)
  | none => do ev.native name (← args.mapM slotValue) access pos

/-- Call a method by name on the value at hand. -/
def callMethod (e : Engine ω) (ev : Evaluator ω) (name : String) (args : List Slot)
    (access : Access) (pos : Position) : Focus ω Datum :=
  match function? e name args.length with
  | some f => callOn e ev f args pos
  | none => do
    let values ← Focus.lift (args.mapM slotValue)
    Focus.effect fun self => ev.native name (self :: values) access pos

/-- The closure that a function pointer with further arguments points to, and the arguments of the
call. -/
def pointee? (e : Engine ω) (name : String) (slots : List Slot) : Option Function :=
  (closure? e name).filter (·.params.length == slots.length)

/-- Call what a function pointer points to. -/
def callPointer (e : Engine ω) (ev : Evaluator ω) (name : String) (curried : List Capture)
    (args : List Slot) (pos : Position) : Run ω Datum :=
  let slots := curried.map captureSlot ++ args
  match pointee? e name slots with
  | some f => callFunction e ev f slots pos false
  | none => return (← callByName e ev name slots .copy pos false).1

/-- Call what a function pointer points to as a method of the value at hand. -/
def callPointerOn (e : Engine ω) (ev : Evaluator ω) (name : String) (curried : List Capture)
    (args : List Slot) (access : Access) (pos : Position) : Focus ω Datum :=
  let slots := curried.map captureSlot ++ args
  match pointee? e name slots with
  | some f => callOn e ev f slots pos
  | none => callMethod e ev name slots access pos

end Evaluation

end ScriptHost.Script
