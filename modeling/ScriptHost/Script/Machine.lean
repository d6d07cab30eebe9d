import ScriptHost.Bridge
import ScriptHost.Script.Syntax

/-!
# The state of a running script

A run reads and changes a machine: its variables, the cells that closures share, the count of its
operations, the world of the host and the log. It ends with a value, a fault, a jump out of the
statement at hand, or without an answer within its bound. A focused run also has a value at hand,
which it may change; whoever focuses it puts the changed value back where it came from.
-/

namespace ScriptHost.Script

/-- Where the value of a variable is. -/
inductive Slot where
  /-- In the variable. -/
  | own (d : Datum)
  /-- In a cell. -/
  | cell (id : Nat)
  deriving Inhabited

/-- A variable. -/
structure Variable where
  /-- Its name. -/
  name : String
  /-- Whether it is a constant. -/
  isConstant : Bool
  /-- Its value. -/
  slot : Slot
  deriving Inhabited

/-- The state of a running script. -/
structure Machine (ω : Type) where
  /-- The variables in sight, innermost first. -/
  locals : List Variable
  /-- The object of the method at hand. -/
  self : Option Datum := none
  /-- The cells. -/
  cells : Array Datum := #[]
  /-- The number of operations so far. -/
  operations : Nat := 0
  /-- The number of calls in each other. -/
  level : Nat := 0
  /-- The world of the host. -/
  world : ω
  /-- The log, last entry first. -/
  log : List LogEvent := []

/-- A jump out of the statement at hand. -/
inductive Jump where
  /-- To the next round of a loop. -/
  | next
  /-- Out of a loop. -/
  | leave (d : Datum)
  /-- Out of a function. -/
  | ret (d : Datum)
  /-- Out of the script. -/
  | exit (d : Datum)

/-- How a run ends. -/
inductive Outcome (α : Type) where
  /-- With a value. -/
  | value (a : α)
  /-- With a fault. -/
  | fault (f : Fault)
  /-- With a jump. -/
  | jump (j : Jump)
  /-- Without an answer within its bound. -/
  | exhausted

/-- A run. -/
def Run (ω α : Type) : Type := Machine ω → Outcome α × Machine ω

/-- A run with a value at hand. -/
def Focus (ω α : Type) : Type := Datum → Machine ω → Outcome α × Datum × Machine ω

/-- What a call gives: its value, and its first argument if that has changed. -/
abbrev Effect := Datum × Option Datum

namespace Run

variable {ω α β : Type}

/-- Go on after a run that ends with a value. -/
def bind (r : Run ω α) (f : α → Run ω β) : Run ω β := fun m =>
  match r m with
  | (.value a, m) => f a m
  | (.fault e, m) => (.fault e, m)
  | (.jump j, m) => (.jump j, m)
  | (.exhausted, m) => (.exhausted, m)

instance : Monad (Run ω) where
  pure a := fun m => (.value a, m)
  bind := bind

/-- End with a fault. -/
def fault (f : Fault) : Run ω α := fun m => (.fault f, m)

/-- End because something went wrong. -/
def raise (c : Cause) (pos : Position) : Run ω α := fault (.raised c pos)

/-- End with a jump. -/
def jump (j : Jump) : Run ω α := fun m => (.jump j, m)

/-- End without an answer. -/
def exhausted : Run ω α := fun m => (.exhausted, m)

/-- The machine. -/
def machine : Run ω (Machine ω) := fun m => (.value m, m)

/-- Change the machine. -/
def update (f : Machine ω → Machine ω) : Run ω Unit := fun m => (.value (), f m)

/-- Change the fault that a run ends with. -/
def mapFault (f : Fault → Fault) (r : Run ω α) : Run ω α := fun m =>
  match r m with
  | (.fault e, m) => (.fault (f e), m)
  | o => o

/-- Place the faults without a position. -/
def placed (pos : Position) (r : Run ω α) : Run ω α := r.mapFault (·.atIfNone pos)

/-- Change the machine after a run, however it ends. -/
def afterwards (r : Run ω α) (f : Machine ω → Machine ω → Machine ω) : Run ω α := fun m =>
  match r m with
  | (o, m') => (o, f m m')

/-- Write to the log. -/
def log (events : List LogEvent) : Run ω Unit :=
  update fun m => { m with log := events.reverse ++ m.log }

/-- Run with a value at hand; gives the value that is left, however the run ends. -/
def focus (d : Datum) (r : Focus ω α) (put : Datum → Machine ω → Machine ω) : Run ω α := fun m =>
  match r d m with
  | (o, d, m) => (o, put d m)

/-- Run with a value at hand that is lost afterwards. -/
def focusLost (d : Datum) (r : Focus ω α) : Run ω α := focus d r fun _ m => m

end Run

namespace Focus

variable {ω α β : Type}

instance : Monad (Focus ω) where
  pure a := fun d m => (.value a, d, m)
  bind r f := fun d m =>
    match r d m with
    | (.value a, d, m) => f a d m
    | (.fault e, d, m) => (.fault e, d, m)
    | (.jump j, d, m) => (.jump j, d, m)
    | (.exhausted, d, m) => (.exhausted, d, m)

/-- A run that leaves the value at hand alone. -/
def lift (r : Run ω α) : Focus ω α := fun d m =>
  match r m with
  | (o, m) => (o, d, m)

/-- The value at hand. -/
def target : Focus ω Datum := fun d m => (.value d, d, m)

/-- Change the value at hand. -/
def put (d : Datum) : Focus ω Unit := fun _ m => (.value (), d, m)

/-- End because something went wrong. -/
def raise (c : Cause) (pos : Position) : Focus ω α := lift (.raise c pos)

/-- A call with the value at hand as its first argument. -/
def effect (r : Datum → Run ω Effect) : Focus ω Datum := fun d m =>
  match r d m with
  | (.value (v, left), m) => (.value v, left.getD d, m)
  | (.fault f, m) => (.fault f, d, m)
  | (.jump j, m) => (.jump j, d, m)
  | (.exhausted, m) => (.exhausted, d, m)

/-- A run on a value, with what is left of it. -/
def asEffect (r : Focus ω Datum) (d : Datum) : Run ω Effect := fun m =>
  match r d m with
  | (.value v, left, m) => (.value (v, some left), m)
  | (.fault f, _, m) => (.fault f, m)
  | (.jump j, _, m) => (.jump j, m)
  | (.exhausted, _, m) => (.exhausted, m)

/-- Run with a part of the value at hand, and put the part back however the run ends. -/
def part (d : Datum) (rebuild : Datum → Datum → Datum) (r : Focus ω α) : Focus ω α := fun whole m =>
  match r d m with
  | (o, d, m) => (o, rebuild whole d, m)

/-- Run with a value of no place at hand. -/
def lost (d : Datum) (r : Focus ω α) : Focus ω α := part d (fun whole _ => whole) r

end Focus

/-! ## Variables and cells -/

namespace Machine

variable {ω : Type}

/-- The content of a slot. -/
def content (m : Machine ω) : Slot → Datum
  | .own d => d
  | .cell id => m.cells.getD id .unit

/-- The variable of a name. -/
def lookup? (m : Machine ω) (name : String) : Option Variable := m.locals.find? (·.name == name)

/-- Set the value of the innermost variable of a name. -/
def setVariable (name : String) (d : Datum) (m : Machine ω) : Machine ω :=
  match m.locals.findIdx? (·.name == name) with
  | none => m
  | some i =>
    match m.locals[i]? with
    | some ⟨_, _, .cell id⟩ => { m with cells := m.cells.setIfInBounds id d }
    | some v => { m with locals := m.locals.set i { v with slot := .own d } }
    | none => m

/-- Put a variable in sight. -/
def declare (name : String) (isConstant : Bool) (slot : Slot) (m : Machine ω) : Machine ω :=
  { m with locals := ⟨name, isConstant, slot⟩ :: m.locals }

/-- Put a variable in the place of the innermost one of its name. -/
def replace (name : String) (isConstant : Bool) (d : Datum) (m : Machine ω) : Machine ω :=
  match m.locals.findIdx? (·.name == name) with
  | none => m.declare name isConstant (.own d)
  | some i => { m with locals := m.locals.set i ⟨name, isConstant, .own d⟩ }

/-- Move the value of a variable to a cell, if it is not in one. -/
def share (name : String) (m : Machine ω) : Machine ω :=
  match m.locals.findIdx? (·.name == name) with
  | none => m
  | some i =>
    match m.locals[i]? with
    | some ⟨_, isConstant, .own d⟩ =>
      { m with
        locals := m.locals.set i ⟨name, isConstant, .cell m.cells.size⟩
        cells := m.cells.push d }
    | _ => m

/-- Forget all variables but the outermost `n`. -/
def rewind (n : Nat) (m : Machine ω) : Machine ω :=
  { m with locals := m.locals.drop (m.locals.length - n) }

end Machine

end ScriptHost.Script
