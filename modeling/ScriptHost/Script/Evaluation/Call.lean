import ScriptHost.Script.Evaluation.Path
import ScriptHost.Script.Program

/-!
# Calls and operators

How the arguments of a call are evaluated, the calls that the language answers itself, and
operators. A call whose first argument is a variable may change the variable, unless it is a
constant or shared with a closure.
-/

namespace ScriptHost.Script.Evaluation

variable {ω : Type}

/-- The value of an argument. -/
def argument (e : Engine ω) (ev : Evaluator ω) (x : Expr) : Run ω Datum :=
  match x.value? with
  | some d => do
    tick e x.startPosition
    pure d
  | none => ev.expression x

/-- The values of arguments. -/
def arguments (e : Engine ω) (ev : Evaluator ω) (xs : List Expr) : Run ω (List Datum) :=
  xs.mapM (argument e ev)

/-- The value of an argument for a function pointer to keep; a shared variable stays shared. -/
def captured (e : Engine ω) (ev : Evaluator ω) (x : Expr) : Run ω Capture := do
  let d ← argument e ev x
  match x with
  | .var name _ _ => do
    match (← .machine).lookup? name with
    | some ⟨_, _, .cell id⟩ => pure (.cell id)
    | _ => pure (.value d)
  | _ => pure (.value d)

/-! ## Variables -/

/-- Whether a name that the text does not declare stands for a function of the script. -/
def isFunctionWord (e : Engine ω) (name : String) (known : Bool) : Bool :=
  !known && e.functions.any (·.name == name)

/-- The value of a variable. -/
def variableValue (e : Engine ω) (name : String) (known : Bool) (pos : Position) : Run ω Datum :=
  if isFunctionWord e name known then pure (.fnPtr name [])
  else fun m =>
    match m.lookup? name with
    | some v => (.value (m.content v.slot), m)
    | none => (.fault (.raised (.variableNotFound name) pos), m)

/-- The object of the method at hand. -/
def selfValue (pos : Position) : Run ω Datum := fun m =>
  match m.self with
  | some d => (.value d, m)
  | none => (.fault (.raised .unboundThis pos), m)

/-- How a call may use a variable. -/
def variableAccess (e : Engine ω) (name : String) (known : Bool) : Run ω Access := fun m =>
  match m.lookup? name with
  | some ⟨_, false, .own _⟩ =>
    (.value (if isFunctionWord e name known then .copy else .place), m)
  | _ => (.value .copy, m)

/-! ## Calls by name -/

/-- Call by name with values as arguments. -/
def callValues (e : Engine ω) (ev : Evaluator ω) (name : String) (args : List Datum)
    (inScope : Bool) (pos : Position) : Run ω Datum :=
  return (← callByName e ev name (args.map .own) .copy pos inScope).1

/-- Call by name. -/
def callNamed (e : Engine ω) (ev : Evaluator ω) (name : String) (args : List Expr)
    (inScope : Bool) (pos : Position) : Run ω Datum :=
  match args, inScope with
  | .this selfPos :: rest, false => do
    tick e selfPos
    let values ← arguments e ev rest
    let self ← selfValue selfPos
    let (d, left) ← callByName e ev name (.own self :: values.map .own) .place pos false
    match left with
    | some s => .update fun m => { m with self := some s }
    | none => pure ()
    pure d
  | .var v known varPos :: rest, false => do
    tick e varPos
    let values ← arguments e ev rest
    let first ← variableValue e v known varPos
    let access ← variableAccess e v known
    let (d, left) ← callByName e ev name (.own first :: values.map .own) access pos false
    match left, access with
    | some s, .place => .update (Machine.setVariable v s)
    | _, _ => pure ()
    pure d
  | args, inScope => do callValues e ev name (← arguments e ev args) inScope pos

/-- A function pointer to a name. -/
def pointerTo (name : String) (pos : Position) : Run ω Datum :=
  if isFunctionName name then pure (.fnPtr name [])
  else if isReserved name || symbols.contains name || reservedSymbols.any (·.1 == name) then
    .raise (.parsing (.reserved name)) pos
  else .raise (.functionNotFound name) pos

/-- The text of an argument. -/
def textArgument (d : Datum) (pos : Position) : Run ω String :=
  match d.unshared with
  | .string s => pure s
  | d => mismatch "string" d pos

/-- Run a text as a script among the variables at hand. -/
def evaluateText (e : Engine ω) (ev : Evaluator ω) (text : String) (pos : Position) :
    Run ω Datum := do
  tick e pos
  match Program.ofText? e.limits text with
  | .error (problem, place) => .raise (.parsing problem) place
  | .ok p =>
    if !p.functions.isEmpty || !p.closures.isEmpty then .raise (.parsing .nestedFunction) .none
    else fun m =>
      match catchReturn (statements ev p.body) { m with self := none, level := m.level + 1 } with
      | (o, after) => (o, { after with self := m.self, level := m.level })

/-- A call by name or one that the language answers itself. -/
def callRule (e : Engine ω) (ev : Evaluator ω) (name : String) (args : List Expr)
    (inScope : Bool) (pos : Position) : Run ω Datum :=
  match name, args with
  | "Fn", [x] => do
    pointerTo (← textArgument (← argument e ev x) x.startPosition) x.startPosition
  | "call", x :: rest => do
    match (← argument e ev x).unshared with
    | .fnPtr f curried =>
      match pointee? e f (curried.map captureSlot ++ rest.map fun _ => .own .unit), curried with
      | none, [] => callNamed e ev f rest inScope pos
      | _, _ => do callPointer e ev f curried ((← arguments e ev rest).map .own) pos
    | d => .raise (.typeMismatch "Fn" d.scriptTypeName) x.startPosition
  | "curry", x :: y :: rest => do
    match (← argument e ev x).unshared with
    | .fnPtr f curried => return .fnPtr f (curried ++ (← (y :: rest).mapM (captured e ev)))
    | d => .raise (.typeMismatch "Fn" d.scriptTypeName) x.startPosition
  | "is_shared", [x] => do
    match ← captured e ev x with
    | .cell _ => pure (.bool true)
    | .value _ => pure (.bool false)
  | "is_def_var", [x] => do
    let v ← textArgument (← argument e ev x) x.startPosition
    return .bool ((← .machine).lookup? v).isSome
  | "is_def_fn", [x, y] => do
    let f ← textArgument (← argument e ev x) x.startPosition
    match (← argument e ev y).unshared with
    | .int n => return .bool (0 ≤ n && (function? e f n.toNat).isSome)
    | d => mismatch "i64" d y.startPosition
  | "eval", [x] => do
    let text ← textArgument (← argument e ev x) x.startPosition
    (evaluateText e ev text x.startPosition).mapFault fun f => .inCall "eval" "" f x.startPosition
  | name, args => callNamed e ev name args inScope pos

/-! ## Operators -/

/-- An operator on one or two operands. -/
def operatorRule (e : Engine ω) (ev : Evaluator ω) (symbol : String) (operands : List Expr)
    (pos : Position) : Run ω Datum :=
  match operands with
  | [x] => do
    let d ← argument e ev x
    match Operator.unary? symbol d.unshared with
    | some r => ofResult r pos
    | none => callValues e ev symbol [d] false pos
  | [x, y] => do
    let a ← argument e ev x
    let b ← argument e ev y
    match Operator.binary? symbol a.unshared b.unshared with
    | some r => do
      let d ← ofResult r pos
      checkSize e d pos
      pure d
    | none =>
      if symbol == "in" then callValues e ev "contains" [a, b] false pos
      else callValues e ev symbol [a, b] false pos
  | _ => pure .unit

end ScriptHost.Script.Evaluation
