import ScriptHost.Script.Evaluation.Call

/-!
# Expressions

The value of an expression. Operands are evaluated from left to right, and every expression counts
as one operation. The arguments of all steps of a path are evaluated before its root.
-/

namespace ScriptHost.Script.Evaluation

variable {ω : Type}

/-- A literal text of segments; every segment keeps the text within its limit. -/
def interpolatedRule (e : Engine ω) (ev : Evaluator ω) : List Expr → String → Run ω Datum
  | [], text => pure (.string text)
  | x :: rest, text => do
    let d ← ev.expression x
    let text := text ++ d.displayed
    checkSize e (.string text) x.position
    interpolatedRule e ev rest text

/-- The items of an array; every item keeps the sizes within their limits. -/
def arrayRule (e : Engine ω) (ev : Evaluator ω) : List Expr → List Datum → Run ω Datum
  | [], reversed => pure (.array reversed.reverse)
  | x :: rest, reversed => do
    let d ← ev.expression x
    checkSize e (.array (d.unshared :: reversed)) x.position
    arrayRule e ev rest (d.unshared :: reversed)

/-- The fields of a map; every field keeps the sizes within their limits. -/
def mapRule (e : Engine ω) (ev : Evaluator ω) :
    List (String × Expr) → List (String × Datum) → Run ω Datum
  | [], fields => pure (.map fields)
  | (k, x) :: rest, fields => do
    let d ← ev.expression x
    let fields := Fields.insert k d.unshared fields
    checkSize e (.map fields) x.position
    mapRule e ev rest fields

/-- Whether all operands have a truth value. -/
def allRule (ev : Evaluator ω) (value : Bool) : List Expr → Run ω Bool
  | [] => pure true
  | x :: rest => do
    if (← asBool (← ev.expression x) x.position) == value then allRule ev value rest
    else pure false

/-- The first operand that is not empty. -/
def coalesceRule (ev : Evaluator ω) : List Expr → Run ω Datum
  | [] => pure .unit
  | x :: rest => do
    let d ← ev.expression x
    if d.isUnit then coalesceRule ev rest else pure d

/-! ## Paths -/

/-- The operation that stands for a link: it is counted at the operator of the link after it, and
the last one at its own place. -/
def linkPosition (link : Link) (rest : List Link) : Position :=
  match rest with
  | next :: _ => next.opPos
  | [] =>
    match link with
    | .index key _ _ => key.position
    | link => link.pos

/-- A link with its arguments evaluated. -/
def stepOf (e : Engine ω) (ev : Evaluator ω) (link : Link) : Run ω (Bool × Step) :=
  match link with
  | .property name isOptional opPos pos => pure (isOptional, .property name opPos pos)
  | .method name args isOptional opPos pos => do
    let values ← arguments e ev args
    let firstPos := (args.head?.map Expr.startPosition).getD .none
    pure (isOptional, .method name values firstPos opPos pos)
  | .index key isOptional opPos => do
    let d ← ev.expression key
    pure (isOptional, .index d.unshared opPos key.startPosition)

/-- The path of links with their arguments evaluated. -/
def pathOf (e : Engine ω) (ev : Evaluator ω) : List Link → Run ω Path
  | [] => pure []
  | link :: rest => do
    tick e (linkPosition link rest)
    let s ← stepOf e ev link
    return s :: (← pathOf e ev rest)

/-- A single link without anything to evaluate. -/
def simpleStep? : Link → Option (Bool × Step)
  | .property name isOptional opPos pos => some (isOptional, .property name opPos pos)
  | .method name [] isOptional opPos pos => some (isOptional, .method name [] .none opPos pos)
  | .index key isOptional opPos =>
    key.constant?.map fun d => (isOptional, .index d opPos key.startPosition)
  | _ => none

/-- The path of links. -/
def path (e : Engine ω) (ev : Evaluator ω) (links : List Link) : Run ω Path :=
  match links with
  | [link] =>
    match simpleStep? link with
    | some s => pure [s]
    | none => pathOf e ev [link]
  | links => pathOf e ev links

/-- A run on the value of a variable, which is put back. -/
def onVariable {α : Type} (e : Engine ω) (name : String) (known : Bool) (pos : Position)
    (run : Access → Focus ω α) : Run ω α := do
  let d ← variableValue e name known pos
  if isFunctionWord e name known then Run.focusLost d (run .copy)
  else fun m =>
    let isConstant := ((m.lookup? name).map (·.isConstant)).getD false
    (Run.focus d (run (placeAccess isConstant)) (Machine.setVariable name)) m

/-- A run on the object of the method at hand, which is put back. -/
def onSelf {α : Type} (pos : Position) (run : Access → Focus ω α) : Run ω α := do
  let d ← selfValue pos
  Run.focus d (run .place) fun d m => { m with self := some d }

/-- Whether a path asks a variable whether it is shared. -/
def asksShared : Path → Bool
  | [(_, .method "is_shared" [] ..)] => true
  | _ => false

/-- What a path reaches from the value of an expression. -/
def chainRule (e : Engine ω) (ev : Evaluator ω) (root : Expr) (links : List Link) :
    Run ω Datum := do
  let steps ← path e ev links
  match root with
  | .var name known pos => do
    tick e pos
    match (← .machine).lookup? name, asksShared steps with
    | some ⟨_, _, .cell _⟩, true => pure (.bool true)
    | _, _ =>
      (onVariable e name known pos fun access => follow e ev access steps).placed
        root.startPosition
  | .this pos => do
    tick e pos
    (onSelf pos fun access => follow e ev access steps).placed root.startPosition
  | root => do
    let d ← ev.expression root
    (Run.focusLost d.unshared (follow e ev .copy steps)).placed root.startPosition

/-! ## The value of an expression -/

/-- The value of an expression, which has been counted. -/
def valueRule (e : Engine ω) (ev : Evaluator ω) (x : Expr) : Run ω Datum :=
  match x with
  | .literal d _ => pure d
  | .interpolated segments _ => interpolatedRule e ev segments ""
  | .array items _ => arrayRule e ev items []
  | .map fields _ => mapRule e ev fields []
  | .var name known pos => variableValue e name known pos
  | .this pos => selfValue pos
  | .call name args inScope pos => callRule e ev name args inScope pos
  | .operator symbol operands pos => operatorRule e ev symbol operands pos
  | .all operands _ => return .bool (← allRule ev true operands)
  | .any operands _ => return .bool !(← allRule ev false operands)
  | .coalesce operands _ => coalesceRule ev operands
  | .block body _ => block ev body
  | .chain root links => chainRule e ev root links

/-- The value of an expression. -/
def expressionRule (e : Engine ω) (ev : Evaluator ω) (x : Expr) : Run ω Datum := do
  tick e x.position
  valueRule e ev x

end ScriptHost.Script.Evaluation
