import ScriptHost.Script.Evaluation.Expression

/-!
# Statements

The value of a statement. Every statement counts as one operation. A loop ends with the value of
its `break`, and a round of it sees variables of its own.
-/

namespace ScriptHost.Script.Evaluation

variable {ω : Type}

/-! ## Assignment -/

/-- Assign to the value at hand. -/
def assignWhole (e : Engine ω) (ev : Evaluator ω) (access : Access) (root : String × Position)
    (op : Option String) (pos : Position) (new : Datum) : Focus ω Unit := do
  if access == .constant then .raise (.constant root.1) root.2
  else
    let d ← Focus.lift (assigned e ev op (← .target) new pos)
    .put d
    Focus.lift (checkSize e d pos)

/-- An assignment. -/
def assignRule (e : Engine ω) (ev : Evaluator ω) (op : Option String) (pos : Position)
    (place value : Expr) : Run ω Datum := do
  match place with
  | .this selfPos =>
    if (← .machine).self.isNone then .raise .unboundThis selfPos
    else
      let new ← ev.expression value
      tick e selfPos
      onSelf selfPos fun access => assignWhole e ev access ("", selfPos) op pos new.unshared
      pure .unit
  | .var name known varPos => do
    let new ← ev.expression value
    tick e varPos
    if isFunctionWord e name known then .raise (.constant name) varPos
    else
      onVariable e name known varPos fun access =>
        assignWhole e ev access (name, varPos) op pos new.unshared
      pure .unit
  | .chain root links => do
    let new ← ev.expression value
    let steps ← path e ev links
    let assign (name : String) (access : Access) : Focus ω Unit :=
      assignAt e ev access (name, root.startPosition) op pos new.unshared steps
    match root with
    | .var name known varPos => do
      tick e varPos
      (onVariable e name known varPos (assign name)).placed root.startPosition
    | .this selfPos => do
      tick e selfPos
      (onSelf selfPos (assign "")).placed root.startPosition
    | root => do
      let d ← ev.expression root
      (Run.focusLost d.unshared (assign "" .copy)).placed root.startPosition
    pure .unit
  | _ => pure .unit

/-! ## Choices -/

/-- Statements with variables of their own; none have the empty value. -/
def blockRule (ev : Evaluator ω) (body : List Stmt) : Run ω Datum :=
  if body.isEmpty then pure .unit else block ev body

/-- The condition of a case. -/
def conditionRule (ev : Evaluator ω) (condition : Expr) : Run ω Bool :=
  match condition with
  | .literal (.bool b) _ => pure b
  | c => do asBool (← ev.expression c) c.position

/-- The first case whose condition holds. -/
def firstCase (ev : Evaluator ω) : List Case → Run ω (Option Expr)
  | [] => pure none
  | c :: rest => do
    if ← conditionRule ev c.condition then pure (some c.action) else firstCase ev rest

/-- Whether a value can be looked up among cases. -/
def isComparable : Datum → Bool
  | .unit | .bool _ | .int _ | .float _ | .decimal _ | .string _ | .char _ | .array _ | .blob _
  | .map _ | .range .. | .rangeInclusive .. | .fnPtr .. => true
  | .shared d => isComparable d
  | _ => false

mutual

/-- Whether two values are of one type and the same. -/
def same : Datum → Datum → Bool
  | .unit, .unit => true
  | .bool a, .bool b => a == b
  | .int a, .int b => a == b
  | .float a, .float b => a.toBits == b.toBits
  | .decimal a, .decimal b => a.equal b
  | .string a, .string b => a == b
  | .char a, .char b => a == b
  | .array as, .array bs => sameItems as bs
  | .blob a, .blob b => a == b
  | .map fs, .map gs => sameFields fs gs
  | .range a b, .range c d => a == c && b == d
  | .rangeInclusive a b, .rangeInclusive c d => a == c && b == d
  | .fnPtr f _, .fnPtr g _ => f == g
  | _, _ => false

/-- Whether items are the same one by one. -/
def sameItems : List Datum → List Datum → Bool
  | [], [] => true
  | a :: as, b :: bs => same a b && sameItems as bs
  | _, _ => false

/-- Whether fields are the same one by one. -/
def sameFields : List (String × Datum) → List (String × Datum) → Bool
  | [], [] => true
  | (k, a) :: fs, (l, b) :: gs => k == l && same a b && sameFields fs gs
  | _, _ => false

end

/-- Whether a pattern of a case is a range that holds a value. -/
def inPattern (d : Datum) (pattern : Datum) : Bool :=
  match pattern, d with
  | .range a b, .int i => Operator.holds a i b false
  | .rangeInclusive a b, .int i => Operator.holds a i b true
  | .range a b, .float x => Double.ofInt a ≤ x && x < Double.ofInt b
  | .rangeInclusive a b, .float x => Double.ofInt a ≤ x && x ≤ Double.ofInt b
  | _, _ => false

/-- The cases for a value: those of the same value, or else those of the ranges around it, in the
order of the ranges. -/
def casesFor (d : Datum) (cases : List Case) : List Case :=
  if !isComparable d then []
  else
    match cases.filter fun c => c.patterns.any (same d) with
    | [] => cases.flatMap fun c => (c.patterns.filter (inPattern d)).map fun _ => c
    | found => found

/-- A choice by value. -/
def selectRule (ev : Evaluator ω) (subject : Expr) (cases : List Case) (otherwise : Option Expr) :
    Run ω Datum := do
  let d ← ev.expression subject
  match (← firstCase ev (casesFor d.unshared cases)) <|> otherwise with
  | some action => ev.expression action
  | none => pure .unit

/-! ## Loops -/

/-- What a round of a loop says about the loop. -/
inductive Round where
  /-- It goes on. -/
  | goOn
  /-- It ends with a value. -/
  | done (d : Datum)
  /-- The round was cut short, and the loop goes on. -/
  | cut

/-- Repeat rounds until one ends the loop, within a bound. -/
def repeated (round : Run ω Round) : Nat → Run ω Datum
  | 0, m => (.exhausted, m)
  | n + 1, m =>
    match round m with
    | (.value (.done d), m) => (.value d, m)
    | (.value _, m) => repeated round n m
    | (.fault f, m) => (.fault f, m)
    | (.jump j, m) => (.jump j, m)
    | (.exhausted, m) => (.exhausted, m)

/-- The body of a loop as a round. -/
def bodyRound (ev : Evaluator ω) (body : List Stmt) : Run ω Round := fun m =>
  match blockRule ev body m with
  | (.value _, m) => (.value .goOn, m)
  | (.jump .next, m) => (.value .cut, m)
  | (.jump (.leave d), m) => (.value (.done d), m)
  | (.jump j, m) => (.jump j, m)
  | (.fault f, m) => (.fault f, m)
  | (.exhausted, m) => (.exhausted, m)

/-- A loop with its condition in front. -/
def whileRule (e : Engine ω) (ev : Evaluator ω) (condition : Expr) (body : List Stmt)
    (bodyPos : Position) : Run ω Datum :=
  let endless := condition.isUnit || condition.isBool true
  let round : Run ω Round :=
    if endless then
      if body.isEmpty then do
        tick e bodyPos
        pure .goOn
      else bodyRound ev body
    else do
      if ← asBool (← ev.expression condition) condition.position then bodyRound ev body
      else pure (.done .unit)
  repeated round ev.rounds

/-- A loop with its condition at the end. -/
def doRule (ev : Evaluator ω) (body : List Stmt) (condition : Expr) (goOn : Bool) : Run ω Datum :=
  let round : Run ω Round := do
    match ← bodyRound ev body with
    | .goOn =>
      if (← asBool (← ev.expression condition) condition.position) == goOn then pure .goOn
      else pure (.done .unit)
    | r => pure r
  repeated round ev.rounds

/-- The items of a loop that are still to come. -/
inductive Items where
  /-- Values one by one. -/
  | list (ds : List Datum)
  /-- Integers by step up to a bound, or down to it. -/
  | numbers (next stop step : Int) (isInclusive : Bool)

/-- The first item and those after it. -/
def Items.next? : Items → Option (Datum × Items)
  | list [] => none
  | list (d :: rest) => some (d, list rest)
  | numbers i stop step isInclusive =>
    let inside := if 0 < step then (if isInclusive then i ≤ stop else i < stop) else stop < i
    if inside then some (.int i, numbers (i + step) stop step isInclusive) else none

/-- A bound on the rounds over items: a list bounds itself, and numbers have the general bound. -/
def Items.bound (rounds : Nat) : Items → Nat
  | list ds => ds.length + 1
  | numbers .. => rounds

/-- The items of a value. -/
def items? (d : Datum) : Option Items :=
  match d.unshared with
  | .array ds => some (.list ds)
  | .string s => some (.list (s.toList.map .char))
  | .blob bs => some (.list (bs.map fun (b : Nat) => .int b))
  | .range a b => some (.numbers a b 1 false)
  | .rangeInclusive a b => some (.numbers a b 1 true)
  | .steps a b step => some (.numbers a b step false)
  | _ => none

/-- Set the value of the variable at a depth, counted from the innermost. -/
def setAt (depth : Nat) (d : Datum) (m : Machine ω) : Machine ω :=
  match m.locals[depth]? with
  | some ⟨_, _, .cell id⟩ => { m with cells := m.cells.setIfInBounds id d }
  | some v => { m with locals := m.locals.set depth { v with slot := .own d } }
  | none => m

/-- Rounds of a loop over items, within a bound. -/
def forRounds (round : Run ω Round) (hasCounter : Bool) :
    (bound : Nat) → (count : Int) → Items → Run ω Datum
  | 0, _, _, m => (.exhausted, m)
  | n + 1, i, items, m =>
    match items.next? with
    | none => (.value .unit, m)
    | some (d, rest) =>
      let m := setAt 0 d (if hasCounter then setAt 1 (.int i) m else m)
      match round m with
      | (.value (.done d), m) => (.value d, m)
      | (.value _, m) => forRounds round hasCounter n (i + 1) rest m
      | (.fault f, m) => (.fault f, m)
      | (.jump j, m) => (.jump j, m)
      | (.exhausted, m) => (.exhausted, m)

/-- A loop over items. -/
def forRule (e : Engine ω) (ev : Evaluator ω) (name : String) (counter : Option String)
    (source : Expr) (body : List Stmt) (bodyPos : Position) : Run ω Datum := do
  let d ← ev.expression source
  match items? d with
  | none => .raise .notIterable source.startPosition
  | some items =>
    let round : Run ω Round :=
      if body.isEmpty then do
        tick e bodyPos
        pure .goOn
      else bodyRound ev body
    let run : Run ω Datum := do
      match counter with
      | some c => .update (Machine.declare c false (.own (.int 0)))
      | none => pure ()
      .update (Machine.declare name false (.own .unit))
      forRounds round counter.isSome (items.bound ev.rounds) 0 items
    run.afterwards fun before after => after.rewind before.locals.length

/-! ## Faults -/

/-- What a handler can read of a cause: the name of its kind and its details. -/
def causeFields : Cause → String × List (String × Datum)
  | .parsing _ => ("ErrorParsing", [])
  | .variableNotFound s => ("ErrorVariableNotFound", [("variable", .string s)])
  | .propertyNotFound s => ("ErrorPropertyNotFound", [("property", .string s)])
  | .indexNotFound s => ("ErrorIndexNotFound", [("index", .string s)])
  | .functionNotFound s => ("ErrorFunctionNotFound", [("function", .string s)])
  | .moduleNotFound s => ("ErrorModuleNotFound", [("module", .string s)])
  | .member s => ("ErrorDotExpr", [("property", .string s)])
  | .indexer s => ("ErrorIndexingType", [("type", .string s)])
  | .unboundThis => ("ErrorUnboundThis", [])
  | .typeMismatch expected actual =>
    ("ErrorMismatchDataType", [("actual", .string actual), ("requested", .string expected)])
  | .arrayBounds n i => ("ErrorArrayBounds", [("index", .int i), ("length", .int n)])
  | .stringBounds n i => ("ErrorStringBounds", [("index", .int i), ("length", .int n)])
  | .bitBounds n i => ("ErrorBitFieldBounds", [("index", .int i), ("length", .int n)])
  | .notIterable => ("ErrorFor", [])
  | .constant s => ("ErrorAssignmentToConstant", [("variable", .string s)])
  | .constantObject s => ("ErrorNonPureMethodCallOnConstant", [("function", .string s)])
  | .arithmetic _ => ("ErrorArithmetic", [])
  | .stackOverflow => ("ErrorStackOverflow", [])
  | .tooManyOperations => ("ErrorTooManyOperations", [])
  | .tooLarge s => ("ErrorDataTooLarge", [("type", .string s)])
  | .strayLoopControl _ => ("LoopBreak", [])

/-- What a handler can read of a fault. -/
def faultFields : Fault → String × List (String × Datum)
  | .thrown .. => ("ErrorRuntime", [])
  | .inCall name source _ _ =>
    ("ErrorInFunctionCall", [("function", .string name), ("source", .string source)])
  | .raised c _ => causeFields c

/-- The value that a handler gets: what was thrown, or a map that describes the fault. -/
def handed (f : Fault) : Datum :=
  match f.innermost with
  | .thrown payload _ => payload
  | _ =>
    let pos := f.position
    let (kind, details) := faultFields f
    let place :=
      if pos.isNone then []
      else [("line", Datum.int pos.line), ("position", Datum.int pos.column)]
    .map (Fields.ofList
      ([("message", Datum.string (f.withPosition .none).text)] ++ place ++
        [("error", Datum.string kind)] ++ details))

/-- The handler of a fault; a handler that throws nothing throws the fault again. -/
def handle (ev : Evaluator ω) (f : Fault) (name : Option String) (handler : List Stmt) :
    Run ω Datum :=
  let run : Run ω Datum := do
    match name with
    | some n => .update (Machine.declare n false (.own (handed f)))
    | none => pure ()
    let _ ← blockRule ev handler
    pure .unit
  (run.afterwards fun before after => after.rewind before.locals.length).mapFault fun
    | .thrown payload pos => if payload.isUnit then f.withPosition pos else .thrown payload pos
    | other => other

/-- Statements with a handler for their faults. -/
def guardedRule (ev : Evaluator ω) (body : List Stmt) (name : Option String)
    (handler : List Stmt) : Run ω Datum := fun m =>
  match blockRule ev body m with
  | (.value _, m) => (.value .unit, m)
  | (.fault f, m) => if f.isSystem then (.fault f, m) else handle ev f name handler m
  | (.jump j, m) => (.jump j, m)
  | (.exhausted, m) => (.exhausted, m)

/-! ## The value of a statement -/

/-- The value of an optional expression; the empty value without it. -/
def optionalValue (ev : Evaluator ω) : Option Expr → Run ω Datum
  | none => pure .unit
  | some x => return (← ev.expression x).unshared

/-- The value of a statement, which has been counted. -/
def actionRule (e : Engine ω) (ev : Evaluator ω) (s : Stmt) : Run ω Datum :=
  match s with
  | .noop _ => pure .unit
  | .expr x => return (← ev.expression x).unshared
  | .callOnly x => valueRule e ev x
  | .block body _ => blockRule ev body
  | .assign op pos place value => assignRule e ev op pos place value
  | .declare name isConstant replaces value _ => do
    let d := (← ev.expression value).unshared
    if replaces then .update (Machine.replace name isConstant d)
    else .update (Machine.declare name isConstant (.own d))
    pure .unit
  | .choose condition body _ other _ _ => do
    if ← asBool (← ev.expression condition) condition.position then blockRule ev body
    else blockRule ev other
  | .select subject cases otherwise _ => selectRule ev subject cases otherwise
  | .whileLoop condition body bodyPos _ => whileRule e ev condition body bodyPos
  | .doLoop body condition goOn _ _ => doRule ev body condition goOn
  | .forLoop name counter source body bodyPos _ => forRule e ev name counter source body bodyPos
  | .next _ => .jump .next
  | .leave value _ => do .jump (.leave (← optionalValue ev value))
  | .ret value _ => do .jump (.ret (← optionalValue ev value))
  | .throw value pos => do .fault (.thrown (← optionalValue ev value) pos)
  | .guarded body _ name handler _ _ => guardedRule ev body name handler
  | .useModule path _ => do
    let name ← textArgument (← ev.expression path) path.startPosition
    .raise (.moduleNotFound name) path.startPosition
  | .release name namePos _ => do
    if ((← .machine).lookup? name).isSome then pure .unit
    else .raise (.variableNotFound name) namePos
  | .share names => do
    .update fun m => names.foldl (fun m (name, _) => m.share name) m
    pure .unit

/-- The value of a statement. -/
def statementRule (e : Engine ω) (ev : Evaluator ω) (s : Stmt) : Run ω Datum := do
  tick e s.position
  actionRule e ev s

end ScriptHost.Script.Evaluation
