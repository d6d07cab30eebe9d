import ScriptHost.Script.Simplification.Basic
import ScriptHost.Script.Evaluation.Statement

/-!
# Simplification of statements

Branches on constants are decided, statements that are never reached are dropped, and so are pure
statements whose value is not used. Statements are simplified again until nothing changes.
-/

namespace ScriptHost.Script.Simplification

/-! ## Statements of a block -/

mutual

/-- The statements of blocks without variables of their own take the place of the blocks. -/
def flattened : List Stmt → List Stmt
  | [] => []
  | stmt :: rest => flattenedStmt stmt ++ flattened rest

/-- The statements that take the place of a statement. -/
def flattenedStmt : Stmt → List Stmt
  | .block body pos =>
    if body.any Stmt.dependsOnBlock then [.block body pos] else flattened body
  | stmt => [stmt]

end

/-- Whether a statement is a block without variables of its own. -/
def isOpenBlock : Stmt → Bool
  | .block body _ => !body.any Stmt.dependsOnBlock
  | _ => false

/-- The statements that may be reached. -/
def reached : List Stmt → List Stmt
  | [] => []
  | stmt :: rest => if stmt.endsFlow then [stmt] else stmt :: reached rest

/-- Whether a statement has to come after what is left in a block. -/
def isAnchor (isPure : Stmt → Bool) (stmt : Stmt) : Bool :=
  !isPure stmt ||
    match stmt with
    | .declare _ _ _ e _ => e.isConstant
    | .expr e => !e.isConstant
    | .useModule e _ => !e.isConstant
    | _ => false

/-- The position of the last anchor. -/
def lastAnchor (isPure : Stmt → Bool) (body : List Stmt) : Nat :=
  match body.reverse.findIdx? (isAnchor isPure) with
  | some n => body.length - n - 1
  | none => 0

/-- Drop pure statements whose value is not used. -/
def withoutPure (isPure : Stmt → Bool) (keepsValue : Bool) :
    (index anchor : Nat) → List Stmt → List Stmt
  | _, _, [] => []
  | index, anchor, stmt :: rest =>
    if keepsValue && rest.isEmpty then [stmt]
    else if isPure stmt && anchor ≤ index then withoutPure isPure keepsValue index anchor rest
    else if stmt.isPure then
      withoutPure isPure keepsValue index (if index < anchor then anchor - 1 else anchor) rest
    else stmt :: withoutPure isPure keepsValue (index + 1) anchor rest

/-- The end of statements whose value is used, last statement first: a return at the end of a
function is its value, and a pure statement without a value only hides the value before it. -/
def endedWithValue (isPure : Stmt → Bool) (endsFunction : Bool) :
    (bound : Nat) → List Stmt → List Stmt
  | 0, body => body
  | n + 1, body =>
    match body with
    | [] => []
    | .ret value pos :: rest =>
      if endsFunction then
        match value, rest with
        | none, [] => []
        | none, before :: _ =>
          if before.hasValue then endedWithValue isPure endsFunction n (.noop pos :: rest)
          else endedWithValue isPure endsFunction n rest
        | some e, rest => endedWithValue isPure endsFunction n (.expr e :: rest)
      else body
    | [stmt] => if !stmt.hasValue && isPure stmt then [] else body
    | stmt :: before :: rest =>
      if stmt.isNoop && before.hasValue then body
      else if !stmt.hasValue && isPure stmt then
        if before.hasValue then .noop stmt.position :: before :: rest
        else endedWithValue isPure endsFunction n (before :: rest)
      else body

/-- The end of statements whose value is not used, last statement first. -/
def endedWithout (isPure : Stmt → Bool) (endsFunction : Bool) : List Stmt → List Stmt
  | [] => []
  | .ret value pos :: rest =>
    let isIdle :=
      match value with
      | none => true
      | some e => e.isPure
    if endsFunction && isIdle then endedWithout isPure endsFunction rest
    else .ret value pos :: rest
  | stmt :: rest => if isPure stmt then endedWithout isPure endsFunction rest else stmt :: rest

/-- Simplify the statements of a block one by one. -/
def eachStatement (s : Simplifier) (keepsValue : Bool) : List Stmt → Pass (List Stmt)
  | [] => pure []
  | stmt :: rest => do
    let stmt ←
      match stmt with
      | .declare name isConstant replaces value pos => do
        let value ← s.expression value
        declare name (if isConstant then value.constant? else none)
        pure (Stmt.declare name isConstant replaces value pos)
      | stmt => s.statement keepsValue stmt
    return stmt :: (← eachStatement s keepsValue rest)

/-- Which statements without an effect a block may lose. -/
def isDroppable (purpose : Purpose) : Stmt → Bool :=
  if purpose.isInner then Stmt.isInternallyPure else Stmt.isPure

/-- The statements of a block that are needed. -/
def needed (purpose : Purpose) (body : List Stmt) : List Stmt :=
  let isPure := isDroppable purpose
  withoutPure isPure purpose.keepsValue 0 (lastAnchor isPure body) body

/-- Statements with the end that they need. -/
def ended (purpose : Purpose) (body : List Stmt) : List Stmt :=
  let isPure := isDroppable purpose
  if purpose.keepsValue then
    (endedWithValue isPure purpose.endsFunction (2 * body.length + 2) body.reverse).reverse
  else (endedWithout isPure purpose.endsFunction body.reverse).reverse

/-- Whether a last statement has been rewritten, so that another round may find more. -/
def isRewritten : (before after : Option Stmt) → Bool
  | some (.ret ..), some (.ret ..) => false
  | some (.ret ..), _ => true
  | some stmt, some (.noop _) => !stmt.isNoop
  | _, _ => false

/-- Simplify the statements of a block once. -/
def round (s : Simplifier) (purpose : Purpose) (body : List Stmt) : Pass (List Stmt) := do
  let before ← get
  let live := reached body
  let body' ← eachStatement s purpose.keepsValue live
  let kept := needed purpose body'
  let left := ended purpose kept
  let isShorter := live.length < body.length || left.length < body'.length
  let hasNewEnd :=
    purpose.keepsValue && left.length == kept.length && isRewritten kept.getLast? left.getLast?
  modify fun p =>
    { known := before.known, propagates := before.propagates,
      changed := p.changed || isShorter || hasNewEnd }
  pure left

/-- Simplify the statements of a block until nothing changes. -/
def repeatedly (step : List Stmt → Pass (List Stmt)) : Nat → List Stmt → Pass (List Stmt)
  | 0, body => pure body
  | n + 1, body => do
    modify fun p => { p with changed := false }
    let body ← step body
    if (← get).changed then do
      let body ← repeatedly step n body
      changed body
    else pure body

/-- Simplify the statements of a block. -/
def bodyRule (s : Simplifier) (purpose : Purpose) (body : List Stmt) : Pass (List Stmt) := do
  match body with
  | [] => pure []
  | body => do
    let before := (← get).changed || body.any isOpenBlock
    let body ← repeatedly (round s purpose) s.rounds (flattened body)
    modify fun p => { p with changed := p.changed || before }
    pure body

/-! ## Choices -/

/-- What the choice of a constant condition leaves. -/
def branch (s : Simplifier) (keepsValue : Bool) (body : List Stmt) (pos : Position) :
    Pass Stmt := do
  match ← s.body ⟨keepsValue, true, false⟩ body with
  | [] => changed (.noop pos)
  | body => changed (.block body pos)

/-- A choice. -/
def chooseRule (s : Simplifier) (keepsValue : Bool) (condition : Expr) (body : List Stmt)
    (bodyPos : Position) (other : List Stmt) (otherPos pos : Position) : Pass Stmt := do
  if body.isEmpty && other.isEmpty then
    let start := condition.startPosition
    let condition ← s.expression condition
    if keepsValue then changed (.block [.expr condition, .noop start] start)
    else changed (.expr condition)
  else
    match condition with
    | .literal (.bool false) pos =>
      if other.isEmpty then changed (.noop pos) else branch s keepsValue other otherPos
    | .literal (.bool true) _ => branch s keepsValue body bodyPos
    | condition => do
      let condition ← s.expression condition
      let body ← s.body ⟨keepsValue, true, false⟩ body
      let other ← s.body ⟨keepsValue, true, false⟩ other
      pure (.choose condition body bodyPos other otherPos pos)

/-- The statement of a case that is sure to be taken. -/
def taken (s : Simplifier) (action : Expr) : Pass Stmt := do
  let stmt ← s.statement true (.expr action)
  changed stmt

/-- The default action as statements. -/
def defaultBody (s : Simplifier) : Option Expr → Pass (List Stmt × Position)
  | none => pure ([], .none)
  | some action => return (← s.statement true (.expr action)).asBlock

/-- A case that is taken if its condition holds. -/
def perhapsTaken (s : Simplifier) (c : Case) (otherwise : Option Expr) (pos : Position) :
    Pass Stmt := do
  if c.condition.isBool true then taken s c.action
  else
    let condition ← s.expression c.condition
    let (other, otherPos) ← defaultBody s otherwise
    changed (.choose condition [.expr c.action] c.action.startPosition other otherPos pos)

/-- The ranges of the cases, each with its case. -/
def rangesOf (cases : List Case) : List (Datum × Case) :=
  cases.flatMap fun c =>
    (c.patterns.filter fun p =>
      match p with
      | .range .. | .rangeInclusive .. => true
      | _ => false).map (·, c)

/-- A case with condition and action simplified. -/
def caseRule (s : Simplifier) (c : Case) : Pass Case := do
  let condition ← s.expression c.condition
  let action ← s.expression c.action
  if condition.isBool false && !action.isUnit then
    changed (.mk c.patterns condition (.literal .unit action.position))
  else pure (.mk c.patterns condition action)

/-- A choice by a value that is known. -/
def selectKnown (s : Simplifier) (subject : Expr) (d : Datum) (cases : List Case)
    (otherwise : Option Expr) (pos : Position) : Pass Stmt := do
  let isSure (c : Case) : Bool := c.condition.isBool true
  let byDefault : Pass Stmt :=
    match otherwise with
    | some action => taken s action
    | none => changed (.block [] pos)
  let byRange : Pass Stmt := do
    let ranges := rangesOf cases
    let found := ranges.filter fun r => Evaluation.inPattern d r.1
    if ranges.isEmpty then byDefault
    else if ranges.length == 1 || ranges.all fun r => isSure r.2 then
      match found with
      | r :: _ => perhapsTaken s r.2 otherwise subject.startPosition
      | [] => byDefault
    else
      let kept ← found.mapM fun r => caseRule s (.mk [r.1] r.2.condition r.2.action)
      if found.length < cases.length then
        changed (.select subject kept otherwise pos)
      else pure (.select subject kept otherwise pos)
  match cases.filter fun c => c.patterns.any (Evaluation.same d) with
  | [c] => perhapsTaken s c otherwise subject.startPosition
  | found =>
    match found.find? isSure with
    | some c => taken s c.action
    | none => byRange

/-- A choice by value. -/
def selectRule (s : Simplifier) (subject : Expr) (cases : List Case) (otherwise : Option Expr)
    (pos : Position) : Pass Stmt := do
  match subject.constant? with
  | some d => selectKnown s subject d cases otherwise pos
  | none => do
    let subject ← s.expression subject
    let cases ← cases.mapM (caseRule s)
    let kept := cases.filter fun c => !c.condition.isBool false
    let otherwise ← otherwise.mapM s.expression
    let stmt := Stmt.select subject kept otherwise pos
    if kept.length < cases.length then changed stmt else pure stmt

/-! ## All statements -/

/-- Operators that an assignment can be combined with. -/
def assignOperators : List String :=
  ["+", "-", "*", "/", "%", "**", "<<", ">>", "&", "|", "^"]

/-- A statement for an expression: a call stands for itself. -/
def ofExpression : Expr → Stmt
  | .call name args inScope pos => .callOnly (.call name args inScope pos)
  | .operator symbol operands pos => .callOnly (.operator symbol operands pos)
  | e => .expr e

/-- An assignment. -/
def assignRule (s : Simplifier) (op : Option String) (opPos : Position) (place value : Expr) :
    Pass Stmt := do
  match op, place, value with
  | none, .var name _ _, .operator symbol [.var other _ _, x] pos =>
    if name == other && assignOperators.contains symbol then
      changed (.assign (some symbol) pos place x)
    else return .assign op opPos place (← s.expression value)
  | op, .var .., value => return .assign op opPos place (← s.expression value)
  | op, place, value => do
    let place ← s.expression place
    return .assign op opPos place (← s.expression value)

/-- Simplify a statement. -/
def statementRule (s : Simplifier) (keepsValue : Bool) (stmt : Stmt) : Pass Stmt := do
  let inner (keepsValue : Bool) : Purpose := ⟨keepsValue, true, false⟩
  match stmt with
  | .assign op opPos place value => assignRule s op opPos place value
  | .choose condition body bodyPos other otherPos pos =>
    chooseRule s keepsValue condition body bodyPos other otherPos pos
  | .select subject cases otherwise pos => selectRule s subject cases otherwise pos
  | .whileLoop condition body bodyPos pos =>
    match condition with
    | .literal (.bool false) pos => changed (.noop pos)
    | condition => do
      let condition ← s.expression condition
      let condition :=
        match condition with
        | .literal (.bool true) p => Expr.literal .unit p
        | e => e
      return .whileLoop condition (← s.body (inner false) body) bodyPos pos
  | .doLoop body condition goOn bodyPos pos => do
    let condition ← s.expression condition
    return .doLoop (← s.body (inner false) body) condition goOn bodyPos pos
  | .forLoop name counter items body bodyPos pos => do
    let items ← s.expression items
    return .forLoop name counter items (← s.body (inner false) body) bodyPos pos
  | .useModule path pos => return .useModule (← s.expression path) pos
  | .block body pos => do
    match ← s.body (inner keepsValue) body with
    | [] => changed (.noop pos)
    | [only] => if only.dependsOnBlock then pure (.block [only] pos) else changed only
    | body => pure (.block body pos)
  | .guarded body bodyPos name handler handlerPos pos =>
    if isBodyPure body then do
      let body ← s.body (inner false) body
      changed (.block body bodyPos)
    else do
      let body ← s.body (inner false) body
      return .guarded body bodyPos name (← s.body (inner false) handler) handlerPos pos
  | .expr (.block [] pos) => changed (.noop pos)
  | .expr (.block body pos) => do
    let body ← s.body (inner keepsValue) body
    changed (.block body pos)
  | .expr (.call name args inScope pos) => changed (.callOnly (.call name args inScope pos))
  | .expr (.operator symbol operands pos) => changed (.callOnly (.operator symbol operands pos))
  | .expr e => return .expr (← s.expression e)
  | .callOnly e => return ofExpression (← s.expression e)
  | .leave (some e) pos => return .leave (some (← s.expression e)) pos
  | .ret (some e) pos => return .ret (some (← s.expression e)) pos
  | .throw (some e) pos => return .throw (some (← s.expression e)) pos
  | .share names => do
    let p ← get
    if names.isEmpty then changed (.noop .none)
    else if p.propagates then
      let kept := names.filter fun n => (constantOf? n.1 p).isNone
      if kept.length < names.length then changed (.share kept) else pure stmt
    else pure stmt
  | stmt => pure stmt

end ScriptHost.Script.Simplification
