import ScriptHost.Script.Simplification.Basic
import ScriptHost.Script.Word

/-!
# Simplification of expressions

Constant operands are computed where the language itself knows the operator and the result is no
fault. An item of a literal whose other items are pure takes the place of the literal and its index.
-/

namespace ScriptHost.Script.Simplification

/-! ## Texts -/

/-- Join segments: literal texts that follow each other are one, and empty ones are left out. -/
def joinedSegments : List Expr → List Expr × Bool
  | [] => ([], false)
  | x :: rest =>
    let (others, hasChanged) := joinedSegments rest
    match x, others with
    | .literal (.string a) pos, .literal (.string b) _ :: more =>
      (.literal (.string (a ++ b)) pos :: more, true)
    | x, .literal .unit _ :: more => (x :: more, true)
    | .literal .unit _, y :: more => (y :: more, true)
    | x, .literal (.string "") _ :: more => (x :: more, true)
    | .literal (.string "") _, y :: more => (y :: more, true)
    | x, others => (x :: others, hasChanged)

/-- A text made of segments. -/
def interpolatedRule (s : Simplifier) (segments : List Expr) (pos : Position) : Pass Expr := do
  match (Expr.interpolated segments pos).constant? with
  | some d => changed (.literal d pos)
  | none => do
    let (segments, hasChanged) := joinedSegments (← segments.mapM s.expression)
    if hasChanged then changed (.interpolated segments pos) else pure (.interpolated segments pos)

/-! ## Conditions -/

/-- The expressions up to the first one of a kind. -/
def upTo (isLast : Expr → Bool) : List Expr → List Expr
  | [] => []
  | x :: rest => if isLast x then [x] else x :: upTo isLast rest

/-- Operands of which some decide nothing and one decides all. -/
def decided (s : Simplifier) (operands : List Expr) (isIdle decides : Expr → Bool) (none : Expr)
    (rebuild : List Expr → Expr) : Pass Expr := do
  let xs ← operands.mapM s.expression
  let left := upTo decides (xs.filter (!isIdle ·))
  match left with
  | [] => changed none
  | [x] => changed x
  | left => if left.length < xs.length then changed (rebuild left) else pure (rebuild left)

/-! ## Paths -/

/-- A literal with a part in its place. -/
def partOfLiteral? (root : Expr) (link : Link) : Option Expr :=
  match root, link with
  | .map fields pos, .property name _ _ _ => field? fields pos name
  | .map fields pos, .index (.literal (.string name) _) _ _ => field? fields pos name
  | .array items pos, .index (.literal (.int i) _) _ _ =>
    if arePure items then
      (ordinal? items.length i).bind fun n => (items[n]?).map (·.withPosition pos)
    else none
  | .literal (.int n) pos, .index (.literal (.int i) _) _ _ =>
    (ordinal? 64 i).map fun k => .literal (.bool ((n % 2 ^ 64).toNat.testBit k)) pos
  | .literal (.string s) pos, .index (.literal (.int i) _) _ _ =>
    let cs := s.toList
    (ordinal? cs.length i).bind fun n => (cs[n]?).map fun c => .literal (.char c) pos
  | root, .method "type_of" [] _ _ pos =>
    root.constant?.map fun d => .literal (.string d.scriptTypeName) pos
  | root, .method "is_shared" [] _ _ pos => root.constant?.map fun _ => .literal (.bool false) pos
  | _, _ => none
where
  /-- The position of an index within a size, counted from the end if it is negative. -/
  ordinal? (size : Nat) (i : Int) : Option Nat :=
    if 0 ≤ i then (if i < size then some i.toNat else none)
    else if i.natAbs ≤ size then some (size - i.natAbs) else none
  /-- The field of a literal map that is otherwise pure. -/
  field? (fields : List (String × Expr)) (pos : Position) (name : String) : Option Expr :=
    if areFieldsPure fields then
      some (match fields.find? (·.1 == name) with
        | some (_, x) => x.withPosition pos
        | none => .literal .unit pos)
    else none

/-- A link with its arguments simplified. -/
def linkRule (s : Simplifier) : Link → Pass Link
  | .property name o p q => pure (.property name o p q)
  | .method name args o p q => return .method name (← arguments s args) o p q
  | .index key o p => return .index (← s.expression key) o p

/-- A value and what is reached from it. -/
def chainRule (s : Simplifier) (root : Expr) (links : List Link) : Pass Expr := do
  let whole : Pass Expr := do
    match root with
    | .var .. | .this _ => return .chain root (← links.mapM (linkRule s))
    | root => return .chain (← s.expression root) (← links.mapM (linkRule s))
  match links with
  | link :: rest =>
    if link.isOptional && root.isUnit then changed root
    else
      match rest, partOfLiteral? root link with
      | [], some x => changed x
      | _, _ => whole
  | [] => whole

/-! ## Calls -/

/-- Calls that are never computed ahead. -/
def effectWords : List String := ["print", "debug", "eval", "is_def_fn", "is_def_var"]

/-- The value of a call on constants that is known ahead. -/
def constantCall? (name : String) (args : List Expr) : Option Datum :=
  match name, args.map Expr.constant? with
  | "Fn", [some (.string f)] => if isFunctionName f then some (.fnPtr f []) else none
  | "type_of", [some d] => some (.string d.scriptTypeName)
  | "is_shared", [some _] => some (.bool false)
  | "curry", some (.fnPtr f curried) :: y :: rest =>
    ((y :: rest).mapM id).map fun ds => .fnPtr f (curried ++ ds.map .value)
  | _, _ => none

/-- A call by name. -/
def callRule (s : Simplifier) (name : String) (args : List Expr) (inScope : Bool)
    (pos : Position) : Pass Expr := do
  if name == "eval" then do
    modify fun p => { p with propagates := false }
    return .call name args inScope pos
  else
    match constantCall? name args with
    | some d => changed (.literal d pos)
    | none =>
      if effectWords.contains name then return .call name (← args.mapM s.expression) inScope pos
      else return .call name (← arguments s args) inScope pos

/-- An operator. -/
def operatorRule (s : Simplifier) (symbol : String) (operands : List Expr) (pos : Position) :
    Pass Expr := do
  match operands.map Expr.constant? with
  | [some a, some b] =>
    match Operator.binary? symbol a b with
    | some (.ok d) => changed (.literal d pos)
    | _ => return .operator symbol (← arguments s operands) pos
  | _ => return .operator symbol (← arguments s operands) pos

/-! ## All expressions -/

/-- Simplify an expression. -/
def expressionRule (s : Simplifier) (x : Expr) : Pass Expr := do
  match x with
  | .block [] pos => changed (.literal .unit pos)
  | .block [.expr e] _ => do
    let e ← s.expression e
    changed e
  | .block body pos => do
    match ← s.body ⟨true, true, false⟩ body with
    | [.expr e] => changed e
    | body => pure (.block body pos)
  | .chain root links => chainRule s root links
  | .interpolated segments pos => interpolatedRule s segments pos
  | .array items pos =>
    match x.constant? with
    | some d => changed (.literal d pos)
    | none => return .array (← items.mapM s.expression) pos
  | .map fields pos =>
    match x.constant? with
    | some d => changed (.literal d pos)
    | none => return .map (← fields.mapM fun p => return (p.1, ← s.expression p.2)) pos
  | .all operands pos =>
    decided s operands (·.isBool true) (·.isBool false) (.literal (.bool true) pos) (.all · pos)
  | .any operands pos =>
    decided s operands (·.isBool false) (·.isBool true) (.literal (.bool false) pos) (.any · pos)
  | .coalesce operands pos =>
    decided s operands Expr.isUnit Expr.isConstant (.literal .unit pos) (.coalesce · pos)
  | .call name args inScope pos => callRule s name args inScope pos
  | .operator symbol operands pos => operatorRule s symbol operands pos
  | .var name _ pos =>
    let p ← get
    match constantOf? name p with
    | some d => if p.propagates then changed (.literal d pos) else pure x
    | none => pure x
  | x => pure x

end ScriptHost.Script.Simplification
