import ScriptHost.Script.Grammar.Expression

/-!
# Statements

The rules for statements, functions and whole scripts. Statements that end in a block need no
semicolon after them.
-/

namespace ScriptHost.Script.Grammar

open Parser

/-! ## Blocks -/

/-- The next statement of a block, or the end of the block. -/
def nextInBlock (g : Grammar) (c : Context) (body : List Stmt) :
    Parser (List Stmt ⊕ List Stmt) := do
  let t ← peek
  match t.token with
  | .mark "\x7d" => do
    let _ ← next
    pure (.inr body)
  | .eof => missing "\x7d" "to terminate this block" t.pos
  | _ => do
    let s ← g.statement c
    if s.isNoop then pure (.inl body)
    else
      let body := body ++ [s]
      let t ← peek
      match t.token with
      | .mark "\x7d" => do
        let _ ← next
        pure (.inr body)
      | .mark ";" => do
        let _ ← next
        pure (.inl body)
      | token =>
        if s.isSelfTerminated then pure (.inl body)
        else
          match token with
          | .fault problem => fail problem t.pos
          | _ => missing ";" "to terminate this statement" t.pos

/-- The rule for a block in braces. -/
def blockRule (g : Grammar) (c : Context) : Parser (List Stmt × Position) := do
  let start ← expect "\x7b" "to start a statement block"
  let c ← deeper { c with pos := start }
  inBlock do
    let body ← repeated (nextInBlock g { c with isTop := false }) []
    pure (body, start)

/-- An optional block with a name for a value in it. -/
def condition (g : Grammar) (c : Context) : Parser Expr := do
  notBlock "a boolean"
  let e ← asCondition (← g.expression c)
  notAssignment
  pure e

/-! ## Choices -/

/-- The rule for a choice. -/
def choiceRule (g : Grammar) (c : Context) : Parser Stmt := do
  let start ← next
  let c := { c with pos := start.pos }
  let e ← condition g c
  let (body, bodyPos) ← g.block c
  let (hasOther, _) ← accept "else"
  if hasOther then
    let t ← peek
    let (other, otherPos) ←
      if t.token.isMark "if" then (do pure (← g.choice c).asBlock) else g.block c
    pure (.choose e body bodyPos other otherPos start.pos)
  else pure (.choose e body bodyPos [] .none start.pos)

/-- Read a case value, in which a bar ends the expression. -/
def caseValue (g : Grammar) (c : Context) : Parser Expr := fun s =>
  match g.expression c { s with barEnds := true } with
  | .ok (e, t) => .ok (e, { t with barEnds := s.barEnds })
  | .error (_, pos) => .error (.expressionExpected "literal", pos)

/-- The values of a case, separated by bars. -/
def caseValues (g : Grammar) (c : Context) : Parser (List Expr) :=
  repeated (fun (values : List Expr) => do
    let values := values ++ [← caseValue g c]
    let (more, _) ← accept "|"
    pure (if more then .inl values else .inr values)) []

/-- Whether a value stands for a range with several numbers. -/
def isRange : Datum → Bool
  | .range .. => true
  | .rangeInclusive .. => true
  | _ => false

/-- How many numbers a range may have to be spelled out. -/
def spelledOut : Nat := 16

/-- The numbers of a range, from its first one. -/
def rangeNumbers (low : Int) (count : Nat) : List Datum :=
  (List.range count).map fun (i : Nat) => .int (low + i)

/-- A small range is its numbers, unless another range comes before it; an empty range matches
nothing. -/
def casePatterns (afterRange : Bool) : Datum → List Datum
  | .range a b => spelled a (b - a).toNat (.range a b)
  | .rangeInclusive a b => spelled a (b - a + 1).toNat (.rangeInclusive a b)
  | d => [d]
where
  /-- The patterns of a range of so many numbers. -/
  spelled (low : Int) (count : Nat) (whole : Datum) : List Datum :=
    if count == 0 then []
    else if !afterRange && count ≤ spelledOut then rangeNumbers low count
    else [whole]

/-- Whether a case has a range. -/
def hasRange (cases : List Case) : Bool := cases.any fun c => c.patterns.any isRange

/-- The patterns of a case after other cases. -/
def checkedPatterns (cases : List Case) (values : List Expr) : Parser (List Datum) :=
  values.foldlM (fun patterns e =>
    match e.value? with
    | none => fail (.expressionExpected "a literal") e.startPosition
    | some d =>
      let afterRange := hasRange cases || patterns.any isRange
      match d with
      | .int _ =>
        if afterRange then fail .numberAfterRange e.startPosition else pure (patterns ++ [d])
      | d => pure (patterns ++ casePatterns afterRange d)) []

/-- A choice by value. -/
def selection (g : Grammar) (c : Context) : Parser Stmt := do
  let start ← next
  let c := { c with pos := start.pos }
  let subject ← g.expression c
  let _ ← expect "\x7b" "to start a switch block"
  let unclosed := "to end this switch block"
  repeated (fun ((cases, otherwise) : List Case × Option (Expr × Position)) => do
    let t ← peek
    match t.token, otherwise with
    | .mark "\x7d", _ => do
      let _ ← next
      pure (.inr (.select subject cases (otherwise.map (·.1)) start.pos))
    | .eof, _ => missing "\x7d" unclosed t.pos
    | _, some (_, pos) => fail .caseAfterDefault pos
    | token, none => do
      let isDefault := token.isMark "_"
      let (values, guard) ←
        if isDefault then do
          let _ ← next
          let (hasGuard, pos) ← accept "if"
          if hasGuard then fail .conditionalDefault pos
          else pure ([], Expr.literal (.bool true) .none)
        else do
          let values ← caseValues g c
          let (hasGuard, _) ← accept "if"
          let guard ← if hasGuard then condition g c else pure (Expr.literal (.bool true) .none)
          pure (values, guard)
      let _ ← expect "=>" "in this switch case"
      let s ← g.statement c
      let (body, bodyPos) := s.asBlock
      let action := Expr.block body bodyPos
      let state ←
        if isDefault then pure (cases, some (action, t.pos))
        else do pure (cases ++ [.mk (← checkedPatterns cases values) guard action], none)
      let t ← peek
      match t.token with
      | .mark "," => do
        let _ ← next
        pure (.inl state)
      | .mark "\x7d" => pure (.inl state)
      | .eof => missing "\x7d" unclosed t.pos
      | .fault problem => fail problem t.pos
      | _ =>
        if s.isSelfTerminated then pure (.inl state)
        else missing "," "to separate the items in this switch block" t.pos) ([], none)

/-! ## Loops -/

/-- A loop with its condition in front, or with none. -/
def whileLoop (g : Grammar) (c : Context) : Parser Stmt := do
  let start ← next
  let e ← if start.token.isMark "while" then condition g c else pure (.literal .unit .none)
  let (body, bodyPos) ← g.block { c with pos := start.pos, inLoop := true }
  pure (.whileLoop e body bodyPos start.pos)

/-- A loop with its condition at the end. -/
def doLoop (g : Grammar) (c : Context) : Parser Stmt := do
  let start ← next
  let c := { c with pos := start.pos }
  let (body, bodyPos) ← g.block { c with inLoop := true }
  let t ← next
  let goOn ←
    if t.token.isMark "while" then pure true
    else if t.token.isMark "until" then pure false
    else missing "while" "for the do statement" t.pos
  let e ← condition g c
  pure (.doLoop body e goOn bodyPos start.pos)

/-- The names of the item and of the counter of a loop. -/
def loopNames : Parser (String × Option String) := do
  let (hasCounter, _) ← accept "("
  if hasCounter then
    let (name, _) ← declaredName
    let (found, pos) ← accept ","
    if !found then missing "," "after the iteration variable name" pos
    else
      let (counter, counterPos) ← declaredName
      if counter == name then fail (.duplicateVariable counter) counterPos
      else
        let (found, pos) ← accept ")"
        if !found then missing ")" "to close the iteration variable" pos
        else pure (name, some counter)
  else
    let (name, _) ← declaredName
    pure (name, none)

/-- A loop over items. -/
def forLoop (g : Grammar) (c : Context) : Parser Stmt := do
  let start ← next
  let c := { c with pos := start.pos }
  let (name, counter) ← loopNames
  let _ ← expect "in" "after the iteration variable"
  notBlock "a boolean"
  let items ← g.expression c
  match itemsKind? items with
  | some kind => fail (.mismatch "an iterable value" kind) items.startPosition
  | none => do
    let before := (← get).declared.length
    match counter with
    | some counter => declare counter false
    | none => pure ()
    declare name false
    let (body, bodyPos) ← g.block { c with inLoop := true }
    forget before
    pure (.forLoop name counter items body bodyPos start.pos)

/-! ## Declarations -/

/-- Declare the variable of a statement; tells whether it takes the place of one in this block. -/
def declareInBlock (name : String) (isConstant : Bool) : Parser Bool := fun s =>
  let inner := s.declared.take (s.declared.length - s.outer)
  if inner.any (·.name == name) then
    match s.declared.findIdx? (·.name == name) with
    | some i => .ok (true, { s with declared := s.declared.set i ⟨name, isConstant⟩ })
    | none => .ok (true, s)
  else .ok (false, { s with declared := ⟨name, isConstant⟩ :: s.declared })

/-- A declaration. -/
def declaration (g : Grammar) (c : Context) (isConstant : Bool) : Parser Stmt := do
  let start ← next
  let c := { c with pos := start.pos }
  let (name, _) ← declaredName
  let (hasValue, _) ← accept "="
  let value ← if hasValue then (do g.expression (← deeper c)) else pure (.literal .unit .none)
  let replaces ← declareInBlock name isConstant
  pure (.declare name isConstant replaces value start.pos)

/-- The use of a module. -/
def moduleUse (g : Grammar) (c : Context) : Parser Stmt := do
  let start ← next
  let path ← g.expression { c with pos := start.pos }
  let (isNamed, _) ← accept "as"
  if isNamed then
    let _ ← declaredName
  pure (.useModule path start.pos)

/-- The release of a variable to other scripts. -/
def release (g : Grammar) (c : Context) : Parser Stmt := do
  let start ← next
  let c := { c with pos := start.pos }
  let t ← peek
  if t.token.isMark "let" then do declaration g (← deeper c) false
  else if t.token.isMark "const" then do declaration g (← deeper c) true
  else
    let (name, namePos) ← declaredName
    let (isNamed, _) ← accept "as"
    if isNamed then
      let _ ← declaredName
    pure (.release name namePos start.pos)

/-! ## Functions -/

/-- The parameters of a function, after the opening parenthesis. -/
def parameters (function : String) : Parser (List String) :=
  repeated (nextParameter ")" function
    ("to close the parameters list of function '" ++ function ++ "'")
    ("to separate the parameters of function '" ++ function ++ "'")) []

/-- The name of a function. -/
def functionName : Parser String := do
  let t ← next
  match t.token with
  | .name s => pure s
  | .reserved s => fail (.reserved s) t.pos
  | _ => fail .functionName t.pos

/-- The parameters of a function in parentheses. -/
def parameterList (function : String) : Parser (List String) := do
  let t ← peek
  if t.token.isMark "(" then
    let _ ← next
    parameters function
  else if t.token.isMark "()" then
    let _ ← next
    pure []
  else fail (.functionParameters function) t.pos

/-- A function, after the word for it. -/
def function (g : Grammar) (c : Context) : Parser Function := do
  let name ← functionName
  let params ← parameterList name
  let t ← peek
  if t.token.isMark "\x7b" then
    let (body, _) ← g.block (← deeper c)
    pure ⟨name, params, body⟩
  else fail (.functionBody name) t.pos

/-- Keep a function; a second one of its name and arity is a fault. -/
def keepFunction (f : Function) (pos : Position) : Parser Unit := fun s =>
  if s.functions.any fun h => h.name == f.name && h.params.length == f.params.length then
    .error (.duplicateFunction f.name f.params.length, pos)
  else .ok ((), { s with functions := f :: s.functions })

/-- The definition of a function. -/
def definition (g : Grammar) (c : Context) : Parser Stmt := do
  let (isPrivate, _) ← accept "private"
  let t ← next
  if !t.token.isMark "fn" then
    if isPrivate then missing "fn" "following 'private'" t.pos
    else fail (.unexpected t.token.text) t.pos
  else
    let c : Context :=
      { limits := c.limits, maxLevel := c.limits.maxFunctionExprDepth, pos := t.pos,
        inFunction := true }
    let (f, _) ← enclosed (function g c)
    keepFunction f t.pos
    pure (.noop t.pos)

/-! ## Assignments -/

/-- The marks of assignments, with the operator that each applies. -/
def assignmentOperator? : Token → Option (Option String)
  | .mark "=" => some none
  | .mark s =>
    if ["+=", "-=", "*=", "/=", "%=", "**=", "<<=", ">>=", "&=", "|=", "^="].contains s then
      some (some (String.ofList s.toList.dropLast))
    else none
  | _ => none

/-- The first step of a chain that is no place: a method call. -/
def badStep? : List Link → Option Position
  | [] => none
  | .method _ _ _ _ pos :: _ => some pos
  | _ :: rest => badStep? rest

/-- An assignment to a place. -/
def assignment (op : Option String) (opPos : Position) (place value : Expr) : Parser Stmt := do
  let result := Stmt.assign op opPos place value
  if place.isConstant then fail (.constantAssignment "") place.startPosition
  else
    match place with
    | .this _ => pure result
    | .var name known pos =>
      if known then
        match ← declaration? name with
        | some ⟨_, true⟩ => fail (.constantAssignment name) pos
        | _ => pure result
      else pure result
    | .chain root links =>
      match badStep? links, root with
      | some pos, _ => fail (.invalidPlace "") pos
      | none, .var .. => pure result
      | none, .this _ => pure result
      | none, e => fail (.invalidPlace "") e.position
    | .all .. | .any .. | .coalesce .. =>
      if op.isNone then fail comparisonAdvice opPos else fail (.invalidPlace "") place.position
    | e => fail (.invalidPlace "") e.position

/-- An expression, or an assignment to it. -/
def expressionStatement (g : Grammar) (c : Context) : Parser Stmt := do
  let t ← peek
  let c := { c with pos := t.pos }
  let e ← g.expression c
  let t ← peek
  match assignmentOperator? t.token with
  | none => pure (.expr e)
  | some op => do
    let _ ← next
    let value ← g.expression { c with pos := t.pos }
    assignment op t.pos e value

/-! ## Statements -/

/-- The end of a function, or a fault made by the script. -/
def departure (g : Grammar) (c : Context) : Parser Stmt := do
  let start ← next
  let make (value : Option Expr) : Stmt :=
    if start.token.isMark "return" then .ret value start.pos else .throw value start.pos
  let t ← peek
  match t.token, c.isTop with
  | .eof, _ => pure (make none)
  | .mark ";", _ => pure (make none)
  | .mark "\x7d", false => pure (make none)
  | _, _ => do
    let e ← g.expression (← deeper c)
    pure (make (some e))

/-- The end of a loop. -/
def leave (g : Grammar) (c : Context) : Parser Stmt := do
  let start ← next
  let t ← peek
  match t.token with
  | .eof => pure (.leave none start.pos)
  | .mark ";" => pure (.leave none start.pos)
  | .mark "\x7d" => pure (.leave none start.pos)
  | _ => do
    let e ← g.expression (← deeper c)
    pure (.leave (some e) start.pos)

/-- Statements with a handler for their faults. -/
def guarded (g : Grammar) (c : Context) : Parser Stmt := do
  let start ← next
  let c := { c with pos := start.pos }
  let (body, bodyPos) ← g.block c
  let (found, pos) ← accept "catch"
  if !found then missing "catch" "for the 'try' statement" pos
  else
    let (isNamed, _) ← accept "("
    let before := (← get).declared.length
    let name ←
      if isNamed then do
        let (name, _) ← declaredName
        let (found, pos) ← accept ")"
        if !found then missing ")" "to enclose the catch variable" pos
        else
          declare name false
          pure (some name)
      else pure none
    let (handler, handlerPos) ← g.block c
    forget before
    pure (.guarded body bodyPos name handler handlerPos start.pos)

/-- The rule for a statement. -/
def statementRule (g : Grammar) (c : Context) : Parser Stmt := do
  let t ← peek
  let c := { c with pos := t.pos }
  match t.token with
  | .eof => pure (.noop t.pos)
  | .mark ";" => do
    let _ ← next
    pure (.noop t.pos)
  | .mark "\x7b" => do
    let (body, pos) ← g.block (← deeper c)
    pure (.block body pos)
  | .mark "fn" => if c.isTop then definition g c else fail .nestedFunction t.pos
  | .mark "private" => if c.isTop then definition g c else fail (.unexpected "private") t.pos
  | .mark "if" => do g.choice (← deeper c)
  | .mark "switch" => do selection g (← deeper c)
  | .mark "while" => do whileLoop g (← deeper c)
  | .mark "loop" => do whileLoop g (← deeper c)
  | .mark "do" => do doLoop g (← deeper c)
  | .mark "for" => do forLoop g (← deeper c)
  | .mark "continue" =>
    if c.inLoop then do
      let _ ← next
      pure (.next t.pos)
    else fail .outsideLoop t.pos
  | .mark "break" => if c.inLoop then leave g c else fail .outsideLoop t.pos
  | .mark "return" => departure g c
  | .mark "throw" => departure g c
  | .mark "try" => do guarded g (← deeper c)
  | .mark "let" => do declaration g (← deeper c) false
  | .mark "const" => do declaration g (← deeper c) true
  | .mark "import" => do moduleUse g (← deeper c)
  | .mark "export" => do if c.isTop then release g (← deeper c) else fail .nestedExport t.pos
  | _ => do expressionStatement g (← deeper c)

/-- The next statement of a script, or the end of the script. -/
def nextInScript (g : Grammar) (c : Context) (body : List Stmt) :
    Parser (List Stmt ⊕ List Stmt) := do
  let t ← peek
  match t.token with
  | .eof => pure (.inr body)
  | _ => do
    let s ← g.statement c
    if s.isNoop then pure (.inl body)
    else
      let body := body ++ [s]
      let t ← peek
      match t.token with
      | .eof => pure (.inl body)
      | .mark ";" => do
        if !s.isSelfTerminated then
          let _ ← next
        pure (.inl body)
      | token =>
        if s.isSelfTerminated then pure (.inl body)
        else
          match token with
          | .fault problem => fail problem t.pos
          | _ => missing ";" "to terminate this statement" t.pos

/-- The statements of a script. -/
def scriptRule (g : Grammar) (c : Context) : Parser (List Stmt) := repeated (nextInScript g c) []

end ScriptHost.Script.Grammar
