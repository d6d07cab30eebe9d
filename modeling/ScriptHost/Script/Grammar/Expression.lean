import ScriptHost.Script.Grammar.Basic

/-!
# Expressions

The rules for expressions. Operators are bound by precedence; what follows an operand (calls,
indices and properties) is collected into one chain.
-/

namespace ScriptHost.Script.Grammar

open Parser

/-- How strongly a mark binds as an operator; 0 if it is none. -/
def precedence : Token → Nat
  | .mark s =>
    if ["||", "^", "|"].contains s then 30
    else if ["&&", "&"].contains s then 60
    else if ["==", "!="].contains s then 90
    else if ["in", "!in"].contains s then 110
    else if ["<", "<=", ">", ">="].contains s then 130
    else if s == "??" then 135
    else if ["..", "..="].contains s then 140
    else if ["+", "-"].contains s then 150
    else if ["*", "/", "%"].contains s then 180
    else if s == "**" then 190
    else if ["<<", ">>"].contains s then 210
    else 0
  | _ => 0

/-- Whether an operator binds to the right. -/
def bindsRight (t : Token) : Bool := t.isMark "**"

/-- How strongly the next token binds; a symbol that is no operator is a fault. -/
def nextPrecedence (t : Placed) : Parser Nat :=
  match t.token with
  | .reserved s => if isIdentifier s then pure 0 else fail (.unknownOperator s) t.pos
  | token => pure (precedence token)

/-- Whether a token ends an expression in a list of cases. -/
def endsCase (t : Token) : Parser Bool := fun s => .ok (s.barEnds && t.isMark "|", s)

/-! ## Operators -/

/-- An expression with a sign in front. -/
def negated (pos : Position) : Expr → Expr
  | .literal (.int i) _ =>
    if i == minInt64 then .literal (.float (-(Float.ofInt i))) pos else .literal (.int (-i)) pos
  | .literal (.float x) _ => .literal (.float (-x)) pos
  | e => .operator "-" [e] pos

/-- Join an operand to others of the same kind. -/
def joinAll (lhs rhs : Expr) (pos : Position) : Expr :=
  match lhs with
  | .all es p => .all (es ++ [rhs]) p
  | e => .all [e, rhs] pos

/-- Join an operand to others of the same kind. -/
def joinAny (lhs rhs : Expr) (pos : Position) : Expr :=
  match lhs with
  | .any es p => .any (es ++ [rhs]) p
  | e => .any [e, rhs] pos

/-- Join an operand to others of the same kind. -/
def joinCoalesce (lhs rhs : Expr) (pos : Position) : Expr :=
  match lhs with
  | .coalesce es p => .coalesce (es ++ [rhs]) p
  | e => .coalesce [e, rhs] pos

/-- An operator between two operands. Membership asks the container. -/
def combined (op : Token) (pos : Position) (lhs rhs : Expr) : Parser Expr :=
  match op with
  | .mark "||" => do pure (joinAny (← asCondition lhs) (← asCondition rhs) pos)
  | .mark "&&" => do pure (joinAll (← asCondition lhs) (← asCondition rhs) pos)
  | .mark "??" => pure (joinCoalesce lhs rhs pos)
  | .mark "in" => pure (.operator "in" [rhs, lhs] pos)
  | .mark "!in" => pure (.operator "!" [.operator "in" [rhs, lhs] pos] pos)
  | t => pure (.operator t.text [lhs, rhs] pos)

/-- The rule for an operand with the operators in front of it. -/
def operandRule (g : Grammar) (c : Context) : Parser Expr := do
  let t ← peek
  if ← endsCase t.token then fail (.unexpected t.token.text) t.pos
  else
    let c := { c with pos := t.pos }
    match t.token with
    | .mark "-" => do
      let _ ← next
      let e ← g.operand (← deeper c)
      pure (negated t.pos e)
    | .mark "+" => do
      let _ ← next
      match ← g.operand (← deeper c) with
      | .literal (.int i) p => pure (.literal (.int i) p)
      | .literal (.float x) p => pure (.literal (.float x) p)
      | e => pure (.operator "+" [e] t.pos)
    | .mark "!" => do
      let _ ← next
      let e ← g.operand (← deeper c)
      pure (.operator "!" [e] t.pos)
    | .eof => fail .incomplete t.pos
    | _ => g.primary c false

/-- The rule for what follows an operand, up to operators that bind less than `least`. -/
def operatorsRule (g : Grammar) (c : Context) (least : Nat) (lhs : Expr) : Parser Expr :=
  repeated (fun ((c, lhs) : Context × Expr) => do
    let t ← peek
    if ← endsCase t.token then pure (.inr lhs)
    else
      let strength ← nextPrecedence t
      let right := bindsRight t.token
      if strength < least || (strength == least && !right) then pure (.inr lhs)
      else
        let _ ← next
        let rhs ← g.operand c
        let following ← nextPrecedence (← peek)
        let rhs ←
          if strength < following || (strength == following && right) then
            g.operators c strength rhs
          else pure rhs
        let c ← deeper c
        pure (.inl ({ c with pos := t.pos }, ← combined t.token t.pos lhs rhs)))
    ({ c with pos := lhs.position }, lhs)

/-- The rule for an expression. -/
def expressionRule (g : Grammar) (c : Context) : Parser Expr := do
  let c ← deeper c
  let t ← peek
  let c := { c with pos := t.pos }
  let lhs ← g.operand c
  g.operators c 1 lhs

/-! ## Calls, indices and properties -/

/-- What a closing parenthesis is for, if the arguments of a call lack it. -/
def unclosedCall (name : String) : String :=
  "to close the arguments list of this function call '" ++ name ++ "'"

/-- The next argument of a call, or the end of the arguments. -/
def nextArgument (g : Grammar) (c : Context) (name : String) (args : List Expr) :
    Parser (List Expr ⊕ List Expr) := do
  let t ← peek
  let args ← if t.token.isMark ")" then pure args else (do pure (args ++ [← g.expression c]))
  let t ← peek
  match t.token with
  | .mark ")" => do
    let _ ← next
    pure (.inr args)
  | .mark "," => do
    let _ ← next
    pure (.inl args)
  | .eof => missing ")" (unclosedCall name) t.pos
  | .fault problem => fail problem t.pos
  | _ => missing "," ("to separate the arguments to function call '" ++ name ++ "'") t.pos

/-- The arguments of a call, after its opening parenthesis. -/
def arguments (g : Grammar) (c : Context) (name : String) : Parser (List Expr) := do
  let t ← peek
  match t.token with
  | .eof => missing ")" (unclosedCall name) t.pos
  | .fault problem => fail problem t.pos
  | .mark ")" => do
    let _ ← next
    pure []
  | _ => do
    let c ← deeper c
    repeated (nextArgument g c name) []

/-- What is wrong with a constant index into a literal. -/
def indexProblem? (container key : Expr) : Option ParseProblem :=
  let kind? : Option String := match key with
    | .literal (.float _) _ => some "a float"
    | .literal (.char _) _ => some "a character"
    | .literal .unit _ => some "()"
    | .literal (.bool _) _ => some "a boolean"
    | .all .. => some "a boolean"
    | .any .. => some "a boolean"
    | _ => none
  match container with
  | .map .. =>
    match key with
    | .literal (.int _) _ => some (.malformedIndex "Object map expects string index, not a number")
    | _ => kind?.map fun kind => .malformedIndex ("Object map expects string index, not " ++ kind)
  | .literal (.int _) _ | .array .. | .literal (.string _) _ | .interpolated .. =>
    match key with
    | .literal (.string _) _ | .interpolated .. =>
      some (.malformedIndex "Array, string or bit-field expects numeric index, not a string")
    | _ =>
      kind?.map fun kind =>
        .malformedIndex ("Array, string or bit-field expects integer index, not " ++ kind)
  | _ => none

/-- The rule for the index after an opening bracket, and the indices that follow it directly. -/
def indexRule (g : Grammar) (c : Context) (container : Expr) (isOptional checked : Bool) :
    Parser (List Link) := do
  let opPos := c.pos
  let key ← g.expression (← deeper c)
  match if checked then indexProblem? container key else none with
  | some problem => fail problem key.startPosition
  | none => do
    let link := Link.index key isOptional opPos
    let t ← peek
    match t.token with
    | .mark "]" => do
      let _ ← next
      let t ← peek
      if t.token.isMark "[" || t.token.isMark "?[" then
        let _ ← next
        let rest ← g.index (← deeper { c with pos := t.pos }) key (t.token.isMark "?[") false
        pure (link :: rest)
      else pure [link]
    | .fault problem => fail problem t.pos
    | _ => missing "]" "for a matching [ in this index expression" t.pos

/-- A name after a dot, or a call, as the first step of a chain. -/
def firstLink (isOptional : Bool) (opPos : Position) : Expr → Parser Link
  | .var name _ pos => pure (.property name isOptional opPos pos)
  | .call _ _ true pos =>
    fail (.symbol "method-call style does not support running within the caller's scope") pos
  | .call name args false pos =>
    if args.isEmpty && ["Fn", "eval", "is_def_fn", "is_def_var"].contains name then
      fail (.symbol ("'" ++ name ++ "' should not be called in method style. Try " ++ name ++
        "(...);")) pos
    else pure (.method name args isOptional opPos pos)
  | e => fail .propertyName e.startPosition

/-- What follows a dot, as steps of a chain. -/
def linksAfterDot (isOptional : Bool) (opPos : Position) : Expr → Parser (List Link)
  | .chain root links => do pure ((← firstLink isOptional opPos root) :: links)
  | e => do pure [← firstLink isOptional opPos e]

/-- Add steps to an expression; a chain that is still open goes on. -/
def extended (isOpen : Bool) (e : Expr) (links : List Link) : Expr :=
  match isOpen, e with
  | true, .chain root first => .chain root (first ++ links)
  | _, e => .chain e links

/-- Do not take the next name for a variable. -/
def notCapturing : Parser Unit := fun s => .ok ((), { s with capturing := false })

/-- Take names for variables again. -/
def capturing : Parser Unit := fun s => .ok ((), { s with capturing := true })

/-- What follows a dot after an operand. -/
def afterDot (g : Grammar) (c : Context) (pos : Position) (isOptional isOpen : Bool) (e : Expr) :
    Parser ((Bool × Expr) ⊕ Expr) := do
  let _ ← next
  match (← peek).token with
  | .name _ => notCapturing
  | _ => pure ()
  let rhs ← g.primary (← deeper { c with pos }) true
  pure (.inl (true, extended isOpen e (← linksAfterDot isOptional pos rhs)))

/-- The next part of what follows an operand directly, or the end of the operand. -/
def nextSuffix (g : Grammar) (c : Context) :
    Bool × Expr → Parser ((Bool × Expr) ⊕ Expr) := fun (isOpen, e) => do
  let t ← peek
  match t.token, e with
  | .mark "!", .var name _ pos => do
    let _ ← next
    let t ← peek
    if t.token.isMark "()" then
      let _ ← next
      pure (.inl (true, .call name [] true pos))
    else if t.token.isMark "(" then
      let _ ← next
      pure (.inl (true, .call name (← arguments g { c with pos } name) true pos))
    else missing "(" "to start arguments list of function call" t.pos
  | .mark "(", .var name _ pos => do
    let _ ← next
    pure (.inl (true, .call name (← arguments g { c with pos } name) false pos))
  | .mark "()", .var name _ pos => do
    let _ ← next
    pure (.inl (true, .call name [] false pos))
  | .mark "[", e => do
    let _ ← next
    let links ← g.index (← deeper { c with pos := t.pos }) e false true
    pure (.inl (true, extended isOpen e links))
  | .mark "?[", e => do
    let _ ← next
    let links ← g.index (← deeper { c with pos := t.pos }) e true true
    pure (.inl (true, extended isOpen e links))
  | .mark ".", e => afterDot g c t.pos false isOpen e
  | .mark "?.", e => afterDot g c t.pos true isOpen e
  | _, e => pure (.inr e)

/-- The rule for what may follow an operand directly. -/
def suffixes (g : Grammar) (c : Context) (root : Expr) : Parser Expr :=
  repeated (nextSuffix g c) (false, root)

/-! ## Literals and groups -/

/-- A group in parentheses. -/
def group (g : Grammar) (c : Context) : Parser Expr := do
  let t ← next
  let (isEmpty, _) ← accept ")"
  if isEmpty then pure (.literal .unit t.pos)
  else
    let e ← g.expression { c with pos := t.pos }
    let _ ← expect ")" "for a matching ( in this expression"
    pure e

/-- The next item of an array literal that begins at a position, or the end of the literal. -/
def nextItem (g : Grammar) (c : Context) (start : Position) (items : List Expr) :
    Parser (List Expr ⊕ Expr) := do
  let unclosed := "to end this array literal"
  let t ← peek
  if c.limits.maxArraySize != 0 && c.limits.maxArraySize ≤ items.length then
    fail (.largeLiteral "Size of array literal" c.limits.maxArraySize) t.pos
  else
    match t.token with
    | .mark "]" => do
      let _ ← next
      pure (.inr (.array items start))
    | .eof => missing "]" unclosed t.pos
    | _ => do
      let items := items ++ [← g.expression (← deeper c)]
      let t ← peek
      match t.token with
      | .mark "," => do
        let _ ← next
        pure (.inl items)
      | .mark "]" => pure (.inl items)
      | .eof => missing "]" unclosed t.pos
      | .fault problem => fail problem t.pos
      | _ => missing "," "to separate the items of this array literal" t.pos

/-- An array literal. -/
def arrayLiteral (g : Grammar) (c : Context) : Parser Expr := do
  let start ← next
  repeated (nextItem g { c with pos := start.pos } start.pos) []

/-- The key of a field of a map literal. -/
def fieldKey (fields : List (String × Expr)) : Parser String := do
  let unclosed := "to end this object map literal"
  let t ← next
  match t.token with
  | .name s => key s t.pos
  | .string s => key s t.pos
  | .interpolated _ => fail .propertyName t.pos
  | .reserved s =>
    if isIdentifier s then fail (.reserved s) t.pos
    else if fields.isEmpty then missing "\x7d" unclosed t.pos
    else fail .propertyName t.pos
  | .fault problem => fail problem t.pos
  | .eof => missing "\x7d" unclosed t.pos
  | _ => if fields.isEmpty then missing "\x7d" unclosed t.pos else fail .propertyName t.pos
where
  /-- A key that is new. -/
  key (s : String) (pos : Position) : Parser String :=
    if fields.any (·.1 == s) then fail (.duplicateProperty s) pos else pure s

/-- An object map literal. -/
def mapLiteral (g : Grammar) (c : Context) : Parser Expr := do
  let start ← next
  let c := { c with pos := start.pos }
  let unclosed := "to end this object map literal"
  repeated (fun (fields : List (String × Expr)) => do
    let t ← peek
    match t.token with
    | .mark "\x7d" => do
      let _ ← next
      pure (.inr (.map fields start.pos))
    | .eof => missing "\x7d" unclosed t.pos
    | _ => do
      let key ← fieldKey fields
      let _ ← expect ":" ("to follow the property '" ++ key ++ "' in this object map literal")
      let t ← peek
      if c.limits.maxMapSize != 0 && c.limits.maxMapSize ≤ fields.length then
        fail (.largeLiteral "Number of properties in object map literal" c.limits.maxMapSize) t.pos
      else
        let fields := fields ++ [(key, ← g.expression (← deeper c))]
        let t ← peek
        match t.token with
        | .mark "," => do
          let _ ← next
          pure (.inl fields)
        | .mark "\x7d" => pure (.inl fields)
        | .name _ => missing "," "to separate the items of this object map literal" t.pos
        | .fault problem => fail problem t.pos
        | _ => missing "\x7d" unclosed t.pos) []

/-- A text with blocks in it, after its first part. -/
def interpolatedText (g : Grammar) (c : Context) : Parser Expr := do
  let c ← deeper c
  let start ← next
  let part (s : String) (pos : Position) : List Expr :=
    if s.isEmpty then [] else [.literal (.string s) pos]
  let first := match start.token with
    | .interpolated s => part s start.pos
    | _ => []
  repeated (fun (segments : List Expr) => do
    let (body, bodyPos) ← g.block c
    let segments := segments ++ [.block body bodyPos]
    let t ← next
    match t.token with
    | .string s => pure (.inr (.interpolated (segments ++ part s t.pos) c.pos))
    | .interpolated s => pure (.inl (segments ++ part s t.pos))
    | .fault problem => fail problem t.pos
    | token => fail (.unexpected token.text) t.pos) first

/-! ## Closures -/

/-- The next parameter of a function, or the end of the parameters, which a mark closes; what the
closing mark and the commas are for is said if they are missing. -/
def nextParameter (close function closing separating : String) (params : List String) :
    Parser (List String ⊕ List String) := do
  let t ← next
  match t.token with
  | .name s =>
    if params.contains s then fail (.duplicateParameter function s) t.pos
    else do
      declare s false
      let t ← next
      if t.token.isMark close then pure (.inr (params ++ [s]))
      else
        match t.token with
        | .mark "," => pure (.inl (params ++ [s]))
        | .fault problem => fail problem t.pos
        | _ => missing "," separating t.pos
  | .fault problem => fail problem t.pos
  | token => if token.isMark close then pure (.inr params) else missing close closing t.pos

/-- The parameters of a closure, after its first bar. -/
def closureParameters : Parser (List String) :=
  repeated (nextParameter "|" "" "to close the parameters list of anonymous function or closure"
    "to separate the parameters of anonymous function") []

/-- Run a parser with variables of its own; gives what it captured from outside, in order. -/
def enclosed {α : Type} (p : Parser α) : Parser (α × List (String × Position)) := fun s =>
  let fresh :=
    { s with declared := [], outer := 0, captured := [], capturing := true, barEnds := false }
  match p fresh with
  | .error e => .error e
  | .ok (a, t) =>
    .ok ((a, t.captured.reverse),
      { s with tokens := t.tokens, functions := t.functions, closures := t.closures })

/-- The name of the closure with this number. -/
def closureName (n : Nat) : String :=
  let digits := Nat.toDigits 16 n
  closureMark ++ String.ofList (List.replicate (16 - digits.length) '0' ++ digits)

/-- Keep a closure; gives its name. -/
def keepClosure (params : List String) (body : List Stmt) : Parser String := fun s =>
  let name := closureName s.closures.length
  .ok (name, { s with closures := ⟨name, params, body⟩ :: s.closures })

/-- A closure. Variables from outside are shared with it, and come before its parameters. -/
def closure (g : Grammar) (c : Context) : Parser Expr := do
  let pos := c.pos
  let c := { c with isTop := false, inFunction := true, inLoop := false }
  let c ← deeper (← deeper c)
  let ((params, body), captured) ← enclosed do
    let t ← next
    let params ← if t.token.isMark "||" then pure [] else closureParameters
    let body ← g.statement c
    pure (params, body.asBlock.1)
  let name ← keepClosure (captured.map (·.1) ++ params) body
  let pointer := Expr.literal (.fnPtr name []) pos
  if captured.isEmpty then pure pointer
  else
    let shared ← captured.mapM fun (name, pos) => do pure (Expr.var name (← refer name pos) pos)
    pure (.block [.share captured, .expr (.call "curry" (pointer :: shared) false pos)] pos)

/-! ## Operands -/

/-- A name, or the name of a function to call. -/
def named (name : String) (pos : Position) : Parser Expr := do
  let _ ← next
  let t ← peek
  if t.token.isMark "(" || t.token.isMark "!" || t.token.isMark "()" then
    capturing
    pure (.var name false pos)
  else pure (.var name (← refer name pos) pos)

/-- A reserved word: some may be called, and one is the object of a method. -/
def reservedWord (c : Context) (word : String) (afterDot : Bool) (pos : Position) :
    Parser Expr := do
  let _ ← next
  let t ← peek
  let isCall := t.token.isMark "(" || t.token.isMark "!" || t.token.isMark "()"
  if isCall && (if afterDot then methodWords else callableWords).contains word then
    pure (.var word false pos)
  else if word == "this" then
    if c.inFunction then pure (.this pos)
    else fail (.symbol "'this' can only be used in functions") pos
  else fail (.reserved word) pos

/-- The rule for an operand without operators. -/
def primaryRule (g : Grammar) (c : Context) (afterDot : Bool) : Parser Expr := do
  let t ← peek
  let c := { c with pos := t.pos }
  let literal (d : Datum) : Parser Expr := do
    let _ ← next
    pure (.literal d t.pos)
  let statement (p : Parser Stmt) : Parser Expr := do
    let (body, pos) := (← p).asBlock
    pure (.block body pos)
  if ← endsCase t.token then fail (.unexpected t.token.text) t.pos
  else
    let root ← match t.token with
      | .eof => fail .incomplete t.pos
      | .int i => literal (.int i)
      | .float x _ => literal (.float x)
      | .string s => literal (.string s)
      | .char ch => literal (.char ch)
      | .mark "true" => literal (.bool true)
      | .mark "false" => literal (.bool false)
      | .mark "()" => literal .unit
      | .mark "\x7b" => do
        let (body, pos) ← g.block (← deeper c)
        pure (.block body pos)
      | .mark "(" => do group g (← deeper c)
      | .mark "if" => do statement (g.choice (← deeper c))
      | .mark "while" | .mark "loop" | .mark "do" | .mark "for" | .mark "switch" =>
        statement (g.statement c)
      | .mark "|" => closure g c
      | .mark "||" => closure g c
      | .interpolated _ => interpolatedText g c
      | .mark "[" => do arrayLiteral g (← deeper c)
      | .mark "#\x7b" => do mapLiteral g (← deeper c)
      | .name s => named s t.pos
      | .reserved s => reservedWord c s afterDot t.pos
      | .fault problem => fail problem t.pos
      | token => fail (.unexpected token.text) t.pos
    suffixes g c root

end ScriptHost.Script.Grammar
