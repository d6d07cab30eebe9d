import ScriptHost.Config
import ScriptHost.Script.Purity
import ScriptHost.Script.Token

/-!
# Parsers

A parser takes tokens from the front of a list and remembers the variables that the text declares.
The last token of the list is the end of the text or a fault, and is never taken. The grammar is a
record of parsers that the parsers of its rules refer to, so that each rule is a definition of its
own.
-/

namespace ScriptHost.Script

/-- Why a text is no script, and where. -/
abbrev Complaint := ParseProblem × Position

/-- A variable that the text declares. -/
structure Declared where
  /-- Its name. -/
  name : String
  /-- Whether it is a constant. -/
  isConstant : Bool

/-- What parsers share. -/
structure ParserState where
  /-- The tokens that are left. -/
  tokens : List Placed
  /-- The variables of the function at hand, innermost first. -/
  declared : List Declared := []
  /-- How many of them are declared outside the block at hand. -/
  outer : Nat := 0
  /-- The variables that a closure takes from outside, last first, and where it uses them first. -/
  captured : List (String × Position) := []
  /-- Whether the next name is a variable of its own, and not a property. -/
  capturing : Bool := true
  /-- The functions so far, last first. -/
  functions : List Function := []
  /-- The closures so far, last first. -/
  closures : List Function := []
  /-- Whether a bar ends an expression. -/
  barEnds : Bool := false

/-- A parser. -/
abbrev Parser (α : Type) := StateT ParserState (Except Complaint) α

/-- Where a parser is in the text. -/
structure Context where
  /-- The limits of the text. -/
  limits : Limits
  /-- How deep the rule at hand is nested. -/
  level : Nat := 0
  /-- The greatest nesting; 0 for no limit. -/
  maxLevel : Nat
  /-- Where the nesting is reported. -/
  pos : Position := .start
  /-- At the top level of the script. -/
  isTop : Bool := false
  /-- In a function. -/
  inFunction : Bool := false
  /-- In a loop. -/
  inLoop : Bool := false

namespace Parser

/-- Give up. -/
def fail {α : Type} (problem : ParseProblem) (pos : Position) : Parser α := fun _ =>
  .error (problem, pos)

/-- A token has to stand here. -/
def missing {α : Type} (token purpose : String) (pos : Position) : Parser α :=
  fail (.missingToken token purpose) pos

/-- The next token. -/
def peek : Parser Placed := fun s => .ok (s.tokens.headD ⟨.eof, .none⟩, s)

/-- Take the next token; the last one stays. -/
def next : Parser Placed := fun s =>
  match s.tokens with
  | [] => .ok (⟨.eof, .none⟩, s)
  | [t] => .ok (t, s)
  | t :: rest => .ok (t, { s with tokens := rest })

/-- Take the next token if it is this mark; tells whether it was, and where it stands. -/
def accept (mark : String) : Parser (Bool × Position) := do
  let t ← peek
  if t.token.isMark mark then
    let _ ← next
    pure (true, t.pos)
  else pure (false, t.pos)

/-- Take a mark; anything else is a fault of the text, or the mark is missing. -/
def expect (mark purpose : String) : Parser Position := do
  let t ← next
  if t.token.isMark mark then pure t.pos
  else
    match t.token with
    | .fault problem => fail problem t.pos
    | _ => missing mark purpose t.pos

/-- One level deeper; reported at the position of the context. -/
def deeper (c : Context) : Parser Context :=
  if c.maxLevel != 0 && c.maxLevel ≤ c.level then fail .tooDeep c.pos
  else pure { c with level := c.level + 1 }

/-- The name of a variable to declare. -/
def declaredName : Parser (String × Position) := do
  let t ← next
  match t.token with
  | .name s => pure (s, t.pos)
  | .reserved s => fail (.reserved s) t.pos
  | .fault problem => fail problem t.pos
  | _ => fail .variableName t.pos

/-- Declare a variable. -/
def declare (name : String) (isConstant : Bool) : Parser Unit := fun s =>
  .ok ((), { s with declared := ⟨name, isConstant⟩ :: s.declared })

/-- Forget the variables but the outermost `n`. -/
def forget (n : Nat) : Parser Unit := fun s =>
  .ok ((), { s with declared := s.declared.drop (s.declared.length - n) })

/-- Run a parser in a block of its own. -/
def inBlock {α : Type} (p : Parser α) : Parser α := fun s =>
  let n := s.declared.length
  match p { s with outer := n } with
  | .error e => .error e
  | .ok (a, t) =>
    .ok (a, { t with declared := t.declared.drop (t.declared.length - n), outer := s.outer })

/-- The declaration of a variable in sight. -/
def declaration? (name : String) : Parser (Option Declared) := fun s =>
  .ok (s.declared.find? (·.name == name), s)

/-- Refer to a variable: whether it is declared in sight. A variable from outside is captured,
unless a function has its name. -/
def refer (name : String) (pos : Position) : Parser Bool := fun s =>
  let known := s.declared.any (·.name == name)
  if s.capturing then
    let isFunction := s.functions.any (·.name == name)
    let isNew := !known && !isFunction && !s.captured.any (·.1 == name)
    .ok (known, if isNew then { s with captured := (name, pos) :: s.captured } else s)
  else .ok (known, { s with capturing := true })

/-- A condition that cannot be a condition. -/
def conditionKind? : Expr → Option String
  | .literal .unit _ => some "()"
  | .literal (.bool _) _ => none
  | .literal (.int _) _ => some "a number"
  | .literal (.float _) _ => some "a floating-point number"
  | .literal (.char _) _ => some "a character"
  | .literal (.string _) _ => some "a string"
  | .literal d _ => some d.typeName
  | .interpolated .. => some "a string"
  | .array .. => some "an array"
  | .map .. => some "an object map"
  | _ => none

/-- Something to loop over that has no items. -/
def itemsKind? : Expr → Option String
  | .literal .unit _ => some "()"
  | .literal (.bool _) _ => some "a boolean"
  | .literal (.int _) _ => some "a number"
  | .literal (.float _) _ => some "a floating-point number"
  | .literal (.char _) _ => some "a character"
  | .map .. => some "an object map"
  | _ => none

/-- An expression that may be a condition. -/
def asCondition (e : Expr) : Parser Expr :=
  match conditionKind? e with
  | some kind => fail (.mismatch "a boolean expression" kind) e.startPosition
  | none => pure e

/-- A block may not stand where an expression is wanted. -/
def notBlock (what : String) : Parser Unit := do
  let t ← peek
  if t.token.isMark "\x7b" then fail (.expressionExpected what) t.pos

/-- The advice on an assignment where a comparison is wanted. -/
def comparisonAdvice : ParseProblem := .symbol "Possibly a typo of '=='?"

/-- An assignment may not stand where a condition ends. -/
def notAssignment : Parser Unit := do
  let t ← peek
  if t.token.isMark "=" then fail comparisonAdvice t.pos

/-- Repeat a step until it says that it is done; `fuel` bounds the number of steps. -/
def untilDone {σ α : Type} (step : σ → Parser (σ ⊕ α)) : (fuel : Nat) → σ → Parser α
  | 0, _ => do
    let t ← peek
    fail .tooDeep t.pos
  | fuel + 1, s => do
    match ← step s with
    | .inl s => untilDone step fuel s
    | .inr a => pure a

/-- Repeat a step that takes tokens. -/
def repeated {σ α : Type} (step : σ → Parser (σ ⊕ α)) (s : σ) : Parser α := fun state =>
  untilDone step (2 * state.tokens.length + 2) s state

end Parser

/-- The rules of the grammar that other rules refer to. -/
structure Grammar where
  /-- A statement. -/
  statement : Context → Parser Stmt
  /-- A block in braces. -/
  block : Context → Parser (List Stmt × Position)
  /-- An expression. -/
  expression : Context → Parser Expr
  /-- An operand with the operators in front of it. -/
  operand : Context → Parser Expr
  /-- What follows an operand, up to operators that bind less than `precedence`. -/
  operators : Context → (precedence : Nat) → Expr → Parser Expr
  /-- An operand without operators; `afterDot` tells that it follows a dot. -/
  primary : Context → (afterDot : Bool) → Parser Expr
  /-- The index after an opening bracket, and what it is followed by. -/
  index : Context → Expr → (isOptional checked : Bool) → Parser (List Link)
  /-- The choice after the word for it. -/
  choice : Context → Parser Stmt

end ScriptHost.Script
