import ScriptHost.Projection.Target
import ScriptHost.Text.Classes

/-!
# Batches

A batch runs one result expression for many rows in a single script: the work on a row is a closure
that is called for every row in turn. Statements may come before the first row, and before the
result expression of every row.
-/

namespace ScriptHost

open Script

/-- A result expression with statements around it. -/
structure Batch where
  /-- The statements before the first row. -/
  setup : Option String := none
  /-- The statements before the result expression of every row. -/
  perRow : Option String := none
  /-- The result expression. -/
  result : String

/-- The variables of a row. -/
abbrev Row := List (String × Value)

namespace Batch

/-- What the names of the script's own variables begin with. -/
def ownMark : String := "host_batch_"

/-- The variable that holds the rows. -/
def rowsName : String := ownMark ++ "rows"

/-- Whether a name may be the name of a row variable. -/
def isVariableName (name : String) : Bool :=
  match name.toList with
  | [] => false
  | c :: rest =>
    isWordStart c && rest.all isWordPart && !ownMark.isPrefixOf name &&
      !(isReserved name || name == hostBinding)

/-- A statement without blanks after it, ended by a semicolon unless it is empty or ended. -/
def terminated (statement : String) : String :=
  let trimmed := (statement.toList.reverse.dropWhile Text.isBlank).reverse
  match trimmed.getLast? with
  | none => ""
  | some c =>
    if c == ';' || c == '\x7d' then String.ofList trimmed else String.ofList trimmed ++ ";"

/-- A line of optional statements. -/
def line : Option String → String
  | none => ""
  | some s => terminated s ++ "\n"

/-- The script for row variables that have been checked. -/
def body (b : Batch) (names : List String) : String :=
  let quotedNames := joined ", " (names.map fun n => "\"" ++ n ++ "\"")
  let args := joined ", " ((List.range names.length).map fun i =>
    "host_batch_row.get(host_batch_vars[" ++ toString i ++ "])")
  "let host_batch_vars = [" ++ quotedNames ++ "];\n" ++ line b.setup ++
    "let host_batch_fn = |" ++ joined ", " names ++ "| \x7b\n" ++ line b.perRow ++
    (if b.result.startsWith "\x7b" then "#" else "") ++ b.result ++ "\n\x7d;\n" ++
    "let host_batch_out = [];\nfor host_batch_row in " ++ rowsName ++ " \x7b\n" ++
    "    host_batch_out.push(host_batch_fn.call(" ++ args ++ "));\n\x7d\nhost_batch_out"

/-- The script for row variables. -/
def script (b : Batch) (names : List String) : Except Failure String :=
  match names.find? (!isVariableName ·) with
  | some name => .error (.custom ("invalid batch variable name '" ++ name ++ "'"))
  | none => .ok (b.body names)

/-- The text of an optional text. -/
def optionText : Option String → String
  | none => "None"
  | some s => "Some(" ++ Text.quoted s ++ ")"

/-- The text of a batch. -/
def describe (b : Batch) : String :=
  "PreparedBatch \x7b setup: " ++ optionText b.setup ++ ", calc: " ++ optionText b.perRow ++
    ", result: " ++ Text.quoted b.result ++ " \x7d"

/-- The results of all rows as host values. -/
def projection (c : Chain) : Projection (List Value) where
  read d :=
    match d with
    | .array items => (items.mapM c.decode).map .ok
    | d => some (.error (.projection "array" d.typeName))
  describe := Value.describeList

variable {ω : Type}

/-- Run a batch on rows with options; the results are host values. -/
def execute (h : Host ω) (b : Batch) (names : List String) (rows : List Row)
    (options : ExecutionOptions) (s : Store ω) :
    Option (Except Failure (List Value)) × Store ω :=
  match b.script names with
  | .error f => (some (.error f), s)
  | .ok script =>
    match h.compile script s with
    | (.error f, s) => (some (.error f), s)
    | (.ok p, s) =>
      let vars := [(rowsName, encode (.list (rows.map .map)))]
      p.evaluate h vars options (projection (h.chain options)) s

/-- Run a batch on rows with the options of the configuration. -/
def eval (h : Host ω) (b : Batch) (names : List String) (rows : List Row) :
    Store ω → Option (Except Failure (List Value)) × Store ω :=
  b.execute h names rows h.config.defaultOptions

/-- Run a batch on rows; the results are values of a host type. -/
def evalInto (h : Host ω) (b : Batch) (t : Target) (names : List String) (rows : List Row)
    (s : Store ω) : Option (Except Failure (List Typed)) × Store ω :=
  match b.eval h names rows s with
  | (some (.ok vs), s) => (some (vs.mapM t.ofValue), s)
  | (some (.error f), s) => (some (.error f), s)
  | (none, s) => (none, s)

end Batch

end ScriptHost
