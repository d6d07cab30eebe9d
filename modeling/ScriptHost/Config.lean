import ScriptHost.Json.Basic

/-!
# Configuration

Limits and defaults of a host. A limit of zero on operations or sizes means no limit. A
configuration is read from a JSON object in which any setting may be missing, or from a JSON array
with the first settings in their order.
-/

namespace ScriptHost

/-- What scripts are held to. -/
structure Limits where
  /-- The greatest number of operations of a run; 0 for no limit. -/
  maxOperations : Nat := 0
  /-- The greatest nesting of calls. -/
  maxCallLevels : Nat := 64
  /-- The greatest nesting of expressions at the top level; 0 for no limit. -/
  maxExprDepth : Nat := 64
  /-- The greatest nesting of expressions in functions; 0 for no limit. -/
  maxFunctionExprDepth : Nat := 32
  /-- The greatest size of a text in bytes; 0 for no limit. -/
  maxStringSize : Nat := 0
  /-- The greatest size of an array; 0 for no limit. -/
  maxArraySize : Nat := 0
  /-- The greatest size of an object map; 0 for no limit. -/
  maxMapSize : Nat := 0
  /-- Whether reading a property that a map lacks is a fault. -/
  failOnInvalidMapProperty : Bool := false
  deriving DecidableEq, Repr

/-- The configuration of a host. -/
structure Config extends Limits where
  /-- The number of compiled scripts to keep. -/
  cacheCapacity : Nat := 256
  /-- Whether runs are logged unless the caller says otherwise. -/
  logScripts : Bool := true
  /-- Whether results are decoded by the host's own rules unless the caller says otherwise. -/
  translate : Bool := true
  deriving DecidableEq, Repr

/-- The value of a setting. -/
inductive Setting where
  /-- A limit. -/
  | number (n : Nat)
  /-- A switch. -/
  | flag (b : Bool)
  deriving DecidableEq, Repr

/-- The text of a setting. -/
def Setting.text : Setting → String
  | number n => toString n
  | flag b => toString b

namespace Config

/-- The settings by name, in their order. -/
def settings (c : Config) : List (String × Setting) :=
  [("max_operations", .number c.maxOperations), ("max_call_levels", .number c.maxCallLevels),
    ("max_expr_depth", .number c.maxExprDepth),
    ("max_function_expr_depth", .number c.maxFunctionExprDepth),
    ("max_string_size", .number c.maxStringSize), ("max_array_size", .number c.maxArraySize),
    ("max_map_size", .number c.maxMapSize),
    ("fail_on_invalid_map_property", .flag c.failOnInvalidMapProperty),
    ("cache_capacity", .number c.cacheCapacity), ("log_scripts", .flag c.logScripts),
    ("translate", .flag c.translate)]

/-- The names of the settings, in their order. -/
def names : List String := ({} : Config).settings.map (·.1)

/-- A limit of 64 bits. -/
def limit? : Json → Option Nat
  | .int i => if 0 ≤ i && i < 2 ^ 64 then some i.toNat else none
  | _ => none

/-- A switch. -/
def flag? : Json → Option Bool
  | .bool b => some b
  | _ => none

/-- The configuration with one setting changed; names that are no setting change nothing, and a
value of the wrong kind is refused. -/
def set? (c : Config) (name : String) (j : Json) : Option Config :=
  match name with
  | "max_operations" => (limit? j).map fun n => { c with maxOperations := n }
  | "max_call_levels" => (limit? j).map fun n => { c with maxCallLevels := n }
  | "max_expr_depth" => (limit? j).map fun n => { c with maxExprDepth := n }
  | "max_function_expr_depth" => (limit? j).map fun n => { c with maxFunctionExprDepth := n }
  | "max_string_size" => (limit? j).map fun n => { c with maxStringSize := n }
  | "max_array_size" => (limit? j).map fun n => { c with maxArraySize := n }
  | "max_map_size" => (limit? j).map fun n => { c with maxMapSize := n }
  | "fail_on_invalid_map_property" =>
    (flag? j).map fun b => { c with failOnInvalidMapProperty := b }
  | "cache_capacity" => (limit? j).map fun n => { c with cacheCapacity := n }
  | "log_scripts" => (flag? j).map fun b => { c with logScripts := b }
  | "translate" => (flag? j).map fun b => { c with translate := b }
  | _ => some c

/-- Change settings in order. -/
def setAll? : Config → List (String × Json) → Option Config
  | c, [] => some c
  | c, (name, j) :: rest => (c.set? name j).bind (setAll? · rest)

/-- Whether some setting is named twice. -/
def hasRepeatedSetting : List (String × Json) → Bool
  | [] => false
  | (name, _) :: rest =>
    (names.contains name && rest.any (·.1 == name)) || hasRepeatedSetting rest

/-- Read a configuration; the entries of the object are those of the text, in its order. -/
def ofJson? : Json → Option Config
  | .object fields => if hasRepeatedSetting fields then none else setAll? {} fields
  | .array items =>
    if names.length < items.length then none else setAll? {} (names.zip items)
  | _ => none

/-- The text of a configuration. -/
def describe (c : Config) : String :=
  "ScriptConfig \x7b " ++ joined ", " (c.settings.map fun s => s.1 ++ ": " ++ s.2.text) ++ " \x7d"

end Config

/-- Switches of one run. -/
structure ExecutionOptions where
  /-- Whether script and result are logged. -/
  log : Bool := true
  /-- Whether the result is decoded by the host's own rules instead of the built-in ones. -/
  translate : Bool := true
  deriving DecidableEq, Repr

namespace ExecutionOptions

/-- The same switches without logging. -/
def quiet (o : ExecutionOptions) : ExecutionOptions := { o with log := false }

/-- The text of the switches. -/
def describe (o : ExecutionOptions) : String :=
  "ExecutionOptions \x7b log: " ++ toString o.log ++ ", translate: " ++ toString o.translate ++
    " \x7d"

end ExecutionOptions

/-- The switches that a configuration sets. -/
def Config.defaultOptions (c : Config) : ExecutionOptions := ⟨c.logScripts, c.translate⟩

end ScriptHost
