import ScriptHost.Cache
import ScriptHost.Script.Evaluation
import ScriptHost.Script.Simplification

/-!
# Hosts and prepared scripts

A host holds what its scripts share: the host functions, the rules for results and the
configuration. A script is prepared once and run any number of times; one that is compiled ahead is
kept in the cache of the host, under its full text.
-/

namespace ScriptHost

open Script

/-- What prepares and runs scripts. -/
structure Host (ω : Type) where
  /-- The host functions. -/
  bridge : Bridge ω
  /-- The rules that decode results. -/
  rules : Chain := Chain.builtin
  /-- The configuration. -/
  config : Config := {}

/-- What the use of a host changes. -/
structure Store (ω : Type) where
  /-- The compiled scripts. -/
  cache : Cache Program := {}
  /-- The world of the host. -/
  world : ω
  /-- The log, last entry first. -/
  log : List LogEvent := []

/-- A script ready to run. -/
structure Prepared where
  /-- The full text. -/
  source : String
  /-- The script, if it has been compiled ahead. -/
  program? : Option Program

namespace Prepared

/-- Whether the script has been compiled ahead. -/
def isCached (p : Prepared) : Bool := p.program?.isSome

/-- The text of a prepared script. -/
def describe (p : Prepared) : String :=
  "Prepared \x7b source: " ++ Text.quoted p.source ++ ", cached: " ++ toString p.isCached ++ " \x7d"

end Prepared

namespace Store

variable {ω : Type}

/-- Write to the log. -/
def record (s : Store ω) (event : LogEvent) : Store ω := { s with log := event :: s.log }

/-- Drop all compiled scripts. -/
def clearCache (s : Store ω) : Store ω := { s with cache := s.cache.clear }

/-- The log, first entry first. -/
def events (s : Store ω) : List LogEvent := s.log.reverse

end Store

namespace Host

variable {ω : Type}

/-- The full text of a script: the lines of the host functions come first, and a text that begins
with a brace is an object map. -/
def sourceOf (h : Host ω) (script : String) : String :=
  h.bridge.preamble ++
    (if script.startsWith "\x7b" then "(#" ++ script ++ ")" else script)

/-- Compile a full text: read and simplify it. -/
def compileText (h : Host ω) (source : String) : Except Failure Program :=
  match Program.ofText? h.config.toLimits source with
  | .ok p => .ok p.simplified
  | .error (problem, pos) => .error (.compile problem pos source)

/-- Prepare a script that is compiled anew for every run. -/
def prepare (h : Host ω) (script : String) : Prepared := ⟨h.sourceOf script, none⟩

/-- Prepare a script that is compiled ahead, unless the cache has it. -/
def compile (h : Host ω) (script : String) (s : Store ω) :
    Except Failure Prepared × Store ω :=
  let source := h.sourceOf script
  match s.cache.find? source with
  | some p =>
    (.ok ⟨source, some p⟩,
      { s with cache := s.cache.use source }.record (.cacheHit source.utf8ByteSize))
  | none =>
    match h.compileText source with
    | .error f => (.error f, s)
    | .ok p =>
      let prepared : Prepared := ⟨source, some p⟩
      if h.config.cacheCapacity == 0 then (.ok prepared, s)
      else
        let cache := s.cache.insert h.config.cacheCapacity source p
        (.ok prepared, { s with cache }.record (.cacheFill cache.size))

/-- The rules that options ask for. -/
def chain (h : Host ω) (options : ExecutionOptions) : Chain :=
  if options.translate then h.rules else Chain.builtin

/-- The text of a host. -/
def describe (h : Host ω) (s : Store ω) : String :=
  "ScriptRuntime \x7b bridge: " ++ h.bridge.describe ++ ", translators: " ++ h.rules.describe ++
    ", config: " ++ h.config.describe ++ ", cached_scripts: " ++ toString s.cache.size ++ " \x7d"

end Host

end ScriptHost
