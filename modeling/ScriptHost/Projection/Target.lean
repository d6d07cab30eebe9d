import ScriptHost.Execution
import ScriptHost.Projection.Schema

/-!
# Results read by a schema

A result may be asked for as a value of a host type: it is decoded, turned into JSON and read by the
schema of the type. A result that does not fit is shown with the reason.
-/

namespace ScriptHost

open Script

/-- A host type that results can be read as. -/
structure Target where
  /-- The full name of the type. -/
  name : String
  /-- What its JSON looks like. -/
  schema : Schema

namespace Target

/-- A host value as a value of the type. -/
def ofValue (t : Target) (v : Value) : Except Failure Typed :=
  match t.schema.read v.toJson with
  | .ok typed => .ok typed
  | .error misfit => .error (.projection t.name (v.describe ++ " (" ++ misfit.message ++ ")"))

/-- Results as values of the type. -/
def projection (t : Target) (c : Chain) : Projection Typed where
  read d := (c.decode d).map t.ofValue
  describe := Typed.describe

end Target

/-- Execute with variables; the result is a value of a host type. -/
def Prepared.evalInto {ω : Type} (h : Host ω) (p : Prepared) (t : Target)
    (vars : List (String × Value)) : Store ω → Option (Except Failure Typed) × Store ω :=
  p.evaluate h (encodeBindings vars) h.config.defaultOptions (t.projection h.rules)

end ScriptHost
