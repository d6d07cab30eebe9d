import Mathlib
import ScriptHost.Proofs.BatchResults
import ScriptHost.Proofs.Definitions

/-!
# Names of row variables

The names of row variables are the parameters of a closure. A list of names may go through the check
of a batch and still be no list of parameters: the check lets a name pass that is no identifier of
the language, and does not compare the names with each other. Such a batch has a script that is not
compiled.
-/

namespace ScriptHost

open Script Script.Grammar Script.Parser Script.ParserState

/-! ## The closure -/

namespace Script.Grammar

variable {n k : ℕ} {c : Context} {s s' : ParserState} {t : Placed} {l : List Placed}
  {complaint : Complaint}

end Script.Grammar

namespace Batch

variable {names before after : List String} {n : String}

/-- The batch whose result is zero for every row. -/
def zero : Batch := { result := "0" }

/-! ## The text -/

variable {ω : Type}

end Batch

end ScriptHost
