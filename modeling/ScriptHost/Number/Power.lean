/-!
# Powers

Powers of numbers are those of the core library, whatever other powers are in scope.
-/

namespace ScriptHost

/-- A power of a number. -/
@[default_instance 20000]
instance (priority := 1100) corePower {α : Type} [NatPow α] : Pow α Nat := instPowNat

end ScriptHost
