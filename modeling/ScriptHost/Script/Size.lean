import ScriptHost.Config
import ScriptHost.Script.Datum

/-!
# Sizes of values

The sizes of the texts, arrays and maps in a value, added up over all its parts, and the limits on
them.
-/

namespace ScriptHost.Script

/-- Sizes, added up. -/
structure Sizes where
  /-- Items of arrays and bytes. -/
  items : Nat := 0
  /-- Fields of maps. -/
  fields : Nat := 0
  /-- Bytes of texts. -/
  bytes : Nat := 0

/-- The sum of sizes. -/
def Sizes.add (a b : Sizes) : Sizes := ⟨a.items + b.items, a.fields + b.fields, a.bytes + b.bytes⟩

mutual

/-- The sizes of a value. -/
def Datum.sizes : Datum → Sizes
  | .string s => { bytes := s.utf8ByteSize }
  | .array items => itemSizes items
  | .blob bytes => { items := bytes.length }
  | .map fields => fieldSizes fields
  | .shared d => d.sizes
  | _ => {}

/-- The sizes of the items of an array. -/
def itemSizes : List Datum → Sizes
  | [] => {}
  | d :: rest => (d.sizes.add { items := 1 }).add (itemSizes rest)

/-- The sizes of the fields of a map. -/
def fieldSizes : List (String × Datum) → Sizes
  | [] => {}
  | (_, d) :: rest => (d.sizes.add { fields := 1 }).add (fieldSizes rest)

end

/-- The limit that sizes break, if they break one. -/
def Sizes.excess? (s : Sizes) (limits : Limits) : Option Cause :=
  let exceeds (limit size : Nat) : Bool := limit != 0 && limit < size
  if exceeds limits.maxStringSize s.bytes then some (.tooLarge "Length of string")
  else if exceeds limits.maxArraySize s.items then some (.tooLarge "Size of array/BLOB")
  else if exceeds limits.maxMapSize s.fields then some (.tooLarge "Size of object map")
  else none

/-- Whether there is any limit on sizes. -/
def hasSizeLimit (limits : Limits) : Bool :=
  limits.maxStringSize != 0 || limits.maxArraySize != 0 || limits.maxMapSize != 0

/-- The limit that a value breaks, if it breaks one. -/
def Datum.excess? (d : Datum) (limits : Limits) : Option Cause :=
  if hasSizeLimit limits then d.sizes.excess? limits else none

end ScriptHost.Script
