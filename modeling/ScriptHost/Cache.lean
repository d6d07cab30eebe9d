/-!
# A bounded cache

Items under keys, each with the time of its last use. Time is counted in uses. When there are more
items than the capacity, those whose last use is longest ago make room.
-/

namespace ScriptHost

/-- An item of a cache. -/
structure CacheEntry (α : Type) where
  /-- The key. -/
  key : String
  /-- The item. -/
  item : α
  /-- The time of its last use. -/
  lastUse : Nat

/-- A cache. -/
structure Cache (α : Type) where
  /-- The items. -/
  entries : List (CacheEntry α) := []
  /-- The number of uses so far. -/
  clock : Nat := 0

namespace Cache

variable {α : Type}

/-- The number of items. -/
def size (c : Cache α) : Nat := c.entries.length

/-- The item of a key. -/
def find? (c : Cache α) (key : String) : Option α :=
  (c.entries.find? (·.key == key)).map (·.item)

/-- Use the item of a key. -/
def use (c : Cache α) (key : String) : Cache α :=
  { entries := c.entries.map fun e => if e.key == key then { e with lastUse := c.clock } else e
    clock := c.clock + 1 }

/-- The entry whose last use is longest ago. -/
def oldest? : List (CacheEntry α) → Option (CacheEntry α)
  | [] => none
  | e :: rest =>
    match oldest? rest with
    | some other => if other.lastUse < e.lastUse then some other else some e
    | none => some e

/-- The entries without the one whose last use is longest ago. -/
def withoutOldest (entries : List (CacheEntry α)) : List (CacheEntry α) :=
  match oldest? entries with
  | some e => entries.filter (·.key != e.key)
  | none => []

/-- The oldest entry is one of the entries. -/
theorem oldest?_mem {entries : List (CacheEntry α)} {e : CacheEntry α}
    (h : oldest? entries = some e) : e ∈ entries := by
  induction entries generalizing e with
  | nil => cases h
  | cons first rest ih =>
    rw [oldest?] at h
    cases hrest : oldest? rest with
    | none =>
      rw [hrest] at h
      cases h
      exact List.mem_cons_self
    | some other =>
      simp only [hrest] at h
      split at h
      · cases h
        exact List.mem_cons_of_mem first (ih hrest)
      · cases h
        exact List.mem_cons_self

/-- Dropping the oldest of some entries leaves fewer of them. -/
theorem length_withoutOldest_lt {entries : List (CacheEntry α)} (h : entries ≠ []) :
    (withoutOldest entries).length < entries.length := by
  have hpos : 0 < entries.length := List.length_pos_iff.mpr h
  rw [withoutOldest]
  cases holdest : oldest? entries with
  | none => exact hpos
  | some e =>
    refine List.length_filter_lt_length_iff_exists.mpr ⟨e, oldest?_mem holdest, ?_⟩
    simp

/-- Drop the oldest entry while there are more than the capacity. -/
def trimmed (capacity : Nat) (entries : List (CacheEntry α)) : List (CacheEntry α) :=
  if capacity < entries.length then trimmed capacity (withoutOldest entries) else entries
termination_by entries.length
decreasing_by
  rename_i h
  exact length_withoutOldest_lt (List.length_pos_iff.mp (Nat.zero_lt_of_lt h))

/-- Put an item under a key, which counts as a use, and make room within the capacity. -/
def insert (c : Cache α) (capacity : Nat) (key : String) (item : α) : Cache α :=
  let entries := ⟨key, item, c.clock⟩ :: c.entries.filter (·.key != key)
  { entries := trimmed capacity entries, clock := c.clock + 1 }

/-- Drop all items; the time goes on. -/
def clear (c : Cache α) : Cache α := { c with entries := [] }

end Cache

end ScriptHost
