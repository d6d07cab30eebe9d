import Mathlib.Data.List.Dedup
import Mathlib.Data.List.Induction
import Mathlib.Data.List.Nodup
import ScriptHost.Cache

/-!
# The order of last use

The entries of a cache can be listed in the order of their last use. A use moves an entry to the
front, a new entry comes to the front, and what has to make room leaves from the end.
-/

namespace ScriptHost.Cache

variable {α : Type}

/-- Entries in the order of their last use, last used first: no two were used at the same time,
and no two have the same key. -/
structure InOrder (entries : List (CacheEntry α)) : Prop where
  /-- Each entry was used after all those behind it. -/
  descending : entries.Pairwise fun a b => b.lastUse < a.lastUse
  /-- Keys are not repeated. -/
  nodup_keys : (entries.map (·.key)).Nodup

/-- The entries of a cache, listed in the order of their last use. -/
structure Ranked (c : Cache α) (ordered : List (CacheEntry α)) : Prop where
  /-- The list is in order. -/
  inOrder : InOrder ordered
  /-- The list holds what the cache holds. -/
  perm : ordered.Perm c.entries
  /-- All uses lie before the present time. -/
  lt_clock : ∀ e ∈ ordered, e.lastUse < c.clock

/-! ## Eviction -/

/-- A part of a list in order is in order. -/
theorem InOrder.sublist {part entries : List (CacheEntry α)} (h : InOrder entries)
    (hpart : part.Sublist entries) : InOrder part :=
  ⟨h.descending.sublist hpart, h.nodup_keys.sublist (hpart.map _)⟩

/-- The oldest entry was used before every other one. -/
theorem oldest?_le {entries : List (CacheEntry α)} {e : CacheEntry α}
    (h : oldest? entries = some e) : ∀ other ∈ entries, e.lastUse ≤ other.lastUse := by
  induction entries generalizing e with
  | nil => cases h
  | cons first rest ih =>
    rw [oldest?] at h
    cases hrest : oldest? rest with
    | none =>
      have hnil : rest = [] := by
        cases rest with
        | nil => rfl
        | cons second others =>
          rw [oldest?] at hrest
          split at hrest
          · split at hrest <;> cases hrest
          · cases hrest
      simp only [hrest, Option.some.injEq] at h
      simp [hnil, h]
    | some candidate =>
      have hle := ih hrest
      simp only [hrest] at h
      intro other hother
      rcases List.mem_cons.mp hother with rfl | hother
      · split at h <;> cases h <;> omega
      · have := hle other hother
        split at h <;> cases h <;> omega

/-- Entries that are there have an oldest one. -/
theorem oldest?_isSome {entries : List (CacheEntry α)} (h : entries ≠ []) :
    (oldest? entries).isSome = true := by
  cases entries with
  | nil => exact absurd rfl h
  | cons first rest =>
    rw [oldest?]
    split
    · split <;> rfl
    · rfl

/-- The oldest of some entries is the last one in the order of use. -/
theorem oldest?_eq_last {entries ordered : List (CacheEntry α)} {last : CacheEntry α}
    (horder : InOrder (ordered ++ [last])) (hperm : (ordered ++ [last]).Perm entries) :
    oldest? entries = some last := by
  have hlast : last ∈ entries := hperm.subset (by simp)
  obtain ⟨e, he⟩ := Option.isSome_iff_exists.mp
    (oldest?_isSome (List.ne_nil_of_mem hlast))
  have hle := oldest?_le he last hlast
  have hmem : e ∈ ordered ++ [last] := hperm.symm.subset (oldest?_mem he)
  rcases List.mem_append.mp hmem with hmem | hmem
  · have hlt := (List.pairwise_append.mp horder.descending).2.2 e hmem last (by simp)
    omega
  · rw [he, List.mem_singleton.mp hmem]

/-- Dropping the oldest entry drops the last one in the order of use. -/
theorem perm_withoutOldest {entries ordered : List (CacheEntry α)} {last : CacheEntry α}
    (horder : InOrder (ordered ++ [last])) (hperm : (ordered ++ [last]).Perm entries) :
    ordered.Perm (withoutOldest entries) := by
  rw [withoutOldest, oldest?_eq_last horder hperm]
  have hkeys := horder.nodup_keys
  rw [List.map_append, List.nodup_append] at hkeys
  have hkept : ordered.filter (·.key != last.key) = ordered := by
    rw [List.filter_eq_self]
    intro e he
    exact bne_iff_ne.mpr (hkeys.2.2 e.key (List.mem_map_of_mem he) last.key (by simp))
  have hfiltered := hperm.filter (·.key != last.key)
  simpa [List.filter_append, hkept] using hfiltered

/-- Making room keeps the entries used last, as many as the capacity. -/
theorem perm_trimmed (capacity : ℕ) {entries ordered : List (CacheEntry α)}
    (horder : InOrder ordered) (hperm : ordered.Perm entries) :
    (ordered.take capacity).Perm (trimmed capacity entries) := by
  induction ordered using List.reverseRecOn generalizing entries with
  | nil =>
    have hnil : entries = [] := List.Perm.eq_nil hperm.symm
    rw [trimmed, hnil]
    simp
  | append_singleton ordered last ih =>
    have hlength := hperm.length_eq
    rw [List.length_append, List.length_singleton] at hlength
    rw [trimmed]
    split
    · have hrest := ih (horder.sublist (List.sublist_append_left _ _))
        (perm_withoutOldest horder hperm)
      rwa [List.take_append_of_le_length (by omega)]
    · rwa [List.take_of_length_le (by simp; omega)]

/-! ## One operation -/

/-- A new cache has no entries. -/
theorem Ranked.empty : Ranked ({} : Cache α) [] :=
  ⟨⟨List.Pairwise.nil, List.nodup_nil⟩, List.Perm.refl _, by simp⟩

/-- Dropping all entries leaves none. -/
theorem Ranked.clear (c : Cache α) : Ranked c.clear [] :=
  ⟨⟨List.Pairwise.nil, List.nodup_nil⟩, List.Perm.refl _, by simp⟩

/-- An entry in front of others that were all used before now and have other keys. -/
theorem InOrder.cons {entries : List (CacheEntry α)} {e : CacheEntry α} (h : InOrder entries)
    (hbefore : ∀ other ∈ entries, other.lastUse < e.lastUse)
    (hkey : e.key ∉ entries.map (·.key)) : InOrder (e :: entries) :=
  ⟨List.pairwise_cons.mpr ⟨hbefore, h.descending⟩, List.nodup_cons.mpr ⟨hkey, h.nodup_keys⟩⟩

/-- A use moves the entry to the front. -/
theorem Ranked.use {c : Cache α} {ordered : List (CacheEntry α)} {e : CacheEntry α}
    (h : Ranked c ordered) (he : e ∈ ordered) :
    Ranked (c.use e.key)
      ({ e with lastUse := c.clock } :: ordered.filter (·.key != e.key)) := by
  obtain ⟨newer, older, rfl⟩ := List.append_of_mem he
  have hmoved : (e :: (newer ++ older)).Perm (newer ++ e :: older) := List.perm_middle.symm
  have hkeys : ((e :: (newer ++ older)).map (·.key)).Nodup :=
    (hmoved.map _).nodup_iff.mpr h.inOrder.nodup_keys
  rw [List.map_cons, List.nodup_cons] at hkeys
  have hne : ∀ other ∈ newer ++ older, other.key ≠ e.key :=
    fun other hmem heq => hkeys.1 (heq ▸ List.mem_map_of_mem hmem)
  have hkept : (newer ++ e :: older).filter (·.key != e.key) = newer ++ older := by
    have hself := List.filter_eq_self.mpr fun o ho => bne_iff_ne.mpr (hne o ho)
    simpa [List.filter_append] using hself
  have hothers : (newer ++ older).Sublist (newer ++ e :: older) :=
    List.Sublist.append_left (List.sublist_cons_self e older) newer
  have hbefore : ∀ other ∈ newer ++ older, other.lastUse < c.clock :=
    fun other hmem => h.lt_clock other (hothers.subset hmem)
  rw [hkept]
  refine ⟨(h.inOrder.sublist hothers).cons hbefore hkeys.1, ?_, ?_⟩
  · -- Only the entry itself has its key, so that the others stay as they are.
    have hsame : (newer ++ older).map
        (fun o => if o.key == e.key then { o with lastUse := c.clock } else o) =
        newer ++ older := by
      refine (List.map_congr_left fun o ho => ?_).trans (List.map_id' _)
      simp [hne o ho]
    have hperm := (hmoved.trans h.perm).map
      (fun o => if o.key == e.key then { o with lastUse := c.clock } else o)
    rw [List.map_cons, hsame] at hperm
    simpa [Cache.use] using hperm
  · intro other hmem
    rcases List.mem_cons.mp hmem with rfl | hmem
    · exact Nat.lt_succ_self c.clock
    · exact Nat.lt_succ_of_lt (hbefore other hmem)

/-- A new key comes to the front, and what is beyond the capacity leaves. -/
theorem Ranked.insert {c : Cache α} {ordered : List (CacheEntry α)} (capacity : ℕ) {key : String}
    (item : α) (h : Ranked c ordered) (hkey : key ∉ ordered.map (·.key)) :
    Ranked (c.insert capacity key item) ((⟨key, item, c.clock⟩ :: ordered).take capacity) := by
  have horder : InOrder (⟨key, item, c.clock⟩ :: ordered) := h.inOrder.cons h.lt_clock hkey
  have hkept : c.entries.filter (·.key != key) = c.entries := by
    rw [List.filter_eq_self]
    intro e he
    refine bne_iff_ne.mpr fun heq => hkey ?_
    exact heq ▸ List.mem_map_of_mem (h.perm.symm.subset he)
  refine ⟨horder.sublist (List.take_sublist _ _), ?_, ?_⟩
  · rw [Cache.insert, hkept]
    exact perm_trimmed capacity horder (h.perm.cons _)
  · intro other hmem
    rcases List.mem_cons.mp (List.mem_of_mem_take hmem) with rfl | hmem
    · exact Nat.lt_succ_self c.clock
    · exact Nat.lt_succ_of_lt (h.lt_clock other hmem)

/-- A key is found with the item of its entry. -/
theorem Ranked.find?_eq_some_iff {c : Cache α} {ordered : List (CacheEntry α)}
    (h : Ranked c ordered)
    {key : String} {item : α} :
    c.find? key = some item ↔ ∃ e ∈ ordered, e.key = key ∧ e.item = item := by
  have hunique : ∀ e ∈ ordered, ∀ f ∈ ordered, e.key = f.key → e = f :=
    fun e he f hf => List.inj_on_of_nodup_map h.inOrder.nodup_keys he hf
  rw [Cache.find?, Option.map_eq_some_iff]
  constructor
  · rintro ⟨e, hfound, rfl⟩
    have hmem := h.perm.symm.subset (List.mem_of_find?_eq_some hfound)
    have hkey : (e.key == key) = true := by simpa using List.find?_some hfound
    exact ⟨e, hmem, beq_iff_eq.mp hkey, rfl⟩
  · rintro ⟨e, he, rfl, rfl⟩
    obtain ⟨f, hfound⟩ := Option.isSome_iff_exists.mp
      (List.find?_isSome.mpr ⟨e, h.perm.subset he, beq_self_eq_true e.key⟩ :
        (c.entries.find? (·.key == e.key)).isSome = true)
    have hmem := h.perm.symm.subset (List.mem_of_find?_eq_some hfound)
    have hkey : (f.key == e.key) = true := by simpa using List.find?_some hfound
    exact ⟨f, hfound, by rw [hunique f hmem e he (beq_iff_eq.mp hkey)]⟩

/-- A key is missed when no entry has it. -/
theorem Ranked.find?_eq_none_iff {c : Cache α} {ordered : List (CacheEntry α)}
    (h : Ranked c ordered) {key : String} :
    c.find? key = none ↔ key ∉ ordered.map (·.key) := by
  rw [Option.eq_none_iff_forall_ne_some]
  constructor
  · intro hnone hmem
    obtain ⟨e, he, hkey⟩ := List.mem_map.mp hmem
    exact hnone e.item (h.find?_eq_some_iff.mpr ⟨e, he, hkey, rfl⟩)
  · intro hmem item hfound
    obtain ⟨e, he, hkey, _⟩ := h.find?_eq_some_iff.mp hfound
    exact hmem (hkey ▸ List.mem_map_of_mem he)

end ScriptHost.Cache
