import Mathlib
import ScriptHost.Fields

/-!
# Facts on ordered fields

Setting a key is seen under that key alone, and the order of the keys stays strict. In a mapping
made from pairs the last pair of a key counts.
-/

namespace ScriptHost.Fields

variable {α β : Type}

/-- The value that was set is found under its key, and the other keys keep their values. -/
theorem get?_insert (key other : String) (value : α) (fields : List (String × α)) :
    get? other (insert key value fields) =
      if key = other then some value else get? other fields := by
  induction fields with
  | nil => rfl
  | cons field rest ih =>
    obtain ⟨k, v⟩ := field
    rw [insert]
    split
    · rfl
    · split
      · next heq =>
        rw [get?, get?, heq]
        split <;> rfl
      · next hne =>
        rw [get?, ih, get?]
        by_cases hk : k = other
        · have hother : key ≠ other := fun h => hne (h.trans hk.symm)
          rw [if_pos hk, if_neg hother, if_pos hk]
        · rw [if_neg hk, if_neg hk]

/-- A value that is found belongs to a field. -/
theorem mem_of_get? {key : String} {value : α} {fields : List (String × α)}
    (h : get? key fields = some value) : (key, value) ∈ fields := by
  induction fields with
  | nil => cases h
  | cons field rest ih =>
    obtain ⟨k, v⟩ := field
    rw [get?] at h
    split at h
    · next heq =>
      cases h
      simp [heq]
    · exact List.mem_cons_of_mem _ (ih h)

/-- With keys in strict order, the value of a field is found under its key. -/
theorem get?_of_mem {key : String} {value : α} {fields : List (String × α)} (h : Sorted fields)
    (hmem : (key, value) ∈ fields) : get? key fields = some value := by
  induction fields with
  | nil => cases hmem
  | cons field rest ih =>
    obtain ⟨hfirst, hrest⟩ := List.pairwise_cons.mp h
    rcases List.mem_cons.mp hmem with rfl | hmem
    · rw [get?, if_pos rfl]
    · have hne : field.1 ≠ key := ne_of_lt (hfirst _ hmem)
      rw [get?, if_neg hne]
      exact ih hrest hmem

/-- Setting a key brings in no other pair. -/
theorem mem_insert {key : String} {value : α} {fields : List (String × α)} {p : String × α}
    (hp : p ∈ insert key value fields) : p = (key, value) ∨ p ∈ fields := by
  induction fields with
  | nil => exact .inl (List.mem_singleton.mp hp)
  | cons field rest ih =>
    obtain ⟨k, v⟩ := field
    rw [insert] at hp
    split at hp
    · exact List.mem_cons.mp hp
    · split at hp
      · exact (List.mem_cons.mp hp).imp_right (List.mem_cons_of_mem _)
      · rcases List.mem_cons.mp hp with rfl | hp
        · exact .inr List.mem_cons_self
        · exact (ih hp).imp_right (List.mem_cons_of_mem _)

/-- Setting a key keeps the keys in strict order. -/
theorem Sorted.insert {fields : List (String × α)} (h : Sorted fields) (key : String) (value : α) :
    Sorted (insert key value fields) := by
  induction fields with
  | nil => exact List.pairwise_singleton _ _
  | cons field rest ih =>
    obtain ⟨k, v⟩ := field
    obtain ⟨hfirst, hrest⟩ := List.pairwise_cons.mp h
    rw [Fields.insert]
    split
    · next hlt =>
      refine List.pairwise_cons.mpr ⟨?_, h⟩
      intro other hother
      rcases List.mem_cons.mp hother with rfl | hother
      · exact hlt
      · exact String.lt_trans hlt (hfirst other hother)
    · split
      · next heq =>
        subst heq
        exact List.pairwise_cons.mpr ⟨hfirst, hrest⟩
      · next hle hne =>
        have hlt : k < key := lt_of_le_of_ne (not_lt.mp hle) (Ne.symm hne)
        refine List.pairwise_cons.mpr ⟨?_, ih hrest⟩
        intro other hother
        rcases mem_insert hother with rfl | hmem
        · exact hlt
        · exact hfirst other hmem

/-- A mapping made from pairs has its keys in strict order. -/
theorem sorted_ofList (pairs : List (String × α)) : Sorted (ofList pairs) := by
  induction pairs using List.reverseRecOn with
  | nil => exact List.Pairwise.nil
  | append_singleton pairs pair ih =>
    rw [ofList, List.foldl_append]
    exact ih.insert pair.1 pair.2

/-- A mapping made from pairs has no other pair. -/
theorem mem_ofList {pairs : List (String × α)} {p : String × α} (hp : p ∈ ofList pairs) :
    p ∈ pairs := by
  induction pairs using List.reverseRecOn with
  | nil => exact hp
  | append_singleton pairs pair ih =>
    rw [ofList, List.foldl_append] at hp
    rcases mem_insert hp with rfl | hp
    · exact List.mem_append_right _ List.mem_cons_self
    · exact List.mem_append_left _ (ih hp)

/-- In a mapping made from pairs, the last pair of a key counts. -/
theorem get?_ofList (key : String) (pairs : List (String × α)) :
    get? key (ofList pairs) = (pairs.reverse.find? (·.1 = key)).map (·.2) := by
  induction pairs using List.reverseRecOn with
  | nil => rfl
  | append_singleton pairs pair ih =>
    have hset := get?_insert pair.1 key pair.2 (ofList pairs)
    rw [ofList, List.foldl_append, List.reverse_append, List.reverse_singleton,
      List.singleton_append]
    refine hset.trans ?_
    by_cases hkey : pair.1 = key
    · simp [hkey]
    · simp [hkey, ih]

/-- A pair with no other of its key behind it counts. -/
theorem get?_ofList_last {key : String} (value : α) (before : List (String × α))
    {after : List (String × α)} (hlast : key ∉ after.map (·.1)) :
    get? key (ofList (before ++ (key, value) :: after)) = some value := by
  have hafter : after.reverse.find? (·.1 = key) = none := by
    simp only [List.find?_eq_none, List.mem_reverse, decide_eq_true_eq]
    rintro p hp rfl
    exact hlast (List.mem_map_of_mem hp)
  rw [get?_ofList, List.reverse_append, List.reverse_cons, List.find?_append, List.find?_append,
    hafter]
  simp

/-- A change of all values changes the value of a key. -/
theorem get?_map (f : α → β) (key : String) (fields : List (String × α)) :
    get? key (fields.map fun p => (p.1, f p.2)) = (get? key fields).map f := by
  induction fields with
  | nil => rfl
  | cons field rest ih =>
    rw [List.map_cons, get?, get?, ih]
    split <;> rfl

/-- Setting a key commutes with a change of all values. -/
theorem insert_map (f : α → β) (key : String) (value : α) (fields : List (String × α)) :
    insert key (f value) (fields.map fun p => (p.1, f p.2)) =
      (insert key value fields).map fun p => (p.1, f p.2) := by
  induction fields with
  | nil => rfl
  | cons field rest ih =>
    rw [List.map_cons, insert, insert]
    split
    · rfl
    · split
      · rfl
      · rw [List.map_cons, ih]

/-- Making a mapping from pairs commutes with a change of all values. -/
theorem ofList_map (f : α → β) (pairs : List (String × α)) :
    ofList (pairs.map fun p => (p.1, f p.2)) = (ofList pairs).map fun p => (p.1, f p.2) := by
  induction pairs using List.reverseRecOn with
  | nil => rfl
  | append_singleton pairs pair ih =>
    rw [ofList] at ih
    rw [List.map_append, ofList, ofList, List.foldl_append, List.foldl_append, ih]
    exact insert_map f pair.1 pair.2 _

end ScriptHost.Fields
