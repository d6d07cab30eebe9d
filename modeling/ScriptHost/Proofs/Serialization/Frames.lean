import Mathlib
import ScriptHost.Proofs.Serialization

/-!
# Parts of a serialization

A part of a serialization is found by taking apart what stands around it, frame by frame. Each frame
leads to one place of the host value, where the part shows unless something is written over it.
-/

namespace ScriptHost

open Script

namespace Serialization

/-! ## Lists of parts -/

/-- Items are accepted when those in front, an item and those behind it are. -/
theorem acceptedItems_append_cons {before after : List Serialization} {s : Serialization} :
    AcceptedItems (before ++ s :: after) ↔
      AcceptedItems before ∧ s.Accepted ∧ AcceptedItems after := by
  induction before with
  | nil => simp [AcceptedItems]
  | cons first rest ih => rw [List.cons_append, AcceptedItems, ih, AcceptedItems, and_assoc]

/-- Entries are accepted when those in front and those behind are. -/
theorem acceptedEntries_append {before after : List (Option Serialization × Serialization)} :
    AcceptedEntries (before ++ after) ↔ AcceptedEntries before ∧ AcceptedEntries after := by
  induction before with
  | nil => simp [AcceptedEntries]
  | cons first rest ih =>
    obtain ⟨_ | key, s⟩ := first
    · simp [AcceptedEntries]
    · simp [AcceptedEntries, ih, and_assoc]

/-- Fields are accepted when those in front, a field and those behind it are. -/
theorem acceptedFields_append_cons {before after : List (String × Serialization)}
    {field : String} {s : Serialization} :
    AcceptedFields (before ++ (field, s) :: after) ↔
      AcceptedFields before ∧ s.Accepted ∧ AcceptedFields after := by
  induction before with
  | nil => simp [AcceptedFields]
  | cons first rest ih => rw [List.cons_append, AcceptedFields, ih, AcceptedFields, and_assoc]

/-- The host values of items, one by one. -/
theorem values_eq_map (items : List Serialization) : values items = items.map value := by
  induction items with
  | nil => rfl
  | cons s rest ih => rw [values, List.map_cons, ih]

/-- The host values of entries, those in front first. -/
theorem entryValues_append (before after : List (Option Serialization × Serialization)) :
    entryValues (before ++ after) = entryValues before ++ entryValues after := by
  induction before with
  | nil => rfl
  | cons first rest ih =>
    obtain ⟨_ | key, s⟩ := first
    · exact ih
    · rw [List.cons_append, entryValues, ih, entryValues, List.cons_append]

/-- The host values of fields, one by one. -/
theorem fieldValues_eq_map (fields : List (String × Serialization)) :
    fieldValues fields = fields.map fun p => (p.1, p.2.value) := by
  induction fields with
  | nil => rfl
  | cons field rest ih => rw [fieldValues, List.map_cons, ih]

/-- The bean of an accepted serialization becomes its host value. -/
theorem flattenValue_of_accepted {s : Serialization} (h : s.Accepted) :
    Bean.flattenValue s.bean = .ok s.value := by
  rcases settles_flattenValue s with ⟨-, heq⟩ | ⟨hnot, -⟩
  · exact heq
  · exact absurd h hnot

/-- A bean becomes a host value exactly when its serialization is accepted. -/
theorem flattenValue_eq_ok_iff {s : Serialization} {v : Value} :
    Bean.flattenValue s.bean = .ok v ↔ s.Accepted ∧ v = s.value := by
  rcases settles_flattenValue s with ⟨h, heq⟩ | ⟨hnot, fault, heq⟩
  · simp [heq, h, eq_comm]
  · simp [heq, hnot]

/-! ## Frames -/

/-- What stands around a part, one level of it. -/
inductive Frame where
  /-- A filled option. -/
  | present
  /-- A type of one part. -/
  | newtypeStruct (name : String)
  /-- A variant of one part. -/
  | newtypeVariant (variant : String)
  /-- The other items of a sequence. -/
  | seq (before after : List Serialization)
  /-- The other items of a tuple. -/
  | tuple (before after : List Serialization)
  /-- The other parts of a type of several parts. -/
  | tupleStruct (name : String) (before after : List Serialization)
  /-- The other parts of a variant of several parts. -/
  | tupleVariant (variant : String) (before after : List Serialization)
  /-- The value of a key and the other entries. -/
  | key (before : List (Option Serialization × Serialization)) (s : Serialization)
    (after : List (Option Serialization × Serialization))
  /-- The key of a value and the other entries. -/
  | entry (before : List (Option Serialization × Serialization)) (key : Serialization)
    (after : List (Option Serialization × Serialization))
  /-- The name of a field and the other fields. -/
  | record (name : String) (before : List (String × Serialization)) (field : String)
    (after : List (String × Serialization))
  /-- The name of a field of a variant and the other fields. -/
  | recordVariant (variant : String) (before : List (String × Serialization)) (field : String)
    (after : List (String × Serialization))

namespace Frame

/-- Put a part into a frame. -/
def plug (s : Serialization) : Frame → Serialization
  | present => .present s
  | newtypeStruct name => .newtypeStruct name s
  | newtypeVariant variant => .newtypeVariant variant s
  | seq before after => .seq (before ++ s :: after)
  | tuple before after => .tuple (before ++ s :: after)
  | tupleStruct name before after => .tupleStruct name (before ++ s :: after)
  | tupleVariant variant before after => .tupleVariant variant (before ++ s :: after)
  | key before t after => .map (before ++ (some s, t) :: after)
  | entry before k after => .map (before ++ (some k, s) :: after)
  | record name before field after => .record name (before ++ (field, s) :: after)
  | recordVariant variant before field after =>
    .recordVariant variant (before ++ (field, s) :: after)

/-- The variant of several parts that a frame belongs to, if it does. -/
def variant? : Frame → Option String
  | tupleVariant variant _ _ | recordVariant variant _ _ _ => some variant
  | _ => none

/-- What leads to the part but for the name of a variant of several parts. -/
def steps : Frame → List Label
  | newtypeVariant variant => [.key variant]
  | seq before _ | tuple before _ | tupleStruct _ before _ | tupleVariant _ before _ =>
    [.index before.length]
  | entry _ k _ => [.key (k.keyText?.getD "")]
  | record _ _ field _ | recordVariant _ _ field _ => [.key field]
  | present | newtypeStruct _ | key _ _ _ => []

/-- What leads to the part in the host value. -/
def place (f : Frame) : List Label := (f.variant?.map .key).toList ++ f.steps

/-- The part shows in the host value: it is no key and under no mark, and nothing behind it is
written over it. -/
def Shows : Frame → Prop
  | newtypeStruct name => LeafKind.ofMark? name = none
  | key _ _ _ => False
  | entry _ k after => k.keyText?.getD "" ∉ (entryValues after).map (·.1)
  | record _ _ field after | recordVariant _ _ field after => field ∉ after.map (·.1)
  | _ => True

end Frame

/-- A serialization inside of frames, the outermost first. -/
def within (context : List Frame) (s : Serialization) : Serialization :=
  context.foldr (fun f s => f.plug s) s

/-! ## Where a part shows -/

namespace Frame

/-- An item of a sequence shows under its number. -/
theorem at?_items (before after : List Serialization) (s : Serialization) :
    (Value.list (values (before ++ s :: after))).at? [.index before.length] = some s.value := by
  simp [Value.at?, Value.part?, Value.underMarks, Value.asList?, values_eq_map]

/-- A value shows under its key if it is the last with this key. -/
theorem at?_pairs {key : String} (v : Value) (before : List (String × Value))
    {after : List (String × Value)} (hlast : key ∉ after.map (·.1)) :
    (Value.map (Fields.ofList (before ++ (key, v) :: after))).at? [.key key] = some v := by
  have hget := Fields.get?_ofList_last v before hlast
  simp [Value.at?, Value.part?, Value.underMarks, Value.get?, Value.asMap?, hget]

/-- What a mapping with one key holds shows under the key. -/
theorem at?_tagged (variant : String) (v : Value) (place : List Label) :
    (Value.map [(variant, v)]).at? (.key variant :: place) = v.at? place := by
  simp [Value.at?, Value.part?, Value.underMarks, Value.get?, Value.asMap?, Fields.get?]

/-- A part shows at the place its frame leads to. -/
theorem at?_plug {f : Frame} (hf : f.Shows) (s : Serialization) :
    (f.plug s).value.at? f.place = some s.value := by
  cases f with
  | present => rfl
  | newtypeStruct name =>
    have hmark : LeafKind.ofMark? name = none := hf
    simp [plug, value, hmark, place, variant?, steps, Value.at?]
  | newtypeVariant variant => exact at?_tagged variant s.value []
  | seq before after => exact at?_items before after s
  | tuple before after => exact at?_items before after s
  | tupleStruct name before after => exact at?_items before after s
  | tupleVariant variant before after =>
    exact (at?_tagged variant _ _).trans (at?_items before after s)
  | key before v after => exact hf.elim
  | entry before key after =>
    rw [plug, value, entryValues_append, entryValues]
    exact at?_pairs s.value _ hf
  | record name before field after =>
    rw [plug, value, fieldValues_eq_map, List.map_append, List.map_cons]
    exact at?_pairs s.value _ (by rwa [List.map_map])
  | recordVariant variant before field after =>
    rw [plug, value, fieldValues_eq_map, List.map_append, List.map_cons]
    exact (at?_tagged variant _ _).trans (at?_pairs s.value _ (by rwa [List.map_map]))

end Frame

/-- A part shows at the place that its frames lead to. -/
theorem at?_within {context : List Frame} (hshows : ∀ f ∈ context, f.Shows) (s : Serialization) :
    (s.within context).value.at? (context.flatMap Frame.place) = some s.value := by
  induction context with
  | nil => rfl
  | cons f context ih =>
    obtain ⟨hf, hcontext⟩ := List.forall_mem_cons.mp hshows
    rw [List.flatMap_cons, Value.at?_append]
    exact (congrArg (Option.bind · _) (Frame.at?_plug hf _)).trans (ih hcontext)

end Serialization

end ScriptHost
