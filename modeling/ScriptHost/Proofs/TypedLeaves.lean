import Mathlib
import ScriptHost.Proofs.Serialization.Frames

/-!
# Leaves that keep their kind

A date, a time or a decimal is written as a marked text, which is read back as the value that was
written. So it never keeps a bean from being flattened, and it shows in the host value, wherever in
the bean it stands.
-/

namespace ScriptHost

namespace Serialization

/-- Two serializations that are the same to what stands around them. -/
structure Interchangeable (s t : Serialization) : Prop where
  /-- One is accepted when the other is. -/
  accepted : s.Accepted ↔ t.Accepted
  /-- They are the same text, or neither is one. -/
  text : s.text? = t.text?
  /-- They have the same text as keys, or neither has one. -/
  keyText : s.keyText? = t.keyText?

namespace Interchangeable

variable {s t : Serialization}

/-- In the same frame, interchangeable serializations are interchangeable. -/
theorem plug (h : Interchangeable s t) (f : Frame) : Interchangeable (f.plug s) (f.plug t) := by
  cases f with
  | present => exact ⟨h.accepted, h.text, h.keyText⟩
  | newtypeStruct name =>
    refine ⟨?_, ?_, ?_⟩
    · simp only [Frame.plug, Accepted, marked?, h.accepted, h.text]
    · simp only [Frame.plug, text?, h.text]
    · simp only [Frame.plug, keyText?, h.keyText]
  | newtypeVariant variant => exact ⟨h.accepted, rfl, rfl⟩
  | seq before after | tuple before after | tupleStruct name before after
  | tupleVariant variant before after =>
    refine ⟨?_, rfl, rfl⟩
    simp only [Frame.plug, Accepted, acceptedItems_append_cons, h.accepted]
  | key before v after | entry before k after =>
    refine ⟨?_, rfl, rfl⟩
    simp only [Frame.plug, Accepted, acceptedEntries_append, AcceptedEntries, h.accepted, h.keyText]
  | record name before field after | recordVariant variant before field after =>
    refine ⟨?_, rfl, rfl⟩
    simp only [Frame.plug, Accepted, acceptedFields_append_cons, h.accepted]

/-- Inside of the same frames, interchangeable serializations are interchangeable. -/
theorem within (h : Interchangeable s t) (context : List Frame) :
    Interchangeable (s.within context) (t.within context) := by
  induction context with
  | nil => exact h
  | cons f context ih => exact ih.plug f

end Interchangeable

/-- A field that keeps its kind, with the value that it stands for: a leaf, or an option of such a
field. -/
inductive IsTyped : Serialization → Value → Prop
  /-- A leaf. -/
  | leaf (l : Leaf) : IsTyped (leaf l) l.unsignZero.value
  /-- An optional leaf. -/
  | leafOption (l : Leaf) : IsTyped (leafOption (some l)) l.unsignZero.value
  /-- An optional leaf that is not there. -/
  | none : IsTyped (leafOption none) .null
  /-- A filled option of a field. -/
  | some {s : Serialization} {v : Value} (h : IsTyped s v) : IsTyped (present s) v

namespace IsTyped

variable {s : Serialization} {v : Value}

/-- A field that keeps its kind is as good as an empty option to what stands around it. -/
theorem interchangeable (h : IsTyped s v) : Interchangeable s absent := by
  induction h with
  | leaf l => exact ⟨Iff.rfl, rfl, rfl⟩
  | leafOption l => exact ⟨Iff.rfl, rfl, rfl⟩
  | none => exact ⟨Iff.rfl, rfl, rfl⟩
  | some h ih => exact ⟨ih.accepted, ih.text, ih.keyText⟩

/-- The host value of a field that keeps its kind. -/
theorem value_eq (h : IsTyped s v) : s.value = v := by
  induction h with
  | leaf l => rfl
  | leafOption l => rfl
  | none => rfl
  | some h ih => exact ih

end IsTyped

/-- A type of one part under a name that is no mark becomes its content. -/
theorem flattenValue_newtypeStruct {name : String} (hname : LeafKind.ofMark? name = none)
    (s : Serialization) :
    Bean.flattenValue (newtypeStruct name s).bean = Bean.flattenValue s.bean := by
  rw [bean, Bean.flattenValue]
  cases Bean.flattenValue s.bean with
  | error e => rfl
  | ok v => simp only [Bean.leafValue, hname]

/-- A leaf without the sign of zero is the leaf, unless it is a negative zero. -/
theorem unsignZero_cases (l : Leaf) :
    l.unsignZero = l ∨ ∃ d : Decimal, l = .decimal d ∧ d.mantissa = 0 ∧ d.negative = true ∧
      l.unsignZero = .decimal { d with negative := false } := by
  cases l with
  | date d => exact .inl rfl
  | time t => exact .inl rfl
  | dateTime t => exact .inl rfl
  | decimal d =>
    by_cases hzero : d.mantissa = 0 ∧ d.negative = true
    · exact .inr ⟨d, rfl, hzero.1, hzero.2, by simp [Leaf.unsignZero, Decimal.unsignZero, hzero.1]⟩
    · left
      have hsign : (d.negative && d.mantissa != 0) = d.negative := by
        cases hnegative : d.negative with
        | false => rfl
        | true => simpa [hnegative] using hzero
      rw [Leaf.unsignZero, Decimal.unsignZero, hsign]

/-- **Typed leaves are exact.** The text of a leaf is read by the reader of its mark as the leaf,
though a negative decimal zero loses its sign. A type of one part under any other name becomes its
content. A leaf becomes its value and an empty option null; inside of whatever frames, such a field
no more keeps the whole from being flattened than an empty option does, and where the whole is
flattened, the value shows at its place. -/
theorem typed_leaves_exact :
    (∀ l : Leaf, LeafKind.ofMark? l.kind.mark = some l.kind ∧
      l.kind.read l.text = .ok l.unsignZero.value ∧
      (l.unsignZero = l ∨ ∃ d : Decimal, l = .decimal d ∧ d.mantissa = 0 ∧ d.negative = true ∧
        l.unsignZero = .decimal { d with negative := false })) ∧
    (∀ name s, LeafKind.ofMark? name = none →
      Bean.flattenValue (newtypeStruct name s).bean = Bean.flattenValue s.bean) ∧
    ∀ s v, IsTyped s v → Bean.flattenValue s.bean = .ok v ∧
      ∀ context : List Frame,
        ((∃ w, Bean.flattenValue (s.within context).bean = .ok w) ↔
          ∃ w, Bean.flattenValue (absent.within context).bean = .ok w) ∧
        ((∀ f ∈ context, f.Shows) → ∀ w, Bean.flattenValue (s.within context).bean = .ok w →
          w.at? (context.flatMap Frame.place) = some v) := by
  refine ⟨fun l => ⟨l.kind.ofMark?_mark, l.read_text, unsignZero_cases l⟩,
    fun name s hname => flattenValue_newtypeStruct hname s, fun s v h => ?_⟩
  have haccepted : s.Accepted := h.interchangeable.accepted.mpr trivial
  refine ⟨flattenValue_eq_ok_iff.mpr ⟨haccepted, h.value_eq.symm⟩, fun context => ⟨?_, ?_⟩⟩
  · simp only [flattenValue_eq_ok_iff, exists_and_left, exists_eq, and_true]
    exact (h.interchangeable.within context).accepted
  · intro hshows w hw
    obtain ⟨-, rfl⟩ := flattenValue_eq_ok_iff.mp hw
    rw [at?_within hshows, h.value_eq]

/-- An optional leap second in a variant of several parts, in a sequence, in a field of a record. -/
theorem typed_leaves_exact_leap :
    let t : Leaf := .dateTime ⟨⟨262142, 12, 31, by decide⟩, ⟨23, 59, 59, 1999999999, by decide⟩⟩
    let context : List Frame := [.record "Bean" [("n", .text "x")] "log" [("m", .absent)],
      .newtypeStruct "Log", .seq [.unit] [.bool true], .tupleVariant "At" [.double 0.5] []]
    Bean.flattenValue (newtypeStruct "Log" (leaf t)).bean = Bean.flattenValue (leaf t).bean ∧
      Bean.flattenValue (leafOption (some t)).bean = .ok t.value ∧
      ∃ w, Bean.flattenValue ((leafOption (some t)).within context).bean = .ok w ∧
        w.at? [.key "log", .index 1, .key "At", .index 1] = some t.value := by
  intro t context
  have hname : LeafKind.ofMark? "Log" = none := by decide
  obtain ⟨-, hcontent, htyped⟩ := typed_leaves_exact
  obtain ⟨hleaf, hwithin⟩ := htyped _ _ (.leafOption t)
  have hshows : ∀ f ∈ context, f.Shows := by simp [context, Frame.Shows, hname]
  have habsent : (absent.within context).Accepted := by
    simp [context, within, Frame.plug, Accepted, AcceptedFields, AcceptedItems, hname]
  obtain ⟨w, hw⟩ := (hwithin context).1.mpr ⟨_, flattenValue_of_accepted habsent⟩
  exact ⟨hcontent "Log" (leaf t) hname, hleaf, w, hw, (hwithin context).2 hshows w hw⟩

end Serialization

end ScriptHost
