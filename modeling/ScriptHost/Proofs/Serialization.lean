import Mathlib
import ScriptHost.Proofs.CalendarText
import ScriptHost.Proofs.DecimalText
import ScriptHost.Proofs.Fields
import ScriptHost.Proofs.Places
import ScriptHost.Proofs.Serialization.Meaning

/-!
# What flattening makes of a serialization

A serialization is flattened exactly when all its parts are accepted and it has fields or is null,
and what comes out is what it stands for.
-/

namespace ScriptHost

/-! ## Leaves -/

/-- A kind is known by its mark. -/
theorem LeafKind.ofMark?_mark (kind : LeafKind) : ofMark? kind.mark = some kind := by
  cases kind <;> decide

/-- A leaf is read back from its text, though a decimal zero loses its sign. -/
theorem Leaf.read_text (l : Leaf) : l.kind.read l.text = .ok l.unsignZero.value := by
  cases l with
  | date d =>
    simp only [kind, text, LeafKind.read, Date.ofText_text]
    rfl
  | time t =>
    simp only [kind, text, LeafKind.read, Time.ofText_text]
    rfl
  | dateTime t =>
    simp only [kind, text, LeafKind.read, DateTime.ofText_text]
    rfl
  | decimal d =>
    simp only [kind, text, LeafKind.read, Decimal.ofText_text]
    rfl

/-- What a marked text reads as is a leaf. -/
theorem LeafKind.read_ok {kind : LeafKind} {text : String} {v : Value}
    (h : kind.read text = .ok v) : ∃ l : Leaf, v = l.value := by
  have hmap : ∀ {α : Type} {f : α → Value} {x : Except String α},
      x.map f = .ok v → ∃ a, v = f a := by
    intro α f x hx
    cases x with
    | error e => cases hx
    | ok a => exact ⟨a, (Except.ok.inj hx).symm⟩
  cases kind with
  | date =>
    obtain ⟨d, rfl⟩ := hmap h
    exact ⟨.date d, rfl⟩
  | time =>
    obtain ⟨t, rfl⟩ := hmap h
    exact ⟨.time t, rfl⟩
  | dateTime =>
    obtain ⟨t, rfl⟩ := hmap h
    exact ⟨.dateTime t, rfl⟩
  | decimal =>
    obtain ⟨d, rfl⟩ := hmap h
    exact ⟨.decimal d, rfl⟩

/-! ## Integers of the narrower kind -/

/-- Fields are tight when each of them is. -/
theorem areFieldsTight_iff (fields : List (String × Value)) :
    AreFieldsTight fields ↔ ∀ p ∈ fields, p.2.HasTightIntegers := by
  induction fields with
  | nil => simp [AreFieldsTight]
  | cons field rest ih => rw [AreFieldsTight, ih, List.forall_mem_cons]

/-- A mapping made from tight fields is tight. -/
theorem AreFieldsTight.ofList {pairs : List (String × Value)} (h : AreFieldsTight pairs) :
    AreFieldsTight (Fields.ofList pairs) := by
  rw [areFieldsTight_iff] at h ⊢
  exact fun p hp => h p (Fields.mem_ofList hp)

namespace Serialization

/-! ## Flattening -/

/-- A marked part that reads is a leaf. -/
theorem marked?_eq_some {kind : LeafKind} {s : Serialization} {v : Value}
    (h : s.marked? kind = some v) :
    ∃ (text : String) (l : Leaf), s.text? = some text ∧ kind.read text = .ok v ∧ v = l.value := by
  obtain ⟨text, htext, hread⟩ := Option.bind_eq_some_iff.mp h
  cases hok : kind.read text with
  | error e =>
    rw [hok] at hread
    cases hread
  | ok w =>
    rw [hok] at hread
    obtain rfl : w = v := Option.some.inj hread
    obtain ⟨l, hl⟩ := LeafKind.read_ok hok
    exact ⟨text, l, htext, hok, hl⟩

/-- A part under a mark stands for a leaf. -/
theorem value_newtypeStruct_mark {name : String} {kind : LeafKind} {s : Serialization}
    (hmark : LeafKind.ofMark? name = some kind) (h : (s.marked? kind).isSome = true) :
    ∃ l : Leaf, (newtypeStruct name s).value = l.value := by
  obtain ⟨v, hv⟩ := Option.isSome_iff_exists.mp h
  obtain ⟨_, l, _, _, hl⟩ := marked?_eq_some hv
  refine ⟨l, ?_⟩
  rw [value, hmark]
  simp only [hv, Option.getD_some, hl]

/-- An accepted serialization is a text exactly when its host value is one. -/
theorem value_eq_string_iff {s : Serialization} (h : s.Accepted) (text : String) :
    s.value = .string text ↔ s.text? = some text := by
  match s with
  | present s => exact value_eq_string_iff (s := s) h text
  | newtypeStruct name s =>
    cases hmark : LeafKind.ofMark? name with
    | none =>
      have hinner := value_eq_string_iff h.1 text
      simpa [value, text?, hmark] using hinner
    | some kind =>
      obtain ⟨l, hl⟩ := value_newtypeStruct_mark hmark (h.2 kind hmark)
      rw [hl]
      cases l <;> simp [text?, hmark, Leaf.value]
  | int _ _ i _ =>
    rw [value]
    split <;> simp [text?]
  | leaf l => cases l <;> simp [value, text?, Leaf.value, Leaf.unsignZero]
  | leafOption l =>
    cases l with
    | none => simp [value, text?]
    | some l => cases l <;> simp [value, text?, Leaf.value, Leaf.unsignZero]
  | bool _ | single _ | double _ | char _ | .text _ | bytes _ | absent | unit | unitStruct _
  | unitVariant _ | newtypeVariant _ _ | seq _ | tuple _ | tupleStruct _ _ | tupleVariant _ _
  | map _ | record _ _ | recordVariant _ _ | refused _ => simp [value, text?]

/-- The key of an accepted serialization has its text, if it has one. -/
theorem keyText_value {s : Serialization} (h : s.Accepted) :
    (Bean.keyText s.value).toOption = s.keyText? := by
  match s with
  | present s => exact keyText_value (s := s) h
  | newtypeStruct name s =>
    cases hmark : LeafKind.ofMark? name with
    | none =>
      have hinner := keyText_value h.1
      simpa [value, keyText?, hmark] using hinner
    | some kind =>
      obtain ⟨l, hl⟩ := value_newtypeStruct_mark hmark (h.2 kind hmark)
      rw [hl]
      cases l <;> simp [keyText?, hmark, Leaf.value, Bean.keyText, Bean.problem, Except.toOption]
  | int _ _ i _ =>
    rw [value]
    split <;> rfl
  | leaf l => cases l <;> rfl
  | leafOption l =>
    cases l with
    | none => rfl
    | some l => cases l <;> rfl
  | bool _ | single _ | double _ | char _ | .text _ | bytes _ | absent | unit | unitStruct _
  | unitVariant _ | newtypeVariant _ _ | seq _ | tuple _ | tupleStruct _ _ | tupleVariant _ _
  | map _ | record _ _ | recordVariant _ _ | refused _ => rfl

/-- A result that is a value if a condition holds, and a fault if it does not. -/
def Settles {α : Type} (accepted : Prop) (result : α) (r : Except BeanFault α) : Prop :=
  (accepted ∧ r = .ok result) ∨ (¬accepted ∧ ∃ fault, r = .error fault)

/-- A value where the condition holds. -/
theorem Settles.ok {α : Type} {accepted : Prop} {result : α} (h : accepted) :
    Settles accepted result (.ok result) :=
  .inl ⟨h, rfl⟩

/-- A fault where the condition fails. -/
theorem Settles.error {α : Type} {accepted : Prop} {result : α} (h : ¬accepted)
    (fault : BeanFault) : Settles accepted result (.error fault) :=
  .inr ⟨h, fault, rfl⟩

/-- A settled result stays settled when its value is changed. -/
theorem Settles.map {α β : Type} {accepted : Prop} {result : α} {r : Except BeanFault α}
    (h : Settles accepted result r) (f : α → β) : Settles accepted (f result) (r.map f) := by
  rcases h with ⟨h, rfl⟩ | ⟨h, fault, rfl⟩
  · exact .ok h
  · exact .error h fault

/-- What a part of one becomes, given what its content became. -/
theorem settles_newtypeStruct {name : String} {s : Serialization}
    (h : Settles s.Accepted s.value (Bean.flattenValue s.bean)) :
    Settles (newtypeStruct name s).Accepted (newtypeStruct name s).value
      (Bean.flattenValue (newtypeStruct name s).bean) := by
  rw [bean, Bean.flattenValue, value, Accepted]
  rcases h with ⟨h, heq⟩ | ⟨h, fault, heq⟩
  · simp only [heq]
    cases hmark : LeafKind.ofMark? name with
    | none =>
      simp only [Bean.leafValue, hmark]
      exact .ok ⟨h, by simp⟩
    | some kind =>
      have hiff := value_eq_string_iff h
      cases htext : s.text? with
      | none =>
        have hmarked : s.marked? kind = none := by rw [marked?, htext]; rfl
        have hrefused : ¬(s.Accepted ∧
            ∀ k, some kind = some k → (s.marked? k).isSome = true) := by
          rintro ⟨-, hall⟩
          have hsome := hall kind rfl
          rw [hmarked] at hsome
          cases hsome
        have hnot : ∀ text, s.value ≠ .string text := by
          intro text hvalue
          rw [(hiff text).mp hvalue] at htext
          cases htext
        simp only [Bean.leafValue, hmark, Bean.problem]
        exact .error hrefused _
      | some text =>
        simp only [Bean.leafValue, hmark, (hiff text).mpr htext]
        cases hread : kind.read text with
        | error reason =>
          have hmarked : s.marked? kind = none := by
            simp [marked?, htext, hread, Except.toOption]
          refine .error ?_ _
          rintro ⟨-, hall⟩
          have hsome := hall kind rfl
          rw [hmarked] at hsome
          cases hsome
        | ok v =>
          have hmarked : s.marked? kind = some v := by
            simp [marked?, htext, hread, Except.toOption]
          have hall : ∀ k, some kind = some k → (s.marked? k).isSome = true := by
            intro k hk
            rw [← Option.some.inj hk, hmarked]
            rfl
          simp only [hmarked, Option.getD_some]
          exact .ok ⟨h, hall⟩
  · simp only [heq]
    exact .error (fun haccepted => h haccepted.1) fault

/-- What a marked leaf becomes. -/
theorem flattenValue_leaf (l : Leaf) : Bean.flattenValue l.bean = .ok l.unsignZero.value := by
  simp [Leaf.bean, Bean.flattenValue, Bean.leafValue, LeafKind.ofMark?_mark, Leaf.read_text]

mutual

/-- A serialization is flattened to its host value exactly when it is accepted. -/
theorem settles_flattenValue (s : Serialization) :
    Settles s.Accepted s.value (Bean.flattenValue s.bean) := by
  match s with
  | present s =>
    rw [bean, Bean.flattenValue, value, Accepted]
    exact settles_flattenValue s
  | newtypeStruct name s => exact settles_newtypeStruct (settles_flattenValue s)
  | newtypeVariant variant s =>
    rw [bean, Bean.flattenValue, value, Accepted]
    rcases settles_flattenValue s with ⟨h, heq⟩ | ⟨h, fault, heq⟩
    · simp only [heq]
      exact .ok h
    · simp only [heq]
      exact .error h _
  | seq items =>
    rw [bean, Bean.flattenValue, value, Accepted]
    exact (settles_flattenItems items 0).map Value.list
  | tuple items =>
    rw [bean, Bean.flattenValue, value, Accepted]
    exact (settles_flattenItems items 0).map Value.list
  | tupleStruct _ items =>
    rw [bean, Bean.flattenValue, value, Accepted]
    exact (settles_flattenItems items 0).map Value.list
  | tupleVariant variant items =>
    rw [bean, Bean.flattenValue, value, Accepted]
    exact (settles_flattenItems items 0).map fun vs => Bean.tagged variant (.list vs)
  | map entries =>
    rw [bean, Bean.flattenValue, value, Accepted]
    exact (settles_flattenEntries entries []).map Value.map
  | record _ fields =>
    rw [bean, Bean.flattenValue, value, Accepted]
    exact (settles_flattenFields fields []).map Value.map
  | recordVariant variant fields =>
    rw [bean, Bean.flattenValue, value, Accepted]
    exact (settles_flattenFields fields []).map fun vs => Bean.tagged variant (.map vs)
  | leaf l =>
    rw [bean, value, flattenValue_leaf]
    exact .ok trivial
  | leafOption (some l) =>
    rw [bean, value, Bean.flattenValue, flattenValue_leaf]
    exact .ok trivial
  | refused message => exact .error id _
  | bytes bs =>
    rw [bean, Bean.flattenValue, value, List.map_map]
    exact .ok trivial
  | bool _ | int _ _ _ _ | single _ | double _ | char _ | .text _ | absent | unit | unitStruct _
  | unitVariant _ | leafOption none => exact .ok trivial

/-- Items are flattened to their host values exactly when all are accepted. -/
theorem settles_flattenItems (items : List Serialization) (index : ℕ) :
    Settles (AcceptedItems items) (values items) (Bean.flattenItems index (beans items)) := by
  match items with
  | [] => exact .ok trivial
  | s :: rest =>
    rw [beans, Bean.flattenItems, values, AcceptedItems]
    rcases settles_flattenValue s with ⟨h, heq⟩ | ⟨h, fault, heq⟩
    · simp only [heq]
      rcases settles_flattenItems rest (index + 1) with ⟨hrest, heq⟩ | ⟨hrest, fault, heq⟩
      · simp only [heq]
        exact .ok ⟨h, hrest⟩
      · simp only [heq]
        exact .error (fun haccepted => hrest haccepted.2) _
    · simp only [heq]
      exact .error (fun haccepted => h haccepted.1) _

/-- Entries are flattened to their host values, one written over the other, exactly when all are
accepted. -/
theorem settles_flattenEntries (entries : List (Option Serialization × Serialization))
    (done : List (String × Value)) :
    Settles (AcceptedEntries entries)
      ((entryValues entries).foldl (fun fields p => Fields.insert p.1 p.2 fields) done)
      (Bean.flattenEntries done (entryBeans entries)) := by
  match entries with
  | [] => exact .ok trivial
  | (none, s) :: rest => exact .error id _
  | (some key, s) :: rest =>
    rw [entryBeans, Bean.flattenEntries, entryValues, AcceptedEntries]
    rcases settles_flattenValue key with ⟨hkey, heq⟩ | ⟨hkey, fault, heq⟩
    · simp only [heq]
      have htext := keyText_value hkey
      cases hread : Bean.keyText key.value with
      | error fault =>
        rw [hread] at htext
        refine .error ?_ _
        rintro ⟨-, hsome, -⟩
        rw [← htext] at hsome
        cases hsome
      | ok k =>
        have hk : key.keyText? = some k := by rw [← htext, hread]; rfl
        simp only [hk]
        rcases settles_flattenValue s with ⟨h, heq⟩ | ⟨h, fault, heq⟩
        · simp only [heq]
          rcases settles_flattenEntries rest (Fields.insert k s.value done) with
            ⟨hrest, heq⟩ | ⟨hrest, fault, heq⟩
          · exact .inl ⟨⟨hkey, rfl, h, hrest⟩, heq⟩
          · exact .inr ⟨fun haccepted => hrest haccepted.2.2.2, fault, heq⟩
        · simp only [heq]
          exact .error (fun haccepted => h haccepted.2.2.1) _
    · simp only [heq]
      exact .error (fun haccepted => hkey haccepted.1) _

/-- Fields are flattened to their host values, one written over the other, exactly when all are
accepted. -/
theorem settles_flattenFields (fields : List (String × Serialization))
    (done : List (String × Value)) :
    Settles (AcceptedFields fields)
      ((fieldValues fields).foldl (fun fields p => Fields.insert p.1 p.2 fields) done)
      (Bean.flattenFields done (fieldBeans fields)) := by
  match fields with
  | [] => exact .ok trivial
  | (name, s) :: rest =>
    rw [fieldBeans, Bean.flattenFields, fieldValues, AcceptedFields]
    rcases settles_flattenValue s with ⟨h, heq⟩ | ⟨h, fault, heq⟩
    · simp only [heq]
      rcases settles_flattenFields rest (Fields.insert name s.value done) with
        ⟨hrest, heq⟩ | ⟨hrest, fault, heq⟩
      · exact .inl ⟨⟨h, hrest⟩, heq⟩
      · exact .inr ⟨fun haccepted => hrest haccepted.2, fault, heq⟩
    · simp only [heq]
      exact .error (fun haccepted => h haccepted.1) _

end

/-! ## The host value as JSON -/

/-- The JSON of a leaf is its text. -/
theorem toJson_leafValue (l : Leaf) : l.value.toJson = .string l.text := by
  cases l <;> rfl

/-- The JSON of a mapping made from pairs. -/
theorem toJson_ofList (pairs : List (String × Value)) :
    (Value.map (Fields.ofList pairs)).toJson =
      .object (Fields.ofList (pairs.map fun p => (p.1, p.2.toJson))) := by
  rw [Value.toJson_map, Fields.ofList_map]

mutual

/-- The JSON of the host value is the document of the serialization. -/
theorem toJson_value (s : Serialization) : s.value.toJson = s.document := by
  match s with
  | int _ _ i _ =>
    rw [value, document]
    split
    · rfl
    · next hfits => simp [Value.toJson, hfits]
  | bytes bs =>
    rw [value, document, Value.toJson_list, List.map_map]
    rfl
  | present s => exact toJson_value s
  | newtypeStruct name s =>
    rw [value, document]
    split
    · exact toJson_value s
    · next kind hmark =>
      cases s.marked? kind <;> rfl
  | newtypeVariant variant s =>
    rw [value, document, Value.toJson, Value.toJsonFields, Value.toJsonFields, toJson_value s]
  | seq items => rw [value, document, Value.toJson, toJsonItems_values items]
  | tuple items => rw [value, document, Value.toJson, toJsonItems_values items]
  | tupleStruct _ items => rw [value, document, Value.toJson, toJsonItems_values items]
  | tupleVariant variant items =>
    rw [value, document, Value.toJson, Value.toJsonFields, Value.toJsonFields, Value.toJson,
      toJsonItems_values items]
  | map entries => rw [value, document, toJson_ofList, toJson_entryValues entries]
  | record _ fields => rw [value, document, toJson_ofList, toJson_fieldValues fields]
  | recordVariant variant fields =>
    rw [value, document, Value.toJson, Value.toJsonFields, Value.toJsonFields, toJson_ofList,
      toJson_fieldValues fields]
  | leaf l => rw [value, document, toJson_leafValue]
  | leafOption (some l) => rw [value, document, toJson_leafValue]
  | bool _ | single _ | double _ | char _ | .text _ | absent | unit | unitStruct _
  | unitVariant _ | leafOption none | refused _ => rfl

/-- The JSON of the host values of items. -/
theorem toJsonItems_values (items : List Serialization) :
    Value.toJsonItems (values items) = documents items := by
  match items with
  | [] => rfl
  | s :: rest => rw [values, documents, Value.toJsonItems, toJson_value s, toJsonItems_values rest]

/-- The JSON of the host values of entries. -/
theorem toJson_entryValues (entries : List (Option Serialization × Serialization)) :
    (entryValues entries).map (fun p => (p.1, p.2.toJson)) = entryDocuments entries := by
  match entries with
  | [] => rfl
  | (none, s) :: rest => exact toJson_entryValues rest
  | (some key, s) :: rest =>
    rw [entryValues, entryDocuments, List.map_cons, toJson_value s, toJson_entryValues rest]

/-- The JSON of the host values of fields. -/
theorem toJson_fieldValues (fields : List (String × Serialization)) :
    (fieldValues fields).map (fun p => (p.1, p.2.toJson)) = fieldDocuments fields := by
  match fields with
  | [] => rfl
  | (name, s) :: rest =>
    rw [fieldValues, fieldDocuments, List.map_cons, toJson_value s, toJson_fieldValues rest]

end

/-! ## The integers in the host value -/

/-- The byte of a sequence fits 64 bits. -/
theorem areTight_bytes (bs : List UInt8) :
    AreTight (bs.map fun b => Value.int (b.toNat : Int)) := by
  induction bs with
  | nil => trivial
  | cons b rest ih =>
    have hlt := b.toNat_lt
    refine ⟨?_, ih⟩
    rw [Value.HasTightIntegers, fitsInt64, minInt64, maxInt64]
    simp only [Bool.and_eq_true, decide_eq_true_eq]
    omega

/-- A leaf holds no integer. -/
theorem hasTightIntegers_leafValue (l : Leaf) : l.value.HasTightIntegers := by
  cases l <;> trivial

/-- A part under a mark holds no integer. -/
theorem hasTightIntegers_marked (s : Serialization) (kind : LeafKind) :
    ((s.marked? kind).getD .null).HasTightIntegers := by
  cases hmarked : s.marked? kind with
  | none => trivial
  | some v =>
    obtain ⟨_, l, _, _, rfl⟩ := marked?_eq_some hmarked
    exact hasTightIntegers_leafValue l

mutual

/-- Integers in the host value of a serialization are of the narrower kind wherever they fit. -/
theorem hasTightIntegers_value (s : Serialization) : s.value.HasTightIntegers := by
  match s with
  | int _ _ i _ =>
    rw [value]
    split
    · next hfits => exact hfits
    · next hfits => exact Bool.eq_false_iff.mpr hfits
  | bytes bs => exact areTight_bytes bs
  | present s => exact hasTightIntegers_value s
  | newtypeStruct name s =>
    rw [value]
    split
    · exact hasTightIntegers_value s
    · exact hasTightIntegers_marked s _
  | newtypeVariant variant s => exact ⟨hasTightIntegers_value s, trivial⟩
  | seq items => exact areTight_values items
  | tuple items => exact areTight_values items
  | tupleStruct _ items => exact areTight_values items
  | tupleVariant variant items => exact ⟨areTight_values items, trivial⟩
  | map entries => exact (areFieldsTight_entryValues entries).ofList
  | record _ fields => exact (areFieldsTight_fieldValues fields).ofList
  | recordVariant variant fields =>
    exact ⟨(areFieldsTight_fieldValues fields).ofList, trivial⟩
  | leaf l => exact hasTightIntegers_leafValue l.unsignZero
  | leafOption (some l) => exact hasTightIntegers_leafValue l.unsignZero
  | bool _ | single _ | double _ | char _ | .text _ | absent | unit | unitStruct _
  | unitVariant _ | leafOption none | refused _ => trivial

/-- Integers in the host values of items are of the narrower kind wherever they fit. -/
theorem areTight_values (items : List Serialization) : AreTight (values items) := by
  match items with
  | [] => trivial
  | s :: rest => exact ⟨hasTightIntegers_value s, areTight_values rest⟩

/-- Integers in the host values of entries are of the narrower kind wherever they fit. -/
theorem areFieldsTight_entryValues (entries : List (Option Serialization × Serialization)) :
    AreFieldsTight (entryValues entries) := by
  match entries with
  | [] => trivial
  | (none, _) :: rest => exact areFieldsTight_entryValues rest
  | (some _, s) :: rest => exact ⟨hasTightIntegers_value s, areFieldsTight_entryValues rest⟩

/-- Integers in the host values of fields are of the narrower kind wherever they fit. -/
theorem areFieldsTight_fieldValues (fields : List (String × Serialization)) :
    AreFieldsTight (fieldValues fields) := by
  match fields with
  | [] => trivial
  | (_, s) :: rest => exact ⟨hasTightIntegers_value s, areFieldsTight_fieldValues rest⟩

end

/-! ## The root -/

/-- The kind of an accepted root: null, fields or neither. -/
theorem value_root {s : Serialization} (h : s.Accepted) :
    s.value.isNull = s.isNull ∧ s.value.asMap?.isSome = s.hasFields := by
  match s with
  | present s => exact value_root (s := s) h
  | newtypeStruct name s =>
    cases hmark : LeafKind.ofMark? name with
    | none =>
      have hinner := value_root h.1
      simpa [value, isNull, hasFields, hmark] using hinner
    | some kind =>
      obtain ⟨l, hl⟩ := value_newtypeStruct_mark hmark (h.2 kind hmark)
      rw [hl]
      cases l <;> simp [isNull, hasFields, hmark, Leaf.value, Value.isNull, Value.asMap?]
  | int _ _ i _ =>
    rw [value]
    split <;> exact ⟨rfl, rfl⟩
  | leaf l => cases l <;> exact ⟨rfl, rfl⟩
  | leafOption (some l) => cases l <;> exact ⟨rfl, rfl⟩
  | bool _ | single _ | double _ | char _ | .text _ | bytes _ | absent | unit | unitStruct _
  | unitVariant _ | newtypeVariant _ _ | seq _ | tuple _ | tupleStruct _ _ | tupleVariant _ _
  | map _ | record _ _ | recordVariant _ _ | leafOption none => exact ⟨rfl, rfl⟩
  | refused _ => exact h.elim

/-- The result of flattening an accepted serialization. -/
theorem flatten_of_accepted {s : Serialization} (h : s.Accepted)
    (heq : Bean.flattenValue s.bean = .ok s.value) :
    (s.bean.flatten = .ok none ↔ s.isNull = true) ∧
      ∀ m, s.bean.flatten = .ok (some m) ↔ Value.map m = s.value := by
  rw [← (value_root h).1, Bean.flatten, heq]
  cases s.value <;> simp [Value.isNull, eq_comm]

/-- **Flattening gives the JSON of a serialization.** A serialization flattens to nothing exactly
when every part is accepted and the root is null, and to fields exactly when every part is accepted
and the root has fields. The fields are the host value of the serialization, they read as its
document, and their integers are of the narrower kind wherever they fit and of the wider one
elsewhere. -/
theorem flatten_bean (s : Serialization) :
    (s.bean.flatten = .ok none ↔ s.Accepted ∧ s.isNull = true) ∧
    ((∃ m, s.bean.flatten = .ok (some m)) ↔ s.Accepted ∧ s.hasFields = true) ∧
    ∀ m, s.bean.flatten = .ok (some m) →
      Value.map m = s.value ∧ (Value.map m).toJson = s.document ∧
        (Value.map m).HasTightIntegers := by
  rcases settles_flattenValue s with ⟨h, heq⟩ | ⟨h, fault, heq⟩
  · obtain ⟨hnull, hfields⟩ := flatten_of_accepted h heq
    refine ⟨by simp [hnull, h], ?_, ?_⟩
    · rw [← (value_root h).2]
      simp only [hfields, h, true_and]
      cases s.value <;> simp [Value.asMap?]
    · intro m hm
      have hvalue := (hfields m).mp hm
      rw [hvalue]
      exact ⟨rfl, toJson_value s, hasTightIntegers_value s⟩
  · have hfault : s.bean.flatten = .error fault.failure := by rw [Bean.flatten, heq]
    refine ⟨?_, ?_, ?_⟩
    · simp [hfault, h]
    · simp [hfault, h]
    · intro m hm
      rw [hfault] at hm
      cases hm

end Serialization

end ScriptHost
