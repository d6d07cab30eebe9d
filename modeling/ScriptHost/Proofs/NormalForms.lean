import Mathlib
import ScriptHost.Proofs.Places

/-!
# JSON and back

A JSON document read as a host value and written again has its integers above 64 bits spelled out
and is otherwise the same. What is written has no number for which this would matter, so writing it
a second time changes nothing.
-/

namespace ScriptHost

namespace Json

/-! ## Documents and normal forms -/

/-- A fact on JSON values holds when it holds for every container of values for which it does. -/
@[elab_as_elim]
theorem inductionOn {motive : Json → Prop} (j : Json) (null : motive null)
    (bool : ∀ b, motive (bool b)) (int : ∀ i, motive (int i)) (float : ∀ x, motive (float x))
    (string : ∀ s, motive (string s))
    (array : ∀ items, (∀ j ∈ items, motive j) → motive (array items))
    (object : ∀ fields, (∀ p ∈ fields, motive p.2) → motive (object fields)) : motive j :=
  @Json.rec motive (fun items => ∀ j ∈ items, motive j) (fun fields => ∀ p ∈ fields, motive p.2)
    (fun p => motive p.2) null bool int float string array object nofun
    (fun _ _ hfirst hrest => List.forall_mem_cons.mpr ⟨hfirst, hrest⟩) nofun
    (fun _ _ hfirst hrest => List.forall_mem_cons.mpr ⟨hfirst, hrest⟩) (fun _ _ h => h) j

mutual

/-- Every scalar in the value is of the kind given. -/
def Scalars (kind : Json → Prop) : Json → Prop
  | array items => ItemScalars kind items
  | object fields => FieldScalars kind fields
  | j => kind j

/-- `Json.Scalars` of every item. -/
def ItemScalars (kind : Json → Prop) : List Json → Prop
  | [] => True
  | j :: rest => j.Scalars kind ∧ ItemScalars kind rest

/-- `Json.Scalars` of every field. -/
def FieldScalars (kind : Json → Prop) : List (String × Json) → Prop
  | [] => True
  | (_, j) :: rest => j.Scalars kind ∧ FieldScalars kind rest

end

/-- The scalars of an array are those of its items. -/
theorem scalars_array {kind : Json → Prop} {items : List Json} :
    (array items).Scalars kind ↔ ∀ j ∈ items, j.Scalars kind := by
  rw [Scalars]
  induction items with
  | nil => simp [ItemScalars]
  | cons j rest ih => rw [ItemScalars, ih, List.forall_mem_cons]

/-- The scalars of an object are those of its fields. -/
theorem scalars_object {kind : Json → Prop} {fields : List (String × Json)} :
    (object fields).Scalars kind ↔ ∀ p ∈ fields, p.2.Scalars kind := by
  rw [Scalars]
  induction fields with
  | nil => simp [FieldScalars]
  | cons p rest ih => rw [FieldScalars, ih, List.forall_mem_cons]

/-- The scalars a document may have: integers of 64 bits, with or without a sign, and finite
numbers. -/
def IsDocumentScalar : Json → Prop
  | int i => minInt64 ≤ i ∧ i < 2 ^ 64
  | float x => Double.isFinite x = true
  | _ => True

/-- A JSON document. -/
def IsDocument (j : Json) : Prop := j.Scalars IsDocumentScalar

/-- The scalars a normal form may have: integers of 64 bits with a sign and finite numbers. -/
def IsNormalScalar : Json → Prop
  | int i => fitsInt64 i = true
  | float x => Double.isFinite x = true
  | _ => True

/-- A document whose integers are all of 64 bits with a sign. -/
def IsNormal (j : Json) : Prop := j.Scalars IsNormalScalar

mutual

/-- The value with every integer above 64 bits spelled out. -/
def spelled : Json → Json
  | int i => if maxInt64 < i then string (toString i) else int i
  | array items => array (spelledItems items)
  | object fields => object (spelledFields fields)
  | j => j

/-- `Json.spelled` of every item. -/
def spelledItems : List Json → List Json
  | [] => []
  | j :: rest => j.spelled :: spelledItems rest

/-- `Json.spelled` of every field. -/
def spelledFields : List (String × Json) → List (String × Json)
  | [] => []
  | (k, j) :: rest => (k, j.spelled) :: spelledFields rest

end

/-- An array is spelled item by item. -/
theorem spelled_array (items : List Json) : (array items).spelled = array (items.map spelled) := by
  have hitems : spelledItems items = items.map spelled := by
    induction items with
    | nil => rfl
    | cons j rest ih => rw [spelledItems, List.map_cons, ih]
  rw [spelled, hitems]

/-- An object is spelled field by field. -/
theorem spelled_object (fields : List (String × Json)) :
    (object fields).spelled = object (fields.map fun p => (p.1, p.2.spelled)) := by
  have hfields : spelledFields fields = fields.map fun p => (p.1, p.2.spelled) := by
    induction fields with
    | nil => rfl
    | cons p rest ih => rw [spelledFields, List.map_cons, ih]
  rw [spelled, hfields]

/-- A normal form is a document. -/
theorem IsNormal.isDocument {j : Json} (h : j.IsNormal) : j.IsDocument := by
  induction j using inductionOn with
  | int i =>
    have hfits : fitsInt64 i = true := h
    simp only [fitsInt64, Bool.and_eq_true, decide_eq_true_eq] at hfits
    have hmax : maxInt64 < 2 ^ 64 := by decide
    exact ⟨hfits.1, hfits.2.trans_lt hmax⟩
  | array items ih =>
    exact scalars_array.mpr fun j hj => ih j hj (scalars_array.mp h j hj)
  | object fields ih =>
    exact scalars_object.mpr fun p hp => ih p hp (scalars_object.mp h p hp)
  | null | bool _ | float _ | string _ => exact h

/-- In a normal form nothing is left to be spelled. -/
theorem IsNormal.spelled {j : Json} (h : j.IsNormal) : j.spelled = j := by
  induction j using inductionOn with
  | int i =>
    have hfits : fitsInt64 i = true := h
    simp only [fitsInt64, Bool.and_eq_true, decide_eq_true_eq] at hfits
    rw [Json.spelled, if_neg (not_lt.mpr hfits.2)]
  | array items ih =>
    have hitems : items.map Json.spelled = items.map id :=
      List.map_congr_left fun j hj => ih j hj (scalars_array.mp h j hj)
    rw [spelled_array, hitems, List.map_id]
  | object fields ih =>
    have hfields : fields.map (fun p => (p.1, p.2.spelled)) = fields.map id :=
      List.map_congr_left fun p hp => Prod.ext rfl (ih p hp (scalars_object.mp h p hp))
    rw [spelled_object, hfields, List.map_id]
  | null | bool _ | float _ | string _ => rfl

end Json

namespace Value

/-! ## Host values without NaN, with integers of 64 bits -/

/-- A fact on host values holds when it holds for every container of values for which it does. -/
@[elab_as_elim]
theorem inductionOn {motive : Value → Prop} (v : Value)
    (scalar : ∀ v : Value, (∀ items, v ≠ list items) → (∀ fields, v ≠ map fields) →
      (∀ inner, v ≠ exact inner) → motive v)
    (list : ∀ items, (∀ v ∈ items, motive v) → motive (list items))
    (map : ∀ fields, (∀ p ∈ fields, motive p.2) → motive (map fields))
    (exact : ∀ inner, motive inner → motive (exact inner)) : motive v := by
  refine @Value.rec motive (fun items => ∀ v ∈ items, motive v)
    (fun fields => ∀ p ∈ fields, motive p.2) (fun p => motive p.2)
    ?_ ?_ ?_ ?_ ?_ ?_ ?_ ?_ ?_ ?_ list map exact ?_ ?_ nofun
    (fun _ _ hfirst hrest => List.forall_mem_cons.mpr ⟨hfirst, hrest⟩) nofun
    (fun _ _ hfirst hrest => List.forall_mem_cons.mpr ⟨hfirst, hrest⟩) (fun _ _ h => h) v
  all_goals
    intros
    exact scalar _ nofun nofun nofun

mutual

/-- Every scalar in the value is of the kind given, under exact marks too. -/
def Scalars (kind : Value → Prop) : Value → Prop
  | list items => ItemScalars kind items
  | map fields => FieldScalars kind fields
  | exact inner => inner.Scalars kind
  | v => kind v

/-- `Value.Scalars` of every item. -/
def ItemScalars (kind : Value → Prop) : List Value → Prop
  | [] => True
  | v :: rest => v.Scalars kind ∧ ItemScalars kind rest

/-- `Value.Scalars` of every field. -/
def FieldScalars (kind : Value → Prop) : List (String × Value) → Prop
  | [] => True
  | (_, v) :: rest => v.Scalars kind ∧ FieldScalars kind rest

end

/-- The scalars of a sequence are those of its items. -/
theorem scalars_list {kind : Value → Prop} {items : List Value} :
    (list items).Scalars kind ↔ ∀ v ∈ items, v.Scalars kind := by
  rw [Scalars]
  induction items with
  | nil => simp [ItemScalars]
  | cons v rest ih => rw [ItemScalars, ih, List.forall_mem_cons]

/-- The scalars of a mapping are those of its fields. -/
theorem scalars_map {kind : Value → Prop} {fields : List (String × Value)} :
    (map fields).Scalars kind ↔ ∀ p ∈ fields, p.2.Scalars kind := by
  rw [Scalars]
  induction fields with
  | nil => simp [FieldScalars]
  | cons p rest ih => rw [FieldScalars, ih, List.forall_mem_cons]

/-- No number in the value is NaN. -/
def HasNoNaN : Value → Prop :=
  Scalars fun
    | float x => x.isNaN = false
    | _ => True

/-- Every integer in the value that is to be of 64 bits is so. -/
def HasInt64s : Value → Prop :=
  Scalars fun
    | int i => fitsInt64 i = true
    | _ => True

/-! ## Reading and writing JSON -/

/-- An array is read item by item. -/
theorem ofJson_array (items : List Json) : ofJson (.array items) = list (items.map ofJson) := by
  have hitems : ofJsonItems items = items.map ofJson := by
    induction items with
    | nil => rfl
    | cons j rest ih => rw [ofJsonItems, List.map_cons, ih]
  rw [ofJson, hitems]

/-- An object is read field by field. -/
theorem ofJson_object (fields : List (String × Json)) :
    ofJson (.object fields) = map (fields.map fun p => (p.1, ofJson p.2)) := by
  have hfields : ofJsonFields fields = fields.map fun p => (p.1, ofJson p.2) := by
    induction fields with
    | nil => rfl
    | cons p rest ih => rw [ofJsonFields, List.map_cons, ih]
  rw [ofJson, hfields]

/-- A document that is read and written again has its integers above 64 bits spelled out. -/
theorem toJson_ofJson {j : Json} (h : j.IsDocument) : (ofJson j).toJson = j.spelled := by
  induction j using Json.inductionOn with
  | int i =>
    have hrange : minInt64 ≤ i ∧ i < 2 ^ 64 := h
    rw [ofJson, ofInt, Json.spelled]
    by_cases hmax : maxInt64 < i
    · have hfits : fitsInt64 i = false := by simp [fitsInt64, not_le.mpr hmax]
      simp [hfits, hmax, toJson]
    · have hfits : fitsInt64 i = true := by simp [fitsInt64, hrange.1, not_lt.mp hmax]
      simp [hfits, hmax, toJson]
  | float x =>
    have hfinite : Double.isFinite x = true := h
    rw [ofJson, toJson, if_pos hfinite]
    rfl
  | array items ih =>
    have hitems : items.map (fun j => (ofJson j).toJson) = items.map Json.spelled :=
      List.map_congr_left fun j hj => ih j hj (Json.scalars_array.mp h j hj)
    rw [ofJson_array, toJson_list, Json.spelled_array, List.map_map, ← hitems]
    rfl
  | object fields ih =>
    have hfields : fields.map (fun p => (p.1, (ofJson p.2).toJson)) =
        fields.map fun p => (p.1, p.2.spelled) :=
      List.map_congr_left fun p hp => Prod.ext rfl (ih p hp (Json.scalars_object.mp h p hp))
    rw [ofJson_object, toJson_map, Json.spelled_object, List.map_map, ← hfields]
    rfl
  | null | bool _ | string _ => rfl

open Float.Model in
/-- A finite number is not NaN. -/
theorem isNaN_of_isFinite {x : Float} (h : Double.isFinite x = true) : x.isNaN = false := by
  by_cases hexp : @UnpackedFloat.unpackExponent Format.binary64 x.toModel.toBits.toBitVec =
      -BitVec.ofNat Format.binary64.exponentBits 1
  · have hbits : x.toBits.toNat / 4503599627370496 % 2048 = 2047 := by
      have hvalue := congrArg BitVec.toNat hexp
      rw [Float.toBits]
      simpa [UnpackedFloat.unpackExponent, Nat.shiftRight_eq_div_pow] using hvalue
    simp only [Double.isFinite, Double.parts, BinaryLayout.decode, BinaryLayout.double,
      Nat.reducePow, hbits] at h
    by_cases hfraction : x.toBits.toNat % 4503599627370496 = 0 <;> simp [hfraction] at h
  · unfold Float.isNaN Float.Model.isNaN unpack UnpackedFloat.unpack
    dsimp only
    rw [if_neg hexp]
    split
    · split <;> rfl
    · rfl

/-- What is read from a document has no NaN. -/
theorem hasNoNaN_ofJson {j : Json} (h : j.IsDocument) : (ofJson j).HasNoNaN := by
  induction j using Json.inductionOn with
  | int i =>
    rw [ofJson, ofInt]
    split <;> trivial
  | float x => exact isNaN_of_isFinite h
  | array items ih =>
    rw [ofJson_array]
    refine scalars_list.mpr fun v hv => ?_
    obtain ⟨j, hj, rfl⟩ := List.mem_map.mp hv
    exact ih j hj (Json.scalars_array.mp h j hj)
  | object fields ih =>
    rw [ofJson_object]
    refine scalars_map.mpr fun p hp => ?_
    obtain ⟨q, hq, rfl⟩ := List.mem_map.mp hp
    exact ih q hq (Json.scalars_object.mp h q hq)
  | null | bool _ | string _ => trivial

/-- What is written is a normal form. -/
theorem isNormal_toJson {v : Value} (h : v.HasInt64s) : v.toJson.IsNormal := by
  induction v using inductionOn with
  | scalar v hlist hmap hexact =>
    cases v with
    | int i => exact h
    | float x =>
      rw [toJson]
      split
      · next hfinite => exact hfinite
      · trivial
    | bigInt i =>
      rw [toJson]
      split
      · next hfits => exact hfits
      · trivial
    | list items => exact absurd rfl (hlist items)
    | map fields => exact absurd rfl (hmap fields)
    | exact inner => exact absurd rfl (hexact inner)
    | _ => trivial
  | list items ih =>
    rw [toJson_list]
    refine Json.scalars_array.mpr fun j hj => ?_
    obtain ⟨v, hv, rfl⟩ := List.mem_map.mp hj
    exact ih v hv (scalars_list.mp h v hv)
  | map fields ih =>
    rw [toJson_map]
    refine Json.scalars_object.mpr fun p hp => ?_
    obtain ⟨q, hq, rfl⟩ := List.mem_map.mp hp
    exact ih q hq (scalars_map.mp h q hq)
  | exact inner ih => exact ih h

/-- **JSON is a normal form of host values.** A document that is read and written again is the same
but for its integers above 64 bits, which are spelled out, and what is read has no NaN. What is
written has only finite numbers and integers of 64 bits; it has the items of a sequence in their
order, the keys of a mapping and no exact marks, so that at every place of the value it has the
JSON of what stands there; and reading and writing it again changes nothing. -/
theorem json_normal_form :
    (∀ j : Json, j.IsDocument → (ofJson j).toJson = j.spelled ∧ (ofJson j).HasNoNaN) ∧
    ∀ v : Value, v.HasInt64s →
      v.toJson.IsNormal ∧
      (∀ items, v = list items → v.toJson = .array (items.map toJson)) ∧
      (∀ fields, v = map fields → v.toJson = .object (fields.map fun p => (p.1, p.2.toJson))) ∧
      (∀ inner, v = exact inner → v.toJson = inner.toJson) ∧
      (∀ place, v.toJson.at? place = (v.at? place).map toJson) ∧
      (ofJson v.toJson).toJson = v.toJson := by
  refine ⟨fun j hj => ⟨toJson_ofJson hj, hasNoNaN_ofJson hj⟩, fun v hv => ?_⟩
  have hnormal := isNormal_toJson hv
  refine ⟨hnormal, ?_, ?_, ?_, fun place => toJson_at? place v, ?_⟩
  · rintro items rfl
    exact toJson_list items
  · rintro fields rfl
    exact toJson_map fields
  · rintro inner rfl
    rfl
  · rw [toJson_ofJson hnormal.isDocument, hnormal.spelled]

/-- A document with an integer above 64 bits, and a marked mapping with a number that is not
finite. -/
theorem json_normal_form_mixed :
    let j : Json := .object [("a", .array [.int (2 ^ 64 - 1), .int (2 ^ 63 - 1)]), ("b", .null)]
    let v : Value :=
      exact (map [("k", list [int (-3), float (Double.ofBits 0x7FF0000000000000), handle 4])])
    (ofJson j).toJson = .object [("a", .array [.string "18446744073709551615",
      .int 9223372036854775807]), ("b", .null)] ∧ (ofJson j).HasNoNaN ∧
    v.toJson = .object [("k", .array [.int (-3), .null, .null])] ∧
    (ofJson v.toJson).toJson = v.toJson := by
  intro j v
  have hj : j.IsDocument := by
    simp [j, Json.IsDocument, Json.Scalars, Json.FieldScalars, Json.ItemScalars,
      Json.IsDocumentScalar, minInt64]
  have hv : v.HasInt64s := by
    simp [v, HasInt64s, Scalars, FieldScalars, ItemScalars, fitsInt64, minInt64, maxInt64]
  obtain ⟨hspelled, hnan⟩ := json_normal_form.1 j hj
  obtain ⟨-, -, -, -, -, hback⟩ := json_normal_form.2 v hv
  have hinfinite : Double.isFinite (Double.ofBits 0x7FF0000000000000) = false := by decide
  refine ⟨?_, hnan, ?_, hback⟩
  · rw [hspelled]
    rfl
  · simp [v, toJson, toJsonFields, toJsonItems, hinfinite]

end Value

end ScriptHost
