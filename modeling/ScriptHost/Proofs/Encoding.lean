import Mathlib.Data.Rat.Floor
import Mathlib.Tactic.Positivity
import ScriptHost.Decoding

/-!
# Values that go through a script

A host value that is encoded for a script and decoded again comes back in its normal form: exact
marks are gone, and outside them numbers of small magnitude are lowered. Normal forms hold no marks,
and a second pass leaves them alone.
-/

namespace ScriptHost

open Script

/-- The magnitude of a decimal number. -/
def Decimal.magnitude (d : Decimal) : ℚ := d.mantissa / 10 ^ d.scale

/-- The bound on mantissas decides whether the magnitude itself lies below an integer. -/
theorem Decimal.magnitudeBelow_iff (d : Decimal) (bound : ℕ) :
    d.magnitudeBelow bound = true ↔ d.magnitude < bound := by
  have hpos : (0 : ℚ) < 10 ^ d.scale := by positivity
  rw [magnitudeBelow, decide_eq_true_iff, magnitude, div_lt_iff₀ hpos]
  exact_mod_cast Iff.rfl

namespace Value

/-! ## Normal forms -/

mutual

/-- What is left of a value when exact marks are dropped. Outside them decimals and big integers
whose magnitude lies below the greatest 64-bit integer are lowered; `lowers` tells that no mark is
around the value. A callable whose name is no name of a function is a text. -/
def normal (lowers : Bool) : Value → Value
  | .decimal d => if lowers ∧ d.magnitude < 2 ^ 63 - 1 then .float d.toFloat else .decimal d
  | .bigInt i => if lowers ∧ |i| < 2 ^ 63 - 1 then .int i else .bigInt i
  | .list items => .list (normalItems lowers items)
  | .map fields => .map (normalFields lowers fields)
  | .exact inner => normal false inner
  | .callable name => if isFunctionName name then .callable name else .string name
  | v => v

/-- The normal form of every item. -/
def normalItems (lowers : Bool) : List Value → List Value
  | [] => []
  | v :: rest => normal lowers v :: normalItems lowers rest

/-- The normal form of every field. -/
def normalFields (lowers : Bool) : List (String × Value) → List (String × Value)
  | [] => []
  | (k, v) :: rest => (k, normal lowers v) :: normalFields lowers rest

end

mutual

/-- Whether no part of a value is marked as exact. -/
def isUnmarked : Value → Bool
  | .list items => areUnmarked items
  | .map fields => areFieldsUnmarked fields
  | .exact _ => false
  | _ => true

/-- Whether no item has a mark. -/
def areUnmarked : List Value → Bool
  | [] => true
  | v :: rest => isUnmarked v && areUnmarked rest

/-- Whether no field has a mark. -/
def areFieldsUnmarked : List (String × Value) → Bool
  | [] => true
  | (_, v) :: rest => isUnmarked v && areFieldsUnmarked rest

end

/-- Items are taken one by one, in order. -/
theorem normalItems_eq_map (lowers : Bool) (items : List Value) :
    normalItems lowers items = items.map (normal lowers) := by
  induction items with
  | nil => rfl
  | cons v rest ih => rw [normalItems, List.map_cons, ih]

/-- Fields keep their keys. -/
theorem normalFields_eq_map (lowers : Bool) (fields : List (String × Value)) :
    normalFields lowers fields = fields.map fun p => (p.1, p.2.normal lowers) := by
  induction fields with
  | nil => rfl
  | cons p rest ih => rw [normalFields, List.map_cons, ih]

mutual

/-- A normal form has no marks. -/
theorem isUnmarked_normal (lowers : Bool) : ∀ v : Value, (v.normal lowers).isUnmarked = true
  | .decimal d => by rw [normal]; split <;> rfl
  | .bigInt i => by rw [normal]; split <;> rfl
  | .list items => areUnmarked_normalItems lowers items
  | .map fields => areFieldsUnmarked_normalFields lowers fields
  | .exact inner => isUnmarked_normal false inner
  | .callable name => by rw [normal]; split <;> rfl
  | .null | .bool _ | .int _ | .float _ | .string _ | .date _ | .time _ | .dateTime _
  | .handle _ => rfl

/-- `isUnmarked_normal` for every item. -/
theorem areUnmarked_normalItems (lowers : Bool) :
    ∀ items : List Value, areUnmarked (normalItems lowers items) = true
  | [] => rfl
  | v :: rest => by
    rw [normalItems, areUnmarked, isUnmarked_normal lowers v, areUnmarked_normalItems lowers rest]
    rfl

/-- `isUnmarked_normal` for every field. -/
theorem areFieldsUnmarked_normalFields (lowers : Bool) :
    ∀ fields : List (String × Value), areFieldsUnmarked (normalFields lowers fields) = true
  | [] => rfl
  | (k, v) :: rest => by
    rw [normalFields, areFieldsUnmarked, isUnmarked_normal lowers v,
      areFieldsUnmarked_normalFields lowers rest]
    rfl

end

mutual

/-- What has been lowered or kept once stays as it is. -/
theorem normal_normal (lowers : Bool) :
    ∀ v : Value, v.isUnmarked = true → (v.normal lowers).normal lowers = v.normal lowers
  | .decimal d, _ => by
    by_cases h : lowers = true ∧ d.magnitude < 2 ^ 63 - 1
    · rw [normal, if_pos h, normal]; all_goals simp
    · rw [normal, if_neg h, normal, if_neg h]
  | .bigInt i, _ => by
    by_cases h : lowers = true ∧ |i| < 2 ^ 63 - 1
    · rw [normal, if_pos h, normal]; all_goals simp
    · rw [normal, if_neg h, normal, if_neg h]
  | .list items, h => congrArg list (normalItems_normalItems lowers items h)
  | .map fields, h => congrArg map (normalFields_normalFields lowers fields h)
  | .exact _, h => by cases h
  | .callable name, _ => by
    by_cases h : isFunctionName name = true
    · rw [normal, if_pos h, normal, if_pos h]
    · rw [normal, if_neg h, normal]; all_goals simp
  | .null, _ | .bool _, _ | .int _, _ | .float _, _ | .string _, _ | .date _, _ | .time _, _
  | .dateTime _, _ | .handle _, _ => rfl

/-- `normal_normal` for every item. -/
theorem normalItems_normalItems (lowers : Bool) :
    ∀ items : List Value, areUnmarked items = true →
      normalItems lowers (normalItems lowers items) = normalItems lowers items
  | [], _ => rfl
  | v :: rest, h => by
    rw [areUnmarked, Bool.and_eq_true] at h
    rw [normalItems, normalItems, normal_normal lowers v h.1,
      normalItems_normalItems lowers rest h.2]

/-- `normal_normal` for every field. -/
theorem normalFields_normalFields (lowers : Bool) :
    ∀ fields : List (String × Value), areFieldsUnmarked fields = true →
      normalFields lowers (normalFields lowers fields) = normalFields lowers fields
  | [], _ => rfl
  | (k, v) :: rest, h => by
    rw [areFieldsUnmarked, Bool.and_eq_true] at h
    rw [normalFields, normalFields, normal_normal lowers v h.1,
      normalFields_normalFields lowers rest h.2]

end

end Value

/-! ## Decoding -/

/-- What the built-in chain does with a value: scalars are decoded, containers are taken apart, and
all else is a name or a text. -/
theorem Chain.decodeBy_builtin (element : Datum → Option Value) (d : Datum) :
    Chain.builtin.decodeBy element d =
      match decodeScalar? d with
      | some v => some v
      | none =>
        match d.unshared with
        | .array items => (items.mapM element).map .list
        | .map fields => (fields.mapM fun p => (element p.2).map (p.1, ·)).map .map
        | .blob bytes => some (.list (bytes.map fun (b : ℕ) => .int b))
        | .fnPtr name _ => some (.callable name)
        | d => some (.string d.text) := by
  cases h : decodeScalar? d with
  | some v => simp [Chain.decodeBy, Chain.builtin, Chain.ask, scalarRule, h]
  | none =>
    cases hd : d.unshared <;>
      simp only [Chain.decodeBy, Chain.builtin, Chain.ask, scalarRule, h, hd]

/-- A scalar is decoded within any bound. -/
theorem Chain.decodeWithin_scalar {bound : ℕ} {d : Datum} {v : Value}
    (hscalar : decodeScalar? d = some v) :
    Chain.builtin.decodeWithin (bound + 1) d = some v := by
  rw [Chain.decodeWithin, Chain.decodeBy_builtin, hscalar]

/-- Every value is nested at least once. -/
theorem Script.Datum.height_pos (d : Datum) : 0 < d.height := by
  cases d <;> simp [Datum.height]

/-- A decimal number comes back lowered if it is small and no mark is around it. -/
theorem decodeScalar?_encodeWith_decimal (lower : Bool) (d : Decimal) :
    decodeScalar? (encodeWith lower (.decimal d)) = some ((Value.decimal d).normal lower) := by
  have hbound : d.magnitudeBelow loweringBound = true ↔ d.magnitude < 2 ^ 63 - 1 := by
    rw [Decimal.magnitudeBelow_iff, loweringBound]; norm_num
  cases lower with
  | false => rfl
  | true =>
    by_cases h : d.magnitude < 2 ^ 63 - 1
    · rw [encodeWith, if_pos rfl, lowerDecimal, if_pos (hbound.mpr h), Value.normal,
        if_pos ⟨rfl, h⟩]
      rfl
    · rw [encodeWith, if_pos rfl, lowerDecimal, if_neg (mt hbound.mp h), Value.normal,
        if_neg fun hboth => h hboth.2]
      rfl

/-- A big integer comes back lowered if it is small and no mark is around it. -/
theorem decodeScalar?_encodeWith_bigInt (lower : Bool) (i : ℤ) :
    decodeScalar? (encodeWith lower (.bigInt i)) = some ((Value.bigInt i).normal lower) := by
  have hbound : i.natAbs < loweringBound ↔ |i| < 2 ^ 63 - 1 := by
    rw [loweringBound, Int.abs_eq_natAbs]; omega
  cases lower with
  | false => rfl
  | true =>
    by_cases h : |i| < 2 ^ 63 - 1
    · rw [encodeWith, if_pos rfl, lowerBigInt, if_pos (hbound.mpr h), Value.normal,
        if_pos ⟨rfl, h⟩]
      rfl
    · rw [encodeWith, if_pos rfl, lowerBigInt, if_neg (mt hbound.mp h), Value.normal,
        if_neg fun hboth => h hboth.2]
      rfl

mutual

/-- An encoded value is decoded to its normal form within any bound that its nesting does not
exceed. -/
theorem decodeWithin_encodeWith (lower : Bool) :
    ∀ (v : Value) (bound : ℕ), (encodeWith lower v).height ≤ bound →
      Chain.builtin.decodeWithin bound (encodeWith lower v) = some (v.normal lower)
  | v, 0, hheight => by
    have hpos := (encodeWith lower v).height_pos
    omega
  | .decimal d, bound + 1, _ =>
    Chain.decodeWithin_scalar (decodeScalar?_encodeWith_decimal lower d)
  | .bigInt i, bound + 1, _ =>
    Chain.decodeWithin_scalar (decodeScalar?_encodeWith_bigInt lower i)
  | .list items, bound + 1, hheight => by
    have hitems := mapM_encodeItems lower items bound
      (by simpa [encodeWith, Datum.height] using hheight)
    simp only [encodeWith, Chain.decodeWithin, Chain.decodeBy_builtin, decodeScalar?,
      Datum.unshared, hitems, Value.normal, Option.map_some]
  | .map fields, bound + 1, hheight => by
    have hfields := mapM_encodeFields lower fields bound
      (by simpa [encodeWith, Datum.height] using hheight)
    simp only [encodeWith, Chain.decodeWithin, Chain.decodeBy_builtin, decodeScalar?,
      Datum.unshared, hfields, Value.normal, Option.map_some]
  | .exact inner, bound + 1, hheight => decodeWithin_encodeWith false inner (bound + 1) hheight
  | .callable name, bound + 1, _ => by
    by_cases h : isFunctionName name = true
    · simp [encodeWith, Chain.decodeWithin, Chain.decodeBy_builtin, decodeScalar?, Datum.unshared,
        Value.normal, h]
    · simp [encodeWith, Chain.decodeWithin, Chain.decodeBy_builtin, decodeScalar?, Datum.unshared,
        Value.normal, h]
  | .null, bound + 1, _ | .bool _, bound + 1, _ | .int _, bound + 1, _ | .float _, bound + 1, _
  | .string _, bound + 1, _ | .date _, bound + 1, _ | .time _, bound + 1, _
  | .dateTime _, bound + 1, _ | .handle _, bound + 1, _ => Chain.decodeWithin_scalar rfl

/-- `decodeWithin_encodeWith` for every item. -/
theorem mapM_encodeItems (lower : Bool) :
    ∀ (items : List Value) (bound : ℕ), heightItems (encodeItems lower items) ≤ bound →
      (encodeItems lower items).mapM (Chain.builtin.decodeWithin bound) =
        some (Value.normalItems lower items)
  | [], _, _ => rfl
  | v :: rest, bound, hheight => by
    rw [encodeItems, heightItems, max_le_iff] at hheight
    rw [encodeItems, List.mapM_cons, decodeWithin_encodeWith lower v bound hheight.1,
      mapM_encodeItems lower rest bound hheight.2]
    rfl

/-- `decodeWithin_encodeWith` for every field. -/
theorem mapM_encodeFields (lower : Bool) :
    ∀ (fields : List (String × Value)) (bound : ℕ),
      heightFields (encodeFields lower fields) ≤ bound →
      ((encodeFields lower fields).mapM fun p =>
        (Chain.builtin.decodeWithin bound p.2).map (p.1, ·)) =
        some (Value.normalFields lower fields)
  | [], _, _ => rfl
  | (k, v) :: rest, bound, hheight => by
    rw [encodeFields, heightFields, max_le_iff] at hheight
    rw [encodeFields, List.mapM_cons, decodeWithin_encodeWith lower v bound hheight.1,
      mapM_encodeFields lower rest bound hheight.2]
    rfl

end

/-- The built-in chain decodes what has been encoded to its normal form. -/
theorem decode_encode (v : Value) : Chain.builtin.decode (encode v) = some (v.normal true) :=
  Chain.decode_of_decodeWithin (decodeWithin_encodeWith true v _ (Nat.le_add_right _ _))

/-- A value that goes through a script comes back in its normal form, which holds no exact marks; a
value without marks is not changed by a second pass. -/
theorem decode_encode_eq_normal (v : Value) :
    Chain.builtin.decode (encode v) = some (v.normal true) ∧
      (v.normal true).isUnmarked = true ∧
      (v.isUnmarked = true →
        Chain.builtin.decode (encode (v.normal true)) = some (v.normal true)) := by
  refine ⟨decode_encode v, Value.isUnmarked_normal true v, fun hplain => ?_⟩
  rw [decode_encode, Value.normal_normal true v hplain]

end ScriptHost
