import Mathlib
import ScriptHost.Proofs.NormalForms

/-!
# Equality of host values

Values are equal when they have the same outline and their scalars agree one by one. The outline is
what is left of a value when its scalars are blanked: sequences with their lengths, mappings with
their keys, exact marks and handles. So equality is symmetric and transitive, a value is equal to
itself unless it has a NaN, and equal values have equal parts at every place.
-/

namespace ScriptHost

/-! ## Floating-point and decimal numbers -/

/-- The number is zero, of either sign. -/
def Double.IsZero (x : Float) : Prop := x = 0 ∨ x = -0

/-- Equal numbers are the same number, or two zeros; NaN is equal to none. -/
theorem Double.beq_iff (x y : Float) :
    (x == y) = true ↔ x.isNaN = false ∧ (x = y ∨ IsZero x ∧ IsZero y) := by
  have hzero : (0 : Float) ≠ Float.nan := by decide
  have hminus : (-0 : Float) ≠ Float.nan := by decide
  rw [Float.beq_iff_ne_nan_and_eq, Float.isNaN_eq_decide_eq_nan, decide_eq_false_iff_not]
  unfold IsZero
  grind

/-- The number that a decimal stands for. -/
def Decimal.value (d : Decimal) : ℚ := d.signed / 10 ^ d.scale

/-- Decimals are compared by what they stand for. -/
theorem Decimal.equal_iff (a b : Decimal) : a.equal b = true ↔ a.value = b.value := by
  have hpos (n : ℕ) : (10 : ℚ) ^ n ≠ 0 := by positivity
  rw [equal, beq_iff_eq, value, value, div_eq_div_iff (hpos _) (hpos _)]
  norm_cast

/-! ## Lists side by side -/

/-- A relation between the members of lists is transitive if it is so between members. -/
theorem forall₂_trans {α : Type} {r : α → α → Prop} (hr : ∀ a b c, r a b → r b c → r a c)
    {as bs cs : List α} (hab : List.Forall₂ r as bs) (hbc : List.Forall₂ r bs cs) :
    List.Forall₂ r as cs := by
  induction hab generalizing cs with
  | nil => exact hbc
  | cons hfirst _ ih =>
    obtain ⟨c, rest, hfirst', hrest', rfl⟩ := List.forall₂_cons_left_iff.mp hbc
    exact .cons (hr _ _ _ hfirst hfirst') (ih hrest')

/-- Lists whose members are related by what they are on the whole and by their parts in turn are
related by the same of the lists, if the first tells how many parts there are. -/
theorem forall₂_iff_map_flatMap {α β γ : Type} {r : α → α → Prop} {s : β → β → Prop} {f : α → γ}
    {g : α → List β} {as bs : List α} (hlength : ∀ a b, f a = f b → (g a).length = (g b).length)
    (hr : ∀ a ∈ as, ∀ b, r a b ↔ f a = f b ∧ List.Forall₂ s (g a) (g b)) :
    List.Forall₂ r as bs ↔
      as.map f = bs.map f ∧ List.Forall₂ s (as.flatMap g) (bs.flatMap g) := by
  induction as generalizing bs with
  | nil => cases bs <;> simp
  | cons a as ih =>
    cases bs with
    | nil => simp
    | cons b bs =>
      have hrest := @ih bs fun a ha => hr a (List.mem_cons_of_mem _ ha)
      rw [List.forall₂_cons, hr a List.mem_cons_self, hrest, List.map_cons, List.map_cons,
        List.cons.injEq, List.flatMap_cons, List.flatMap_cons]
      constructor
      · rintro ⟨⟨hf, hg⟩, hfs, hgs⟩
        exact ⟨⟨hf, hfs⟩, List.rel_append hg hgs⟩
      · rintro ⟨⟨hf, hfs⟩, hgs⟩
        -- `a` and `b` have as many parts, so the two lists of all parts split at the same number.
        have htake := List.forall₂_take_append _ _ _ hgs
        have hdrop := List.forall₂_drop_append _ _ _ hgs
        rw [← hlength a b hf] at htake hdrop
        rw [List.take_left] at htake
        rw [List.drop_left] at hdrop
        exact ⟨⟨hf, htake⟩, hfs, hdrop⟩

namespace Value

/-! ## Outlines and scalars -/

mutual

/-- The value with every scalar blanked. Sequences keep their lengths, mappings their keys, and
exact marks and handles stay. -/
def outline : Value → Value
  | null => null
  | bool _ => bool false
  | int _ => int 0
  | float _ => float 0
  | decimal _ => decimal .zero
  | bigInt _ => bigInt 0
  | string _ => string ""
  | date _ => date default
  | time _ => time default
  | dateTime _ => dateTime default
  | list items => list (outlineItems items)
  | map fields => map (outlineFields fields)
  | exact inner => exact inner.outline
  | handle id => handle id
  | callable _ => callable ""

/-- `Value.outline` of every item. -/
def outlineItems : List Value → List Value
  | [] => []
  | v :: rest => v.outline :: outlineItems rest

/-- `Value.outline` of every field. -/
def outlineFields : List (String × Value) → List (String × Value)
  | [] => []
  | (k, v) :: rest => (k, v.outline) :: outlineFields rest

end

mutual

/-- The scalars of the value from left to right. -/
def leaves : Value → List Value
  | list items => itemLeaves items
  | map fields => fieldLeaves fields
  | exact inner => inner.leaves
  | v => [v]

/-- `Value.leaves` of all items. -/
def itemLeaves : List Value → List Value
  | [] => []
  | v :: rest => v.leaves ++ itemLeaves rest

/-- `Value.leaves` of all fields. -/
def fieldLeaves : List (String × Value) → List Value
  | [] => []
  | (_, v) :: rest => v.leaves ++ fieldLeaves rest

end

/-- Two scalars agree: floating-point numbers if they are the same number or two zeros, but never
NaN, decimals if they stand for the same number, and all else if it is the same. -/
def Agrees : Value → Value → Prop
  | float x, float y => x.isNaN = false ∧ (x = y ∨ Double.IsZero x ∧ Double.IsZero y)
  | decimal d, decimal e => d.value = e.value
  | v, w => v = w

/-- A sequence is outlined item by item. -/
theorem outline_list (items : List Value) : (list items).outline = list (items.map outline) := by
  have hitems : outlineItems items = items.map outline := by
    induction items with
    | nil => rfl
    | cons v rest ih => rw [outlineItems, List.map_cons, ih]
  rw [outline, hitems]

/-- A mapping is outlined field by field. -/
theorem outline_map (fields : List (String × Value)) :
    (map fields).outline = map (fields.map fun p => (p.1, p.2.outline)) := by
  have hfields : outlineFields fields = fields.map fun p => (p.1, p.2.outline) := by
    induction fields with
    | nil => rfl
    | cons field rest ih => rw [outlineFields, List.map_cons, ih]
  rw [outline, hfields]

/-- The scalars of a sequence are those of its items in turn. -/
theorem leaves_list (items : List Value) : (list items).leaves = items.flatMap leaves := by
  rw [leaves]
  induction items with
  | nil => rfl
  | cons v rest ih => rw [itemLeaves, List.flatMap_cons, ih]

/-- The scalars of a mapping are those of its fields in turn. -/
theorem leaves_map (fields : List (String × Value)) :
    (map fields).leaves = fields.flatMap fun p => p.2.leaves := by
  rw [leaves]
  induction fields with
  | nil => rfl
  | cons field rest ih => rw [fieldLeaves, List.flatMap_cons, ih]

/-- The scalars in a value are those met from left to right. -/
theorem scalars_iff {kind : Value → Prop} {v : Value} :
    v.Scalars kind ↔ ∀ leaf ∈ v.leaves, kind leaf := by
  induction v using inductionOn with
  | scalar v hlist hmap hexact =>
    cases v with
    | list items => exact absurd rfl (hlist items)
    | map fields => exact absurd rfl (hmap fields)
    | exact inner => exact absurd rfl (hexact inner)
    | _ => simp [Scalars, leaves]
  | list items ih =>
    rw [scalars_list, leaves_list, List.forall_mem_flatMap]
    exact forall₂_congr ih
  | map fields ih =>
    rw [scalars_map, leaves_map, List.forall_mem_flatMap]
    exact forall₂_congr ih
  | exact inner ih => exact ih

/-- Blanking leaves as many scalars as there are. -/
theorem length_leaves_outline (v : Value) : v.outline.leaves.length = v.leaves.length := by
  induction v using inductionOn with
  | scalar v hlist hmap hexact =>
    cases v with
    | list items => exact absurd rfl (hlist items)
    | map fields => exact absurd rfl (hmap fields)
    | exact inner => exact absurd rfl (hexact inner)
    | _ => rfl
  | list items ih =>
    rw [outline_list, leaves_list, leaves_list, List.length_flatMap, List.length_flatMap,
      List.map_map]
    exact congrArg List.sum (List.map_congr_left ih)
  | map fields ih =>
    rw [outline_map, leaves_map, leaves_map, List.length_flatMap, List.length_flatMap,
      List.map_map]
    exact congrArg List.sum (List.map_congr_left ih)
  | exact inner ih => exact ih

/-- Values with the same outline are of the same kind. -/
theorem ctorIdx_eq_of_outline {v w : Value} (h : v.outline = w.outline) :
    v.ctorIdx = w.ctorIdx := by
  have hkind (u : Value) : u.outline.ctorIdx = u.ctorIdx := by cases u <;> rfl
  rw [← hkind v, h, hkind]

/-- What has the outline of a scalar is one, and the only one in itself. -/
theorem leaves_eq_self {v w : Value} (hlist : ∀ items, v ≠ list items)
    (hmap : ∀ fields, v ≠ map fields) (hexact : ∀ inner, v ≠ exact inner)
    (h : v.outline = w.outline) : w.leaves = [w] := by
  have hkind := ctorIdx_eq_of_outline h
  cases w with
  | list _ | map _ | exact _ =>
    cases v with
    | list items => exact absurd rfl (hlist items)
    | map fields => exact absurd rfl (hmap fields)
    | exact inner => exact absurd rfl (hexact inner)
    | _ => cases hkind
  | _ => rfl

/-- Scalars that agree have the same outline. -/
theorem Agrees.outline_eq {v w : Value} (h : v.Agrees w) : v.outline = w.outline := by
  revert h
  fun_cases Agrees v w with
  | case1 x y => exact fun _ => rfl
  | case2 d e => exact fun _ => rfl
  | case3 => exact congrArg outline

/-! ## What equality compares -/

/-- Sequences are equal when their items are, one by one. -/
theorem beq_list (items others : List Value) : (list items == list others) = true ↔
    List.Forall₂ (fun v w => (v == w) = true) items others := by
  change beqItems items others = true ↔ _
  induction items generalizing others with
  | nil => cases others <;> simp [beqItems]
  | cons v rest ih =>
    cases others with
    | nil => simp [beqItems]
    | cons w others =>
      rw [beqItems, Bool.and_eq_true, ih, List.forall₂_cons]
      rfl

/-- Mappings are equal when they have the same keys and the values under them are equal. -/
theorem beq_map (fields others : List (String × Value)) : (map fields == map others) = true ↔
    List.Forall₂ (fun p q => p.1 = q.1 ∧ (p.2 == q.2) = true) fields others := by
  change beqFields fields others = true ↔ _
  induction fields generalizing others with
  | nil => cases others <;> simp [beqFields]
  | cons p rest ih =>
    cases others with
    | nil => simp [beqFields]
    | cons q others =>
      rw [beqFields, Bool.and_eq_true, Bool.and_eq_true, beq_iff_eq, ih, List.forall₂_cons]
      rfl

/-- A scalar is equal to what agrees with it. -/
theorem beq_iff_agrees {v : Value} (hlist : ∀ items, v ≠ list items)
    (hmap : ∀ fields, v ≠ map fields) (hexact : ∀ inner, v ≠ exact inner) (w : Value) :
    (v == w) = true ↔ v.Agrees w := by
  cases v with
  | list items => exact absurd rfl (hlist items)
  | map fields => exact absurd rfl (hmap fields)
  | exact inner => exact absurd rfl (hexact inner)
  | float x =>
    cases w with
    | float y => exact Double.beq_iff x y
    | _ => exact iff_of_false nofun nofun
  | decimal d =>
    cases w with
    | decimal e => exact Decimal.equal_iff d e
    | _ => exact iff_of_false nofun nofun
  | _ => cases w <;> simp [Agrees, BEq.beq, beq]

/-- **Equality of values**: they have the same outline, and their scalars agree from left to
right. -/
theorem beq_iff_outline (a b : Value) : (a == b) = true ↔
    a.outline = b.outline ∧ List.Forall₂ Agrees a.leaves b.leaves := by
  have hlength (v w : Value) (h : v.outline = w.outline) : v.leaves.length = w.leaves.length := by
    rw [← length_leaves_outline v, h, length_leaves_outline]
  induction a using inductionOn generalizing b with
  | scalar v hlist hmap hexact =>
    -- Either side makes `b` a scalar too, and then each of the two has one leaf, itself.
    have hleaves {w : Value} (h : v.outline = w.outline) := leaves_eq_self hlist hmap hexact h
    rw [beq_iff_agrees hlist hmap hexact, hleaves rfl]
    constructor
    · intro h
      rw [hleaves h.outline_eq]
      exact ⟨h.outline_eq, .cons h .nil⟩
    · rintro ⟨houtline, h⟩
      rw [hleaves houtline, List.forall₂_cons] at h
      exact h.1
  | list items ih =>
    cases b with
    | list others =>
      rw [beq_list, outline_list, outline_list, leaves_list, leaves_list, list.injEq]
      exact forall₂_iff_map_flatMap hlength ih
    | _ => exact iff_of_false nofun fun h => nomatch ctorIdx_eq_of_outline h.1
  | map fields ih =>
    cases b with
    | map others =>
      rw [beq_map, outline_map, outline_map, leaves_map, leaves_map, map.injEq]
      refine forall₂_iff_map_flatMap (fun p q h => hlength _ _ (Prod.mk.inj h).2) fun p hp q => ?_
      rw [Prod.mk.injEq, and_assoc]
      exact and_congr_right fun _ => ih p hp q.2
    | _ => exact iff_of_false nofun fun h => nomatch ctorIdx_eq_of_outline h.1
  | exact inner ih =>
    cases b with
    | exact other =>
      rw [outline, outline, exact.injEq]
      exact ih other
    | _ => exact iff_of_false nofun fun h => nomatch ctorIdx_eq_of_outline h.1

/-! ## Agreement -/

/-- All but floating-point numbers agree with themselves. -/
theorem agrees_self {v : Value} (h : ∀ x, v ≠ float x) : v.Agrees v := by
  cases v with
  | float x => exact absurd rfl (h x)
  | _ => rfl

/-- Agreement is symmetric. -/
theorem Agrees.symm {v w : Value} (h : v.Agrees w) : w.Agrees v := by
  revert h
  fun_cases Agrees v w with
  | case1 x y =>
    rw [Agrees, ← Double.beq_iff, ← Double.beq_iff]
    exact BEq.symm
  | case2 d e => exact Eq.symm
  | case3 v w hfloat hdecimal =>
    rintro rfl
    exact agrees_self fun x hx => hfloat x x hx hx

/-- Agreement is transitive. -/
theorem Agrees.trans {u v w : Value} (huv : u.Agrees v) (hvw : v.Agrees w) : u.Agrees w := by
  revert huv
  fun_cases Agrees u v with
  | case1 x y =>
    cases w with
    | float z =>
      rw [Agrees, ← Double.beq_iff] at hvw
      rw [Agrees, ← Double.beq_iff, ← Double.beq_iff]
      exact fun hxy => BEq.trans hxy hvw
    | _ => cases hvw
  | case2 d e =>
    cases w with
    | decimal f => exact fun hde => Eq.trans hde hvw
    | _ => cases hvw
  | case3 =>
    rintro rfl
    exact hvw

instance : PartialEquivBEq Value where
  symm {a b} h := by
    obtain ⟨houtline, hleaves⟩ := (beq_iff_outline a b).mp h
    exact (beq_iff_outline b a).mpr ⟨houtline.symm, (hleaves.imp fun _ _ => Agrees.symm).flip⟩
  trans {a b c} hab hbc := by
    obtain ⟨hab, hleaves⟩ := (beq_iff_outline a b).mp hab
    obtain ⟨hbc, hleaves'⟩ := (beq_iff_outline b c).mp hbc
    exact (beq_iff_outline a c).mpr
      ⟨hab.trans hbc, forall₂_trans (fun _ _ _ huv => huv.trans) hleaves hleaves'⟩

/-- A value is equal to itself when it has no NaN. -/
theorem beq_self_iff (a : Value) : (a == a) = true ↔ a.HasNoNaN := by
  rw [beq_iff_outline, HasNoNaN, scalars_iff, List.forall₂_same, eq_self, true_and]
  refine forall₂_congr fun v _ => ?_
  cases v <;> simp [Agrees]

/-- An exact mark makes another value. -/
theorem exact_beq_self (a : Value) : (exact a == a) = false := by
  refine Bool.eq_false_iff.mpr fun h => ?_
  have houtline : exact a.outline = a.outline := ((beq_iff_outline _ _).mp h).1
  have hsize := congrArg sizeOf houtline
  simp at hsize

/-! ## Equal parts -/

/-- Equal values are equal without the exact marks around them. -/
theorem beq_underMarks (a b : Value) : (a == b) = true → (a.underMarks == b.underMarks) = true := by
  change beq a b = true → _
  fun_cases beq a b with
  | case13 inner other => exact beq_underMarks inner other
  | case16 => nofun
  | _ => exact id

/-- Items that are equal one by one are equal under each number. -/
theorem rel_getElem? {items others : List Value}
    (h : List.Forall₂ (fun v w => (v == w) = true) items others) (i : ℕ) :
    Option.Rel (fun v w => (v == w) = true) items[i]? others[i]? := by
  induction h generalizing i with
  | nil => exact .none
  | cons hfirst _ ih =>
    cases i with
    | zero => exact .some hfirst
    | succ i => exact ih i

/-- Fields that are equal one by one are equal under each key. -/
theorem rel_get? {fields others : List (String × Value)}
    (h : List.Forall₂ (fun p q => p.1 = q.1 ∧ (p.2 == q.2) = true) fields others) (k : String) :
    Option.Rel (fun v w => (v == w) = true) (Fields.get? k fields) (Fields.get? k others) := by
  induction h with
  | nil => exact .none
  | cons hfirst _ ih =>
    obtain ⟨hkey, hvalue⟩ := hfirst
    rw [Fields.get?, Fields.get?, hkey]
    split
    · exact .some hvalue
    · exact ih

/-- Equal values have equal parts. -/
theorem rel_part? {a b : Value} (h : (a == b) = true) (label : Label) :
    Option.Rel (fun v w => (v == w) = true) (a.part? label) (b.part? label) := by
  have hmarks : beq a.underMarks b.underMarks = true := beq_underMarks a b h
  unfold part?
  revert hmarks
  generalize a.underMarks = v
  generalize b.underMarks = w
  cases label with
  | key k =>
    fun_cases beq v w with
    | case12 fields others => exact fun h => rel_get? ((beq_map fields others).mp h) k
    | case16 => nofun
    | _ => exact fun _ => .none
  | index i =>
    fun_cases beq v w with
    | case11 items others => exact fun h => rel_getElem? ((beq_list items others).mp h) i
    | case16 => nofun
    | _ => exact fun _ => .none

/-- Equal values have equal parts at every place. -/
theorem rel_at? {a b : Value} (h : (a == b) = true) (place : List Label) :
    Option.Rel (fun v w => (v == w) = true) (a.at? place) (b.at? place) := by
  induction place generalizing a b with
  | nil => exact .some h
  | cons label place ih =>
    rw [at?, at?]
    have hpart := rel_part? h label
    revert hpart
    generalize a.part? label = v
    generalize b.part? label = w
    rintro (h | _)
    · exact ih h
    · exact .none

/-! ## The laws of equality -/

/-- **Laws of equality.** Equality is symmetric and transitive, and a value is equal to itself
exactly when it has no NaN, at any depth and under exact marks too. Values of different kinds are
never equal, and an exact mark makes another value. Values are equal exactly when they have the same
outline (the same shape with the same lengths, keys, marks and handles) and their scalars agree, and
then at every place there are equal parts or none. -/
theorem equality_laws (a b c : Value) :
    (a == b) = (b == a) ∧
    ((a == b) = true → (b == c) = true → (a == c) = true) ∧
    ((a == a) = true ↔ a.HasNoNaN) ∧
    (a.ctorIdx ≠ b.ctorIdx → (a == b) = false) ∧
    (exact a == a) = false ∧
    ((a == b) = true ↔ a.outline = b.outline ∧ List.Forall₂ Agrees a.leaves b.leaves) ∧
    ((a == b) = true → ∀ place,
      Option.Rel (fun v w => (v == w) = true) (a.at? place) (b.at? place)) := by
  refine ⟨BEq.comm, BEq.trans, beq_self_iff a, fun hkind => ?_, exact_beq_self a,
    beq_iff_outline a b, rel_at?⟩
  refine Bool.eq_false_iff.mpr fun h => hkind ?_
  exact ctorIdx_eq_of_outline ((beq_iff_outline a b).mp h).1

/-- Decimals of different scales and zeros of different signs around a handle, and a NaN under a
mark. -/
theorem equality_laws_scales :
    let value (d : Decimal) (x : Float) : Value :=
      map [("k", list [decimal d, float x]), ("m", exact (handle 7))]
    let a := value { negative := false, mantissa := 15, scale := 1 } 0
    let b := value { negative := false, mantissa := 150, scale := 2 } (-0)
    let c := value { negative := false, mantissa := 1500, scale := 3 } 0
    (a == b) = true ∧ (b == c) = true ∧ (a == c) = true ∧ (b == a) = true ∧
    a.outline = c.outline ∧ (int 1 == bigInt 1) = false ∧
    Option.Rel (fun v w => (v == w) = true) (a.at? [.key "k", .index 1])
      (b.at? [.key "k", .index 1]) ∧
    (list [exact (float Double.nan)] == list [exact (float Double.nan)]) = false := by
  intro value a b c
  have hab : (a == b) = true := by decide
  have hbc : (b == c) = true := by decide
  have hac := (equality_laws a b c).2.1 hab hbc
  have hnan := (equality_laws (list [exact (float Double.nan)]) a a).2.2.1
  refine ⟨hab, hbc, hac, (equality_laws b a a).1.trans hab,
    ((equality_laws a c a).2.2.2.2.2.1.mp hac).1,
    (equality_laws (int 1) (bigInt 1) a).2.2.2.1 (by decide),
    (equality_laws a b c).2.2.2.2.2.2 hab _, ?_⟩
  refine Bool.eq_false_iff.mpr fun h => ?_
  have hfree : Double.nan.isNaN = false := (hnan.mp h).1
  exact absurd hfree (by decide)

end Value

end ScriptHost
