import ScriptHost.Proofs.Decoding

/-!
# Chains of rules

What no rule of a chain resolves is decoded as a scalar anyway, so the scalar rule at the end of a
chain adds nothing; a rule that passes everything on may stand anywhere; and behind the scalar rule
only what is no scalar is left for a rule to change.
-/

namespace ScriptHost

open Script

namespace Script

/-! ## The parts of a value -/

mutual

/-- The values that are met when a value is taken apart, the value itself first. -/
def Datum.parts : Datum → List Datum
  | .array items => .array items :: itemParts items
  | .map fields => .map fields :: fieldParts fields
  | d => [d]

/-- The parts of every item. -/
def itemParts : List Datum → List Datum
  | [] => []
  | d :: rest => d.parts ++ itemParts rest

/-- The parts of every field. -/
def fieldParts : List (String × Datum) → List Datum
  | [] => []
  | (_, d) :: rest => d.parts ++ fieldParts rest

end

/-- A value is a part of itself. -/
theorem Datum.self_mem_parts (d : Datum) : d ∈ d.parts := by
  cases d <;> simp [Datum.parts]

/-- The parts of an item are parts of the items. -/
theorem mem_itemParts {items : List Datum} {d e : Datum} (hd : d ∈ items) (he : e ∈ d.parts) :
    e ∈ itemParts items := by
  induction items with
  | nil => cases hd
  | cons first rest ih =>
    rw [itemParts, List.mem_append]
    rcases List.mem_cons.mp hd with rfl | hd
    · exact .inl he
    · exact .inr (ih hd)

/-- The parts of a field are parts of the fields. -/
theorem mem_fieldParts {fields : List (String × Datum)} {p : String × Datum} {e : Datum}
    (hp : p ∈ fields) (he : e ∈ p.2.parts) : e ∈ fieldParts fields := by
  induction fields with
  | nil => cases hp
  | cons first rest ih =>
    rw [fieldParts, List.mem_append]
    rcases List.mem_cons.mp hp with rfl | hp
    · exact .inl he
    · exact .inr (ih hp)

/-- Whether a value is a scalar: not an array, a map, a sequence of bytes, a function pointer, a
shared cell or a value of a type that only scripts know. -/
def Datum.isScalar : Datum → Bool
  | .unit | .bool _ | .int _ | .float _ | .decimal _ | .bigInt _ | .string _ | .char _ | .date _
  | .time _ | .dateTime _ | .handle _ => true
  | _ => false

/-- Whether a value is a shared cell. -/
def Datum.isCell : Datum → Bool
  | .shared _ => true
  | _ => false

/-- The content of what is no cell is the value itself. -/
theorem Datum.unshared_of_isCell {d : Datum} (hd : d.isCell = false) : d.unshared = d := by
  cases d with
  | shared d => cases hd
  | _ => rfl

end Script

/-- Scalars are what is decoded as such, shared cells apart. -/
theorem isSome_decodeScalar? {d : Datum} (hcell : d.isCell = false) :
    (decodeScalar? d).isSome = d.isScalar := by
  rw [decodeScalar?]
  cases d with
  | shared d => cases hcell
  | _ => rfl

/-! ## Elements -/

/-- Lists whose elements have the same answers one by one have the same answers. -/
theorem mapM_eq_of_forall₂ {α β γ : Type} {f : α → Option γ} {g : β → Option γ} {as : List α}
    {bs : List β} (h : List.Forall₂ (fun a b => f a = g b) as bs) : as.mapM f = bs.mapM g := by
  induction h with
  | nil => rfl
  | cons hfirst _ ih => rw [List.mapM_cons, List.mapM_cons, hfirst, ih]

/-- Functions with the same answers for all elements have them for the list. -/
theorem mapM_congr {α β : Type} {f g : α → Option β} {as : List α} (h : ∀ a ∈ as, f a = g a) :
    as.mapM f = as.mapM g :=
  mapM_eq_of_forall₂ (List.forall₂_same.mpr h)

namespace Chain

/-! ## One chain -/

/-- The chain without rules. -/
def empty : Chain := ⟨[]⟩

/-- What the rules pass on is decoded as without rules. -/
theorem decodeBy_eq (c : Chain) (element : Datum → Option Value) (d : Datum) :
    c.decodeBy element d =
      match ask c.rules d with
      | .resolved v => some v
      | .pass e => empty.decodeBy element e := rfl

/-- Without rules a value is decoded as by the built-in chain, element by element. -/
theorem decodeBy_empty (element : Datum → Option Value) (d : Datum) :
    empty.decodeBy element d = builtin.decodeBy element d := by
  rw [decodeBy_builtin]
  rfl

/-- Without rules it only matters how the elements of a value are decoded. -/
theorem decodeBy_congr {f g : Datum → Option Value} {d : Datum}
    (hitems : ∀ items, d.unshared = .array items → ∀ e ∈ items, f e = g e)
    (hfields : ∀ fields, d.unshared = .map fields → ∀ p ∈ fields, f p.2 = g p.2) :
    empty.decodeBy f d = empty.decodeBy g d := by
  rw [decodeBy_empty, decodeBy_empty, decodeBy_builtin, decodeBy_builtin]
  cases decodeScalar? d with
  | some v => rfl
  | none =>
    cases hcontent : d.unshared with
    | array items => exact congrArg (Option.map _) (mapM_congr (hitems items hcontent))
    | map fields =>
      refine congrArg (Option.map _) (mapM_congr fun p hp => ?_)
      rw [hfields fields hcontent p hp]
    | _ => rfl

/-- Rules are asked one after the other. -/
theorem ask_append (front back : List Rule) (d : Datum) :
    ask (front ++ back) d =
      match ask front d with
      | .resolved v => .resolved v
      | .pass e => ask back e := by
  induction front generalizing d with
  | nil => rfl
  | cons t front ih =>
    rw [List.cons_append, ask, ask]
    cases t d with
    | resolved v => rfl
    | pass e => exact ih e

/-! ## Chains that decode alike -/

/-- Two chains decode a value alike, whatever bounds the depth of its elements. -/
def Alike (c c' : Chain) (d : Datum) : Prop :=
  ∀ bound, c.decodeWithin bound d = c'.decodeWithin bound d

namespace Alike

variable {c c' : Chain} {d : Datum}

/-- Then they have the same host value for it, or both have none. -/
theorem decode (h : c.Alike c' d) : c.decode d = c'.decode d := by
  ext v
  simp only [decode_eq_some_iff, h _]

/-- Chains whose rules say the same of every value decode every value alike. -/
theorem of_ask (h : ∀ d, ask c.rules d = ask c'.rules d) (d : Datum) : c.Alike c' d := by
  intro bound
  induction bound generalizing d with
  | zero => rfl
  | succ n ih =>
    rw [decodeWithin, decodeWithin, funext ih, decodeBy_eq, decodeBy_eq, h]

end Alike

/-- The scalar rule at the end of a chain adds nothing. -/
theorem alike_append_scalarRule (c : Chain) (d : Datum) : (c.append scalarRule).Alike c d := by
  intro bound
  induction bound generalizing d with
  | zero => rfl
  | succ n ih =>
    rw [decodeWithin, decodeWithin, funext ih, decodeBy_eq, decodeBy_eq, append, ask_append]
    cases ask c.rules d with
    | resolved v => rfl
    | pass e =>
      -- Behind the other rules the scalar rule is the built-in chain.
      exact (decodeBy_empty (c.decodeWithin n) e).symm

/-- A rule that passes everything on adds nothing, wherever it stands. -/
theorem alike_insert {t : Rule} (ht : ∀ d, t d = .pass d) (front back : List Rule) (d : Datum) :
    Alike ⟨front ++ t :: back⟩ ⟨front ++ back⟩ d := by
  refine Alike.of_ask (fun d => ?_) d
  rw [ask_append, ask_append]
  cases ask front d with
  | resolved v => rfl
  | pass e =>
    dsimp only
    rw [ask, ht e]

/-- Behind the scalar rule, a rule that passes on whatever is no scalar in a value adds nothing. -/
theorem alike_append_rule {t : Rule} {d : Datum} (hfree : ∀ e ∈ d.parts, e.isCell = false)
    (ht : ∀ e ∈ d.parts, e.isScalar = false → t e = .pass e) :
    (builtin.append t).Alike builtin d := by
  intro bound
  induction bound generalizing d with
  | zero => rfl
  | succ n ih =>
    have hcell := hfree d d.self_mem_parts
    rw [decodeWithin, decodeWithin, decodeBy_eq, decodeBy_builtin]
    have hscalar := isSome_decodeScalar? hcell
    cases hdecode : decodeScalar? d with
    | some v => simp only [append, builtin, List.singleton_append, ask, scalarRule, hdecode]
    | none =>
      rw [hdecode] at hscalar
      have hasked : ask (builtin.append t).rules d = .pass d := by
        simp only [append, builtin, List.singleton_append, ask, scalarRule, hdecode,
          ht d d.self_mem_parts hscalar.symm]
      have hbuiltin := decodeBy_builtin (builtin.decodeWithin n) d
      rw [hdecode] at hbuiltin
      rw [hasked, ← hbuiltin, ← decodeBy_empty]
      refine decodeBy_congr (fun items hitems e he => ?_) fun fields hfields p hp => ?_
      · rw [Datum.unshared_of_isCell hcell] at hitems
        subst hitems
        have hpart : ∀ x ∈ e.parts, x ∈ (Datum.array items).parts := fun x hx =>
          List.mem_cons_of_mem _ (mem_itemParts he hx)
        exact ih (fun x hx => hfree x (hpart x hx)) fun x hx => ht x (hpart x hx)
      · rw [Datum.unshared_of_isCell hcell] at hfields
        subst hfields
        have hpart : ∀ x ∈ p.2.parts, x ∈ (Datum.map fields).parts := fun x hx =>
          List.mem_cons_of_mem _ (mem_fieldParts hp hx)
        exact ih (fun x hx => hfree x (hpart x hx)) fun x hx => ht x (hpart x hx)

/-- **The algebra of chains.** The scalar rule at the end of any chain adds nothing, so the built-in
chain and the chain without rules decode every value alike; nor does a rule that passes every value
on, wherever it stands; nor, for a value without shared cells, a rule behind the built-in chain that
passes on every array, map, sequence of bytes, function pointer and value of an unknown type in it,
whatever it makes of scalars. -/
theorem alike_laws :
    (∀ (c : Chain) (d : Datum), (c.append scalarRule).Alike c d) ∧
    (∀ d, builtin.decode d = empty.decode d) ∧
    (∀ t : Rule, (∀ d, t d = .pass d) → ∀ (front back : List Rule) (d : Datum),
      Alike ⟨front ++ t :: back⟩ ⟨front ++ back⟩ d) ∧
    ∀ (t : Rule) (d : Datum), (∀ e ∈ d.parts, e.isCell = false) →
      (∀ e ∈ d.parts, e.isScalar = false → t e = .pass e) →
      (builtin.append t).Alike builtin d ∧
        ∃ v, (builtin.append t).decode d = some v ∧ builtin.decode d = some v := by
  refine ⟨alike_append_scalarRule, fun d => (alike_append_scalarRule empty d).decode,
    fun t ht => alike_insert ht, fun t d hfree ht => ?_⟩
  have halike := alike_append_rule hfree ht
  obtain ⟨v, hv⟩ := exists_decode d
  exact ⟨halike, v, halike.decode.trans hv, hv⟩

/-- A rule that resolves integers, behind the built-in chain, for an array with integers at two
depths and a value of an unknown type. -/
theorem alike_laws_integers :
    let t : Rule := fun
      | .int _ => .resolved (.string "number")
      | d => .pass d
    let d : Datum := .array [.int 1, .map [("a", .int 2)], .foreign "T"]
    (builtin.append t).Alike builtin d ∧
      ∃ v, (builtin.append t).decode d = some v ∧ builtin.decode d = some v := by
  intro t d
  have hpass : ∀ e : Datum, e.isScalar = false → t e = .pass e := fun e he => by
    cases e with
    | int i => cases he
    | _ => rfl
  exact alike_laws.2.2.2 t d (by decide) fun e _ he => hpass e he

end Chain

end ScriptHost
