import Mathlib
import ScriptHost.Proofs.Decoding

/-!
# Chains that come to an end

A rule may replace a value by any other one, so the elements that a chain takes apart need not be
parts of the value it was given. Decoding comes to an end nevertheless if some measure of values
goes down from an array or a map to its elements and no rule makes it go up.
-/

namespace ScriptHost

open Script

namespace Script

/-! ## Measures of script values -/

/-- The elements of an array or a map, which may be in a shared cell. -/
def Datum.elements (d : Datum) : List Datum :=
  match d.unshared with
  | .array items => items
  | .map fields => fields.map (·.2)
  | _ => []

/-- A measure that is smaller for every element than for the array or map it stands in. -/
def IsMeasure (m : Datum → ℕ) : Prop := ∀ d : Datum, ∀ e ∈ d.elements, m e < m d

mutual

/-- How deep arrays and maps are nested in a value, where what is neither counts as `scalar` says
and shared cells do not count. -/
def Datum.nesting (scalar : Datum → ℕ) : Datum → ℕ
  | .array items => nestingItems scalar items + 1
  | .map fields => nestingFields scalar fields + 1
  | .shared content => content.nesting scalar
  | d => scalar d

/-- The deepest nesting of an item. -/
def nestingItems (scalar : Datum → ℕ) : List Datum → ℕ
  | [] => 0
  | d :: rest => max (d.nesting scalar) (nestingItems scalar rest)

/-- The deepest nesting of a field. -/
def nestingFields (scalar : Datum → ℕ) : List (String × Datum) → ℕ
  | [] => 0
  | (_, d) :: rest => max (d.nesting scalar) (nestingFields scalar rest)

end

/-- How deep arrays and maps are nested in a value. -/
def Datum.depth (d : Datum) : ℕ := d.nesting fun _ => 0

/-- An item is nested no deeper than all items. -/
theorem nesting_le_nestingItems (scalar : Datum → ℕ) {items : List Datum} {d : Datum}
    (h : d ∈ items) : d.nesting scalar ≤ nestingItems scalar items := by
  induction items with
  | nil => cases h
  | cons first rest ih =>
    rw [nestingItems]
    rcases List.mem_cons.mp h with rfl | h
    · exact le_max_left _ _
    · exact (ih h).trans (le_max_right _ _)

/-- Fields are nested as deep as their values. -/
theorem nestingFields_eq (scalar : Datum → ℕ) (fields : List (String × Datum)) :
    nestingFields scalar fields = nestingItems scalar (fields.map (·.2)) := by
  induction fields with
  | nil => rfl
  | cons first rest ih => rw [nestingFields, List.map_cons, nestingItems, ih]

/-- A shared cell is nested as deep as its content. -/
theorem nesting_unshared (scalar : Datum → ℕ) : ∀ d : Datum,
    d.unshared.nesting scalar = d.nesting scalar
  | .shared content => nesting_unshared scalar content
  | .unit | .bool _ | .int _ | .float _ | .decimal _ | .bigInt _ | .string _ | .char _ | .date _
  | .time _ | .dateTime _ | .array _ | .blob _ | .map _ | .fnPtr .. | .range .. | .rangeInclusive ..
  | .steps .. | .handle _ | .failure _ | .sized .. | .single _ | .foreign _ => rfl

/-- Nesting goes down to the elements, whatever scalars count. -/
theorem isMeasure_nesting (scalar : Datum → ℕ) : IsMeasure (Datum.nesting scalar) := by
  intro d e he
  rw [← nesting_unshared scalar d]
  unfold Datum.elements at he
  split at he
  · next items hd =>
    rw [hd, Datum.nesting]
    exact Nat.lt_succ_of_le (nesting_le_nestingItems scalar he)
  · next fields hd =>
    rw [hd, Datum.nesting, nestingFields_eq]
    exact Nat.lt_succ_of_le (nesting_le_nestingItems scalar he)
  · cases he

end Script

/-- A rule that passes on no value of a greater measure than the one it was given. -/
def Rule.Bounded (m : Datum → ℕ) (t : Rule) : Prop := ∀ d e : Datum, t d = .pass e → m e ≤ m d

namespace Chain

/-! ## Decoding comes to an end -/

/-- Rules that make no measure go up do not do so one after the other either. -/
theorem ask_le {m : Datum → ℕ} {rules : List Rule} (hrules : ∀ t ∈ rules, Rule.Bounded m t)
    {d e : Datum} (h : ask rules d = .pass e) : m e ≤ m d := by
  induction rules generalizing d with
  | nil =>
    cases h
    exact le_rfl
  | cons t rules ih =>
    rw [ask] at h
    cases ht : t d with
    | resolved v =>
      rw [ht] at h
      cases h
    | pass next =>
      rw [ht] at h
      calc m e
        _ ≤ m next := ih (fun u hu => hrules u (List.mem_cons_of_mem t hu)) h
        _ ≤ m d := hrules t List.mem_cons_self d next ht

/-- A function that has an answer for every element has one for the list. -/
theorem exists_mapM_eq {α β : Type} {f : α → Option β} {as : List α}
    (h : ∀ a ∈ as, ∃ b, f a = some b) : ∃ bs, as.mapM f = some bs := by
  obtain ⟨bs, hbs, -⟩ := mapM_agree fun a ha => (h a ha).imp fun _ hb => And.intro hb hb
  exact ⟨bs, hbs⟩

/-- A value is decoded if the elements of what the rules pass on are. -/
theorem exists_decodeBy_of_elements {c : Chain} {element : Datum → Option Value} {d : Datum}
    (h : ∀ e, ask c.rules d = .pass e → ∀ x ∈ e.elements, ∃ v, element x = some v) :
    ∃ v, c.decodeBy element d = some v := by
  unfold decodeBy
  split
  · exact ⟨_, rfl⟩
  · next e he =>
    split
    · exact ⟨_, rfl⟩
    · have helements := h e he
      unfold Datum.elements at helements
      split
      · next items hitems =>
        rw [hitems] at helements
        obtain ⟨vs, hvs⟩ := exists_mapM_eq helements
        exact ⟨.list vs, by rw [hvs]; rfl⟩
      · next fields hfields =>
        rw [hfields] at helements
        have hfield (p : String × Datum) (hp : p ∈ fields) :
            ∃ q, (element p.2).map (p.1, ·) = some q := by
          obtain ⟨v, hv⟩ := helements p.2 (List.mem_map_of_mem hp)
          exact ⟨(p.1, v), by rw [hv]; rfl⟩
        obtain ⟨vs, hvs⟩ := exists_mapM_eq hfield
        exact ⟨.map vs, by rw [hvs]; rfl⟩
      all_goals exact ⟨_, rfl⟩

/-- A measure that no rule makes go up bounds the nesting of the elements that are decoded. -/
theorem exists_decodeWithin_of_measure {c : Chain} {m : Datum → ℕ} (hm : IsMeasure m)
    (hrules : ∀ t ∈ c.rules, Rule.Bounded m t) {bound : ℕ} {d : Datum} (hd : m d < bound) :
    ∃ v, c.decodeWithin bound d = some v := by
  induction bound generalizing d with
  | zero => omega
  | succ n ih =>
    refine exists_decodeBy_of_elements fun e he x hx => ih ?_
    have hpassed : m e ≤ m d := ask_le hrules he
    have helement : m x < m e := hm e x hx
    omega

/-- **Decoding comes to an end.** If a measure of script values is smaller for every element than
for its array or map, and no rule of a chain passes on a value of a greater measure than the one it
was given, then the chain has a host value for every script value, and elements are nested no deeper
on the way than the measure says. This is so for every chain whose rules pass on no deeper values
than they were given. -/
theorem decode_ends (c : Chain) :
    (∀ m : Datum → ℕ, IsMeasure m → (∀ t ∈ c.rules, Rule.Bounded m t) →
      ∀ d, ∃ v, c.decode d = some v ∧ c.decodeWithin (m d + 1) d = some v) ∧
    ((∀ t ∈ c.rules, Rule.Bounded Datum.depth t) → ∀ d, ∃ v, c.decode d = some v) := by
  have hends (m : Datum → ℕ) (hm : IsMeasure m) (hrules : ∀ t ∈ c.rules, Rule.Bounded m t)
      (d : Datum) : ∃ v, c.decode d = some v ∧ c.decodeWithin (m d + 1) d = some v := by
    obtain ⟨v, hv⟩ := exists_decodeWithin_of_measure hm hrules (Nat.lt_succ_self (m d))
    exact ⟨v, decode_eq_some_iff.mpr ⟨_, hv⟩, hv⟩
  refine ⟨hends, fun hrules d => ?_⟩
  obtain ⟨v, hv, -⟩ := hends Datum.depth (isMeasure_nesting _) hrules d
  exact ⟨v, hv⟩

/-- Integers count as much as they say, other scalars do not count. -/
def integerCount : Datum → ℕ
  | .int i => i.toNat
  | _ => 0

/-- A rule that takes positive integers apart, into arrays of the integer before them, and one that
makes arrays of maps: integers count as much as they say. -/
theorem decode_ends_unary :
    let unary : Rule := fun
      | .int (.ofNat (n + 1)) => .pass (.array [.int n])
      | d => .pass d
    let entries : Rule := fun
      | .map fields => .pass (.array (fields.map (·.2)))
      | d => .pass d
    ∃ v, decode ⟨[unary, entries]⟩ (.map [("a", .int 2), ("b", .string "x")]) = some v := by
  intro unary entries
  let weight : Datum → ℕ := Datum.nesting integerCount
  have hunary : Rule.Bounded weight unary := by
    intro d e h
    simp only [unary] at h
    split at h
    · cases h
      simp [weight, Datum.nesting, nestingItems, integerCount]
    · cases h
      exact le_rfl
  have hentries : Rule.Bounded weight entries := by
    intro d e h
    simp only [entries] at h
    split at h
    · cases h
      simp only [weight, Datum.nesting, nestingFields_eq]
      exact le_rfl
    · cases h
      exact le_rfl
  obtain ⟨v, hv, -⟩ := (decode_ends ⟨[unary, entries]⟩).1 weight (isMeasure_nesting _)
    (by simpa using ⟨hunary, hentries⟩) (.map [("a", .int 2), ("b", .string "x")])
  exact ⟨v, hv⟩

/-- A rule that wraps every value into an array has no end. -/
theorem decode_wrapping (d : Datum) : decode ⟨[fun d => .pass (.array [d])]⟩ d = none := by
  have hwithin : ∀ bound d, decodeWithin ⟨[fun d => .pass (.array [d])]⟩ bound d = none := by
    intro bound
    induction bound with
    | zero => exact fun _ => rfl
    | succ n ih =>
      intro d
      simp [decodeWithin, decodeBy, ask, decodeScalar?, Datum.unshared, ih d]
  rw [Option.eq_none_iff_forall_ne_some]
  intro v hv
  obtain ⟨bound, hbound⟩ := decode_eq_some_iff.mp hv
  rw [hwithin] at hbound
  cases hbound

end Chain

end ScriptHost
