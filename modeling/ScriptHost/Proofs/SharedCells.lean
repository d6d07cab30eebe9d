import ScriptHost.Proofs.Chains

/-!
# Shared cells

Closures share variables with the script around them through cells, so any part of a result may
stand in a cell. Decoding looks through all cells: two values that differ in cells only have the
same host value.
-/

namespace ScriptHost

open Script

namespace Script

mutual

/-- A value with every shared cell in it replaced by its content. -/
def Datum.bare : Datum → Datum
  | .array items => .array (bareItems items)
  | .map fields => .map (bareFields fields)
  | .fnPtr name curried => .fnPtr name (bareCaptures curried)
  | .shared content => content.bare
  | d => d

/-- Items without cells. -/
def bareItems : List Datum → List Datum
  | [] => []
  | d :: rest => d.bare :: bareItems rest

/-- Fields without cells. -/
def bareFields : List (String × Datum) → List (String × Datum)
  | [] => []
  | (k, d) :: rest => (k, d.bare) :: bareFields rest

/-- Curried values without cells around or in them. -/
def bareCaptures : List Capture → List Capture
  | [] => []
  | .value d :: rest => .value d.bare :: bareCaptures rest
  | .cell id :: rest => .cell id :: bareCaptures rest

end

/-- Items lose their cells one by one. -/
theorem bareItems_eq_map (items : List Datum) : bareItems items = items.map Datum.bare := by
  induction items with
  | nil => rfl
  | cons d rest ih => rw [bareItems, List.map_cons, ih]

/-- Fields keep their keys. -/
theorem bareFields_eq_map (fields : List (String × Datum)) :
    bareFields fields = fields.map fun p => (p.1, p.2.bare) := by
  induction fields with
  | nil => rfl
  | cons p rest ih => rw [bareFields, List.map_cons, ih]

mutual

/-- A value without cells has none to lose. -/
theorem bare_bare : ∀ d : Datum, d.bare.bare = d.bare
  | .array items => congrArg Datum.array (bareItems_bareItems items)
  | .map fields => congrArg Datum.map (bareFields_bareFields fields)
  | .fnPtr name curried => congrArg (Datum.fnPtr name) (bareCaptures_bareCaptures curried)
  | .shared content => bare_bare content
  | .unit | .bool _ | .int _ | .float _ | .decimal _ | .bigInt _ | .string _ | .char _ | .date _
  | .time _ | .dateTime _ | .blob _ | .range .. | .rangeInclusive .. | .steps .. | .handle _
  | .failure _ | .sized .. | .single _ | .foreign _ => rfl

/-- `bare_bare` for every item. -/
theorem bareItems_bareItems : ∀ items : List Datum, bareItems (bareItems items) = bareItems items
  | [] => rfl
  | d :: rest => by rw [bareItems, bareItems, bare_bare d, bareItems_bareItems rest]

/-- `bare_bare` for every field. -/
theorem bareFields_bareFields :
    ∀ fields : List (String × Datum), bareFields (bareFields fields) = bareFields fields
  | [] => rfl
  | (k, d) :: rest => by rw [bareFields, bareFields, bare_bare d, bareFields_bareFields rest]

/-- `bare_bare` for every curried value. -/
theorem bareCaptures_bareCaptures :
    ∀ curried : List Capture, bareCaptures (bareCaptures curried) = bareCaptures curried
  | [] => rfl
  | .value d :: rest => by
    rw [bareCaptures, bareCaptures, bare_bare d, bareCaptures_bareCaptures rest]
  | .cell id :: rest => by rw [bareCaptures, bareCaptures, bareCaptures_bareCaptures rest]

end

end Script

/-- A scalar is decoded alike in cells and without. -/
theorem decodeScalar?_bare : ∀ d : Datum, decodeScalar? d.bare = decodeScalar? d
  | .shared content => decodeScalar?_bare content
  | .unit | .bool _ | .int _ | .float _ | .decimal _ | .bigInt _ | .string _ | .char _ | .date _
  | .time _ | .dateTime _ | .array _ | .blob _ | .map _ | .fnPtr .. | .range .. | .rangeInclusive ..
  | .steps .. | .handle _ | .failure _ | .sized .. | .single _ | .foreign _ => rfl

/-! ## Rules -/

/-- What a rule says of a value, but for shared cells in what it passes on. -/
def Verdict.bare : Verdict → Verdict
  | .resolved v => .resolved v
  | .pass d => .pass d.bare

/-- A rule that treats shared cells like their content: of values that differ in cells only it says
the same, but for cells in what it passes on. -/
def Rule.IgnoresCells (t : Rule) : Prop :=
  ∀ d d' : Datum, d.bare = d'.bare → (t d).bare = (t d').bare

/-- The scalar rule treats shared cells like their content. -/
theorem scalarRule_ignoresCells : Rule.IgnoresCells scalarRule := by
  intro d d' hsame
  have hscalar : decodeScalar? d = decodeScalar? d' := by
    rw [← decodeScalar?_bare d, hsame, decodeScalar?_bare]
  rw [scalarRule, scalarRule, hscalar]
  cases decodeScalar? d' with
  | some v => rfl
  | none => exact congrArg Verdict.pass hsame

namespace Chain

/-- Rules that treat shared cells like their content do so one after the other. -/
theorem ask_bare {rules : List Rule} (hrules : ∀ t ∈ rules, Rule.IgnoresCells t) {d d' : Datum}
    (hsame : d.bare = d'.bare) : (ask rules d).bare = (ask rules d').bare := by
  induction rules generalizing d d' with
  | nil => exact congrArg Verdict.pass hsame
  | cons t rules ih =>
    have hfirst := hrules t List.mem_cons_self d d' hsame
    rw [ask, ask]
    cases ht : t d with
    | resolved v =>
      cases ht' : t d' with
      | resolved w =>
        rw [ht, ht'] at hfirst
        exact hfirst
      | pass e' =>
        rw [ht, ht'] at hfirst
        cases hfirst
    | pass e =>
      cases ht' : t d' with
      | resolved w =>
        rw [ht, ht'] at hfirst
        cases hfirst
      | pass e' =>
        rw [ht, ht'] at hfirst
        exact ih (fun u hu => hrules u (List.mem_cons_of_mem t hu)) (Verdict.pass.inj hfirst)

/-! ## Decoding -/

/-- Without rules a value is decoded alike in cells and without, if its elements are. -/
theorem decodeBy_bare {element : Datum → Option Value} (helement : ∀ d, element d.bare = element d) :
    ∀ d : Datum, empty.decodeBy element d.bare = empty.decodeBy element d
  | .shared content => decodeBy_bare helement content
  | .array items => by
    have hitems : (bareItems items).mapM element = items.mapM element := by
      rw [bareItems_eq_map]
      exact mapM_eq_of_forall₂ (List.forall₂_map_left_iff.mpr
        (List.forall₂_same.mpr fun d _ => helement d))
    exact congrArg (Option.map Value.list) hitems
  | .map fields => by
    have hfields : ((bareFields fields).mapM fun p => (element p.2).map (p.1, ·)) =
        fields.mapM fun p => (element p.2).map (p.1, ·) := by
      rw [bareFields_eq_map]
      refine mapM_eq_of_forall₂ (List.forall₂_map_left_iff.mpr
        (List.forall₂_same.mpr fun p _ => ?_))
      rw [helement p.2]
    exact congrArg (Option.map Value.map) hfields
  | .unit | .bool _ | .int _ | .float _ | .decimal _ | .bigInt _ | .string _ | .char _ | .date _
  | .time _ | .dateTime _ | .blob _ | .fnPtr .. | .range .. | .rangeInclusive .. | .steps ..
  | .handle _ | .failure _ | .sized .. | .single _ | .foreign _ => rfl

/-- A chain whose rules treat shared cells like their content does so too, with any bound. -/
theorem decodeWithin_bare {c : Chain} (hrules : ∀ t ∈ c.rules, Rule.IgnoresCells t) (bound : ℕ)
    {d d' : Datum} (hsame : d.bare = d'.bare) :
    c.decodeWithin bound d = c.decodeWithin bound d' := by
  induction bound generalizing d d' with
  | zero => rfl
  | succ n ih =>
    have helement (d : Datum) : c.decodeWithin n d.bare = c.decodeWithin n d := ih (bare_bare d)
    have hask := ask_bare hrules hsame
    rw [decodeWithin, decodeWithin, decodeBy_eq, decodeBy_eq]
    cases h : ask c.rules d with
    | resolved v =>
      cases h' : ask c.rules d' with
      | resolved w =>
        rw [h, h'] at hask
        exact congrArg some (Verdict.resolved.inj hask)
      | pass e' =>
        rw [h, h'] at hask
        cases hask
    | pass e =>
      cases h' : ask c.rules d' with
      | resolved w =>
        rw [h, h'] at hask
        cases hask
      | pass e' =>
        rw [h, h'] at hask
        show empty.decodeBy _ e = empty.decodeBy _ e'
        rw [← decodeBy_bare helement e, Verdict.pass.inj hask, decodeBy_bare helement]

/-- **Shared cells are invisible.** Two values that are the same but for shared cells, whatever
stands in cells and at whatever depth, have the same host value by the built-in chain, and are
decoded alike as scalars; every chain whose rules treat shared cells like their content decodes
them alike, whatever bounds the depth of elements. -/
theorem decode_eq_of_bare {d e : Datum} (hsame : d.bare = e.bare) :
    builtin.decode d = builtin.decode e ∧ decodeScalar? d = decodeScalar? e ∧
      ∀ c : Chain, (∀ t ∈ c.rules, Rule.IgnoresCells t) →
        ∀ bound, c.decodeWithin bound d = c.decodeWithin bound e := by
  have hbuiltin : ∀ t ∈ builtin.rules, Rule.IgnoresCells t := by
    simpa [builtin] using scalarRule_ignoresCells
  refine ⟨?_, ?_, fun c hrules bound => decodeWithin_bare hrules bound hsame⟩
  · -- Cells count as nesting, so the two values are decoded with different bounds.
    let bound := max d.height e.height + reserve
    have hd : d.height ≤ bound := by omega
    have he : e.height ≤ bound := by omega
    obtain ⟨v, hv, hbound⟩ := decodeWithin_agree (d.height + reserve) bound
      (Nat.le_add_right _ _) hd rfl
    obtain ⟨w, hw, hbound'⟩ := decodeWithin_agree (e.height + reserve) bound
      (Nat.le_add_right _ _) he rfl
    calc builtin.decode d
      _ = builtin.decodeWithin bound d := (decode_of_decodeWithin hv).trans hbound.symm
      _ = builtin.decodeWithin bound e := decodeWithin_bare hbuiltin bound hsame
      _ = builtin.decode e := hbound'.trans (decode_of_decodeWithin hw).symm
  · rw [← decodeScalar?_bare d, hsame, decodeScalar?_bare]

/-- A map with and without cells around it and everything in it, and a rule that looks for arrays
behind the built-in chain. -/
theorem decode_eq_of_bare_nested :
    let d : Datum := .map [("a", .array [.unit, .string "x", .blob [1]]), ("f", .fnPtr "g" []),
      ("u", .foreign "T")]
    let e : Datum := .shared (.map [("a", .shared (.array [.shared .unit, .shared (.string "x"),
      .shared (.blob [1])])), ("f", .shared (.fnPtr "g" [])), ("u", .shared (.foreign "T"))])
    let t : Rule := fun d => match d.bare with
      | .array items => .resolved (.int items.length)
      | _ => .pass d
    builtin.decode d = builtin.decode e ∧
      ∀ bound, (builtin.append t).decodeWithin bound d = (builtin.append t).decodeWithin bound e := by
  intro d e t
  have ht : Rule.IgnoresCells t := fun x y hsame => by
    simp only [t, hsame]
    cases y.bare <;> first | rfl | exact congrArg Verdict.pass hsame
  have hrules : ∀ u ∈ (builtin.append t).rules, Rule.IgnoresCells u := by
    simpa [append, builtin] using ⟨scalarRule_ignoresCells, ht⟩
  obtain ⟨hdecode, -, hchain⟩ := decode_eq_of_bare (d := d) (e := e) rfl
  exact ⟨hdecode, hchain (builtin.append t) hrules⟩

end Chain

end ScriptHost
