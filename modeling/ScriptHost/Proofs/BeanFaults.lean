import Mathlib
import ScriptHost.Proofs.Serialization.Frames

/-!
# Where flattening fails

A serialization that is not accepted has a first part that breaks, in front of which all is
accepted. The failure gives the problem of this part and names the field it is in. The name has what
leads to the part in the host value, but it leaves out the names of variants of several parts.
-/

namespace ScriptHost

namespace Serialization

/-! ## The first part that breaks -/

/-- Everything in front of the part is accepted. -/
def Frame.Begins : Frame → Prop
  | seq before _ | tuple before _ | tupleStruct _ before _ | tupleVariant _ before _ =>
    AcceptedItems before
  | key before _ _ => AcceptedEntries before
  | entry before k _ => AcceptedEntries before ∧ k.Accepted ∧ k.keyText?.isSome = true
  | record _ before _ _ | recordVariant _ before _ _ => AcceptedFields before
  | present | newtypeStruct _ | newtypeVariant _ => True

/-- A serialization breaks by itself, its own parts being accepted up to there. -/
inductive Breaks : Serialization → BeanProblem → Prop
  /-- It refuses. -/
  | refused (message : String) : Breaks (refused message) (.refused message)
  /-- A marked part is no text. -/
  | leafWithoutText {name : String} {kind : LeafKind} {s : Serialization}
      (hmark : LeafKind.ofMark? name = some kind) (hs : s.Accepted) (htext : s.text? = none) :
      Breaks (newtypeStruct name s) (.leafWithoutText name)
  /-- A marked text does not read. -/
  | invalidLeaf {name text reason : String} {kind : LeafKind} {s : Serialization}
      (hmark : LeafKind.ofMark? name = some kind) (hs : s.Accepted) (htext : s.text? = some text)
      (hread : kind.read text = .error reason) :
      Breaks (newtypeStruct name s) (.invalidLeaf text reason)
  /-- A key has no text. -/
  | unsupportedKey {before after : List (Option Serialization × Serialization)}
      {key s : Serialization} (hbefore : AcceptedEntries before) (hkey : key.Accepted)
      (htext : key.keyText? = none) :
      Breaks (map (before ++ (some key, s) :: after)) (.unsupportedKey key.value)
  /-- A value comes without a key. -/
  | missingKey {before after : List (Option Serialization × Serialization)} {s : Serialization}
      (hbefore : AcceptedEntries before) : Breaks (map (before ++ (none, s) :: after)) .missingKey

/-- The first part of a serialization that breaks, and the frames around it. -/
structure FirstFault (s : Serialization) (context : List Frame) (part : Serialization)
    (problem : BeanProblem) : Prop where
  /-- The part stands in the frames. -/
  whole : s = part.within context
  /-- Everything in front of the part is accepted. -/
  begins : ∀ f ∈ context, f.Begins
  /-- The part breaks. -/
  breaks : part.Breaks problem

/-- A list of which not all is accepted has a first element that is not. -/
theorem exists_first {α : Type} {accepted : List α → Prop} {one : α → Prop} (hnil : accepted [])
    (hcons : ∀ a as, accepted (a :: as) ↔ one a ∧ accepted as) {as : List α}
    (h : ¬accepted as) :
    ∃ before a after, as = before ++ a :: after ∧ accepted before ∧ ¬one a := by
  induction as with
  | nil => exact absurd hnil h
  | cons a as ih =>
    by_cases ha : one a
    · have has : ¬accepted as := fun has => h ((hcons a as).mpr ⟨ha, has⟩)
      obtain ⟨before, b, after, rfl, hbefore, hb⟩ := ih has
      exact ⟨a :: before, b, after, rfl, (hcons a before).mpr ⟨ha, hbefore⟩, hb⟩
    · exact ⟨[], a, as, rfl, hnil, ha⟩

/-- Of items that are not accepted, there is a first one that is not. -/
theorem exists_first_item {items : List Serialization} (h : ¬AcceptedItems items) :
    ∃ before s after, items = before ++ s :: after ∧ AcceptedItems before ∧ ¬s.Accepted :=
  exists_first trivial (fun s rest => by rw [AcceptedItems]) h

/-- Of fields that are not accepted, there is a first one that is not. -/
theorem exists_first_field {fields : List (String × Serialization)} (h : ¬AcceptedFields fields) :
    ∃ before name s after, fields = before ++ (name, s) :: after ∧ AcceptedFields before ∧
      ¬s.Accepted := by
  have hfirst : ∃ before p after, fields = before ++ p :: after ∧ AcceptedFields before ∧
      ¬p.2.Accepted :=
    exists_first trivial (fun p rest => by rw [AcceptedFields]) h
  obtain ⟨before, ⟨name, s⟩, after, hfields⟩ := hfirst
  exact ⟨before, name, s, after, hfields⟩

/-- A mapping that is not accepted breaks, or a key or a value in it is not accepted. -/
theorem breaks_or_frame_map {entries : List (Option Serialization × Serialization)}
    (h : ¬AcceptedEntries entries) :
    (∃ problem, (map entries).Breaks problem) ∨
      ∃ (f : Frame) (part : Serialization), map entries = f.plug part ∧ f.Begins ∧
        ¬part.Accepted := by
  have hcons (p : Option Serialization × Serialization) (rest) :
      AcceptedEntries (p :: rest) ↔ AcceptedEntries [p] ∧ AcceptedEntries rest :=
    @acceptedEntries_append [p] rest
  obtain ⟨before, ⟨_ | key, s⟩, after, rfl, hbefore, hfirst⟩ := exists_first trivial hcons h
  · exact .inl ⟨_, .missingKey hbefore⟩
  by_cases hkey : key.Accepted
  · cases htext : key.keyText? with
    | none => exact .inl ⟨_, .unsupportedKey hbefore hkey htext⟩
    | some text =>
      have hs : ¬s.Accepted := by simpa [AcceptedEntries, hkey, htext] using hfirst
      have hbegins : (Frame.entry before key after).Begins := ⟨hbefore, hkey, by rw [htext]; rfl⟩
      exact .inr ⟨.entry before key after, s, rfl, hbegins, hs⟩
  · exact .inr ⟨.key before s after, key, rfl, hbefore, hkey⟩

/-- A marked part whose content is accepted breaks if it is not accepted. -/
theorem breaks_newtypeStruct {name : String} {s : Serialization} (hs : s.Accepted)
    (h : ¬(newtypeStruct name s).Accepted) : ∃ problem, (newtypeStruct name s).Breaks problem := by
  rw [Accepted] at h
  obtain ⟨kind, hkind⟩ := not_forall.mp fun hall => h ⟨hs, hall⟩
  obtain ⟨hmark, hmarked⟩ := Classical.not_imp.mp hkind
  cases htext : s.text? with
  | none => exact ⟨_, .leafWithoutText hmark hs htext⟩
  | some text =>
    cases hread : kind.read text with
    | error reason => exact ⟨_, .invalidLeaf hmark hs htext hread⟩
    | ok v => simp [marked?, htext, hread, Except.toOption] at hmarked

/-- A serialization that is not accepted breaks, or a part of it is not accepted, in front of which
all is accepted. -/
theorem breaks_or_frame {s : Serialization} (h : ¬s.Accepted) :
    (∃ problem, s.Breaks problem) ∨
      ∃ (f : Frame) (part : Serialization), s = f.plug part ∧ f.Begins ∧ ¬part.Accepted := by
  cases s with
  | present s => exact .inr ⟨.present, s, rfl, trivial, h⟩
  | newtypeStruct name s =>
    by_cases hs : s.Accepted
    · exact .inl (breaks_newtypeStruct hs h)
    · exact .inr ⟨.newtypeStruct name, s, rfl, trivial, hs⟩
  | newtypeVariant variant s => exact .inr ⟨.newtypeVariant variant, s, rfl, trivial, h⟩
  | seq items =>
    obtain ⟨before, s, after, rfl, hbefore, hs⟩ := exists_first_item h
    exact .inr ⟨.seq before after, s, rfl, hbefore, hs⟩
  | tuple items =>
    obtain ⟨before, s, after, rfl, hbefore, hs⟩ := exists_first_item h
    exact .inr ⟨.tuple before after, s, rfl, hbefore, hs⟩
  | tupleStruct name items =>
    obtain ⟨before, s, after, rfl, hbefore, hs⟩ := exists_first_item h
    exact .inr ⟨.tupleStruct name before after, s, rfl, hbefore, hs⟩
  | tupleVariant variant items =>
    obtain ⟨before, s, after, rfl, hbefore, hs⟩ := exists_first_item h
    exact .inr ⟨.tupleVariant variant before after, s, rfl, hbefore, hs⟩
  | map entries => exact breaks_or_frame_map h
  | record name fields =>
    obtain ⟨before, field, s, after, rfl, hbefore, hs⟩ := exists_first_field h
    exact .inr ⟨.record name before field after, s, rfl, hbefore, hs⟩
  | recordVariant variant fields =>
    obtain ⟨before, field, s, after, rfl, hbefore, hs⟩ := exists_first_field h
    exact .inr ⟨.recordVariant variant before field after, s, rfl, hbefore, hs⟩
  | refused message => exact .inl ⟨_, .refused message⟩
  | bool _ | int _ _ _ _ | single _ | double _ | char _ | text _ | bytes _ | absent | unit
  | unitStruct _ | unitVariant _ | leaf _ | leafOption _ => exact absurd trivial h

/-- A part is smaller than what it is a part of. -/
theorem Frame.sizeOf_lt_plug (f : Frame) (s : Serialization) : sizeOf s < sizeOf (f.plug s) := by
  have hitem (before after : List Serialization) : sizeOf s < sizeOf (before ++ s :: after) :=
    List.sizeOf_lt_of_mem (by simp)
  have hpair {α : Type} [SizeOf α] (a : α) (before after : List (α × Serialization)) :
      sizeOf s < sizeOf (before ++ (a, s) :: after) := by
    have hmem : sizeOf (a, s) < sizeOf (before ++ (a, s) :: after) :=
      List.sizeOf_lt_of_mem (by simp)
    simp only [Prod.mk.sizeOf_spec] at hmem
    omega
  cases f with
  | present | newtypeStruct name | newtypeVariant variant => simp [plug]
  | seq before after | tuple before after | tupleStruct name before after
  | tupleVariant variant before after =>
    have hlt := hitem before after
    simp only [plug, Serialization.seq.sizeOf_spec, Serialization.tuple.sizeOf_spec,
      Serialization.tupleStruct.sizeOf_spec, Serialization.tupleVariant.sizeOf_spec]
    omega
  | key before t after =>
    have hmem : sizeOf (some s, t) < sizeOf (before ++ (some s, t) :: after) :=
      List.sizeOf_lt_of_mem (by simp)
    simp only [Prod.mk.sizeOf_spec, Option.some.sizeOf_spec] at hmem
    simp only [plug, map.sizeOf_spec]
    omega
  | entry before k after =>
    have hlt := hpair (some k) before after
    simp only [plug, map.sizeOf_spec]
    omega
  | record name before field after | recordVariant variant before field after =>
    have hlt := hpair field before after
    simp only [plug, Serialization.record.sizeOf_spec, Serialization.recordVariant.sizeOf_spec]
    omega

/-- A serialization that is not accepted has a first part that breaks. -/
theorem exists_firstFault {s : Serialization} (h : ¬s.Accepted) :
    ∃ context part problem, FirstFault s context part problem := by
  -- frame by frame inwards, the part that is not accepted getting smaller
  rcases breaks_or_frame h with ⟨problem, hbreaks⟩ | ⟨f, part, hs, hf, hpart⟩
  · exact ⟨[], s, problem, rfl, nofun, hbreaks⟩
  · have hlt : sizeOf part < sizeOf s := hs ▸ f.sizeOf_lt_plug part
    obtain ⟨context, inner, problem, rfl, hcontext, hbreaks⟩ := exists_firstFault hpart
    exact ⟨f :: context, inner, problem, hs, List.forall_mem_cons.mpr ⟨hf, hcontext⟩, hbreaks⟩
termination_by sizeOf s

/-! ## The fault that flattening gives -/

/-- Accepted items are passed over. -/
theorem flattenItems_append {before : List Serialization} (h : AcceptedItems before) (index : ℕ)
    (rest : List Serialization) :
    Bean.flattenItems index (beans (before ++ rest)) =
      (Bean.flattenItems (index + before.length) (beans rest)).map (values before ++ ·) := by
  induction before generalizing index with
  | nil => cases hrest : Bean.flattenItems index (beans rest) <;> simp [hrest, values, Except.map]
  | cons s before ih =>
    have hlength : index + 1 + before.length = index + (s :: before).length := by
      rw [List.length_cons]
      omega
    rw [List.cons_append, beans, Bean.flattenItems, flattenValue_of_accepted h.1]
    simp only [ih h.2, hlength]
    cases Bean.flattenItems (index + (s :: before).length) (beans rest) <;> rfl

/-- What is no key is said to be none. -/
theorem keyText_cases (v : Value) :
    (∃ text, Bean.keyText v = .ok text) ∨
      Bean.keyText v = .error ⟨[], .unsupportedKey v⟩ := by
  cases v with
  | string s => exact .inl ⟨s, rfl⟩
  | int i | bigInt i => exact .inl ⟨toString i, rfl⟩
  | bool b => exact .inl ⟨toString b, rfl⟩
  | _ => exact .inr rfl

/-- The key of an accepted serialization: its text, or the problem that it has none. -/
theorem keyText_of_accepted {s : Serialization} (h : s.Accepted) :
    Bean.keyText s.value =
      s.keyText?.elim (.error ⟨[], .unsupportedKey s.value⟩) Except.ok := by
  rw [← keyText_value h]
  rcases keyText_cases s.value with ⟨text, htext⟩ | herror
  · rw [htext]
    rfl
  · rw [herror]
    rfl

/-- Accepted entries are passed over, their host values being written. -/
theorem flattenEntries_append {before : List (Option Serialization × Serialization)}
    (h : AcceptedEntries before) (done : List (String × Value))
    (rest : List (Option Serialization × Serialization)) :
    Bean.flattenEntries done (entryBeans (before ++ rest)) =
      Bean.flattenEntries
        ((entryValues before).foldl (fun fields p => Fields.insert p.1 p.2 fields) done)
        (entryBeans rest) := by
  induction before generalizing done with
  | nil => rfl
  | cons first before ih =>
    obtain ⟨_ | key, s⟩ := first
    · exact h.elim
    · obtain ⟨hkey, htext, hs, hbefore⟩ := h
      obtain ⟨text, htext⟩ := Option.isSome_iff_exists.mp htext
      rw [List.cons_append, entryBeans, Bean.flattenEntries, flattenValue_of_accepted hkey]
      simp only [keyText_of_accepted hkey, htext, Option.elim_some, flattenValue_of_accepted hs,
        ih hbefore, entryValues, List.foldl_cons, Option.getD_some]

/-- Accepted fields are passed over, their host values being written. -/
theorem flattenFields_append {before : List (String × Serialization)}
    (h : AcceptedFields before) (done : List (String × Value))
    (rest : List (String × Serialization)) :
    Bean.flattenFields done (fieldBeans (before ++ rest)) =
      Bean.flattenFields
        ((fieldValues before).foldl (fun fields p => Fields.insert p.1 p.2 fields) done)
        (fieldBeans rest) := by
  induction before generalizing done with
  | nil => rfl
  | cons first before ih =>
    obtain ⟨name, s⟩ := first
    rw [List.cons_append, fieldBeans, Bean.flattenFields, flattenValue_of_accepted h.1]
    exact ih h.2 _

/-- What breaks has its problem right there. -/
theorem Breaks.flattenValue_eq {s : Serialization} {problem : BeanProblem} (h : s.Breaks problem) :
    Bean.flattenValue s.bean = .error ⟨[], problem⟩ := by
  cases h with
  | refused message => rfl
  | @leafWithoutText name kind s hmark hs htext =>
    -- which branch of the reader is taken rests on this
    have hvalue (text : String) : s.value ≠ .string text := by
      rw [Ne, value_eq_string_iff hs, htext]
      nofun
    rw [bean, Bean.flattenValue, flattenValue_of_accepted hs]
    simp only [Bean.leafValue, hmark, Bean.problem]
  | invalidLeaf hmark hs htext hread =>
    rw [bean, Bean.flattenValue, flattenValue_of_accepted hs, (value_eq_string_iff hs _).mpr htext]
    simp only [Bean.leafValue, hmark, hread, Bean.problem]
  | unsupportedKey hbefore hkey htext =>
    rw [bean, Bean.flattenValue, flattenEntries_append hbefore, entryBeans, Bean.flattenEntries,
      flattenValue_of_accepted hkey]
    simp only [keyText_of_accepted hkey, htext, Option.elim_none, Except.map]
  | missingKey hbefore =>
    rw [bean, Bean.flattenValue, flattenEntries_append hbefore, entryBeans, Bean.flattenEntries]
    rfl

/-- The fault of an item, under its number. -/
theorem flattenItems_fault {before : List Serialization} (h : AcceptedItems before)
    {s : Serialization} {fault : BeanFault} (hs : Bean.flattenValue s.bean = .error fault)
    (after : List Serialization) :
    Bean.flattenItems 0 (beans (before ++ s :: after)) =
      .error (fault.below (toString before.length)) := by
  rw [flattenItems_append h, beans, Bean.flattenItems, hs, Nat.zero_add]
  rfl

/-- The fault of a field, under its name. -/
theorem flattenFields_fault {before : List (String × Serialization)} (h : AcceptedFields before)
    {s : Serialization} {fault : BeanFault} (hs : Bean.flattenValue s.bean = .error fault)
    (name : String) (after : List (String × Serialization)) :
    Bean.flattenFields [] (fieldBeans (before ++ (name, s) :: after)) =
      .error (fault.below name) := by
  rw [flattenFields_append h, fieldBeans, Bean.flattenFields, hs]

/-- The fault of a part, with the steps of the frame in front of its path. -/
theorem Frame.flattenValue_plug {f : Frame} (hf : f.Begins) {s : Serialization}
    {fault : BeanFault} (hs : Bean.flattenValue s.bean = .error fault) :
    Bean.flattenValue (f.plug s).bean =
      .error ⟨f.steps.map Label.text ++ fault.path, fault.problem⟩ := by
  cases f with
  | present => exact hs
  | newtypeStruct name | newtypeVariant variant =>
    rw [plug, bean, Bean.flattenValue, hs]
    rfl
  | seq before after | tuple before after | tupleStruct name before after
  | tupleVariant variant before after =>
    rw [plug, bean, Bean.flattenValue, flattenItems_fault hf hs]
    rfl
  | key before t after =>
    rw [plug, bean, Bean.flattenValue, flattenEntries_append hf, entryBeans,
      Bean.flattenEntries, hs]
    rfl
  | entry before k after =>
    obtain ⟨hbefore, hk, htext⟩ := hf
    obtain ⟨text, htext⟩ := Option.isSome_iff_exists.mp htext
    rw [plug, bean, Bean.flattenValue, flattenEntries_append hbefore, entryBeans,
      Bean.flattenEntries, flattenValue_of_accepted hk]
    simp only [keyText_of_accepted hk, htext, Option.elim_some, hs, Except.map, steps,
      Option.getD_some, List.map_cons, Label.text, BeanFault.below, List.map_nil,
      List.singleton_append]
  | record name before field after | recordVariant variant before field after =>
    rw [plug, bean, Bean.flattenValue, flattenFields_fault hf hs]
    rfl

/-- The fault of a part inside of frames, with their steps in front of its path. -/
theorem flattenValue_within {context : List Frame} (hbegins : ∀ f ∈ context, f.Begins)
    {s : Serialization} {fault : BeanFault} (hs : Bean.flattenValue s.bean = .error fault) :
    Bean.flattenValue (s.within context).bean =
      .error ⟨(context.flatMap Frame.steps).map Label.text ++ fault.path, fault.problem⟩ := by
  induction context with
  | nil => exact hs
  | cons f context ih =>
    obtain ⟨hf, hcontext⟩ := List.forall_mem_cons.mp hbegins
    have hplug := Frame.flattenValue_plug hf (ih hcontext)
    rw [List.flatMap_cons, List.map_append, List.append_assoc]
    exact hplug

/-! ## The failure -/

/-- The name of a field: what leads to it, joined by dots. -/
def fieldName (place : List Label) : String :=
  if place = [] then "<root>" else joined "." (place.map Label.text)

/-- The first part that breaks gives its problem, under the steps that lead to it. -/
theorem FirstFault.flatten_eq {s part : Serialization} {context : List Frame}
    {problem : BeanProblem} (h : FirstFault s context part problem) :
    s.bean.flatten =
      .error (.inaccessibleField (fieldName (context.flatMap Frame.steps)) problem.message) := by
  have hfault := flattenValue_within h.begins h.breaks.flattenValue_eq
  rw [List.append_nil] at hfault
  simp only [Bean.flatten, h.whole, hfault, BeanFault.failure, fieldName, List.isEmpty_iff,
    List.map_eq_nil_iff]

/-- What leads to a part is no shorter with the names of variants. -/
theorem length_steps_le (context : List Frame) :
    (context.flatMap Frame.steps).length ≤ (context.flatMap Frame.place).length := by
  induction context with
  | nil => exact le_rfl
  | cons f context ih =>
    simp only [List.flatMap_cons, List.length_append, Frame.place]
    omega

/-- Nothing is left out exactly when no frame belongs to a variant of several parts. -/
theorem steps_eq_place_iff (context : List Frame) :
    context.flatMap Frame.steps = context.flatMap Frame.place ↔
      ∀ f ∈ context, f.variant? = none := by
  induction context with
  | nil => simp
  | cons f context ih =>
    rw [List.forall_mem_cons, ← ih, List.flatMap_cons, List.flatMap_cons, Frame.place]
    cases hvariant : f.variant? with
    | none => simp
    | some variant =>
      have hle := length_steps_le context
      refine iff_of_false (fun heq => ?_) (by simp)
      have hlength := congrArg List.length heq
      simp only [Option.map_some, Option.toList_some, List.length_append, List.length_cons,
        List.length_nil] at hlength
      omega

/-- **A failure names the first part that breaks.** Flattening gives a fault exactly when some part
of the serialization breaks with all in front of it accepted. The failure then has the problem of
this part. Its field is named by the keys, names and numbers that lead to the place where an
accepted part would show instead, but the names of variants of several parts are left out: the name
is that of the place exactly when there is no such variant around the part. -/
theorem flatten_first_fault (s : Serialization) :
    ((∃ fault, Bean.flattenValue s.bean = .error fault) ↔
      ∃ context part problem, FirstFault s context part problem) ∧
    ∀ context part problem, FirstFault s context part problem →
      s.bean.flatten =
        .error (.inaccessibleField (fieldName (context.flatMap Frame.steps)) problem.message) ∧
      (context.flatMap Frame.steps = context.flatMap Frame.place ↔
        ∀ f ∈ context, f.variant? = none) ∧
      ((∀ f ∈ context, f.Shows) → ∀ t w, Bean.flattenValue (within context t).bean = .ok w →
        w.at? (context.flatMap Frame.place) = some t.value) := by
  refine ⟨⟨?_, ?_⟩, fun context part problem h =>
    ⟨h.flatten_eq, steps_eq_place_iff context, ?_⟩⟩
  · rintro ⟨fault, hfault⟩
    refine exists_firstFault fun haccepted => ?_
    rw [flattenValue_of_accepted haccepted] at hfault
    cases hfault
  · rintro ⟨context, part, problem, h⟩
    exact ⟨_, h.whole ▸ flattenValue_within h.begins h.breaks.flattenValue_eq⟩
  · intro hshows t w hw
    obtain ⟨-, rfl⟩ := flattenValue_eq_ok_iff.mp hw
    exact at?_within hshows t

/-- The second part of a variant refuses, in the second field of a record. -/
theorem flatten_first_fault_variant :
    let s := record "Bean"
      [("n", unit), ("v", tupleVariant "Tup" [unit, refused "field is private"])]
    let context : List Frame :=
      [.record "Bean" [("n", .unit)] "v" [], .tupleVariant "Tup" [.unit] []]
    s.bean.flatten = .error (.inaccessibleField "v.1" "field is private") ∧
      fieldName (context.flatMap Frame.place) = "v.Tup.1" ∧
      ∀ t w, Bean.flattenValue (within context t).bean = .ok w →
        w.at? (context.flatMap Frame.place) = some t.value := by
  intro s context
  have hfirst : FirstFault s context (refused "field is private") (.refused "field is private") :=
    ⟨rfl, by simp [context, Frame.Begins, AcceptedFields, AcceptedItems, Accepted], .refused _⟩
  obtain ⟨hflatten, -, hshown⟩ := (flatten_first_fault s).2 context _ _ hfirst
  have hshows : ∀ f ∈ context, f.Shows := by simp [context, Frame.Shows]
  exact ⟨hflatten, by decide, hshown hshows⟩

end Serialization

end ScriptHost
