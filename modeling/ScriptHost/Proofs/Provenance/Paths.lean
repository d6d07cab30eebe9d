import ScriptHost.Proofs.Provenance.Calls
import ScriptHost.Script.Evaluation.Path

/-!
# Paths keep to an origin

What a path reaches from a traced value is traced, and so is the value after a method or an
assignment has changed a part of it.
-/

namespace ScriptHost.Script.Evaluation

variable {ω : Type} {o : Origin} {e : Engine ω} {ev : Evaluator ω}

/-! ## Steps and parts -/

/-- All failures in the arguments of a step come from an origin. -/
@[simp]
def Step.Traced (o : Origin) : Step → Prop
  | .property .. => True
  | .method _ args .. => ∀ d ∈ args, d.Traced o
  | .index key .. => key.Traced o

/-- A part is traced, and so is the whole with another traced value in its place. -/
structure Part.Traced (o : Origin) (p : Part) : Prop where
  /-- The part is. -/
  value : p.value.Traced o
  /-- The whole is. -/
  write : ∀ d w, d.Traced o → p.write d = .ok w → w.Traced o

instance : Traceable Step := ⟨Step.Traced⟩
instance : Traceable Part := ⟨Part.Traced⟩

@[simp] theorem isTraced_step (s : Step) : IsTraced o s ↔ s.Traced o := .rfl
@[simp] theorem isTraced_part (p : Part) : IsTraced o p ↔ p.Traced o := .rfl

theorem Part.traced_place {d : Datum} (hd : d.Traced o) {rebuild : Datum → Datum}
    (hrebuild : ∀ d, d.Traced o → (rebuild d).Traced o) : (Part.place d rebuild).Traced o := by
  refine ⟨hd, fun d w hd hw => ?_⟩
  cases hw
  exact hrebuild d hd

theorem Part.traced_copy {d : Datum} (hd : d.Traced o) {write : Datum → Except Cause Datum}
    (hwrite : ∀ d w, write d = .ok w → w.Traced o) : (Part.copy d write).Traced o :=
  ⟨hd, fun d w _ hw => hwrite d w hw⟩

theorem traced_bitsPart {i low high : ℤ} {p : Part} (h : bitsPart i low high = .ok p) :
    p.Traced o := by
  unfold bitsPart at h
  split at h
  · cases h
  · cases h
    refine Part.traced_copy (by simp) fun d w hw => ?_
    split at hw <;> cases hw
    simp

theorem traced_textPart (s : String) (low high : ℤ) (ordinal : ℤ → ℕ) :
    (textPart s low high ordinal).Traced o :=
  Part.traced_copy (by simp) fun d w hw => by
    cases hw
    simp

/-- A part of a traced value is traced. -/
theorem traced_indexPart (e : Engine ω) (insert : Bool) {whole : Datum} (hwhole : whole.Traced o)
    (key : Datum) (pos opPos : Position) : (indexPart e insert whole key pos opPos).Traced o := by
  have hrange {p : Prop} [Decidable p] {i low high : ℤ} {d : Datum}
      (hd : d.Traced o) : Run.Traced o (ofResult
        (if p then .ok (.copy (.int 0) fun _ => .ok d) else bitsPart i low high) pos :
          Run ω Part) := by
    refine traced_ofResult (fun r hr => ?_) pos
    split at hr
    · cases hr
      exact Part.traced_copy (by simp) fun d w hw => by
        cases hw
        exact hd
    · exact traced_bitsPart hr
  unfold indexPart
  refine (traced_tick e .none).bind fun _ _ => ?_
  split
  · next items i =>
    have hitems : ∀ d ∈ items, d.Traced o := by simpa using hwhole
    split
    · refine .pure (Part.traced_place (Library.traced_getD fun d hd =>
        hitems d (List.mem_of_getElem? hd)) fun d hd => ?_)
      rw [Datum.Traced]
      exact fun x hx => (List.mem_or_eq_of_mem_set hx).elim (hitems x) (· ▸ hd)
    · exact .raise _ pos
  · exact traced_mismatch _ _ _
  · split
    · refine .pure (Part.traced_copy (by simp) fun d w hw => ?_)
      split at hw <;> cases hw
      simp
    · exact .raise _ pos
  · exact traced_mismatch _ _ _
  · next fields k =>
    have hfields : ∀ p ∈ fields, p.2.Traced o := by simpa using hwhole
    have hinsert (d : Datum) (hd : d.Traced o) : (Datum.map (Fields.insert k d fields)).Traced o := by
      rw [Datum.Traced]
      intro p hp
      rcases Fields.mem_insert hp with rfl | hp
      · exact hd
      · exact hfields p hp
    split
    · next d hd =>
      exact .pure (Part.traced_place (hfields _ (Fields.mem_of_get? hd)) hinsert)
    · split
      · have hplace := Part.traced_place (o := o) (d := .unit) (by simp) hinsert
        exact .pure ⟨hplace.value, hplace.write⟩
      · split
        · exact .raise _ pos
        · refine .pure (Part.traced_copy (by simp) fun d w hw => ?_)
          cases hw
          exact hwhole
  · exact traced_mismatch _ _ _
  · exact hrange hwhole
  · exact hrange hwhole
  · split
    · refine .pure (Part.traced_copy (by simp) fun d w hw => ?_)
      split at hw <;> cases hw <;> simp
    · exact .raise _ pos
  · exact traced_mismatch _ _ _
  · exact .pure (traced_textPart _ _ _ _)
  · exact .pure (traced_textPart _ _ _ _)
  · dsimp only
    split
    · refine .pure (Part.traced_copy (by simp) fun d w hw => ?_)
      split at hw <;> cases hw
      simp
    · exact .raise _ pos
  · exact traced_mismatch _ _ _
  · exact (traced_tick e opPos).bind fun _ _ => .raise _ opPos

theorem traced_getProperty (e : Engine ω) (name : String) {whole : Datum} (hwhole : whole.Traced o)
    (opPos pos : Position) : (getProperty e name whole opPos pos).Traced o := by
  unfold getProperty
  refine (traced_tick e pos).bind fun _ _ => ?_
  split
  · next d hd => exact .pure (Library.traced_property? name hwhole d hd)
  · exact (traced_tick e opPos).bind fun _ _ => .raise _ pos

theorem traced_setProperty {α : Type} [Traceable α] (e : Engine ω) (name : String)
    (whole d : Datum) (opPos pos : Position) :
    (setProperty e name whole d opPos pos : Run ω α).Traced o :=
  (traced_tick e pos).bind fun _ _ => (traced_tick e opPos).bind fun _ _ => .raise _ pos

/-! ## Methods -/

/-- A method gives a traced value and leaves a traced object. -/
theorem traced_callStep (he : e.Traced o) (hev : ev.Traced o) (name : String)
    {args : List Datum} (hargs : ∀ d ∈ args, d.Traced o) (access : Access)
    (firstPos pos : Position) : (callStep e ev name args access firstPos pos).Traced o := by
  have hslots := traced_ownSlots hargs
  intro d m hd hm
  unfold callStep
  extract_lets slots noPointer run
  have hrun : run.Traced o := by
    dsimp only [run]
    split
    · exact .lift (traced_callPointer he hev _ (by simpa using hd) hslots pos)
    · refine traced_callPointerOn he hev _ ?_ (fun s hs => hslots s (List.mem_of_mem_drop hs)) _ _
      simpa using hargs _ List.mem_cons_self
    · exact .raise _ pos
    · exact .raise _ firstPos
    · refine .pure ?_
      simp only [isTraced_datum, Datum.Traced, List.forall_mem_append]
      exact ⟨by simpa using hd, by simpa using hargs⟩
    · exact .raise _ pos
    · exact .pure (by simp)
    · rw [Datum.Traced] at hd
      split
      · next f curried hf =>
        have hmethod := hd _ (Fields.mem_of_get? hf)
        rw [Datum.Traced] at hmethod
        exact traced_callPointerOn he hev _ hmethod hslots _ _
      · exact traced_callMethod he hev _ hslots _ _
    · exact traced_callMethod he hev _ hslots _ _
  exact hrun d m hd hm

/-! ## Following a path -/

theorem traced_putBack {p : Part} (hp : p.Traced o) {whole d : Datum} (hwhole : whole.Traced o)
    (hd : d.Traced o) : (putBack p whole d).Traced o := by
  unfold putBack
  split
  · next w hw => exact hp.write d w hd hw
  · exact hwhole

theorem traced_inside {α : Type} [Traceable α] {p : Part} (hp : p.Traced o)
    {place copy : Focus ω α} (hplace : place.Traced o) (hcopy : copy.Traced o) :
    (inside p place copy).Traced o := by
  unfold inside
  split
  · exact .part hp.value (fun _ _ hwhole hd => traced_putBack hp hwhole hd) hplace
  · exact .lost hp.value hcopy

/-- What a path reaches is traced. -/
theorem traced_follow (he : e.Traced o) (hev : ev.Traced o) {path : Path}
    (hpath : IsTraced o path) (access : Access) : (follow e ev access path).Traced o := by
  induction path generalizing access with
  | nil => exact .target
  | cons head rest ih =>
    obtain ⟨isOptional, step⟩ := head
    obtain ⟨⟨-, hstep⟩, hrest⟩ := List.forall_mem_cons.mp hpath
    rw [follow]
    refine Focus.Traced.target.bind fun whole hwhole => ?_
    split
    · exact .pure (by simp)
    · split
      · next key opPos pos =>
        exact (Focus.Traced.lift (traced_indexPart e _ hwhole key pos opPos)).bind fun p hp =>
          traced_inside hp (ih hrest access) (ih hrest .copy)
      · next name opPos pos =>
        split
        · exact (Focus.Traced.lift (traced_indexPart e _ hwhole _ pos opPos)).bind fun p hp =>
            traced_inside hp (ih hrest access) (ih hrest .copy)
        · exact (Focus.Traced.lift (traced_getProperty e name hwhole opPos pos)).bind
            fun d hd => .lost hd (ih hrest .copy)
      · next name args firstPos _ pos =>
        exact (traced_callStep he hev name hstep access firstPos pos).bind fun d hd =>
          .lost hd (ih hrest .copy)

/-! ## Assignment -/

theorem traced_combined (hev : ev.Traced o) (op : String) {old new : Datum} (hold : old.Traced o)
    (hnew : new.Traced o) (pos : Position) : (combined e ev op old new pos).Traced o := by
  have hargs : ∀ d ∈ [old, new], d.Traced o := by simpa using ⟨hold, hnew⟩
  unfold combined
  dsimp only
  split
  · next r hr =>
    refine (traced_ofResult (fun d hd => ?_) pos).bind fun d hd =>
      (traced_checkSize e d pos).bind fun _ _ => .pure hd
    exact Operator.traced_binary? op old new d (hd ▸ hr)
  · split
    · next d hd =>
      obtain ⟨answer, hanswer, hself⟩ := Option.bind_eq_some_iff.mp hd
      have hd : d.Traced o := (Library.traced_answer? _ hargs answer hanswer).self d hself
      have hrest : Run.Traced o (do
          checkSize e d pos
          pure d) := (traced_checkSize e d pos).bind fun _ _ => .pure hd
      split
      · exact hrest
      · exact hrest
      · exact (traced_tick e pos).bind fun _ _ => hrest
    · exact (traced_tick e pos).bind fun _ _ => (hev.native op _ .copy pos hargs).bind
        fun r hr => .pure hr.1

theorem traced_assigned (hev : ev.Traced o) (op : Option String) {old new : Datum}
    (hold : old.Traced o) (hnew : new.Traced o) (pos : Position) :
    (assigned e ev op old new pos).Traced o := by
  cases op with
  | none => exact .pure hnew
  | some op => exact traced_combined hev op hold hnew pos

section

variable {access : Access} {root : String × Position} {op : Option String} {assignPos : Position}
  {new : Datum}

theorem traced_store (hev : ev.Traced o) (hnew : new.Traced o) {p : Part} (hp : p.Traced o) :
    (assignAt.store e ev access root op assignPos new p).Traced o := by
  unfold assignAt.store
  split
  · exact .raise _ _
  · refine (Focus.Traced.lift (traced_assigned hev op hp.value hnew assignPos)).bind
      fun d hd => ?_
    split
    · next w hw => exact (Focus.Traced.put (hp.write d w hd hw)).bind fun _ _ => .pure hd
    · exact .raise _ _

theorem traced_last (hev : ev.Traced o) (hnew : new.Traced o) {whole : Datum}
    (hwhole : whole.Traced o) (step : Step) :
    (assignAt.last e ev access root op assignPos new whole step).Traced o := by
  have hstore {p : Part} (hp : p.Traced o) :
      (assignAt.store e ev access root op assignPos new p).Traced o := traced_store hev hnew hp
  have hput {p : Part} (hp : p.Traced o) : Focus.Traced o
      (Focus.put (putBack p whole .unit) : Focus ω Unit) :=
    .put (traced_putBack hp hwhole (by simp))
  unfold assignAt.last
  split
  · next name opPos pos =>
    split
    · refine (Focus.Traced.lift (traced_indexPart e _ hwhole _ pos opPos)).bind fun p hp => ?_
      extract_lets rest
      have hrest (u : Unit) : (rest u).Traced o :=
        (hstore hp).bind fun _ _ => Focus.Traced.target.bind fun d _ =>
          .lift (traced_checkSize e d assignPos)
      split
      · exact (hput hp).bind fun u _ => hrest u
      · exact hrest ()
    · extract_lets rest
      have hrest (d : Datum) : (rest d).Traced o := .lift (traced_setProperty e name _ d opPos pos)
      split
      · exact hrest _
      · exact (Focus.Traced.lift (traced_getProperty e name hwhole opPos pos)).bind
          fun old hold => (Focus.Traced.lift (traced_combined hev _ hold hnew assignPos)).bind
            fun d _ => hrest d
  · next key opPos pos =>
    have hindex : Focus.Traced o (do
        let p ← Focus.lift (indexPart e true whole key pos opPos)
        if p.isNew then Focus.put (putBack p whole .unit)
        Focus.lift (checkSize e
          (← assignAt.store e ev access root op assignPos new p) assignPos)) := by
      refine (Focus.Traced.lift (traced_indexPart e _ hwhole key pos opPos)).bind fun p hp => ?_
      extract_lets rest
      have hrest (u : Unit) : (rest u).Traced o :=
        (hstore hp).bind fun d _ => .lift (traced_checkSize e d assignPos)
      split
      · exact (hput hp).bind fun u _ => hrest u
      · exact hrest ()
    split
    · exact hindex
    · exact hindex
    · exact hindex
    · exact hindex
    · exact hindex
    · exact (Focus.Traced.lift (traced_tick e .none)).bind fun _ _ => .raise _ opPos
  · exact .pure trivial

/-- An assignment leaves a traced value. -/
theorem traced_assignAt (he : e.Traced o) (hev : ev.Traced o) (hnew : new.Traced o) {path : Path}
    (hpath : IsTraced o path) : (assignAt e ev access root op assignPos new path).Traced o := by
  induction path generalizing access with
  | nil => exact .pure trivial
  | cons head rest ih =>
    obtain ⟨isOptional, step⟩ := head
    obtain ⟨⟨-, hstep⟩, hrest⟩ := List.forall_mem_cons.mp hpath
    rw [assignAt.eq_def]
    refine Focus.Traced.target.bind fun whole hwhole => ?_
    split
    · exact .pure trivial
    · split
      · exact traced_last hev hnew hwhole step
      · split
        · next key opPos pos =>
          exact (Focus.Traced.lift (traced_indexPart e _ hwhole key pos opPos)).bind fun p hp =>
            traced_inside hp (ih hrest) (ih hrest)
        · next name opPos pos =>
          split
          · exact (Focus.Traced.lift (traced_indexPart e _ hwhole _ pos opPos)).bind fun p hp =>
              traced_inside hp (ih hrest) (ih hrest)
          · exact (Focus.Traced.lift (traced_getProperty e name hwhole opPos pos)).bind
              fun d hd => .lost hd (ih hrest)
        · next name args firstPos _ pos =>
          exact (traced_callStep he hev name hstep access firstPos pos).bind fun d hd =>
            .lost hd (ih hrest)

end

end ScriptHost.Script.Evaluation
