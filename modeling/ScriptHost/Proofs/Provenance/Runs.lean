import ScriptHost.Proofs.Provenance.Data

/-!
# Runs that keep to an origin

A run that is put together from traced runs is traced, and so are the changes of a machine that the
rules of evaluation make.
-/

namespace ScriptHost.Script

variable {ω : Type} {o : Origin}

/-! ## Machines -/

namespace Machine

variable {m : Machine ω}

/-- The content of a slot. -/
theorem Traced.content (hm : m.Traced o) {s : Slot} (hs : s.Traced o) : (m.content s).Traced o := by
  cases s with
  | own d => exact hs
  | cell id =>
    rw [Machine.content, Array.getD]
    split
    · exact hm.cells _ (Array.getElem_mem _)
    · simp

/-- A variable of a name. -/
theorem Traced.lookup? (hm : m.Traced o) {name : String} {v : Variable}
    (hv : m.lookup? name = some v) : v.slot.Traced o :=
  hm.locals v (List.mem_of_find?_eq_some hv)

/-- Another value in a cell. -/
theorem Traced.setCell (hm : m.Traced o) {d : Datum} (hd : d.Traced o) (id : ℕ) :
    ({ m with cells := m.cells.setIfInBounds id d } : Machine ω).Traced o :=
  ⟨hm.locals, hm.self,
    fun c hc => (Array.mem_or_eq_of_mem_setIfInBounds hc).elim (hm.cells c) (· ▸ hd), hm.log⟩

/-- Another variable in the place of one. -/
theorem Traced.setLocal (hm : m.Traced o) {v : Variable} (hv : v.slot.Traced o) (i : ℕ) :
    ({ m with locals := m.locals.set i v } : Machine ω).Traced o :=
  ⟨fun w hw => (List.mem_or_eq_of_mem_set hw).elim (hm.locals w) (· ▸ hv), hm.self, hm.cells,
    hm.log⟩

/-- Setting a variable. -/
theorem Traced.setVariable (hm : m.Traced o) {d : Datum} (hd : d.Traced o) (name : String) :
    (m.setVariable name d).Traced o := by
  unfold Machine.setVariable
  split
  · exact hm
  · split
    · exact hm.setCell hd _
    · next v _ _ => exact hm.setLocal (v := { v with slot := .own d }) hd _
    · exact hm

/-- Declaring a variable. -/
theorem Traced.declare (hm : m.Traced o) {s : Slot} (hs : s.Traced o) (name : String)
    (isConstant : Bool) : (m.declare name isConstant s).Traced o :=
  ⟨List.forall_mem_cons.mpr ⟨hs, hm.locals⟩, hm.self, hm.cells, hm.log⟩

/-- Replacing a variable. -/
theorem Traced.replace (hm : m.Traced o) {d : Datum} (hd : d.Traced o) (name : String)
    (isConstant : Bool) : (m.replace name isConstant d).Traced o := by
  unfold Machine.replace
  split
  · exact hm.declare (s := .own d) hd name isConstant
  · exact hm.setLocal (v := ⟨name, isConstant, .own d⟩) hd _

/-- Moving a variable to a cell. -/
theorem Traced.share (hm : m.Traced o) (name : String) : (m.share name).Traced o := by
  unfold Machine.share
  split
  · exact hm
  · split
    · next i _ _ _ isConstant d hd =>
      have hcells : ({ m with cells := m.cells.push d } : Machine ω).Traced o := by
        refine ⟨hm.locals, hm.self, fun c hc => ?_, hm.log⟩
        rcases Array.mem_push.mp hc with hc | rfl
        · exact hm.cells c hc
        · exact hm.locals _ (List.mem_of_getElem? hd)
      exact hcells.setLocal (v := ⟨name, isConstant, .cell m.cells.size⟩) trivial i
    · exact hm

/-- Forgetting variables. -/
theorem Traced.rewind (hm : m.Traced o) (n : ℕ) : (m.rewind n).Traced o :=
  ⟨fun v hv => hm.locals v (List.mem_of_mem_drop hv), hm.self, hm.cells, hm.log⟩

end Machine

/-! ## Runs -/

namespace Run.Traced

variable {α β : Type} [Traceable α] [Traceable β] {r : Run ω α} {f : α → Run ω β}

/-- A value at once. -/
theorem pure {a : α} (ha : IsTraced o a) : Run.Traced o (Pure.pure a : Run ω α) :=
  fun _ hm => ⟨ha, hm⟩

/-- Runs one after the other. -/
theorem bind (hr : r.Traced o) (hf : ∀ a, IsTraced o a → (f a).Traced o) :
    Run.Traced o (r >>= f) := by
  intro m hm
  have hrun := hr m hm
  change (Run.bind r f m).1.Traced o ∧ (Run.bind r f m).2.Traced o
  unfold Run.bind
  generalize r m = result at hrun
  obtain ⟨outcome, m'⟩ := result
  cases outcome with
  | value a => exact hf a hrun.1 m' hrun.2
  | fault x => exact hrun
  | jump j => exact hrun
  | exhausted => exact hrun

/-- One of two runs. -/
theorem ite {c : Prop} [Decidable c] {q : Run ω α} (hr : r.Traced o) (hq : q.Traced o) :
    Run.Traced o (if c then r else q) := by
  split
  · exact hr
  · exact hq

/-- A fault. -/
theorem fault {x : Fault} (hx : x.Traced o) : Run.Traced o (Run.fault x : Run ω α) :=
  fun _ hm => ⟨hx, hm⟩

/-- Something that went wrong. -/
theorem raise (c : Cause) (pos : Position) : Run.Traced o (Run.raise c pos : Run ω α) :=
  fault trivial

/-- A jump. -/
theorem jump {j : Jump} (hj : j.Traced o) : Run.Traced o (Run.jump j : Run ω α) :=
  fun _ hm => ⟨hj, hm⟩

/-- No answer. -/
theorem exhausted : Run.Traced o (Run.exhausted : Run ω α) := fun _ hm => ⟨trivial, hm⟩

/-- The machine. -/
theorem machine : Run.Traced o (Run.machine : Run ω (Machine ω)) := fun _ hm => ⟨hm, hm⟩

/-- A change of the machine. -/
theorem update {g : Machine ω → Machine ω} (hg : ∀ m, m.Traced o → (g m).Traced o) :
    Run.Traced o (Run.update g) := fun m hm => ⟨trivial, hg m hm⟩

/-- Writing to the log. -/
theorem log {events : List LogEvent} (hevents : ∀ event ∈ events, o.event event) :
    Run.Traced o (Run.log events : Run ω Unit) := by
  refine update fun m hm => ⟨hm.locals, hm.self, hm.cells, fun event hevent => ?_⟩
  rcases List.mem_append.mp hevent with hnew | hold
  · exact hevents event (List.mem_reverse.mp hnew)
  · exact hm.log event hold

/-- A change of the fault. -/
theorem mapFault (hr : r.Traced o) {g : Fault → Fault}
    (hg : ∀ x, x.Traced o → (g x).Traced o) : (r.mapFault g).Traced o := by
  intro m hm
  have hrun := hr m hm
  unfold Run.mapFault
  generalize r m = result at hrun
  obtain ⟨outcome, m'⟩ := result
  cases outcome with
  | value a => exact hrun
  | fault x => exact ⟨hg x hrun.1, hrun.2⟩
  | jump j => exact hrun
  | exhausted => exact hrun

/-- Placing the faults. -/
theorem placed (hr : r.Traced o) (pos : Position) : (r.placed pos).Traced o :=
  hr.mapFault fun x hx => (Fault.traced_atIfNone x pos).mpr hx

/-- A change of the machine afterwards. -/
theorem afterwards (hr : r.Traced o) {g : Machine ω → Machine ω → Machine ω}
    (hg : ∀ m m', m.Traced o → m'.Traced o → (g m m').Traced o) : (r.afterwards g).Traced o :=
  fun m hm => ⟨(hr m hm).1, hg m _ hm (hr m hm).2⟩

/-- A run with a value at hand. -/
theorem focus {d : Datum} (hd : d.Traced o) {q : Focus ω α} (hq : q.Traced o)
    {put : Datum → Machine ω → Machine ω}
    (hput : ∀ d m, d.Traced o → m.Traced o → (put d m).Traced o) :
    (Run.focus d q put).Traced o := by
  intro m hm
  obtain ⟨hout, hleft, hm'⟩ := hq d m hd hm
  exact ⟨hout, hput _ _ hleft hm'⟩

/-- A run with a value at hand that is lost. -/
theorem focusLost {d : Datum} (hd : d.Traced o) {q : Focus ω α} (hq : q.Traced o) :
    (Run.focusLost d q).Traced o := focus hd hq fun _ _ _ hm => hm

/-- Runs for each item of a list. -/
theorem mapM {γ : Type} {g : γ → Run ω α} {cs : List γ} (hg : ∀ c ∈ cs, (g c).Traced o) :
    Run.Traced o (cs.mapM g) := by
  induction cs with
  | nil => exact pure (by simp)
  | cons c cs ih =>
    rw [List.mapM_cons]
    refine (hg c List.mem_cons_self).bind fun a ha =>
      (ih fun c' hc' => hg c' (List.mem_cons_of_mem c hc')).bind fun as has => pure ?_
    exact List.forall_mem_cons.mpr ⟨ha, has⟩

/-- Runs for each item of a list, in turn. -/
theorem foldlM {γ : Type} {g : α → γ → Run ω α} {cs : List γ}
    (hg : ∀ a, IsTraced o a → ∀ c ∈ cs, (g a c).Traced o) {a : α} (ha : IsTraced o a) :
    Run.Traced o (cs.foldlM g a) := by
  induction cs generalizing a with
  | nil => exact pure ha
  | cons c cs ih =>
    rw [List.foldlM_cons]
    exact (hg a ha c List.mem_cons_self).bind fun b hb =>
      ih (fun a ha c' hc' => hg a ha c' (List.mem_cons_of_mem c hc')) hb

end Run.Traced

/-! ## Runs with a value at hand -/

namespace Focus.Traced

variable {α β : Type} [Traceable α] [Traceable β] {q : Focus ω α} {f : α → Focus ω β}

/-- A value at once. -/
theorem pure {a : α} (ha : IsTraced o a) : Focus.Traced o (Pure.pure a : Focus ω α) :=
  fun _ _ hd hm => ⟨ha, hd, hm⟩

/-- Runs one after the other. -/
theorem bind (hq : q.Traced o) (hf : ∀ a, IsTraced o a → (f a).Traced o) :
    Focus.Traced o (q >>= f) := by
  intro d m hd hm
  have hrun := hq d m hd hm
  simp only [Bind.bind]
  generalize q d m = result at hrun
  obtain ⟨outcome, d', m'⟩ := result
  cases outcome with
  | value a => exact hf a hrun.1 d' m' hrun.2.1 hrun.2.2
  | fault x => exact hrun
  | jump j => exact hrun
  | exhausted => exact hrun

/-- A run that leaves the value at hand alone. -/
theorem lift {r : Run ω α} (hr : r.Traced o) : (Focus.lift r).Traced o :=
  fun _ m hd hm => ⟨(hr m hm).1, hd, (hr m hm).2⟩

/-- The value at hand. -/
theorem target : Focus.Traced o (Focus.target : Focus ω Datum) := fun _ _ hd hm => ⟨hd, hd, hm⟩

/-- A change of the value at hand. -/
theorem put {d : Datum} (hd : d.Traced o) : Focus.Traced o (Focus.put d : Focus ω Unit) :=
  fun _ _ _ hm => ⟨trivial, hd, hm⟩

/-- Something that went wrong. -/
theorem raise (c : Cause) (pos : Position) : Focus.Traced o (Focus.raise c pos : Focus ω α) :=
  lift (.raise c pos)

/-- A call with the value at hand as its first argument. -/
theorem effect {g : Datum → Run ω Effect} (hg : ∀ d, d.Traced o → (g d).Traced o) :
    (Focus.effect g).Traced o := by
  intro d m hd hm
  have hrun := hg d hd m hm
  unfold Focus.effect
  generalize g d m = result at hrun
  obtain ⟨outcome, m'⟩ := result
  cases outcome with
  | value p =>
    obtain ⟨v, left⟩ := p
    obtain ⟨⟨hv, hleft⟩, hm'⟩ := hrun
    refine ⟨hv, ?_, hm'⟩
    cases left with
    | none => exact hd
    | some d' => exact hleft d' rfl
  | fault x => exact ⟨hrun.1, hd, hrun.2⟩
  | jump j => exact ⟨hrun.1, hd, hrun.2⟩
  | exhausted => exact ⟨hrun.1, hd, hrun.2⟩

/-- A run with a part of the value at hand. -/
theorem part {d : Datum} (hd : d.Traced o) {rebuild : Datum → Datum → Datum}
    (hrebuild : ∀ whole d, whole.Traced o → d.Traced o → (rebuild whole d).Traced o)
    (hq : q.Traced o) : (Focus.part d rebuild q).Traced o := by
  intro whole m hwhole hm
  obtain ⟨hout, hleft, hm'⟩ := hq d m hd hm
  exact ⟨hout, hrebuild _ _ hwhole hleft, hm'⟩

/-- A run with a value of no place. -/
theorem lost {d : Datum} (hd : d.Traced o) (hq : q.Traced o) : (Focus.lost d q).Traced o :=
  part hd (fun _ _ hwhole _ => hwhole) hq

/-- A run on a value, with what is left of it. -/
theorem asEffect {q : Focus ω Datum} (hq : q.Traced o) {d : Datum} (hd : d.Traced o) :
    (q.asEffect d).Traced o := by
  intro m hm
  have hrun := hq d m hd hm
  unfold Focus.asEffect
  generalize q d m = result at hrun
  obtain ⟨outcome, left, m'⟩ := result
  cases outcome with
  | value v =>
    refine ⟨⟨hrun.1, fun d' hd' => ?_⟩, hrun.2.2⟩
    cases hd'
    exact hrun.2.1
  | fault x => exact ⟨hrun.1, hrun.2.2⟩
  | jump j => exact ⟨hrun.1, hrun.2.2⟩
  | exhausted => exact ⟨hrun.1, hrun.2.2⟩

end Focus.Traced

end ScriptHost.Script
