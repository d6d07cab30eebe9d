import Mathlib
import ScriptHost.Proofs.Backtraces.Code
import ScriptHost.Proofs.Provenance.Calls

/-!
# Faults of calls

A fault inside a function arises in the code of the function, and the position of the call in the
code of its caller. Native functions report their faults where they are called.
-/

namespace ScriptHost.Script.Evaluation

variable {ω α : Type} {e : Engine ω} {ev : Evaluator ω} {code : Set Position} {pos : Position}

/-! ## Checks -/

theorem faultsIn_raise (c : Cause) (hpos : pos.LiesIn code) :
    (Run.raise c pos : Run ω α).FaultsIn e code := .fault (.raised c hpos)

theorem faultsIn_tick (hpos : pos.LiesIn code) : (tick e pos).FaultsIn e code := by
  intro m
  unfold tick
  dsimp only
  split
  · exact .raised _ hpos
  · trivial

theorem faultsIn_checkSize (d : Datum) (hpos : pos.LiesIn code) :
    (checkSize e d pos).FaultsIn e code := by
  unfold checkSize
  split
  · exact faultsIn_raise _ hpos
  · exact .pure _

theorem faultsIn_asBool (d : Datum) (hpos : pos.LiesIn code) :
    (asBool d pos : Run ω Bool).FaultsIn e code := by
  unfold asBool
  split
  · exact .pure _
  · exact faultsIn_raise _ hpos

theorem faultsIn_ofResult (r : Except Cause α) (hpos : pos.LiesIn code) :
    (ofResult r pos : Run ω α).FaultsIn e code := by
  unfold ofResult
  split
  · exact .pure _
  · exact faultsIn_raise _ hpos

/-! ## Functions of the script -/

theorem faultsIn_statements (hev : ev.FaultsIn e) {body : List Stmt}
    (hbody : ∀ s ∈ body, s.LiesIn code) : (statements ev body).FaultsIn e code := by
  induction body using statements.induct with
  | case1 => exact .pure _
  | case2 s => exact hev.statement code s (hbody s List.mem_cons_self)
  | case3 s rest hne ih =>
    obtain ⟨hs, hrest⟩ := List.forall_mem_cons.mp hbody
    rw [statements]
    · exact (hev.statement code s hs).bind fun _ => ih hrest
    · exact hne

/-- A fault leaves a function for its caller. -/
theorem arisesIn_leaveCall {name : String} {x : Fault} (hx : x.ArisesIn e.codeOf (e.codeOf name))
    (hpos : pos.LiesIn code) : (leaveCall name pos x).ArisesIn e.codeOf code := by
  unfold leaveCall
  split
  · -- A fault that no handler sees gets no frame, only the position of the call.
    next hsystem =>
    cases hx with
    | raised c _ => exact .raised c hpos
    | thrown | call | callback | text => cases hsystem
  · exact .call hpos hx

theorem faultsIn_catchReturn {r : Run ω Datum} (hr : r.FaultsIn e code) :
    (catchReturn r).FaultsIn e code := by
  intro m
  have hrun := hr m
  unfold catchReturn
  generalize r m = result at hrun
  split
  · trivial
  · exact hrun

/-- A call of a function of the script. -/
theorem faultsIn_enter (hev : ev.FaultsIn e) {f : Function}
    (hf : f ∈ e.functions ∨ f ∈ e.closures) (args : List Slot) (hpos : pos.LiesIn code)
    (inScope : Bool) (self : Option Datum) (m : Machine ω) :
    (enter e ev f args pos inScope self m).1.FaultsAre (Fault.ArisesIn e.codeOf code) := by
  have hbody : ((catchReturn (statements ev f.body)).mapFault (leaveCall f.name pos)).FaultsIn e
      code := (faultsIn_catchReturn (faultsIn_statements hev (Engine.body_liesIn hf))).mapFault
        fun x hx => arisesIn_leaveCall hx hpos
  unfold enter
  split
  · trivial
  · have htick := faultsIn_tick (e := e) hpos m
    generalize tick e pos m = ticked at htick
    obtain ⟨outcome, n⟩ := ticked
    cases outcome with
    | value u =>
      dsimp only
      split
      · exact .raised _ hpos
      · exact hbody _
    | fault x => exact htick
    | jump j => trivial
    | exhausted => trivial

theorem faultsIn_callFunction (hev : ev.FaultsIn e) {f : Function}
    (hf : f ∈ e.functions ∨ f ∈ e.closures) (args : List Slot) (hpos : pos.LiesIn code)
    (inScope : Bool) : (callFunction e ev f args pos inScope).FaultsIn e code :=
  fun m => faultsIn_enter hev hf args hpos inScope none m

theorem faultsIn_callOn (hev : ev.FaultsIn e) {f : Function}
    (hf : f ∈ e.functions ∨ f ∈ e.closures) (args : List Slot) (hpos : pos.LiesIn code) :
    (callOn e ev f args pos).FaultsIn e code :=
  fun d m => faultsIn_enter hev hf args hpos false (some d) m

/-! ## Calls by name and through pointers -/

theorem mem_of_function? {name : String} {arity : ℕ} {f : Function}
    (hf : function? e name arity = some f) : f ∈ e.functions ∨ f ∈ e.closures :=
  .inl (List.mem_of_find?_eq_some hf)

theorem mem_of_pointee? {name : String} {slots : List Slot} {f : Function}
    (hf : pointee? e name slots = some f) : f ∈ e.functions ∨ f ∈ e.closures :=
  .inr (List.mem_of_find?_eq_some (Option.filter_eq_some_iff.mp hf).1)

theorem faultsIn_slotValues (args : List Slot) :
    (args.mapM slotValue : Run ω (List Datum)).FaultsIn e code := .mapM fun _ _ _ => trivial

theorem faultsIn_callByName (hev : ev.FaultsIn e) (name : String) (args : List Slot)
    (access : Access) (hpos : pos.LiesIn code) (inScope : Bool) :
    (callByName e ev name args access pos inScope).FaultsIn e code := by
  unfold callByName
  split
  · next f hf =>
    exact (faultsIn_callFunction hev (mem_of_function? hf) args hpos inScope).bind
      fun _ => .pure _
  · exact (faultsIn_slotValues args).bind fun ds => hev.native code name ds access pos hpos

theorem faultsIn_callMethod (hev : ev.FaultsIn e) (name : String) (args : List Slot)
    (access : Access) (hpos : pos.LiesIn code) :
    (callMethod e ev name args access pos).FaultsIn e code := by
  unfold callMethod
  split
  · next f hf => exact faultsIn_callOn hev (mem_of_function? hf) args hpos
  · exact (Focus.FaultsAre.lift (faultsIn_slotValues args)).bind fun ds =>
      .effect fun d => hev.native code name (d :: ds) access pos hpos

theorem faultsIn_callPointer (hev : ev.FaultsIn e) (name : String) (curried : List Capture)
    (args : List Slot) (hpos : pos.LiesIn code) :
    (callPointer e ev name curried args pos).FaultsIn e code := by
  unfold callPointer
  dsimp only
  split
  · next f hf => exact faultsIn_callFunction hev (mem_of_pointee? hf) _ hpos false
  · exact (faultsIn_callByName hev name _ .copy hpos false).bind fun _ => .pure _

theorem faultsIn_callPointerOn (hev : ev.FaultsIn e) (name : String) (curried : List Capture)
    (args : List Slot) (access : Access) (hpos : pos.LiesIn code) :
    (callPointerOn e ev name curried args access pos).FaultsIn e code := by
  unfold callPointerOn
  dsimp only
  split
  · next f hf => exact faultsIn_callOn hev (mem_of_pointee? hf) _ hpos
  · exact faultsIn_callMethod hev name _ access hpos

/-! ## Functions that call back -/

namespace Callback

variable {c : Callback}

theorem faultsIn_once (hev : ev.FaultsIn e) (hc : c.pos.LiesIn code) (self : Option Datum)
    (args : List Datum) : (c.once e ev self args).FaultsIn e code := by
  intro m
  cases self with
  | some d =>
    exact ((faultsIn_callPointerOn hev c.name c.curried (args.map .own) .place hc).asEffect d) _
  | none =>
    have hrun : Run.FaultsIn e code (do
        return (← callPointer e ev c.name c.curried (args.map Slot.own) c.pos,
          (none : Option Datum))) :=
      (faultsIn_callPointer hev c.name c.curried _ hc).bind fun _ => .pure _
    exact hrun _

theorem faultsIn_firstPresent (hcaller : c.caller ∈ callers) (hc : c.pos.LiesIn code)
    {runs : List (Run ω Effect)} (hruns : ∀ r ∈ runs, r.FaultsIn e code) :
    (c.firstPresent runs).FaultsIn e code := by
  induction runs with
  | nil => exact faultsIn_raise _ hc
  | cons r rest ih =>
    obtain ⟨hr, hrest⟩ := List.forall_mem_cons.mp hruns
    intro m
    have hrun := hr m
    unfold firstPresent
    generalize r m = result at hrun ⊢
    obtain ⟨outcome, after⟩ := result
    cases outcome with
    | fault x =>
      dsimp only
      split
      · exact ih hrest m
      · exact .callback hcaller hc hrun
    | value a => trivial
    | jump j => trivial
    | exhausted => trivial

theorem faultsIn_onItem (hev : ev.FaultsIn e) (hcaller : c.caller ∈ callers)
    (hc : c.pos.LiesIn code) (item : Option Datum) (args extras : List Datum) (place : ℕ) :
    (c.onItem e ev item args extras place).FaultsIn e code := by
  have hcall (self : Option Datum) (args : List Datum) := faultsIn_once hev hc self args
  unfold onItem
  extract_lets withItem hasItem wanted
  have hperhaps (args : List Datum) :
      ∀ r ∈ (if hasItem then [c.once e ev none args] else []), r.FaultsIn e code := by
    split
    · simpa using hcall none args
    · simp
  have hone (args : List Datum) : ∀ r ∈ [c.once e ev item args], r.FaultsIn e code := by
    simpa using hcall item args
  refine .ite (hcall _ _) (.ite (hcall _ _) (.ite (hcall _ _) (.ite (hcall _ _) ?_)))
  refine faultsIn_firstPresent hcaller hc ?_
  simp only [List.forall_mem_append]
  exact ⟨⟨⟨hone _, hperhaps _⟩, hone _⟩, hperhaps _⟩

theorem faultsIn_visit {call : ℕ → Datum → Run ω (Datum × Datum)}
    (hcall : ∀ n d, (call n d).FaultsIn e code) (stop : Datum → Bool) (n : ℕ) (ds : List Datum) :
    (visit call stop n ds).FaultsIn e code := by
  induction ds generalizing n with
  | nil => exact .pure _
  | cons d rest ih =>
    rw [visit]
    exact (hcall n d).bind fun _ => .ite (.pure _) ((ih (n + 1)).bind fun _ => .pure _)

theorem faultsIn_combine (hev : ev.FaultsIn e) (hcaller : c.caller ∈ callers)
    (hc : c.pos.LiesIn code) (items : List (ℕ × Datum)) (acc : Datum) :
    (combine c e ev items acc).FaultsIn e code := by
  induction items generalizing acc with
  | nil => exact .pure _
  | cons p rest ih =>
    rw [combine]
    exact (faultsIn_onItem hev hcaller hc _ _ _ _).bind fun _ => ih _

/-- An order is given without a fault. -/
theorem faultsIn_order (c : Callback) (a b : Datum) : (c.order e ev a b).FaultsIn e code := by
  intro m
  unfold order
  split <;> trivial

theorem faultsIn_insertSorted {compare : Datum → Datum → Run ω Ordering}
    (hcompare : ∀ a b, (compare a b).FaultsIn e code) (d : Datum) (ds : List Datum) :
    (insertSorted compare d ds).FaultsIn e code := by
  induction ds with
  | nil => exact .pure _
  | cons last before ih =>
    rw [insertSorted]
    refine (hcompare d last).bind fun r => ?_
    split
    · exact ih.bind fun _ => .pure _
    · exact .pure _

theorem faultsIn_sort {compare : Datum → Datum → Run ω Ordering}
    (hcompare : ∀ a b, (compare a b).FaultsIn e code) (items : List Datum) :
    (sort compare items).FaultsIn e code :=
  (Run.FaultsAre.foldlM (fun done d => faultsIn_insertSorted hcompare d done) items []).bind
    fun _ => .pure _

theorem faultsIn_dedup {same : Datum → Datum → Run ω Bool}
    (hsame : ∀ a b, (same a b).FaultsIn e code) (last : Datum) (ds : List Datum) :
    (dedup same last ds).FaultsIn e code := by
  induction ds generalizing last with
  | nil => exact .pure _
  | cons d rest ih =>
    rw [dedup]
    exact (hsame last d).bind fun _ => .ite (ih _) ((ih _).bind fun _ => .pure _)

/-- A truth value is given without a fault. -/
theorem faultsIn_asked (r : Run ω Effect) : (asked r).FaultsIn e code := by
  intro m
  unfold asked
  split <;> trivial

end Callback

/-- A function on arrays that calls back is one of the callers. -/
theorem mem_callers_of_arrayCallback {c : Callback} {items rest : List Datum} {r : Run ω Effect}
    (hr : arrayCallback e ev c items rest = some r) : c.caller ∈ callers := by
  unfold arrayCallback at hr
  extract_lets each never kept found position item ordered at hr
  -- The answers are hidden, so that the name is all that there is to split on.
  clear_value each never kept found position item ordered
  split at hr
  all_goals first
    | next heq => simp [heq, callers]
    | cases hr

/-- A function on maps that calls back is one of the callers. -/
theorem mem_callers_of_mapCallback {c : Callback} {fields : List (String × Datum)}
    {r : Run ω Effect} (hr : mapCallback e ev c fields = some r) : c.caller ∈ callers := by
  unfold mapCallback at hr
  extract_lets parted at hr
  clear_value parted
  split at hr
  all_goals first
    | next heq => simp [heq, callers]
    | cases hr

/-- If there is a run, its faults arise in some code. -/
def FaultsOf (e : Engine ω) (code : Set Position) (x : Option (Run ω Effect)) : Prop :=
  ∀ r ∈ x, Run.FaultsIn e code r

theorem faultsOf_some {r : Run ω Effect} (hr : r.FaultsIn e code) : FaultsOf e code (some r) := by
  rintro _ ⟨⟩
  exact hr

theorem faultsOf_none : FaultsOf e code (none : Option (Run ω Effect)) := fun _ h => nomatch h

theorem faultsIn_arrayCallback (hev : ev.FaultsIn e) {c : Callback} (hc : c.pos.LiesIn code)
    (items rest : List Datum) : FaultsOf e code (arrayCallback e ev c items rest) := by
  by_cases hcaller : c.caller ∈ callers
  · have hvisit (stop : Datum → Bool) (n : ℕ) (ds : List Datum) :
        (Callback.visit (c.onElement e ev) stop n ds).FaultsIn e code :=
      Callback.faultsIn_visit (fun _ _ => (Callback.faultsIn_onItem hev hcaller hc _ _ _ _).bind
        fun _ => .pure _) stop n ds
    unfold arrayCallback
    extract_lets each never kept found position item ordered
    have heach (stop : Datum → Bool) (f : List Datum → List Datum → Effect) :
        FaultsOf e code (each stop f) := faultsOf_some ((hvisit stop 0 _).bind fun _ => .pure _)
    have hfound (start : ℤ) (stop : Datum → Bool) (f : List Datum → Datum) :
        FaultsOf e code (found start stop f) :=
      faultsOf_some ((hvisit stop _ _).bind fun _ => .pure _)
    have hcombine (indexed : List (ℕ × Datum)) (d : Datum) :
        FaultsOf e code (some do return (← c.combine e ev indexed d, none)) :=
      faultsOf_some ((Callback.faultsIn_combine hev hcaller hc indexed d).bind fun _ => .pure _)
    have hordered (f : List Datum → Effect) :
        FaultsOf e code (ordered.map fun r => do return f (← r)) :=
      faultsOf_some ((Callback.faultsIn_sort (Callback.faultsIn_order c) items).bind
        fun _ => .pure _)
    have hdedup (d : Datum) (others : List Datum) : FaultsOf e code (some do
        return (.unit, some (.array (← Callback.dedup
          (fun a b => Callback.asked (c.onItem e ev none [a, b] [] 0)) d others)))) :=
      faultsOf_some ((Callback.faultsIn_dedup (fun _ _ => Callback.faultsIn_asked _) d others).bind
        fun _ => .pure _)
    clear_value each never kept found position item ordered
    split
    all_goals first
      | exact heach _ _
      | exact hfound _ _ _
      | exact hcombine _ _
      | exact hordered _
      | exact faultsOf_none
      | skip
    split
    · exact faultsOf_some (.pure _)
    · exact hdedup _ _
  · exact fun r hr => absurd (mem_callers_of_arrayCallback hr) hcaller

theorem faultsIn_mapCallback (hev : ev.FaultsIn e) {c : Callback} (hc : c.pos.LiesIn code)
    (fields : List (String × Datum)) : FaultsOf e code (mapCallback e ev c fields) := by
  by_cases hcaller : c.caller ∈ callers
  · unfold mapCallback
    extract_lets parted
    have hparted (f : List (String × Datum) → List (String × Datum) → Effect) :
        FaultsOf e code (parted f) :=
      faultsOf_some ((Run.FaultsAre.mapM fun p _ => (Callback.faultsIn_onItem hev hcaller hc
        _ _ _ _).bind fun _ => .pure _).bind fun _ => .pure _)
    clear_value parted
    split
    · exact hparted _
    · exact hparted _
    · exact hparted _
    · exact faultsOf_none
  · exact fun r hr => absurd (mem_callers_of_mapCallback hr) hcaller

/-- A call that calls back. -/
theorem faultsIn_callingBack? (hev : ev.FaultsIn e) (name : String) (args : List Datum)
    (hpos : pos.LiesIn code) : FaultsOf e code (callingBack? e ev name args pos) := by
  unfold callingBack?
  split
  · exact faultsIn_arrayCallback hev hpos _ _
  · next as bs f curried =>
    split
    · exact faultsOf_none
    · next hzip =>
      have hcaller : name ∈ callers := by
        have hname : name = "zip" := by simpa using hzip
        simp [hname, callers]
      exact faultsOf_some ((Run.FaultsAre.mapM fun p _ =>
        (Callback.faultsIn_onItem (c := ⟨name, f, curried, pos⟩) hev hcaller hpos _ _ _ _).bind
          fun _ => .pure _).bind fun _ => .pure _)
  · exact faultsIn_mapCallback hev hpos _
  · next items =>
    extract_lets sorted inPlace copy
    have hsorted (descending : Bool) (f : List Datum → Effect) :
        FaultsOf e code (sorted descending f) :=
      faultsOf_some ((faultsIn_ofResult _ hpos).bind fun _ => .pure _)
    clear_value sorted inPlace copy
    split
    · exact hsorted _ _
    · exact hsorted _ _
    · exact hsorted _ _
    · exact hsorted _ _
    · split
      · exact faultsOf_some (.pure _)
      · exact faultsOf_some ((Callback.faultsIn_dedup (fun _ _ => .pure _) _ _).bind
          fun _ => .pure _)
    · exact faultsOf_none
  · exact faultsOf_none

/-! ## Native functions -/

theorem faultsIn_callHost (name : String) (args : List Datum) (hpos : pos.LiesIn code) :
    (callHost e name args pos).FaultsIn e code := by
  unfold callHost
  split
  · exact .exhausted
  · intro m
    dsimp only
    split
    · trivial
    · exact .thrown _ hpos

theorem faultsIn_report (name : String) (d : Datum) (pos : Position) :
    (report name d pos : Run ω Datum).FaultsIn e code := by
  unfold report
  split
  · exact (Run.FaultsAre.update _).bind fun _ => .pure _
  · exact (Run.FaultsAre.update _).bind fun _ => .pure _
  · exact .pure _

theorem faultsIn_finish (name : String) (access : Access) (hpos : pos.LiesIn code)
    (effect : Effect) : (finish e name access pos effect).FaultsIn e code := by
  obtain ⟨d, left⟩ := effect
  have hreport : Run.FaultsIn e code (do
      return (← report name d pos, if access == .constant then none else left) : Run ω Effect) :=
    (faultsIn_report name d pos).bind fun _ => .pure _
  unfold finish
  refine (faultsIn_checkSize _ hpos).bind fun _ => ?_
  dsimp only
  split
  · exact (faultsIn_checkSize _ hpos).bind fun _ => hreport
  · exact hreport

/-- A native function has its faults where it is called. -/
theorem faultsIn_callNative (hev : ev.FaultsIn e) (name : String) (args : List Datum)
    (access : Access) (hpos : pos.LiesIn code) :
    (callNative e ev name args access pos).FaultsIn e code := by
  have hmissing : (callNative.missing name args pos : Run ω Effect).FaultsIn e code :=
    .ite (.fault (.thrown _ hpos)) (faultsIn_raise _ hpos)
  have hanswered : (callNative.answered e name args access pos).FaultsIn e code := by
    unfold callNative.answered
    split
    · exact faultsIn_finish name access hpos _
    · exact faultsIn_raise _ hpos
    · exact hmissing
  unfold callNative
  split
  · exact .pure _
  · refine (faultsIn_tick hpos).bind fun _ => ?_
    split
    · exact .jump _
    · exact .jump _
    · split
      · split
        · exact (faultsIn_callHost _ _ hpos).bind fun _ => faultsIn_finish name access hpos _
        · exact hmissing
      · split
        · next r hr =>
          exact (faultsIn_callingBack? hev name args hpos r hr).bind fun _ =>
            faultsIn_finish name access hpos _
        · split
          · exact hmissing
          · exact .ite (faultsIn_raise _ hpos) hanswered
          · exact hanswered

end ScriptHost.Script.Evaluation
