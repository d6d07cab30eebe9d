import ScriptHost.Proofs.Provenance.Expressions
import ScriptHost.Script.Evaluation

/-!
# Scripts keep to an origin

Whatever a script does, the failures that it holds, throws and catches, and the log events that it
causes, come from where its engine allows them. The rules of statements keep to that, and so do all
rules, by induction on how deep they refer to each other.
-/

namespace ScriptHost.Script

variable {ω : Type} {o : Origin}

namespace Evaluation

variable {e : Engine ω} {ev : Evaluator ω}

/-! ## Assignment -/

theorem traced_assignWhole (hev : ev.Traced o) (access : Access) (root : String × Position)
    (op : Option String) (pos : Position) {new : Datum} (hnew : new.Traced o) :
    (assignWhole e ev access root op pos new).Traced o := by
  unfold assignWhole
  split
  · exact .raise _ _
  · exact Focus.Traced.target.bind fun old hold =>
      (Focus.Traced.lift (traced_assigned hev op hold hnew pos)).bind fun d hd =>
        (Focus.Traced.put hd).bind fun _ _ => .lift (traced_checkSize e d pos)

theorem traced_assignRule (he : e.Traced o) (hev : ev.Traced o) (op : Option String)
    (pos : Position) {place value : Expr} (hplace : place.Traced o) (hvalue : value.Traced o) :
    (assignRule e ev op pos place value).Traced o := by
  have hunit : Run.Traced o (pure .unit : Run ω Datum) := .pure (by simp)
  unfold assignRule
  split
  · refine Run.Traced.machine.bind fun m _ => .ite (.raise _ _) ?_
    exact (hev.expression _ hvalue).bind fun new hnew => (traced_tick e _).bind fun _ _ =>
      (traced_onSelf _ fun access => traced_assignWhole hev access _ op pos
        ((Datum.traced_unshared new).mpr hnew)).bind fun _ _ => hunit
  · refine (hev.expression _ hvalue).bind fun new hnew => (traced_tick e _).bind fun _ _ =>
      .ite (.raise _ _) ?_
    exact (traced_onVariable e _ _ _ fun access => traced_assignWhole hev access _ op pos
      ((Datum.traced_unshared new).mpr hnew)).bind fun _ _ => hunit
  · rw [Expr.Traced] at hplace
    refine (hev.expression _ hvalue).bind fun new hnew =>
      (traced_path e hev hplace.2).bind fun steps hsteps => ?_
    have hassign (name : String) (start : Position) (access : Access) :
        (assignAt e ev access (name, start) op pos new.unshared steps).Traced o :=
      traced_assignAt he hev ((Datum.traced_unshared new).mpr hnew) hsteps
    extract_lets assign
    split
    · exact (traced_tick e _).bind fun _ _ => ((traced_onVariable e _ _ _
        (hassign _ _)).placed _).bind fun _ _ => hunit
    · exact (traced_tick e _).bind fun _ _ => ((traced_onSelf _
        (hassign _ _)).placed _).bind fun _ _ => hunit
    · exact (hev.expression _ hplace.1).bind fun d hd => ((Run.Traced.focusLost
        ((Datum.traced_unshared d).mpr hd) (hassign _ _ .copy)).placed _).bind fun _ _ => hunit
  · exact hunit

/-! ## Choices -/

theorem traced_blockRule (hev : ev.Traced o) {body : List Stmt} (hbody : ∀ s ∈ body, s.Traced o) :
    (blockRule ev body).Traced o := .ite (.pure (by simp)) (traced_block hev hbody)

theorem traced_conditionRule (hev : ev.Traced o) {c : Expr} (hc : c.Traced o) :
    (conditionRule ev c).Traced o := by
  unfold conditionRule
  split
  · exact .pure trivial
  · exact (hev.expression c hc).bind fun d _ => traced_asBool d _

theorem traced_firstCase (hev : ev.Traced o) {cases : List Case}
    (hcases : ∀ c ∈ cases, c.Traced o) : (firstCase ev cases).Traced o := by
  induction cases with
  | nil => exact .pure (by simp)
  | cons c rest ih =>
    obtain ⟨hc, hrest⟩ := List.forall_mem_cons.mp hcases
    obtain ⟨-, hcondition, haction⟩ := Case.traced_iff.mp hc
    exact (traced_conditionRule hev hcondition).bind fun b _ =>
      .ite (.pure (by simpa using haction)) (ih hrest)

theorem mem_of_mem_casesFor {d : Datum} {cases : List Case} {c : Case}
    (hc : c ∈ casesFor d cases) : c ∈ cases := by
  unfold casesFor at hc
  split at hc
  · cases hc
  · split at hc
    · obtain ⟨c', hc', hmem⟩ := List.mem_flatMap.mp hc
      obtain ⟨-, -, rfl⟩ := List.mem_map.mp hmem
      exact hc'
    · exact List.mem_of_mem_filter hc

theorem traced_selectRule (hev : ev.Traced o) {subject : Expr} (hsubject : subject.Traced o)
    {cases : List Case} (hcases : ∀ c ∈ cases, c.Traced o) {otherwise : Option Expr}
    (hotherwise : ∀ x ∈ otherwise, x.Traced o) :
    (selectRule ev subject cases otherwise).Traced o := by
  unfold selectRule
  refine (hev.expression _ hsubject).bind fun d _ => (traced_firstCase hev fun c hc =>
    hcases c (mem_of_mem_casesFor hc)).bind fun first hfirst => ?_
  split
  · next action haction =>
    refine hev.expression action ?_
    cases first with
    | none => exact hotherwise action haction
    | some x =>
      cases haction
      exact hfirst _ rfl
  · exact .pure (by simp)

/-! ## Loops -/

/-- The value that a round ends a loop with is traced. -/
@[simp]
def Round.Traced (o : Origin) : Round → Prop
  | .done d => d.Traced o
  | .goOn | .cut => True

instance : Traceable Round := ⟨Round.Traced⟩

@[simp] theorem isTraced_round (r : Round) : IsTraced o r ↔ r.Traced o := .rfl

theorem traced_repeated {round : Run ω Round} (hround : round.Traced o) (n : ℕ) :
    Run.Traced o (repeated round n) := by
  induction n with
  | zero => exact fun m hm => ⟨trivial, hm⟩
  | succ n ih =>
    intro m hm
    have hrun := hround m hm
    unfold repeated
    generalize round m = result at hrun ⊢
    split
    · exact hrun
    · exact ih _ hrun.2
    · exact hrun
    · exact hrun
    · exact hrun

theorem traced_bodyRound (hev : ev.Traced o) {body : List Stmt} (hbody : ∀ s ∈ body, s.Traced o) :
    (bodyRound ev body).Traced o := by
  intro m hm
  have hrun := traced_blockRule hev hbody m hm
  unfold bodyRound
  generalize blockRule ev body m = result at hrun ⊢
  split
  · exact ⟨trivial, hrun.2⟩
  · exact ⟨trivial, hrun.2⟩
  · exact hrun
  · exact hrun
  · exact hrun
  · exact hrun

/-- The round of a loop that may have no statements. -/
theorem traced_plainRound (e : Engine ω) (hev : ev.Traced o) {body : List Stmt}
    (hbody : ∀ s ∈ body, s.Traced o) (bodyPos : Position) : Run.Traced o
      (if body.isEmpty then do
        tick e bodyPos
        pure Round.goOn
      else bodyRound ev body) :=
  .ite ((traced_tick e bodyPos).bind fun _ _ => .pure trivial) (traced_bodyRound hev hbody)

theorem traced_whileRule (e : Engine ω) (hev : ev.Traced o) {condition : Expr}
    (hcondition : condition.Traced o) {body : List Stmt} (hbody : ∀ s ∈ body, s.Traced o)
    (bodyPos : Position) : (whileRule e ev condition body bodyPos).Traced o := by
  refine traced_repeated (.ite (traced_plainRound e hev hbody bodyPos) ?_) _
  exact (hev.expression _ hcondition).bind fun d _ => (traced_asBool d _).bind fun b _ =>
    .ite (traced_bodyRound hev hbody) (.pure (by simp))

theorem traced_doRule (hev : ev.Traced o) {body : List Stmt} (hbody : ∀ s ∈ body, s.Traced o)
    {condition : Expr} (hcondition : condition.Traced o) (goOn : Bool) :
    (doRule ev body condition goOn).Traced o := by
  refine traced_repeated ((traced_bodyRound hev hbody).bind fun r hr => ?_) _
  split
  · exact (hev.expression _ hcondition).bind fun d _ => (traced_asBool d _).bind fun b _ =>
      .ite (.pure (by simp)) (.pure (by simp))
  · exact .pure hr

/-- All failures in the items to come come from an origin. -/
@[simp]
def Items.Traced (o : Origin) : Items → Prop
  | .list ds => ∀ d ∈ ds, d.Traced o
  | .numbers .. => True

theorem Items.traced_next? {items rest : Items} (hitems : items.Traced o) {d : Datum}
    (h : items.next? = some (d, rest)) : d.Traced o ∧ rest.Traced o := by
  unfold Items.next? at h
  split at h
  · cases h
  · cases h
    exact List.forall_mem_cons.mp hitems
  · extract_lets inside at h
    split at h <;> cases h
    exact ⟨by simp, trivial⟩

theorem traced_items? {d : Datum} (hd : d.Traced o) {items : Items} (h : items? d = some items) :
    items.Traced o := by
  have hcontent := (Datum.traced_unshared d).mpr hd
  unfold items? at h
  split at h <;> cases h
  · next heq =>
    rw [heq, Datum.Traced] at hcontent
    exact hcontent
  · simp
  · simp
  · trivial
  · trivial
  · trivial

theorem traced_setAt {m : Machine ω} (hm : m.Traced o) (depth : ℕ) {d : Datum} (hd : d.Traced o) :
    (setAt depth d m).Traced o := by
  unfold setAt
  split
  · exact hm.setCell hd _
  · next v _ _ => exact hm.setLocal (v := { v with slot := .own d }) hd _
  · exact hm

theorem traced_forRounds {round : Run ω Round} (hround : round.Traced o) (hasCounter : Bool)
    (n : ℕ) (count : ℤ) {items : Items} (hitems : items.Traced o) :
    Run.Traced o (forRounds round hasCounter n count items) := by
  induction n generalizing count items with
  | zero => exact fun m hm => ⟨trivial, hm⟩
  | succ n ih =>
    intro m hm
    unfold forRounds
    split
    · exact ⟨by simp, hm⟩
    · next d rest hnext =>
      obtain ⟨hd, hrest⟩ := Items.traced_next? hitems hnext
      have hstart : (setAt 0 d
          (if hasCounter then setAt 1 (.int count) m else m)).Traced o := by
        split
        · exact traced_setAt (traced_setAt hm 1 (by simp)) 0 hd
        · exact traced_setAt hm 0 hd
      have hrun := hround _ hstart
      dsimp only
      generalize round _ = result at hrun ⊢
      split
      · exact hrun
      · exact ih _ hrest _ hrun.2
      · exact hrun
      · exact hrun
      · exact hrun

theorem traced_forRule (e : Engine ω) (hev : ev.Traced o) (name : String) (counter : Option String)
    {source : Expr} (hsource : source.Traced o) {body : List Stmt}
    (hbody : ∀ s ∈ body, s.Traced o) (bodyPos : Position) :
    (forRule e ev name counter source body bodyPos).Traced o := by
  unfold forRule
  refine (hev.expression _ hsource).bind fun d hd => ?_
  split
  · exact .raise _ _
  · next items hitems =>
    extract_lets round rest run
    have hround : round.Traced o := traced_plainRound e hev hbody bodyPos
    have hrounds := traced_forRounds hround counter.isSome (items.bound ev.rounds) 0
      (traced_items? hd hitems)
    refine Run.Traced.afterwards (r := run) ?_ fun _ _ _ h => h.rewind _
    dsimp only [run]
    have hrest (u : Unit) : (rest u).Traced o :=
      (Run.Traced.update fun _ hm => hm.declare (s := .own .unit) (by simp) name false).bind
        fun _ _ => hrounds
    split
    · next c =>
      exact (Run.Traced.update fun _ hm =>
        hm.declare (s := .own (.int 0)) (by simp) c false).bind fun u _ => hrest u
    · exact hrest ()

/-! ## Faults -/

theorem traced_causeFields (c : Cause) : ∀ p ∈ (causeFields c).2, p.2.Traced o := by
  cases c <;> simp [causeFields]

/-- What a handler gets of a fault is traced. -/
theorem traced_handed {f : Fault} (hf : f.Traced o) : (handed f).Traced o := by
  have hinnermost := (Fault.traced_innermost f).mpr hf
  unfold handed
  split
  · next heq =>
    rw [heq, Fault.Traced] at hinnermost
    exact hinnermost
  · have hdetails : ∀ p ∈ (faultFields f).2, p.2.Traced o := by
      unfold faultFields
      split
      · simp
      · simp
      · exact traced_causeFields _
    dsimp only
    rw [Datum.Traced]
    intro p hp
    have hp := Fields.mem_ofList hp
    simp only [List.mem_append] at hp
    rcases hp with ((hp | hp) | hp) | hp
    · simp_all
    · split at hp <;> simp at hp
      rcases hp with rfl | rfl <;> simp
    · simp_all
    · exact hdetails p hp

theorem traced_handle (hev : ev.Traced o) {f : Fault} (hf : f.Traced o) (name : Option String)
    {handler : List Stmt} (hhandler : ∀ s ∈ handler, s.Traced o) :
    (handle ev f name handler).Traced o := by
  unfold handle
  extract_lets rest run
  refine Run.Traced.mapFault (Run.Traced.afterwards (r := run) ?_ fun _ _ _ h => h.rewind _)
    fun x hx => ?_
  · dsimp only [run]
    have hrest (u : Unit) : (rest u).Traced o :=
      (traced_blockRule hev hhandler).bind fun _ _ => .pure (by simp)
    split
    · next n =>
      exact (Run.Traced.update fun _ hm =>
        hm.declare (s := .own (handed f)) (traced_handed hf) n false).bind fun u _ => hrest u
    · exact hrest ()
  · split
    · split
      · simpa using hf
      · exact hx
    · exact hx

theorem traced_guardedRule (hev : ev.Traced o) {body : List Stmt}
    (hbody : ∀ s ∈ body, s.Traced o) (name : Option String) {handler : List Stmt}
    (hhandler : ∀ s ∈ handler, s.Traced o) : (guardedRule ev body name handler).Traced o := by
  intro m hm
  have hrun := traced_blockRule hev hbody m hm
  unfold guardedRule
  generalize blockRule ev body m = result at hrun ⊢
  split
  · exact ⟨by simp, hrun.2⟩
  · split
    · exact hrun
    · exact traced_handle hev hrun.1 name hhandler _ hrun.2
  · exact hrun
  · exact hrun

/-! ## The value of a statement -/

theorem traced_optionalValue (hev : ev.Traced o) {value : Option Expr}
    (hvalue : ∀ x ∈ value, x.Traced o) : (optionalValue ev value).Traced o := by
  cases value with
  | none => exact .pure (by simp)
  | some x =>
    exact (hev.expression x (hvalue x rfl)).bind fun d hd =>
      .pure ((Datum.traced_unshared d).mpr hd)

theorem traced_actionRule (he : e.Traced o) (hev : ev.Traced o) {s : Stmt} (hs : s.Traced o) :
    (actionRule e ev s).Traced o := by
  have hunit : Run.Traced o (pure .unit : Run ω Datum) := .pure (by simp)
  unfold actionRule
  split
  all_goals try simp only [Stmt.Traced] at hs
  · exact hunit
  · exact (hev.expression _ hs).bind fun d hd => .pure ((Datum.traced_unshared d).mpr hd)
  · exact traced_valueRule he hev hs
  · exact traced_blockRule hev hs
  · exact traced_assignRule he hev _ _ hs.1 hs.2
  · next name isConstant replaces value _ =>
    refine (hev.expression _ hs).bind fun d hd => ?_
    have hcontent : d.unshared.Traced o := (Datum.traced_unshared d).mpr hd
    refine .ite ?_ ?_
    · exact (Run.Traced.update fun _ hm => hm.replace hcontent name isConstant).bind
        fun _ _ => hunit
    · exact (Run.Traced.update fun _ hm =>
        hm.declare (s := .own d.unshared) hcontent name isConstant).bind fun _ _ => hunit
  · exact (hev.expression _ hs.1).bind fun d _ => (traced_asBool d _).bind fun b _ =>
      .ite (traced_blockRule hev hs.2.1) (traced_blockRule hev hs.2.2)
  · exact traced_selectRule hev hs.1 hs.2.1 hs.2.2
  · exact traced_whileRule e hev hs.1 hs.2 _
  · exact traced_doRule hev hs.2 hs.1 _
  · exact traced_forRule e hev _ _ hs.1 hs.2 _
  · exact .jump trivial
  · exact (traced_optionalValue hev hs).bind fun d hd => .jump hd
  · exact (traced_optionalValue hev hs).bind fun d hd => .jump hd
  · exact (traced_optionalValue hev hs).bind fun d hd => .fault hd
  · exact traced_guardedRule hev hs.1 _ hs.2
  · exact (hev.expression _ hs).bind fun d _ => (traced_textArgument d _).bind
      fun _ _ => .raise _ _
  · exact Run.Traced.machine.bind fun m _ => .ite hunit (.raise _ _)
  · next names =>
    refine (Run.Traced.update fun m hm => ?_).bind fun _ _ => hunit
    induction names generalizing m with
    | nil => exact hm
    | cons p rest ih => exact ih (m.share p.1) (hm.share p.1)

/-- The value of a traced statement is traced. -/
theorem traced_statementRule (he : e.Traced o) (hev : ev.Traced o) {s : Stmt} (hs : s.Traced o) :
    (statementRule e ev s).Traced o :=
  (traced_tick e _).bind fun _ _ => traced_actionRule he hev hs

end Evaluation

variable {e : Engine ω}

/-- All rules keep to an origin, however deep they refer to each other. -/
theorem Evaluator.traced_within (he : e.Traced o) (n : ℕ) : (Evaluator.within e n).Traced o := by
  induction n with
  | zero => exact ⟨fun _ _ => .exhausted, fun _ _ => .exhausted, fun _ _ _ _ _ => .exhausted⟩
  | succ n ih =>
    exact ⟨fun _ hx => Evaluation.traced_expressionRule he ih hx,
      fun _ hs => Evaluation.traced_statementRule he ih hs,
      fun name _ access pos hargs => Evaluation.traced_callNative he ih name hargs access pos⟩

/-- All failures that the end of a script carries come from an origin. -/
@[simp]
def Ending.Traced (o : Origin) : Ending → Prop
  | .value d => d.Traced o
  | .fault f => f.Traced o
  | .exhausted => True

/-- **A script keeps to its origin.** The failures that it ends with and the log events that it
causes come from where its engine allows them. -/
theorem Engine.traced_run (he : e.Traced o) (bound : ℕ) {body : List Stmt}
    (hbody : ∀ s ∈ body, s.Traced o) {m : Machine ω} (hm : m.Traced o) :
    (e.run bound body m).1.Traced o ∧ (e.run bound body m).2.Traced o := by
  have hrun := Evaluation.traced_statements (Evaluator.traced_within he bound) hbody m hm
  unfold Engine.run
  generalize Evaluation.statements (Evaluator.within e bound) body m = result at hrun ⊢
  split
  · exact hrun
  · exact hrun
  · exact hrun
  · exact ⟨trivial, hrun.2⟩
  · exact ⟨trivial, hrun.2⟩
  · exact hrun
  · exact ⟨trivial, hrun.2⟩

end ScriptHost.Script
