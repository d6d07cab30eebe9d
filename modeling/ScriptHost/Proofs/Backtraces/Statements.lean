import Mathlib
import ScriptHost.Proofs.Backtraces.Expressions
import ScriptHost.Proofs.Provenance.Statements
import ScriptHost.Script.Evaluation

/-!
# Faults of statements

The faults of a statement arise in the code that it lies in, and so do those of all rules, by
induction on how deep they refer to each other. The faults of a script arise in its statements.
-/

namespace ScriptHost.Script

variable {ω : Type} {e : Engine ω}

namespace Evaluation

variable {ev : Evaluator ω} {code : Set Position} {pos : Position}

/-! ## Assignment -/

theorem faultsIn_assignWhole (hev : ev.FaultsIn e) (access : Access) {root : String × Position}
    (hroot : root.2.LiesIn code) (op : Option String) (hpos : pos.LiesIn code) (new : Datum) :
    (assignWhole e ev access root op pos new).FaultsIn e code := by
  unfold assignWhole
  split
  · exact .lift (faultsIn_raise _ hroot)
  · exact Focus.FaultsAre.target.bind fun old =>
      (Focus.FaultsAre.lift (faultsIn_assigned hev op old new hpos)).bind fun d =>
        (Focus.FaultsAre.put d).bind fun _ => .lift (faultsIn_checkSize d hpos)

theorem faultsIn_assignRule (hev : ev.FaultsIn e) (op : Option String) (hpos : pos.LiesIn code)
    {place value : Expr} (hplace : place.LiesIn code) (hvalue : value.LiesIn code) :
    (assignRule e ev op pos place value).FaultsIn e code := by
  have hparts := Expr.liesIn_iff.mp hplace
  unfold assignRule
  split
  · refine Run.FaultsAre.machine.bind fun m => .ite (faultsIn_raise _ hparts) ?_
    exact (hev.expression code _ hvalue).bind fun new => (faultsIn_tick hparts).bind fun _ =>
      (faultsIn_onSelf hparts fun access => faultsIn_assignWhole hev access hparts op hpos _).bind
        fun _ => .pure _
  · refine (hev.expression code _ hvalue).bind fun new => (faultsIn_tick hparts).bind fun _ =>
      .ite (faultsIn_raise _ hparts) ?_
    exact (faultsIn_onVariable _ _ hparts fun access =>
      faultsIn_assignWhole hev access hparts op hpos _).bind fun _ => .pure _
  · obtain ⟨hroot, hlinks⟩ := hparts
    have hstart := Expr.startPosition_liesIn hroot
    refine (hev.expression code _ hvalue).bind fun new =>
      (faultsIn_path hev hlinks).bindOn (valuesAre_path hlinks) fun steps hsteps => ?_
    extract_lets assign
    have hassign (name : String) (access : Access) : (assign name access).FaultsIn e code :=
      faultsIn_assignAt hev hstart hpos hsteps
    clear_value assign
    split
    · have hvar := Expr.liesIn_iff.mp hroot
      exact (faultsIn_tick hvar).bind fun _ => (faultsIn_placed (faultsIn_onVariable _ _ hvar
        (hassign _)) hstart).bind fun _ => .pure _
    · have hself := Expr.liesIn_iff.mp hroot
      exact (faultsIn_tick hself).bind fun _ => (faultsIn_placed (faultsIn_onSelf hself
        (hassign _)) hstart).bind fun _ => .pure _
    · exact (hev.expression code _ hroot).bind fun d =>
        (faultsIn_placed (.focus _ (hassign _ .copy) _) hstart).bind fun _ => .pure _
  · exact .pure _

/-! ## Choices -/

theorem faultsIn_block (hev : ev.FaultsIn e) {body : List Stmt}
    (hbody : ∀ s ∈ body, s.LiesIn code) : (block ev body).FaultsIn e code :=
  (faultsIn_statements hev hbody).afterwards _

theorem faultsIn_blockRule (hev : ev.FaultsIn e) {body : List Stmt}
    (hbody : ∀ s ∈ body, s.LiesIn code) : (blockRule ev body).FaultsIn e code :=
  .ite (.pure _) (faultsIn_block hev hbody)

theorem faultsIn_conditionRule (hev : ev.FaultsIn e) {c : Expr} (hc : c.LiesIn code) :
    (conditionRule ev c).FaultsIn e code := by
  unfold conditionRule
  split
  · exact .pure _
  · exact (hev.expression code c hc).bind fun d => faultsIn_asBool d (Expr.position_liesIn hc)

theorem faultsIn_firstCase (hev : ev.FaultsIn e) {cases : List Case}
    (hcases : ∀ c ∈ cases, c.LiesIn code) : (firstCase ev cases).FaultsIn e code := by
  induction cases with
  | nil => exact .pure _
  | cons c rest ih =>
    obtain ⟨hc, hrest⟩ := List.forall_mem_cons.mp hcases
    exact (faultsIn_conditionRule hev (Case.liesIn_iff.mp hc).1).bind fun _ =>
      .ite (.pure _) (ih hrest)

/-- The case that is chosen is one of those given. -/
theorem valuesAre_firstCase {cases : List Case} (hcases : ∀ c ∈ cases, c.LiesIn code) :
    (firstCase ev cases).ValuesAre fun first => ∀ x ∈ first, x.LiesIn code := by
  induction cases with
  | nil => exact .pure fun _ h => nomatch h
  | cons c rest ih =>
    obtain ⟨hc, hrest⟩ := List.forall_mem_cons.mp hcases
    refine (Run.ValuesAre.any _).bind fun holds _ => ?_
    split
    · exact .pure fun x hx => Option.some.inj hx ▸ (Case.liesIn_iff.mp hc).2
    · exact ih hrest

theorem faultsIn_selectRule (hev : ev.FaultsIn e) {subject : Expr} (hsubject : subject.LiesIn code)
    {cases : List Case} (hcases : ∀ c ∈ cases, c.LiesIn code) {otherwise : Option Expr}
    (hotherwise : ∀ x ∈ otherwise, x.LiesIn code) :
    (selectRule ev subject cases otherwise).FaultsIn e code := by
  unfold selectRule
  refine (hev.expression code _ hsubject).bind fun d => ?_
  have hfound : ∀ c ∈ casesFor d.unshared cases, c.LiesIn code :=
    fun c hc => hcases c (mem_of_mem_casesFor hc)
  refine (faultsIn_firstCase hev hfound).bindOn (valuesAre_firstCase hfound) fun first hfirst => ?_
  split
  · next action haction =>
    refine hev.expression code action ?_
    cases first with
    | none => exact hotherwise action haction
    | some x => exact hfirst action haction
  · exact .pure _

/-! ## Loops -/

theorem faultsIn_repeated {round : Run ω Round} (hround : round.FaultsIn e code) (n : ℕ) :
    Run.FaultsIn e code (repeated round n) := by
  induction n with
  | zero => exact fun _ => trivial
  | succ n ih =>
    intro m
    have hrun := hround m
    unfold repeated
    generalize round m = result at hrun
    split
    · trivial
    · exact ih _
    · exact hrun
    · trivial
    · trivial

theorem faultsIn_bodyRound (hev : ev.FaultsIn e) {body : List Stmt}
    (hbody : ∀ s ∈ body, s.LiesIn code) : (bodyRound ev body).FaultsIn e code := by
  intro m
  have hrun := faultsIn_blockRule hev hbody m
  unfold bodyRound
  generalize blockRule ev body m = result at hrun
  split
  · trivial
  · trivial
  · trivial
  · trivial
  · exact hrun
  · trivial

/-- The round of a loop that may have no statements. -/
theorem faultsIn_plainRound (hev : ev.FaultsIn e) {body : List Stmt}
    (hbody : ∀ s ∈ body, s.LiesIn code) (hpos : pos.LiesIn code) : Run.FaultsIn e code
      (if body.isEmpty then do
        tick e pos
        pure Round.goOn
      else bodyRound ev body) :=
  .ite ((faultsIn_tick hpos).bind fun _ => .pure _) (faultsIn_bodyRound hev hbody)

theorem faultsIn_whileRule (hev : ev.FaultsIn e) {condition : Expr}
    (hcondition : condition.LiesIn code) {body : List Stmt} (hbody : ∀ s ∈ body, s.LiesIn code)
    (hpos : pos.LiesIn code) : (whileRule e ev condition body pos).FaultsIn e code := by
  refine faultsIn_repeated (.ite (faultsIn_plainRound hev hbody hpos) ?_) _
  exact (hev.expression code _ hcondition).bind fun d =>
    (faultsIn_asBool d (Expr.position_liesIn hcondition)).bind fun _ =>
      .ite (faultsIn_bodyRound hev hbody) (.pure _)

theorem faultsIn_doRule (hev : ev.FaultsIn e) {body : List Stmt}
    (hbody : ∀ s ∈ body, s.LiesIn code) {condition : Expr} (hcondition : condition.LiesIn code)
    (goOn : Bool) : (doRule ev body condition goOn).FaultsIn e code := by
  refine faultsIn_repeated ((faultsIn_bodyRound hev hbody).bind fun r => ?_) _
  split
  · exact (hev.expression code _ hcondition).bind fun d =>
      (faultsIn_asBool d (Expr.position_liesIn hcondition)).bind fun _ => .ite (.pure _) (.pure _)
  · exact .pure _

theorem faultsIn_forRounds {round : Run ω Round} (hround : round.FaultsIn e code)
    (hasCounter : Bool) (n : ℕ) (count : ℤ) (items : Items) :
    Run.FaultsIn e code (forRounds round hasCounter n count items) := by
  induction n generalizing count items with
  | zero => exact fun _ => trivial
  | succ n ih =>
    intro m
    unfold forRounds
    split
    · trivial
    · next d rest _ =>
      have hrun := hround (setAt 0 d (if hasCounter then setAt 1 (.int count) m else m))
      dsimp only
      generalize round _ = result at hrun
      split
      · trivial
      · exact ih _ _ _
      · exact hrun
      · trivial
      · trivial

theorem faultsIn_forRule (hev : ev.FaultsIn e) (name : String) (counter : Option String)
    {source : Expr} (hsource : source.LiesIn code) {body : List Stmt}
    (hbody : ∀ s ∈ body, s.LiesIn code) (hpos : pos.LiesIn code) :
    (forRule e ev name counter source body pos).FaultsIn e code := by
  unfold forRule
  refine (hev.expression code _ hsource).bind fun d => ?_
  split
  · exact faultsIn_raise _ (Expr.startPosition_liesIn hsource)
  · next items _ =>
    extract_lets round rest run
    have hrounds := faultsIn_forRounds (faultsIn_plainRound hev hbody hpos) counter.isSome
      (items.bound ev.rounds) 0 items
    refine Run.FaultsAre.afterwards (r := run) ?_ _
    have hrest (u : Unit) : (rest u).FaultsIn e code :=
      (Run.FaultsAre.update _).bind fun _ => hrounds
    dsimp only [run]
    split
    · exact (Run.FaultsAre.update _).bind fun u => hrest u
    · exact hrest ()

/-! ## Faults -/

/-- A handler that throws nothing throws the fault again, at its own position. -/
theorem faultsIn_handle (hev : ev.FaultsIn e) {x : Fault} (hx : x.ArisesIn e.codeOf code)
    (name : Option String) {handler : List Stmt} (hhandler : ∀ s ∈ handler, s.LiesIn code) :
    (handle ev x name handler).FaultsIn e code := by
  unfold handle
  extract_lets rest run
  have hrun : run.FaultsIn e code := by
    have hrest (u : Unit) : (rest u).FaultsIn e code :=
      (faultsIn_blockRule hev hhandler).bind fun _ => .pure _
    dsimp only [run]
    split
    · exact (Run.FaultsAre.update _).bind fun u => hrest u
    · exact hrest ()
  refine (hrun.afterwards _).mapFault fun y hy => ?_
  cases hy with
  | thrown payload hpos =>
    dsimp only
    split
    · exact hx.withPosition hpos
    · exact .thrown payload hpos
  | raised cause hpos => exact .raised cause hpos
  | call hpos hinner => exact .call hpos hinner
  | callback hname hpos hinner => exact .callback hname hpos hinner
  | text hpos hinner => exact .text hpos hinner

theorem faultsIn_guardedRule (hev : ev.FaultsIn e) {body : List Stmt}
    (hbody : ∀ s ∈ body, s.LiesIn code) (name : Option String) {handler : List Stmt}
    (hhandler : ∀ s ∈ handler, s.LiesIn code) :
    (guardedRule ev body name handler).FaultsIn e code := by
  intro m
  have hrun := faultsIn_blockRule hev hbody m
  unfold guardedRule
  generalize blockRule ev body m = result at hrun
  split
  · trivial
  · split
    · exact hrun
    · exact faultsIn_handle hev hrun name hhandler _
  · trivial
  · trivial

/-! ## The value of a statement -/

theorem faultsIn_optionalValue (hev : ev.FaultsIn e) {value : Option Expr}
    (hvalue : ∀ x ∈ value, x.LiesIn code) : (optionalValue ev value).FaultsIn e code := by
  cases value with
  | none => exact .pure _
  | some x => exact (hev.expression code x (hvalue x rfl)).bind fun _ => .pure _

theorem faultsIn_actionRule (hev : ev.FaultsIn e) {s : Stmt} (hs : s.LiesIn code) :
    (actionRule e ev s).FaultsIn e code := by
  have hparts := Stmt.liesIn_iff.mp hs
  unfold actionRule
  split
  · exact .pure _
  · exact (hev.expression code _ hparts).bind fun _ => .pure _
  · exact faultsIn_valueRule hev hparts
  · exact faultsIn_blockRule hev hparts.2
  · exact faultsIn_assignRule hev _ hparts.1 hparts.2.1 hparts.2.2
  · exact (hev.expression code _ hparts.2).bind fun d =>
      .ite ((Run.FaultsAre.update _).bind fun _ => .pure _)
        ((Run.FaultsAre.update _).bind fun _ => .pure _)
  · obtain ⟨-, -, -, hcondition, hbody, hother⟩ := hparts
    exact (hev.expression code _ hcondition).bind fun d =>
      (faultsIn_asBool d (Expr.position_liesIn hcondition)).bind fun _ =>
        .ite (faultsIn_blockRule hev hbody) (faultsIn_blockRule hev hother)
  · exact faultsIn_selectRule hev hparts.2.1 hparts.2.2.1 hparts.2.2.2
  · exact faultsIn_whileRule hev hparts.2.2.1 hparts.2.2.2 hparts.1
  · exact faultsIn_doRule hev hparts.2.2.2 hparts.2.2.1 _
  · exact faultsIn_forRule hev _ _ hparts.2.2.1 hparts.2.2.2 hparts.1
  · exact .jump _
  · exact (faultsIn_optionalValue hev hparts.2).bind fun _ => .jump _
  · exact (faultsIn_optionalValue hev hparts.2).bind fun _ => .jump _
  · exact (faultsIn_optionalValue hev hparts.2).bind fun _ => .fault (.thrown _ hparts.1)
  · exact faultsIn_guardedRule hev hparts.2.2.2.1 _ hparts.2.2.2.2
  · have hstart := Expr.startPosition_liesIn hparts.2
    exact (hev.expression code _ hparts.2).bind fun d => (faultsIn_textArgument d hstart).bind
      fun _ => faultsIn_raise _ hstart
  · exact Run.FaultsAre.machine.bind fun _ => .ite (.pure _) (faultsIn_raise _ hparts.1)
  · exact (Run.FaultsAre.update _).bind fun _ => .pure _

/-- The faults of a statement arise in the code that it lies in. -/
theorem faultsIn_statementRule (hev : ev.FaultsIn e) {s : Stmt} (hs : s.LiesIn code) :
    (statementRule e ev s).FaultsIn e code :=
  (faultsIn_tick (Stmt.position_liesIn hs)).bind fun _ => faultsIn_actionRule hev hs

end Evaluation

/-- The faults of all rules arise in the code that they run, however deep they refer to each
other. -/
theorem Evaluator.faultsIn_within (e : Engine ω) (n : ℕ) : (Evaluator.within e n).FaultsIn e := by
  induction n with
  | zero => exact ⟨fun _ _ _ => .exhausted, fun _ _ _ => .exhausted,
      fun _ _ _ _ _ _ => .exhausted⟩
  | succ n ih =>
    exact ⟨fun _ _ hx => Evaluation.faultsIn_expressionRule ih hx,
      fun _ _ hs => Evaluation.faultsIn_statementRule ih hs,
      fun _ name args access _ hpos => Evaluation.faultsIn_callNative ih name args access hpos⟩

/-- **The fault of a script arises in its code.** -/
theorem Engine.arisesIn_run {bound : ℕ} {body : List Stmt} {m : Machine ω} {x : Fault}
    (hrun : (e.run bound body m).1 = .fault x) :
    x.ArisesIn e.codeOf {pos | pos ∈ positionsOf body} := by
  have hbody : ∀ s ∈ body, s.LiesIn {pos | pos ∈ positionsOf body} :=
    liesIn_statements.mp fun _ hpos _ => hpos
  have hfaults := Evaluation.faultsIn_statements (Evaluator.faultsIn_within e bound) hbody m
  unfold Engine.run at hrun
  generalize Evaluation.statements (Evaluator.within e bound) body m = result at hfaults hrun
  split at hrun <;> cases hrun
  -- Loop control that is left outside of a loop has no position.
  · exact .raised _ Position.none_liesIn
  · exact .raised _ Position.none_liesIn
  · exact hfaults

end ScriptHost.Script
