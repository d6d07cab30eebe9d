import Mathlib
import ScriptHost.Proofs.Backtraces.Calls
import ScriptHost.Script.Evaluation.Statement

/-!
# Faults of expressions

The faults of an expression arise in the code that it lies in, also those of the paths in it.
-/

namespace ScriptHost.Script.Evaluation

variable {ω α : Type} {e : Engine ω} {ev : Evaluator ω} {code : Set Position}
  {pos opPos : Position}

/-! ## Parts of values -/

theorem faultsIn_indexPart (insert : Bool) (whole key : Datum) (hpos : pos.LiesIn code)
    (hopPos : opPos.LiesIn code) : (indexPart e insert whole key pos opPos).FaultsIn e code := by
  have hraise (c : Cause) : (Run.raise c pos : Run ω Part).FaultsIn e code := faultsIn_raise c hpos
  unfold indexPart
  refine (faultsIn_tick Position.none_liesIn).bind fun _ => ?_
  split
  all_goals try dsimp only
  all_goals repeat' split
  all_goals first
    | exact .pure _
    | exact hraise _
    | exact faultsIn_ofResult _ hpos
    | exact (faultsIn_tick hopPos).bind fun _ => faultsIn_raise _ hopPos

theorem faultsIn_getProperty (name : String) (whole : Datum) (hopPos : opPos.LiesIn code)
    (hpos : pos.LiesIn code) : (getProperty e name whole opPos pos).FaultsIn e code := by
  unfold getProperty
  refine (faultsIn_tick hpos).bind fun _ => ?_
  split
  · exact .pure _
  · exact (faultsIn_tick hopPos).bind fun _ => faultsIn_raise _ hpos

theorem faultsIn_setProperty (name : String) (whole d : Datum) (hopPos : opPos.LiesIn code)
    (hpos : pos.LiesIn code) :
    (setProperty e name whole d opPos pos : Run ω α).FaultsIn e code :=
  (faultsIn_tick hpos).bind fun _ => (faultsIn_tick hopPos).bind fun _ => faultsIn_raise _ hpos

/-! ## Paths -/

/-- The positions in a step. -/
def Step.positions : Step → List Position
  | .property _ opPos pos | .index _ opPos pos => [opPos, pos]
  | .method _ _ firstPos opPos pos => [firstPos, opPos, pos]

/-- All positions in a path lie in some code. -/
def Path.LiesIn (code : Set Position) (path : Path) : Prop :=
  ∀ s ∈ path, ∀ pos ∈ s.2.positions, pos.LiesIn code

/-- A method is called at its own position; an argument that is no function is reported at the
first one. -/
theorem faultsIn_callStep (hev : ev.FaultsIn e) (name : String) (args : List Datum)
    (access : Access) {firstPos : Position} (hfirst : firstPos.LiesIn code)
    (hpos : pos.LiesIn code) :
    (callStep e ev name args access firstPos pos).FaultsIn e code := by
  intro d m
  unfold callStep
  extract_lets slots noPointer run
  have hrun : run.FaultsIn e code := by
    dsimp only [run]
    split
    · exact .lift (faultsIn_callPointer hev _ _ _ hpos)
    · exact faultsIn_callPointerOn hev _ _ _ _ hpos
    · exact .lift (faultsIn_raise _ hpos)
    · exact .lift (faultsIn_raise _ hfirst)
    · exact .pure _
    · exact .lift (faultsIn_raise _ hpos)
    · exact .pure _
    · split
      · exact faultsIn_callPointerOn hev _ _ _ _ hpos
      · exact faultsIn_callMethod hev _ _ _ hpos
    · exact faultsIn_callMethod hev _ _ _ hpos
  exact hrun d m

theorem faultsIn_inside (p : Part) {place copy : Focus ω α} (hplace : place.FaultsIn e code)
    (hcopy : copy.FaultsIn e code) : (inside p place copy).FaultsIn e code := by
  unfold inside
  split
  · exact .part _ _ hplace
  · exact .part _ _ hcopy

/-- Following a path. -/
theorem faultsIn_follow (hev : ev.FaultsIn e) {path : Path} (hpath : path.LiesIn code)
    (access : Access) : (follow e ev access path).FaultsIn e code := by
  induction path generalizing access with
  | nil => exact .target
  | cons head rest ih =>
    obtain ⟨isOptional, step⟩ := head
    obtain ⟨hstep, hrest⟩ := List.forall_mem_cons.mp hpath
    rw [follow]
    refine Focus.FaultsAre.target.bind fun whole => ?_
    split
    · exact .pure _
    · split
      all_goals simp only [Step.positions, List.forall_mem_cons] at hstep
      · exact (Focus.FaultsAre.lift (faultsIn_indexPart _ _ _ hstep.2.1 hstep.1)).bind fun p =>
          faultsIn_inside p (ih hrest access) (ih hrest .copy)
      · split
        · exact (Focus.FaultsAre.lift (faultsIn_indexPart _ _ _ hstep.2.1 hstep.1)).bind fun p =>
            faultsIn_inside p (ih hrest access) (ih hrest .copy)
        · exact (Focus.FaultsAre.lift (faultsIn_getProperty _ _ hstep.1 hstep.2.1)).bind fun d =>
            .part d _ (ih hrest .copy)
      · exact (faultsIn_callStep hev _ _ _ hstep.1 hstep.2.2.1).bind fun d =>
          .part d _ (ih hrest .copy)

/-! ## Assignment -/

theorem faultsIn_combined (hev : ev.FaultsIn e) (op : String) (old new : Datum)
    (hpos : pos.LiesIn code) : (combined e ev op old new pos).FaultsIn e code := by
  unfold combined
  dsimp only
  split
  · exact (faultsIn_ofResult _ hpos).bind fun d => (faultsIn_checkSize d hpos).bind fun _ => .pure _
  · split
    · next d _ =>
      have hrest : Run.FaultsIn e code (do
          checkSize e d pos
          pure d) := (faultsIn_checkSize d hpos).bind fun _ => .pure _
      split
      · exact hrest
      · exact hrest
      · exact (faultsIn_tick hpos).bind fun _ => hrest
    · exact (faultsIn_tick hpos).bind fun _ =>
        (hev.native code op _ .copy pos hpos).bind fun _ => .pure _

theorem faultsIn_assigned (hev : ev.FaultsIn e) (op : Option String) (old new : Datum)
    (hpos : pos.LiesIn code) : (assigned e ev op old new pos).FaultsIn e code := by
  cases op with
  | none => exact .pure _
  | some op => exact faultsIn_combined hev op old new hpos

section

variable {access : Access} {root : String × Position} {op : Option String} {assignPos : Position}
  {new : Datum}

theorem faultsIn_store (hev : ev.FaultsIn e) (hroot : root.2.LiesIn code)
    (hassign : assignPos.LiesIn code) (p : Part) :
    (assignAt.store e ev access root op assignPos new p).FaultsIn e code := by
  unfold assignAt.store
  split
  · exact .lift (faultsIn_raise _ hroot)
  · refine (Focus.FaultsAre.lift (faultsIn_assigned hev op _ _ hassign)).bind fun d => ?_
    split
    · exact (Focus.FaultsAre.put _).bind fun _ => .pure _
    · exact .lift (faultsIn_raise _ hassign)

theorem faultsIn_last (hev : ev.FaultsIn e) (hroot : root.2.LiesIn code)
    (hassign : assignPos.LiesIn code) (whole : Datum) {step : Step}
    (hstep : ∀ pos ∈ step.positions, pos.LiesIn code) :
    (assignAt.last e ev access root op assignPos new whole step).FaultsIn e code := by
  have hstore (p : Part) : (assignAt.store e ev access root op assignPos new p).FaultsIn e code :=
    faultsIn_store hev hroot hassign p
  unfold assignAt.last
  split
  all_goals simp only [Step.positions, List.forall_mem_cons] at hstep
  · split
    · refine (Focus.FaultsAre.lift (faultsIn_indexPart _ _ _ hstep.2.1 hstep.1)).bind fun p => ?_
      extract_lets rest
      have hrest (u : Unit) : (rest u).FaultsIn e code :=
        (hstore p).bind fun _ => Focus.FaultsAre.target.bind fun d =>
          .lift (faultsIn_checkSize d hassign)
      split
      · exact (Focus.FaultsAre.put _).bind fun u => hrest u
      · exact hrest ()
    · extract_lets rest
      have hrest (d : Datum) : (rest d).FaultsIn e code :=
        .lift (faultsIn_setProperty _ _ d hstep.1 hstep.2.1)
      split
      · exact hrest _
      · exact (Focus.FaultsAre.lift (faultsIn_getProperty _ _ hstep.1 hstep.2.1)).bind fun old =>
          (Focus.FaultsAre.lift (faultsIn_combined hev _ _ _ hassign)).bind fun d => hrest d
  · next key opPos pos =>
    have hindex : Focus.FaultsIn e code (do
        let p ← Focus.lift (indexPart e true whole key pos opPos)
        if p.isNew then Focus.put (putBack p whole .unit)
        Focus.lift (checkSize e
          (← assignAt.store e ev access root op assignPos new p) assignPos)) := by
      refine (Focus.FaultsAre.lift (faultsIn_indexPart _ _ _ hstep.2.1 hstep.1)).bind fun p => ?_
      extract_lets rest
      have hrest (u : Unit) : (rest u).FaultsIn e code :=
        (hstore p).bind fun d => .lift (faultsIn_checkSize d hassign)
      split
      · exact (Focus.FaultsAre.put _).bind fun u => hrest u
      · exact hrest ()
    split
    all_goals first
      | exact hindex
      | exact (Focus.FaultsAre.lift (faultsIn_tick Position.none_liesIn)).bind fun _ =>
          .lift (faultsIn_raise _ hstep.1)
  · exact .pure _

/-- Assigning to the end of a path. -/
theorem faultsIn_assignAt (hev : ev.FaultsIn e) (hroot : root.2.LiesIn code)
    (hassign : assignPos.LiesIn code) {path : Path} (hpath : path.LiesIn code) :
    (assignAt e ev access root op assignPos new path).FaultsIn e code := by
  induction path generalizing access with
  | nil => exact .pure _
  | cons head rest ih =>
    obtain ⟨isOptional, step⟩ := head
    obtain ⟨hstep, hrest⟩ := List.forall_mem_cons.mp hpath
    rw [assignAt.eq_def]
    refine Focus.FaultsAre.target.bind fun whole => ?_
    split
    · exact .pure _
    · split
      · exact faultsIn_last hev hroot hassign whole hstep
      · split
        all_goals simp only [Step.positions, List.forall_mem_cons] at hstep
        · exact (Focus.FaultsAre.lift (faultsIn_indexPart _ _ _ hstep.2.1 hstep.1)).bind fun p =>
            faultsIn_inside p (ih hrest) (ih hrest)
        · split
          · exact (Focus.FaultsAre.lift (faultsIn_indexPart _ _ _ hstep.2.1 hstep.1)).bind
              fun p => faultsIn_inside p (ih hrest) (ih hrest)
          · exact (Focus.FaultsAre.lift (faultsIn_getProperty _ _ hstep.1 hstep.2.1)).bind
              fun d => .part d _ (ih hrest)
        · exact (faultsIn_callStep hev _ _ _ hstep.1 hstep.2.2.1).bind fun d =>
            .part d _ (ih hrest)

end

/-! ## Arguments and variables -/

theorem faultsIn_argument (hev : ev.FaultsIn e) {x : Expr} (hx : x.LiesIn code) :
    (argument e ev x).FaultsIn e code := by
  unfold argument
  split
  · exact (faultsIn_tick (Expr.startPosition_liesIn hx)).bind fun _ => .pure _
  · exact hev.expression code x hx

theorem faultsIn_arguments (hev : ev.FaultsIn e) {xs : List Expr} (hxs : ∀ x ∈ xs, x.LiesIn code) :
    (arguments e ev xs).FaultsIn e code := .mapM fun x hx => faultsIn_argument hev (hxs x hx)

theorem faultsIn_captured (hev : ev.FaultsIn e) {x : Expr} (hx : x.LiesIn code) :
    (captured e ev x).FaultsIn e code := by
  unfold captured
  refine (faultsIn_argument hev hx).bind fun d => ?_
  split
  · refine Run.FaultsAre.machine.bind fun m => ?_
    split <;> exact .pure _
  · exact .pure _

theorem faultsIn_variableValue (name : String) (known : Bool) (hpos : pos.LiesIn code) :
    (variableValue e name known pos).FaultsIn e code := by
  unfold variableValue
  refine .ite (.pure _) fun m => ?_
  split
  · trivial
  · exact .raised _ hpos

theorem faultsIn_selfValue (hpos : pos.LiesIn code) :
    (selfValue pos : Run ω Datum).FaultsIn e code := by
  intro m
  unfold selfValue
  split
  · trivial
  · exact .raised _ hpos

theorem faultsIn_variableAccess (name : String) (known : Bool) :
    (variableAccess e name known).FaultsIn e code := by
  intro m
  unfold variableAccess
  split <;> trivial

/-! ## Calls by name -/

theorem faultsIn_callValues (hev : ev.FaultsIn e) (name : String) (args : List Datum)
    (inScope : Bool) (hpos : pos.LiesIn code) :
    (callValues e ev name args inScope pos).FaultsIn e code :=
  (faultsIn_callByName hev name _ .copy hpos inScope).bind fun _ => .pure _

theorem faultsIn_callNamed (hev : ev.FaultsIn e) (name : String) {args : List Expr}
    (hargs : ∀ x ∈ args, x.LiesIn code) (inScope : Bool) (hpos : pos.LiesIn code) :
    (callNamed e ev name args inScope pos).FaultsIn e code := by
  unfold callNamed
  split
  · obtain ⟨hself, hrest⟩ := List.forall_mem_cons.mp hargs
    have hselfPos := Expr.liesIn_iff.mp hself
    refine (faultsIn_tick hselfPos).bind fun _ => (faultsIn_arguments hev hrest).bind fun values =>
      (faultsIn_selfValue hselfPos).bind fun self =>
        (faultsIn_callByName hev name _ .place hpos false).bind fun r => ?_
    obtain ⟨d, left⟩ := r
    dsimp only
    split
    · exact (Run.FaultsAre.update _).bind fun _ => .pure _
    · exact .pure _
  · obtain ⟨hvar, hrest⟩ := List.forall_mem_cons.mp hargs
    have hvarPos := Expr.liesIn_iff.mp hvar
    refine (faultsIn_tick hvarPos).bind fun _ => (faultsIn_arguments hev hrest).bind fun values =>
      (faultsIn_variableValue _ _ hvarPos).bind fun first =>
        (faultsIn_variableAccess _ _).bind fun access =>
          (faultsIn_callByName hev name _ access hpos false).bind fun r => ?_
    obtain ⟨d, left⟩ := r
    dsimp only
    split
    · exact (Run.FaultsAre.update _).bind fun _ => .pure _
    · exact .pure _
  · exact (faultsIn_arguments hev hargs).bind fun values =>
      faultsIn_callValues hev name values _ hpos

theorem faultsIn_pointerTo (name : String) (hpos : pos.LiesIn code) :
    (pointerTo name pos : Run ω Datum).FaultsIn e code :=
  .ite (.pure _) (.ite (faultsIn_raise _ hpos) (faultsIn_raise _ hpos))

theorem faultsIn_textArgument (d : Datum) (hpos : pos.LiesIn code) :
    (textArgument d pos : Run ω String).FaultsIn e code := by
  unfold textArgument
  split
  · exact .pure _
  · exact faultsIn_raise _ hpos

/-- The positions of a text that is run as a script are its own, but functions that it calls have
their faults in their code. -/
theorem faultsIn_evaluateText (hev : ev.FaultsIn e) (text : String) (pos : Position) :
    (evaluateText e ev text pos).FaultsIn e Set.univ := by
  have hanywhere (pos : Position) : pos.LiesIn Set.univ := fun _ => Set.mem_univ _
  unfold evaluateText
  refine (faultsIn_tick (hanywhere pos)).bind fun _ => ?_
  split
  · exact faultsIn_raise _ (hanywhere _)
  · refine .ite (faultsIn_raise _ (hanywhere _)) fun m => ?_
    exact faultsIn_catchReturn (faultsIn_statements hev fun s _ => s.liesIn_univ) _

/-- A call, also one that the language answers itself. -/
theorem faultsIn_callRule (hev : ev.FaultsIn e) (name : String) {args : List Expr}
    (hargs : ∀ x ∈ args, x.LiesIn code) (inScope : Bool) (hpos : pos.LiesIn code) :
    (callRule e ev name args inScope pos).FaultsIn e code := by
  unfold callRule
  split
  all_goals try simp only [List.forall_mem_cons] at hargs
  all_goals try have hstart := Expr.startPosition_liesIn hargs.1
  · exact (faultsIn_argument hev hargs.1).bind fun d => (faultsIn_textArgument d hstart).bind
      fun s => faultsIn_pointerTo s hstart
  · refine (faultsIn_argument hev hargs.1).bind fun d => ?_
    split
    · split
      · exact faultsIn_callNamed hev _ hargs.2 inScope hpos
      · exact (faultsIn_arguments hev hargs.2).bind fun values =>
          faultsIn_callPointer hev _ _ _ hpos
    · exact faultsIn_raise _ hstart
  · refine (faultsIn_argument hev hargs.1).bind fun d => ?_
    split
    · exact (Run.FaultsAre.mapM fun z hz => faultsIn_captured hev
        (List.forall_mem_cons.mpr hargs.2 z hz)).bind fun _ => .pure _
    · exact faultsIn_raise _ hstart
  · refine (faultsIn_captured hev hargs.1).bind fun c => ?_
    split <;> exact .pure _
  · exact (faultsIn_argument hev hargs.1).bind fun d => (faultsIn_textArgument d hstart).bind
      fun _ => Run.FaultsAre.machine.bind fun _ => .pure _
  · refine (faultsIn_argument hev hargs.1).bind fun d => (faultsIn_textArgument d hstart).bind
      fun _ => (faultsIn_argument hev hargs.2.1).bind fun _ => ?_
    split
    · exact .pure _
    · exact faultsIn_raise _ (Expr.startPosition_liesIn hargs.2.1)
  · exact (faultsIn_argument hev hargs.1).bind fun d => (faultsIn_textArgument d hstart).bind
      fun text => (faultsIn_evaluateText hev text _).mapFault fun _ hx => .text hstart hx
  · exact faultsIn_callNamed hev _ hargs inScope hpos

/-! ## Operators and literals -/

theorem faultsIn_operatorRule (hev : ev.FaultsIn e) (symbol : String) {operands : List Expr}
    (hoperands : ∀ x ∈ operands, x.LiesIn code) (hpos : pos.LiesIn code) :
    (operatorRule e ev symbol operands pos).FaultsIn e code := by
  unfold operatorRule
  split
  · refine (faultsIn_argument hev (hoperands _ List.mem_cons_self)).bind fun d => ?_
    split
    · exact faultsIn_ofResult _ hpos
    · exact faultsIn_callValues hev symbol _ false hpos
  · simp only [List.forall_mem_cons] at hoperands
    refine (faultsIn_argument hev hoperands.1).bind fun a =>
      (faultsIn_argument hev hoperands.2.1).bind fun b => ?_
    split
    · exact (faultsIn_ofResult _ hpos).bind fun d =>
        (faultsIn_checkSize d hpos).bind fun _ => .pure _
    · split <;> exact faultsIn_callValues hev _ _ false hpos
  · exact .pure _

theorem faultsIn_interpolatedRule (hev : ev.FaultsIn e) {segments : List Expr}
    (hsegments : ∀ x ∈ segments, x.LiesIn code) (text : String) :
    (interpolatedRule e ev segments text).FaultsIn e code := by
  induction segments generalizing text with
  | nil => exact .pure _
  | cons x rest ih =>
    obtain ⟨hx, hrest⟩ := List.forall_mem_cons.mp hsegments
    exact (hev.expression code x hx).bind fun d =>
      (faultsIn_checkSize _ (Expr.position_liesIn hx)).bind fun _ => ih hrest _

theorem faultsIn_arrayRule (hev : ev.FaultsIn e) {items : List Expr}
    (hitems : ∀ x ∈ items, x.LiesIn code) (reversed : List Datum) :
    (arrayRule e ev items reversed).FaultsIn e code := by
  induction items generalizing reversed with
  | nil => exact .pure _
  | cons x rest ih =>
    obtain ⟨hx, hrest⟩ := List.forall_mem_cons.mp hitems
    exact (hev.expression code x hx).bind fun d =>
      (faultsIn_checkSize _ (Expr.position_liesIn hx)).bind fun _ => ih hrest _

theorem faultsIn_mapRule (hev : ev.FaultsIn e) {exprs : List (String × Expr)}
    (hexprs : ∀ p ∈ exprs, p.2.LiesIn code) (fields : List (String × Datum)) :
    (mapRule e ev exprs fields).FaultsIn e code := by
  induction exprs generalizing fields with
  | nil => exact .pure _
  | cons p rest ih =>
    obtain ⟨k, x⟩ := p
    obtain ⟨hx, hrest⟩ := List.forall_mem_cons.mp hexprs
    exact (hev.expression code x hx).bind fun d =>
      (faultsIn_checkSize _ (Expr.position_liesIn hx)).bind fun _ => ih hrest _

theorem faultsIn_allRule (hev : ev.FaultsIn e) (value : Bool) {operands : List Expr}
    (hoperands : ∀ x ∈ operands, x.LiesIn code) : (allRule ev value operands).FaultsIn e code := by
  induction operands with
  | nil => exact .pure _
  | cons x rest ih =>
    obtain ⟨hx, hrest⟩ := List.forall_mem_cons.mp hoperands
    exact (hev.expression code x hx).bind fun d =>
      (faultsIn_asBool d (Expr.position_liesIn hx)).bind fun _ => .ite (ih hrest) (.pure _)

theorem faultsIn_coalesceRule (hev : ev.FaultsIn e) {operands : List Expr}
    (hoperands : ∀ x ∈ operands, x.LiesIn code) : (coalesceRule ev operands).FaultsIn e code := by
  induction operands with
  | nil => exact .pure _
  | cons x rest ih =>
    obtain ⟨hx, hrest⟩ := List.forall_mem_cons.mp hoperands
    exact (hev.expression code x hx).bind fun d => .ite (ih hrest) (.pure _)

/-! ## Paths of expressions -/

theorem linkPosition_liesIn {link : Link} (hlink : link.LiesIn code) {rest : List Link}
    (hrest : ∀ l ∈ rest, l.LiesIn code) : (linkPosition link rest).LiesIn code := by
  unfold linkPosition
  split
  · exact Link.opPos_liesIn (hrest _ List.mem_cons_self)
  · split
    · exact Expr.position_liesIn (Link.liesIn_iff.mp hlink).2
    · exact Link.pos_liesIn hlink

theorem faultsIn_stepOf (hev : ev.FaultsIn e) {link : Link} (hlink : link.LiesIn code) :
    (stepOf e ev link).FaultsIn e code := by
  have hparts := Link.liesIn_iff.mp hlink
  unfold stepOf
  split
  · exact .pure _
  · exact (faultsIn_arguments hev hparts.2.2).bind fun _ => .pure _
  · exact (hev.expression code _ hparts.2).bind fun _ => .pure _

/-- The positions of a step are those of its link. -/
theorem valuesAre_stepOf {link : Link} (hlink : link.LiesIn code) :
    (stepOf e ev link).ValuesAre fun s => ∀ pos ∈ s.2.positions, pos.LiesIn code := by
  have hparts := Link.liesIn_iff.mp hlink
  unfold stepOf
  split
  · refine .pure ?_
    simpa [Step.positions] using hparts
  · next args _ _ _ =>
    have hfirst : ((args.head?.map Expr.startPosition).getD .none).LiesIn code := by
      cases args with
      | nil => exact Position.none_liesIn
      | cons x rest => exact Expr.startPosition_liesIn (hparts.2.2 x List.mem_cons_self)
    refine (Run.ValuesAre.any _).bind fun _ _ => .pure ?_
    simpa [Step.positions] using ⟨hfirst, hparts.1, hparts.2.1⟩
  · refine (Run.ValuesAre.any _).bind fun _ _ => .pure ?_
    simpa [Step.positions] using ⟨hparts.1, Expr.startPosition_liesIn hparts.2⟩

theorem faultsIn_pathOf (hev : ev.FaultsIn e) {links : List Link}
    (hlinks : ∀ l ∈ links, l.LiesIn code) : (pathOf e ev links).FaultsIn e code := by
  induction links with
  | nil => exact .pure _
  | cons link rest ih =>
    obtain ⟨hlink, hrest⟩ := List.forall_mem_cons.mp hlinks
    exact (faultsIn_tick (linkPosition_liesIn hlink hrest)).bind fun _ =>
      (faultsIn_stepOf hev hlink).bind fun _ => (ih hrest).bind fun _ => .pure _

theorem valuesAre_pathOf {links : List Link} (hlinks : ∀ l ∈ links, l.LiesIn code) :
    (pathOf e ev links).ValuesAre (Path.LiesIn code) := by
  induction links with
  | nil => exact .pure fun _ h => nomatch h
  | cons link rest ih =>
    obtain ⟨hlink, hrest⟩ := List.forall_mem_cons.mp hlinks
    exact (Run.ValuesAre.any _).bind fun _ _ => (valuesAre_stepOf hlink).bind fun _ hs =>
      (ih hrest).bind fun _ hsteps => .pure (List.forall_mem_cons.mpr ⟨hs, hsteps⟩)

theorem simpleStep?_liesIn {link : Link} (hlink : link.LiesIn code) {s : Bool × Step}
    (hs : simpleStep? link = some s) : ∀ pos ∈ s.2.positions, pos.LiesIn code := by
  have hparts := Link.liesIn_iff.mp hlink
  unfold simpleStep? at hs
  split at hs
  · cases hs
    simpa [Step.positions] using hparts
  · cases hs
    simpa [Step.positions] using ⟨Position.none_liesIn, hparts.1, hparts.2.1⟩
  · obtain ⟨d, -, rfl⟩ := Option.map_eq_some_iff.mp hs
    simpa [Step.positions] using ⟨hparts.1, Expr.startPosition_liesIn hparts.2⟩
  · cases hs

theorem faultsIn_path (hev : ev.FaultsIn e) {links : List Link}
    (hlinks : ∀ l ∈ links, l.LiesIn code) : (path e ev links).FaultsIn e code := by
  unfold path
  split
  · split
    · exact .pure _
    · exact faultsIn_pathOf hev hlinks
  · exact faultsIn_pathOf hev hlinks

/-- The positions of a path are those of its links. -/
theorem valuesAre_path {links : List Link} (hlinks : ∀ l ∈ links, l.LiesIn code) :
    (path e ev links).ValuesAre (Path.LiesIn code) := by
  unfold path
  split
  · next link =>
    split
    · next s hs =>
      exact .pure (List.forall_mem_singleton.mpr
        (simpleStep?_liesIn (hlinks link List.mem_cons_self) hs))
    · exact valuesAre_pathOf hlinks
  · exact valuesAre_pathOf hlinks

theorem faultsIn_onVariable (name : String) (known : Bool) (hpos : pos.LiesIn code)
    {run : Access → Focus ω α} (hrun : ∀ access, (run access).FaultsIn e code) :
    (onVariable e name known pos run).FaultsIn e code := by
  unfold onVariable
  refine (faultsIn_variableValue _ _ hpos).bind fun d => .ite (.focus d (hrun .copy) _) fun m => ?_
  exact Run.FaultsAre.focus d (hrun _) _ m

theorem faultsIn_onSelf (hpos : pos.LiesIn code) {run : Access → Focus ω α}
    (hrun : ∀ access, (run access).FaultsIn e code) : (onSelf pos run).FaultsIn e code :=
  (faultsIn_selfValue hpos).bind fun d => .focus d (hrun .place) _

theorem faultsIn_placed {r : Run ω α} (hr : r.FaultsIn e code) (hpos : pos.LiesIn code) :
    (r.placed pos).FaultsIn e code := hr.mapFault fun _ hx => hx.atIfNone hpos

theorem faultsIn_chainRule (hev : ev.FaultsIn e) {root : Expr} (hroot : root.LiesIn code)
    {links : List Link} (hlinks : ∀ l ∈ links, l.LiesIn code) :
    (chainRule e ev root links).FaultsIn e code := by
  have hstart := Expr.startPosition_liesIn hroot
  unfold chainRule
  refine (faultsIn_path hev hlinks).bindOn (valuesAre_path hlinks) fun steps hsteps => ?_
  have hfollow (access : Access) := faultsIn_follow hev hsteps access
  split
  · have hvarPos := Expr.liesIn_iff.mp hroot
    refine (faultsIn_tick hvarPos).bind fun _ => Run.FaultsAre.machine.bind fun m => ?_
    split
    · exact .pure _
    · exact faultsIn_placed (faultsIn_onVariable _ _ hvarPos hfollow) hstart
  · have hselfPos := Expr.liesIn_iff.mp hroot
    exact (faultsIn_tick hselfPos).bind fun _ =>
      faultsIn_placed (faultsIn_onSelf hselfPos hfollow) hstart
  · exact (hev.expression code _ hroot).bind fun d =>
      faultsIn_placed (.focus _ (hfollow .copy) _) hstart

/-! ## The value of an expression -/

theorem faultsIn_valueRule (hev : ev.FaultsIn e) {x : Expr} (hx : x.LiesIn code) :
    (valueRule e ev x).FaultsIn e code := by
  have hparts := Expr.liesIn_iff.mp hx
  unfold valueRule
  split
  · exact .pure _
  · exact faultsIn_interpolatedRule hev hparts.2 ""
  · exact faultsIn_arrayRule hev hparts.2 []
  · exact faultsIn_mapRule hev hparts.2 []
  · exact faultsIn_variableValue _ _ hparts
  · exact faultsIn_selfValue hparts
  · exact faultsIn_callRule hev _ hparts.2 _ hparts.1
  · exact faultsIn_operatorRule hev _ hparts.2 hparts.1
  · exact (faultsIn_allRule hev true hparts.2).bind fun _ => .pure _
  · exact (faultsIn_allRule hev false hparts.2).bind fun _ => .pure _
  · exact faultsIn_coalesceRule hev hparts.2
  · exact (faultsIn_statements hev hparts.2).afterwards _
  · exact faultsIn_chainRule hev hparts.1 hparts.2

/-- The faults of an expression arise in the code that it lies in. -/
theorem faultsIn_expressionRule (hev : ev.FaultsIn e) {x : Expr} (hx : x.LiesIn code) :
    (expressionRule e ev x).FaultsIn e code :=
  (faultsIn_tick (Expr.position_liesIn hx)).bind fun _ => faultsIn_valueRule hev hx

end ScriptHost.Script.Evaluation
