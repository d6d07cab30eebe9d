import ScriptHost.Proofs.Keeping
import ScriptHost.Proofs.Provenance.Paths
import ScriptHost.Script.Evaluation.Statement

/-!
# Expressions keep to an origin

The value of a traced expression is traced, and so is the machine that its evaluation leaves.
-/

namespace ScriptHost.Script.Evaluation

variable {ω : Type} {o : Origin} {e : Engine ω} {ev : Evaluator ω}

/-! ## Arguments and variables -/

theorem traced_argument (e : Engine ω) (hev : ev.Traced o) {x : Expr} (hx : x.Traced o) :
    (argument e ev x).Traced o := by
  unfold argument
  split
  · next d hd => exact (traced_tick e _).bind fun _ _ => .pure (Expr.traced_value? hx hd)
  · exact hev.expression x hx

theorem traced_arguments (e : Engine ω) (hev : ev.Traced o) {xs : List Expr}
    (hxs : ∀ x ∈ xs, x.Traced o) : (arguments e ev xs).Traced o :=
  .mapM fun x hx => traced_argument e hev (hxs x hx)

theorem traced_captured (e : Engine ω) (hev : ev.Traced o) {x : Expr} (hx : x.Traced o) :
    (captured e ev x).Traced o := by
  unfold captured
  refine (traced_argument e hev hx).bind fun d hd => ?_
  have hvalue : Run.Traced o (pure (Capture.value d) : Run ω Capture) := .pure (by simpa using hd)
  split
  · refine Run.Traced.machine.bind fun m _ => ?_
    split
    · exact .pure (by simp)
    · exact hvalue
  · exact hvalue

theorem traced_variableValue (e : Engine ω) (name : String) (known : Bool) (pos : Position) :
    (variableValue e name known pos).Traced o := by
  unfold variableValue
  refine .ite (.pure (by simp)) fun m hm => ?_
  split
  · next v hv => exact ⟨hm.content (hm.lookup? hv), hm⟩
  · exact ⟨trivial, hm⟩

theorem traced_selfValue (pos : Position) : (selfValue pos : Run ω Datum).Traced o := by
  intro m hm
  unfold selfValue
  split
  · next d hd => exact ⟨hm.self d hd, hm⟩
  · exact ⟨trivial, hm⟩

theorem traced_variableAccess (e : Engine ω) (name : String) (known : Bool) :
    (variableAccess e name known).Traced o := by
  intro m hm
  unfold variableAccess
  split <;> exact ⟨trivial, hm⟩

/-! ## Calls by name -/

theorem traced_callValues (he : e.Traced o) (hev : ev.Traced o) (name : String)
    {args : List Datum} (hargs : ∀ d ∈ args, d.Traced o) (inScope : Bool) (pos : Position) :
    (callValues e ev name args inScope pos).Traced o :=
  (traced_callByName he hev name (traced_ownSlots hargs) .copy pos inScope).bind
    fun _ hr => .pure hr.1

theorem traced_setSelf {s : Datum} (hs : s.Traced o) :
    Run.Traced o (Run.update fun (m : Machine ω) => { m with self := some s }) :=
  .update fun _ hm => ⟨hm.locals, by simpa using hs, hm.cells, hm.log⟩

theorem traced_callNamed (he : e.Traced o) (hev : ev.Traced o) (name : String)
    {args : List Expr} (hargs : ∀ x ∈ args, x.Traced o) (inScope : Bool) (pos : Position) :
    (callNamed e ev name args inScope pos).Traced o := by
  unfold callNamed
  split
  · next selfPos rest =>
    obtain ⟨-, hrest⟩ := List.forall_mem_cons.mp hargs
    refine (traced_tick e selfPos).bind fun _ _ => (traced_arguments e hev hrest).bind
      fun values hvalues => (traced_selfValue selfPos).bind fun self hself =>
        (traced_callByName he hev name (List.forall_mem_cons.mpr
          ⟨by simpa using hself, traced_ownSlots hvalues⟩) .place pos false).bind fun r hr => ?_
    obtain ⟨d, left⟩ := r
    dsimp only
    split
    · next s => exact (traced_setSelf (hr.2 s rfl)).bind fun _ _ => .pure hr.1
    · exact .pure hr.1
  · next v known varPos rest =>
    obtain ⟨-, hrest⟩ := List.forall_mem_cons.mp hargs
    refine (traced_tick e varPos).bind fun _ _ => (traced_arguments e hev hrest).bind
      fun values hvalues => (traced_variableValue e v known varPos).bind fun first hfirst =>
        (traced_variableAccess e v known).bind fun access _ =>
          (traced_callByName he hev name (List.forall_mem_cons.mpr
            ⟨by simpa using hfirst, traced_ownSlots hvalues⟩) access pos false).bind fun r hr => ?_
    obtain ⟨d, left⟩ := r
    dsimp only
    split
    · next s _ =>
      exact (Run.Traced.update fun _ hm => hm.setVariable (hr.2 s rfl) v).bind
        fun _ _ => .pure hr.1
    · exact .pure hr.1
  · exact (traced_arguments e hev hargs).bind fun values hvalues =>
      traced_callValues he hev name hvalues _ pos

theorem traced_pointerTo (name : String) (pos : Position) :
    (pointerTo name pos : Run ω Datum).Traced o := by
  unfold pointerTo
  split
  · exact .pure (by simp)
  · split <;> exact .raise _ pos

theorem traced_textArgument (d : Datum) (pos : Position) :
    (textArgument d pos : Run ω String).Traced o := by
  unfold textArgument
  split
  · exact .pure trivial
  · exact .raise _ pos

/-- A text that is run as a script brings in no failures. -/
theorem traced_evaluateText (e : Engine ω) (hev : ev.Traced o) (text : String) (pos : Position) :
    (evaluateText e ev text pos).Traced o := by
  unfold evaluateText
  refine (traced_tick e pos).bind fun _ _ => ?_
  split
  · exact .raise _ _
  · next p hp =>
    refine .ite (.raise _ _) fun m hm => ?_
    obtain ⟨hout, hafter⟩ :=
      traced_catchReturn (traced_statements hev (Program.traced_ofText? hp).body)
        { m with self := none, level := m.level + 1 } ⟨hm.locals, by simp, hm.cells, hm.log⟩
    exact ⟨hout, hafter.locals, hm.self, hafter.cells, hafter.log⟩

/-- A call is traced, also one that the language answers itself. -/
theorem traced_callRule (he : e.Traced o) (hev : ev.Traced o) (name : String)
    {args : List Expr} (hargs : ∀ x ∈ args, x.Traced o) (inScope : Bool) (pos : Position) :
    (callRule e ev name args inScope pos).Traced o := by
  unfold callRule
  split
  all_goals try simp only [List.forall_mem_cons] at hargs
  · exact (traced_argument e hev hargs.1).bind fun d _ => (traced_textArgument d _).bind
      fun s _ => traced_pointerTo s _
  · next x rest =>
    refine (traced_argument e hev hargs.1).bind fun d hd => ?_
    have hpointer := (Datum.traced_unshared d).mpr hd
    split
    · next f curried heq =>
      rw [heq, Datum.Traced] at hpointer
      split
      · exact traced_callNamed he hev f hargs.2 inScope pos
      · exact (traced_arguments e hev hargs.2).bind fun values hvalues =>
          traced_callPointer he hev f hpointer (traced_ownSlots hvalues) pos
    · exact .raise _ _
  · next x y rest =>
    refine (traced_argument e hev hargs.1).bind fun d hd => ?_
    have hpointer := (Datum.traced_unshared d).mpr hd
    split
    · next f curried heq =>
      rw [heq, Datum.Traced] at hpointer
      refine (Run.Traced.mapM fun z hz => traced_captured e hev
        (List.forall_mem_cons.mpr hargs.2 z hz)).bind fun captures hcaptures => .pure ?_
      simp only [isTraced_datum, Datum.Traced, List.forall_mem_append]
      exact ⟨hpointer, hcaptures⟩
    · exact .raise _ _
  · refine (traced_captured e hev hargs.1).bind fun c _ => ?_
    split <;> exact .pure (by simp)
  · exact (traced_argument e hev hargs.1).bind fun d _ => (traced_textArgument d _).bind
      fun v _ => Run.Traced.machine.bind fun m _ => .pure (by simp)
  · refine (traced_argument e hev hargs.1).bind fun d _ => (traced_textArgument d _).bind
      fun f _ => (traced_argument e hev hargs.2.1).bind fun d _ => ?_
    split
    · exact .pure (by simp)
    · exact traced_mismatch _ _ _
  · exact (traced_argument e hev hargs.1).bind fun d _ => (traced_textArgument d _).bind
      fun text _ => (traced_evaluateText e hev text _).mapFault fun f hf => by simpa using hf
  · exact traced_callNamed he hev _ hargs inScope pos

/-! ## Operators -/

theorem traced_operatorRule (he : e.Traced o) (hev : ev.Traced o) (symbol : String)
    {operands : List Expr} (hoperands : ∀ x ∈ operands, x.Traced o) (pos : Position) :
    (operatorRule e ev symbol operands pos).Traced o := by
  unfold operatorRule
  split
  · next x =>
    refine (traced_argument e hev (hoperands x List.mem_cons_self)).bind fun d hd => ?_
    split
    · next r hr =>
      exact traced_ofResult (fun v hv => Operator.traced_unary? symbol _ v (hv ▸ hr)) pos
    · exact traced_callValues he hev symbol (by simpa using hd) false pos
  · next x y =>
    simp only [List.forall_mem_cons] at hoperands
    refine (traced_argument e hev hoperands.1).bind fun a ha =>
      (traced_argument e hev hoperands.2.1).bind fun b hb => ?_
    have hboth : ∀ d ∈ [a, b], d.Traced o := by simpa using ⟨ha, hb⟩
    split
    · next r hr =>
      exact (traced_ofResult (fun v hv => Operator.traced_binary? symbol _ _ v (hv ▸ hr)) pos).bind
        fun d hd => (traced_checkSize e d pos).bind fun _ _ => .pure hd
    · split <;> exact traced_callValues he hev _ hboth false pos
  · exact .pure (by simp)

/-! ## Literals and truth values -/

theorem traced_interpolatedRule (e : Engine ω) (hev : ev.Traced o) {segments : List Expr}
    (hsegments : ∀ x ∈ segments, x.Traced o) (text : String) :
    (interpolatedRule e ev segments text).Traced o := by
  induction segments generalizing text with
  | nil => exact .pure (by simp)
  | cons x rest ih =>
    obtain ⟨hx, hrest⟩ := List.forall_mem_cons.mp hsegments
    exact (hev.expression x hx).bind fun d _ => (traced_checkSize e _ _).bind
      fun _ _ => ih hrest _

theorem traced_arrayRule (e : Engine ω) (hev : ev.Traced o) {items : List Expr}
    (hitems : ∀ x ∈ items, x.Traced o) {reversed : List Datum}
    (hreversed : ∀ d ∈ reversed, d.Traced o) : (arrayRule e ev items reversed).Traced o := by
  induction items generalizing reversed with
  | nil => exact .pure (by simpa using hreversed)
  | cons x rest ih =>
    obtain ⟨hx, hrest⟩ := List.forall_mem_cons.mp hitems
    refine (hev.expression x hx).bind fun d hd => (traced_checkSize e _ _).bind
      fun _ _ => ih hrest (List.forall_mem_cons.mpr ⟨?_, hreversed⟩)
    simpa using hd

theorem traced_mapRule (e : Engine ω) (hev : ev.Traced o) {exprs : List (String × Expr)}
    (hexprs : ∀ p ∈ exprs, p.2.Traced o) {fields : List (String × Datum)}
    (hfields : ∀ p ∈ fields, p.2.Traced o) : (mapRule e ev exprs fields).Traced o := by
  induction exprs generalizing fields with
  | nil =>
    refine .pure ?_
    rwa [isTraced_datum, Datum.Traced]
  | cons p rest ih =>
    obtain ⟨k, x⟩ := p
    obtain ⟨hx, hrest⟩ := List.forall_mem_cons.mp hexprs
    refine (hev.expression x hx).bind fun d hd => (traced_checkSize e _ _).bind
      fun _ _ => ih hrest fun p hp => ?_
    rcases Fields.mem_insert hp with rfl | hp
    · simpa using hd
    · exact hfields p hp

theorem traced_allRule (hev : ev.Traced o) (value : Bool) {operands : List Expr}
    (hoperands : ∀ x ∈ operands, x.Traced o) : (allRule ev value operands).Traced o := by
  induction operands with
  | nil => exact .pure trivial
  | cons x rest ih =>
    obtain ⟨hx, hrest⟩ := List.forall_mem_cons.mp hoperands
    exact (hev.expression x hx).bind fun d _ => (traced_asBool d _).bind fun b _ =>
      .ite (ih hrest) (.pure trivial)

theorem traced_coalesceRule (hev : ev.Traced o) {operands : List Expr}
    (hoperands : ∀ x ∈ operands, x.Traced o) : (coalesceRule ev operands).Traced o := by
  induction operands with
  | nil => exact .pure (by simp)
  | cons x rest ih =>
    obtain ⟨hx, hrest⟩ := List.forall_mem_cons.mp hoperands
    exact (hev.expression x hx).bind fun d hd => .ite (ih hrest) (.pure hd)

/-! ## Paths -/

theorem traced_stepOf (e : Engine ω) (hev : ev.Traced o) {link : Link} (hlink : link.Traced o) :
    (stepOf e ev link).Traced o := by
  unfold stepOf
  split
  all_goals simp only [Link.Traced] at hlink
  · exact .pure (by simp)
  · exact (traced_arguments e hev hlink).bind fun values hvalues =>
      .pure ⟨trivial, by simpa using hvalues⟩
  · exact (hev.expression _ hlink).bind fun d hd => .pure ⟨trivial, by simpa using hd⟩

theorem traced_pathOf (e : Engine ω) (hev : ev.Traced o) {links : List Link}
    (hlinks : ∀ l ∈ links, l.Traced o) : (pathOf e ev links).Traced o := by
  induction links with
  | nil => exact .pure (by simp)
  | cons link rest ih =>
    obtain ⟨hlink, hrest⟩ := List.forall_mem_cons.mp hlinks
    exact (traced_tick e _).bind fun _ _ => (traced_stepOf e hev hlink).bind fun s hs =>
      (ih hrest).bind fun steps hsteps => .pure (List.forall_mem_cons.mpr ⟨hs, hsteps⟩)

theorem traced_simpleStep? {link : Link} (hlink : link.Traced o) {s : Bool × Step}
    (hs : simpleStep? link = some s) : IsTraced o s := by
  unfold simpleStep? at hs
  split at hs
  · cases hs
    simp
  · cases hs
    simp
  · next key _ _ =>
    obtain ⟨d, hd, rfl⟩ := Option.map_eq_some_iff.mp hs
    rw [Link.Traced] at hlink
    simpa using Expr.traced_constant? key hlink d hd
  · cases hs

theorem traced_path (e : Engine ω) (hev : ev.Traced o) {links : List Link}
    (hlinks : ∀ l ∈ links, l.Traced o) : (path e ev links).Traced o := by
  unfold path
  split
  · next link =>
    split
    · next s hs =>
      refine .pure (List.forall_mem_singleton.mpr ?_)
      exact traced_simpleStep? (hlinks link List.mem_cons_self) hs
    · exact traced_pathOf e hev hlinks
  · exact traced_pathOf e hev hlinks

theorem traced_onVariable {α : Type} [Traceable α] (e : Engine ω) (name : String) (known : Bool)
    (pos : Position) {run : Access → Focus ω α} (hrun : ∀ access, (run access).Traced o) :
    (onVariable e name known pos run).Traced o := by
  unfold onVariable
  refine (traced_variableValue e name known pos).bind fun d hd =>
    .ite (.focusLost hd (hrun .copy)) fun m hm => ?_
  exact Run.Traced.focus hd (hrun _) (fun _ _ hd hm => hm.setVariable hd name) m hm

theorem traced_onSelf {α : Type} [Traceable α] (pos : Position) {run : Access → Focus ω α}
    (hrun : ∀ access, (run access).Traced o) : (onSelf pos run).Traced o :=
  (traced_selfValue pos).bind fun _ hd => .focus hd (hrun .place)
    fun _ _ hd hm => ⟨hm.locals, by simpa using hd, hm.cells, hm.log⟩

theorem traced_chainRule (he : e.Traced o) (hev : ev.Traced o) {root : Expr}
    (hroot : root.Traced o) {links : List Link} (hlinks : ∀ l ∈ links, l.Traced o) :
    (chainRule e ev root links).Traced o := by
  unfold chainRule
  refine (traced_path e hev hlinks).bind fun steps hsteps => ?_
  have hfollow (access : Access) := traced_follow he hev hsteps access
  split
  · refine (traced_tick e _).bind fun _ _ => Run.Traced.machine.bind fun m _ => ?_
    split
    · exact .pure (by simp)
    · exact (traced_onVariable e _ _ _ hfollow).placed _
  · exact (traced_tick e _).bind fun _ _ => (traced_onSelf _ hfollow).placed _
  · exact (hev.expression _ hroot).bind fun d hd =>
      (Run.Traced.focusLost ((Datum.traced_unshared d).mpr hd) (hfollow .copy)).placed _

/-! ## The value of an expression -/

theorem traced_valueRule (he : e.Traced o) (hev : ev.Traced o) {x : Expr} (hx : x.Traced o) :
    (valueRule e ev x).Traced o := by
  unfold valueRule
  split
  all_goals try simp only [Expr.Traced] at hx
  · exact .pure hx
  · exact traced_interpolatedRule e hev hx ""
  · exact traced_arrayRule e hev hx (by simp)
  · exact traced_mapRule e hev hx (by simp)
  · exact traced_variableValue e _ _ _
  · exact traced_selfValue _
  · exact traced_callRule he hev _ hx _ _
  · exact traced_operatorRule he hev _ hx _
  · exact (traced_allRule hev true hx).bind fun b _ => .pure (by simp)
  · exact (traced_allRule hev false hx).bind fun b _ => .pure (by simp)
  · exact traced_coalesceRule hev hx
  · exact traced_block hev hx
  · exact traced_chainRule he hev hx.1 hx.2

/-- The value of a traced expression is traced. -/
theorem traced_expressionRule (he : e.Traced o) (hev : ev.Traced o) {x : Expr}
    (hx : x.Traced o) : (expressionRule e ev x).Traced o :=
  (traced_tick e _).bind fun _ _ => traced_valueRule he hev hx

end ScriptHost.Script.Evaluation
