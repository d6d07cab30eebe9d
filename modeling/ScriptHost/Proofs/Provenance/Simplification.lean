import ScriptHost.Proofs.Provenance.Library
import ScriptHost.Proofs.Provenance.Syntax
import ScriptHost.Script.Simplification

/-!
# Simplification keeps to an origin

What simplification puts in the place of expressions and statements is made of their parts, of plain
values and of values of operators, and so makes no failures.
-/

namespace ScriptHost.Script

variable {o : Origin}

/-! ## Passes -/

/-- All failures in values that are known come from an origin. -/
structure Progress.Traced (o : Origin) (p : Progress) : Prop where
  /-- Those of the constants in sight do. -/
  known : ∀ v ∈ p.known, ∀ d ∈ v.2, d.Traced o

/-- A pass gives traced data, and what it knows is traced. -/
def Pass.Traced {α : Type} [Traceable α] (o : Origin) (r : Pass α) : Prop :=
  ∀ p, p.Traced o → IsTraced o (r p).1 ∧ (r p).2.Traced o

instance : Traceable Progress := ⟨Progress.Traced⟩

@[simp, grind =] theorem isTraced_progress (p : Progress) : IsTraced o p ↔ p.Traced o := .rfl

namespace Pass.Traced

variable {α β : Type} [Traceable α] [Traceable β] {r : Pass α} {f : α → Pass β}

@[grind ←]
theorem pure {a : α} (ha : IsTraced o a) : Traced o (Pure.pure a : Pass α) := fun _ hp => ⟨ha, hp⟩

@[grind ←]
theorem bind (hr : r.Traced o) (hf : ∀ a, IsTraced o a → (f a).Traced o) :
    Traced o (r >>= f) := fun p hp => hf _ (hr p hp).1 _ (hr p hp).2

theorem get : Traced o (MonadState.get : Pass Progress) := fun _ hp => ⟨hp, hp⟩

theorem update {g : Progress → Progress} (hg : ∀ p, p.Traced o → (g p).Traced o) :
    Traced o (modify g : Pass Unit) := fun p hp => ⟨trivial, hg p hp⟩

theorem mapM {γ : Type} {g : γ → Pass α} {cs : List γ} (hg : ∀ c ∈ cs, (g c).Traced o) :
    Traced o (cs.mapM g) := by
  induction cs with
  | nil => exact pure (by simp)
  | cons c cs ih =>
    rw [List.mapM_cons]
    exact (hg c List.mem_cons_self).bind fun a ha =>
      (ih fun c' hc' => hg c' (List.mem_cons_of_mem c hc')).bind fun as has =>
        pure (List.forall_mem_cons.mpr ⟨ha, has⟩)

theorem optionMapM {γ : Type} {g : γ → Pass α} {x : Option γ} (hg : ∀ c ∈ x, (g c).Traced o) :
    Traced o (x.mapM g) := by
  cases x with
  | none => exact pure (by simp)
  | some c => exact (hg c rfl).bind fun a ha => pure (by simpa using ha)

end Pass.Traced

/-- Passes over traced parts of a script give traced parts. -/
structure Simplifier.Traced (o : Origin) (s : Simplifier) : Prop where
  /-- Expressions do. -/
  expression : ∀ e, e.Traced o → (s.expression e).Traced o
  /-- Statements do. -/
  statement : ∀ keepsValue stmt, stmt.Traced o → (s.statement keepsValue stmt).Traced o
  /-- Blocks do. -/
  body : ∀ purpose body, (∀ x ∈ body, x.Traced o) → (s.body purpose body).Traced o

attribute [grind ←] Simplifier.Traced.expression Simplifier.Traced.statement
  Simplifier.Traced.body

namespace Simplification

variable {s : Simplifier}

theorem traced_changed {α : Type} [Traceable α] {a : α} (ha : IsTraced o a) :
    (changed a).Traced o := by
  unfold changed
  refine Pass.Traced.bind (.update fun p hp => ?_) fun _ _ => .pure ha
  exact ⟨hp.known⟩

theorem traced_declare (name : String) {value : Option Datum} (hvalue : IsTraced o value) :
    (declare name value).Traced o :=
  Pass.Traced.update fun _ hp => ⟨List.forall_mem_cons.mpr ⟨hvalue, hp.known⟩⟩

theorem traced_constantOf? {p : Progress} (hp : p.Traced o) {name : String} {d : Datum}
    (hd : constantOf? name p = some d) : d.Traced o := by
  obtain ⟨v, hv, hvalue⟩ := Option.bind_eq_some_iff.mp hd
  exact hp.known v (List.mem_of_find?_eq_some hv) d hvalue

theorem traced_settled {x : Expr} (hx : x.Traced o) : (settled x).Traced o := by
  unfold settled
  split
  · exact .pure hx
  · split
    · next d hd => exact traced_changed (by simpa using Expr.traced_value? hx hd)
    · exact .pure hx

@[grind ←]
theorem traced_arguments (hs : s.Traced o) {args : List Expr} (hargs : ∀ x ∈ args, x.Traced o) :
    (arguments s args).Traced o :=
  (Pass.Traced.mapM fun x hx => hs.expression x (hargs x hx)).bind fun _ hxs =>
    .mapM fun x hx => traced_settled (hxs x hx)

/-! ## Expressions -/

theorem traced_joinedSegments {xs : List Expr} (hxs : ∀ x ∈ xs, x.Traced o) :
    ∀ x ∈ (joinedSegments xs).1, x.Traced o := by
  induction xs with
  | nil => simp [joinedSegments]
  | cons x rest ih =>
    obtain ⟨hx, hrest⟩ := List.forall_mem_cons.mp hxs
    have hothers := ih hrest
    rw [joinedSegments]
    generalize joinedSegments rest = joined at hothers
    obtain ⟨others, hasChanged⟩ := joined
    dsimp only
    split <;> simp_all

theorem traced_interpolatedRule (hs : s.Traced o) {segments : List Expr}
    (hsegments : ∀ x ∈ segments, x.Traced o) (pos : Position) :
    (interpolatedRule s segments pos).Traced o := by
  unfold interpolatedRule
  split
  · next d hd =>
    exact traced_changed (by simpa using Expr.traced_constant? _ (by simpa using hsegments) d hd)
  · refine (Pass.Traced.mapM fun x hx => hs.expression x (hsegments x hx)).bind fun xs hxs => ?_
    have hjoined := traced_joinedSegments hxs
    dsimp only
    split
    · exact traced_changed (by simpa using hjoined)
    · exact .pure (by simpa using hjoined)

theorem mem_of_mem_upTo {isLast : Expr → Bool} {x : Expr} {xs : List Expr}
    (hx : x ∈ upTo isLast xs) : x ∈ xs := by
  induction xs with
  | nil => exact hx
  | cons y rest ih =>
    rw [upTo] at hx
    split at hx <;> grind

theorem traced_decided (hs : s.Traced o) {operands : List Expr}
    (hoperands : ∀ x ∈ operands, x.Traced o) (isIdle decides : Expr → Bool) {none : Expr}
    (hnone : none.Traced o) {rebuild : List Expr → Expr}
    (hrebuild : ∀ xs, (∀ x ∈ xs, x.Traced o) → (rebuild xs).Traced o) :
    (decided s operands isIdle decides none rebuild).Traced o := by
  unfold decided
  refine (Pass.Traced.mapM fun x hx => hs.expression x (hoperands x hx)).bind fun xs hxs => ?_
  have hleft : ∀ x ∈ upTo decides (xs.filter (!isIdle ·)), x.Traced o := fun x hx =>
    hxs x (List.mem_of_mem_filter (mem_of_mem_upTo hx))
  dsimp only
  generalize upTo decides (xs.filter (!isIdle ·)) = left at hleft
  split
  · exact traced_changed hnone
  · exact traced_changed (hleft _ List.mem_cons_self)
  · split
    · exact traced_changed (hrebuild _ hleft)
    · exact .pure (hrebuild _ hleft)

theorem traced_partOfLiteral? {root : Expr} (hroot : root.Traced o) (link : Link) :
    ∀ x ∈ partOfLiteral? root link, x.Traced o := by
  have hfield {fields : List (String × Expr)} (hfields : ∀ p ∈ fields, p.2.Traced o)
      (pos : Position) (name : String) :
      ∀ x ∈ partOfLiteral?.field? fields pos name, x.Traced o := by
    unfold partOfLiteral?.field?
    intro x hx
    split at hx
    · cases hx
      split
      · next y hy => simpa using hfields _ (List.mem_of_find?_eq_some hy)
      · simp
    · cases hx
  unfold partOfLiteral?
  split
  · exact hfield (by simpa using hroot) _ _
  · exact hfield (by simpa using hroot) _ _
  · next _ _ items _ _ _ _ _ =>
    have hitems : ∀ x ∈ items, x.Traced o := by simpa using hroot
    split
    · intro x hx
      obtain ⟨n, -, hx⟩ := Option.bind_eq_some_iff.mp hx
      obtain ⟨y, hy, rfl⟩ := Option.map_eq_some_iff.mp hx
      simpa using hitems y (List.mem_of_getElem? hy)
    · simp
  · simp
  · intro x hx
    obtain ⟨n, -, hx⟩ := Option.bind_eq_some_iff.mp hx
    obtain ⟨c, -, rfl⟩ := Option.map_eq_some_iff.mp hx
    simp
  · simp
  · simp
  · simp

theorem traced_linkRule (hs : s.Traced o) {link : Link} (hlink : link.Traced o) :
    (linkRule s link).Traced o := by
  unfold linkRule
  split <;> grind

theorem traced_chainRule (hs : s.Traced o) {root : Expr} (hroot : root.Traced o)
    {links : List Link} (hlinks : ∀ l ∈ links, l.Traced o) :
    (chainRule s root links).Traced o := by
  have hlinked : (links.mapM (linkRule s)).Traced o :=
    .mapM fun l hl => traced_linkRule hs (hlinks l hl)
  have hchain {root' : Expr} (hroot' : root'.Traced o) {links' : List Link}
      (hlinks' : ∀ l ∈ links', l.Traced o) : IsTraced o (root'.chain links') := by
    simpa using ⟨hroot', hlinks'⟩
  unfold chainRule
  dsimp only
  split
  · split
    · exact traced_changed hroot
    · split
      · next x hx => exact traced_changed (traced_partOfLiteral? hroot _ _ hx)
      · split
        · exact hlinked.bind fun _ hls => .pure (hchain hroot hls)
        · exact hlinked.bind fun _ hls => .pure (hchain hroot hls)
        · exact (hs.expression _ hroot).bind fun _ hx =>
            hlinked.bind fun _ hls => .pure (hchain hx hls)
  · split
    · exact hlinked.bind fun _ hls => .pure (hchain hroot hls)
    · exact hlinked.bind fun _ hls => .pure (hchain hroot hls)
    · exact (hs.expression _ hroot).bind fun _ hx =>
        hlinked.bind fun _ hls => .pure (hchain hx hls)

/-- Values that are all there are the values of a list. -/
theorem mem_of_mapM_id {xs : List (Option Datum)} {ds : List Datum} (h : xs.mapM id = some ds) :
    ∀ d ∈ ds, some d ∈ xs := by
  induction xs generalizing ds with
  | nil =>
    cases h
    simp
  | cons x xs ih =>
    rw [List.mapM_cons] at h
    obtain ⟨d, hd, h⟩ := Option.bind_eq_some_iff.mp h
    obtain ⟨rest, hrest, h⟩ := Option.bind_eq_some_iff.mp h
    cases h
    refine List.forall_mem_cons.mpr ⟨?_, fun e he => List.mem_cons_of_mem x (ih hrest e he)⟩
    rw [← hd]
    exact List.mem_cons_self

theorem traced_constantCall? {name : String} {args : List Expr} (hargs : ∀ x ∈ args, x.Traced o) :
    ∀ d ∈ constantCall? name args, d.Traced o := by
  have hvalues : ∀ d, some d ∈ args.map Expr.constant? → d.Traced o := by
    intro d hd
    obtain ⟨x, hx, hvalue⟩ := List.mem_map.mp hd
    exact Expr.traced_constant? x (hargs x hx) d hvalue
  unfold constantCall?
  intro d hd
  split at hd
  · split at hd <;> cases hd
    simp
  · cases hd
    simp
  · cases hd
    simp
  · next f curried y rest heq =>
    obtain ⟨ds, hds, rfl⟩ := Option.map_eq_some_iff.mp hd
    have hcurried : ∀ c ∈ curried, c.Traced o := by
      simpa using hvalues (.fnPtr f curried) (heq ▸ List.mem_cons_self)
    have hrest : ∀ e ∈ ds, e.Traced o := fun e he =>
      hvalues e (heq ▸ List.mem_cons_of_mem _ (mem_of_mapM_id hds e he))
    simp only [Datum.Traced, List.mem_append, List.mem_map]
    rintro c (hc | ⟨e, he, rfl⟩)
    · exact hcurried c hc
    · simpa using hrest e he
  · cases hd

theorem traced_callRule (hs : s.Traced o) (name : String) {args : List Expr}
    (hargs : ∀ x ∈ args, x.Traced o) (inScope : Bool) (pos : Position) :
    (callRule s name args inScope pos).Traced o := by
  have hcall {args' : List Expr} (hargs' : ∀ x ∈ args', x.Traced o) :
      IsTraced o (Expr.call name args' inScope pos) := by
    simpa using hargs'
  unfold callRule
  split
  · refine Pass.Traced.bind (.update fun p hp => ?_) fun _ _ => .pure (hcall hargs)
    exact ⟨hp.known⟩
  · split
    · next d hd => exact traced_changed (by simpa using traced_constantCall? hargs d hd)
    · split
      · exact (Pass.Traced.mapM fun x hx => hs.expression x (hargs x hx)).bind
          fun _ hxs => .pure (hcall hxs)
      · exact (traced_arguments hs hargs).bind fun _ hxs => .pure (hcall hxs)

theorem traced_operatorRule (hs : s.Traced o) (symbol : String) {operands : List Expr}
    (hoperands : ∀ x ∈ operands, x.Traced o) (pos : Position) :
    (operatorRule s symbol operands pos).Traced o := by
  have hrest : Pass.Traced o (do
      return Expr.operator symbol (← arguments s operands) pos) :=
    (traced_arguments hs hoperands).bind fun _ hxs => .pure (by simpa using hxs)
  unfold operatorRule
  split
  · next a b _ =>
    split
    · next d hd =>
      exact traced_changed (by simpa using Operator.traced_binary? symbol a b d hd)
    · exact hrest
  · exact hrest

/-- Simplifying an expression makes no failures. -/
theorem traced_expressionRule (hs : s.Traced o) {x : Expr} (hx : x.Traced o) :
    (expressionRule s x).Traced o := by
  unfold expressionRule
  split
  · exact traced_changed (by simp)
  · next e _ =>
    have he : e.Traced o := by simpa using hx
    exact (hs.expression e he).bind fun _ he' => traced_changed he'
  · next body pos _ _ =>
    refine (hs.body _ body (by simpa using hx)).bind fun body' hbody' => ?_
    split
    · exact traced_changed (by simpa using hbody')
    · exact .pure (by simpa using hbody')
  · next root links =>
    obtain ⟨hroot, hlinks⟩ : root.Traced o ∧ ∀ l ∈ links, l.Traced o := by simpa using hx
    exact traced_chainRule hs hroot hlinks
  · exact traced_interpolatedRule hs (by simpa using hx) _
  · next items pos =>
    have hitems : ∀ e ∈ items, e.Traced o := by simpa using hx
    split
    · next d hd => exact traced_changed (by simpa using Expr.traced_constant? _ hx d hd)
    · exact (Pass.Traced.mapM fun e he => hs.expression e (hitems e he)).bind
        fun _ hxs => .pure (by simpa using hxs)
  · next fields pos =>
    have hfields : ∀ p ∈ fields, p.2.Traced o := by simpa using hx
    split
    · next d hd => exact traced_changed (by simpa using Expr.traced_constant? _ hx d hd)
    · refine (Pass.Traced.mapM fun p hp => (hs.expression p.2 (hfields p hp)).bind
        fun e he => .pure (a := (p.1, e)) ⟨trivial, he⟩).bind fun _ hxs => .pure ?_
      simpa using hxs
  · exact traced_decided hs (by simpa using hx) _ _ (by simp) fun _ hxs => by simpa using hxs
  · exact traced_decided hs (by simpa using hx) _ _ (by simp) fun _ hxs => by simpa using hxs
  · exact traced_decided hs (by simpa using hx) _ _ (by simp) fun _ hxs => by simpa using hxs
  · exact traced_callRule hs _ (by simpa using hx) _ _
  · exact traced_operatorRule hs _ (by simpa using hx) _
  · refine Pass.Traced.get.bind fun p hp => ?_
    split
    · next d hd =>
      split
      · exact traced_changed (by simpa using traced_constantOf? hp hd)
      · exact .pure hx
    · exact .pure hx
  · exact .pure hx

/-! ## Statements -/

mutual

theorem traced_flattened : (body : List Stmt) → (∀ x ∈ body, x.Traced o) →
    ∀ x ∈ flattened body, x.Traced o
  | [], _ => by simp [flattened]
  | stmt :: rest, h => by
    obtain ⟨hstmt, hrest⟩ := List.forall_mem_cons.mp h
    rw [flattened]
    exact List.forall_mem_append.mpr
      ⟨traced_flattenedStmt stmt hstmt, traced_flattened rest hrest⟩

theorem traced_flattenedStmt : (stmt : Stmt) → stmt.Traced o →
    ∀ x ∈ flattenedStmt stmt, x.Traced o
  | .block body pos, h => by
    rw [flattenedStmt]
    split
    · simpa using h
    · exact traced_flattened body (by simpa using h)
  | .expr _, h | .callOnly _, h | .declare .., h | .useModule .., h | .assign .., h
  | .choose .., h | .select .., h | .whileLoop .., h | .doLoop .., h | .forLoop .., h
  | .leave .., h | .ret .., h | .throw .., h | .guarded .., h | .noop _, h | .next _, h
  | .release .., h | .share _, h => by
    simp only [flattenedStmt]
    exact List.forall_mem_singleton.mpr h

end

theorem mem_of_mem_reached {x : Stmt} {body : List Stmt} (hx : x ∈ reached body) : x ∈ body := by
  induction body with
  | nil => exact hx
  | cons stmt rest ih =>
    rw [reached] at hx
    split at hx <;> grind

theorem mem_of_mem_withoutPure {isPure : Stmt → Bool} {keepsValue : Bool} {x : Stmt}
    {body : List Stmt} {index anchor : ℕ}
    (hx : x ∈ withoutPure isPure keepsValue index anchor body) : x ∈ body := by
  induction body generalizing index anchor with
  | nil => simp [withoutPure] at hx
  | cons stmt rest ih =>
    rw [withoutPure] at hx
    split at hx
    · grind
    · split at hx
      · exact List.mem_cons_of_mem stmt (ih hx)
      · split at hx
        · exact List.mem_cons_of_mem stmt (ih hx)
        · rcases List.mem_cons.mp hx with rfl | hx
          · exact List.mem_cons_self
          · exact List.mem_cons_of_mem stmt (ih hx)

theorem traced_endedWithValue (isPure : Stmt → Bool) (endsFunction : Bool) {bound : ℕ}
    {body : List Stmt} (hbody : ∀ x ∈ body, x.Traced o) :
    ∀ x ∈ endedWithValue isPure endsFunction bound body, x.Traced o := by
  induction bound generalizing body with
  | zero => exact hbody
  | succ n ih =>
    unfold endedWithValue
    split
    · simp
    · next value pos rest =>
      split
      · split
        · simp
        · split
          · exact ih (by simp_all)
          · exact ih (by simp_all)
        · exact ih (by simp_all)
      · exact hbody
    · split
      · simp
      · exact hbody
    · split
      · exact hbody
      · split
        · split
          · simp_all
          · exact ih (by simp_all)
        · exact hbody

theorem mem_of_mem_endedWithout {isPure : Stmt → Bool} {endsFunction : Bool} {x : Stmt}
    {body : List Stmt} (hx : x ∈ endedWithout isPure endsFunction body) : x ∈ body := by
  induction body with
  | nil => simp [endedWithout] at hx
  | cons stmt rest ih =>
    unfold endedWithout at hx
    split at hx
    · contradiction
    · dsimp only at hx
      split at hx <;> grind
    · split at hx <;> grind

theorem traced_needed (purpose : Purpose) {body : List Stmt} (hbody : ∀ x ∈ body, x.Traced o) :
    ∀ x ∈ needed purpose body, x.Traced o := fun x hx => hbody x (mem_of_mem_withoutPure hx)

theorem traced_ended (purpose : Purpose) {body : List Stmt} (hbody : ∀ x ∈ body, x.Traced o) :
    ∀ x ∈ ended purpose body, x.Traced o := by
  have hreverse : ∀ x ∈ body.reverse, x.Traced o := fun x hx => hbody x (List.mem_reverse.mp hx)
  unfold ended
  dsimp only
  split
  · exact fun x hx => traced_endedWithValue _ _ hreverse x (List.mem_reverse.mp hx)
  · exact fun x hx => hreverse x (mem_of_mem_endedWithout (List.mem_reverse.mp hx))

theorem traced_eachStatement (hs : s.Traced o) (keepsValue : Bool) {body : List Stmt}
    (hbody : ∀ x ∈ body, x.Traced o) : (eachStatement s keepsValue body).Traced o := by
  induction body with
  | nil => exact .pure (by simp)
  | cons stmt rest ih =>
    obtain ⟨hstmt, hrest⟩ := List.forall_mem_cons.mp hbody
    have hnext {stmt' : Stmt} (hstmt' : stmt'.Traced o) : Pass.Traced o (do
        return stmt' :: (← eachStatement s keepsValue rest)) :=
      (ih hrest).bind fun _ hxs => .pure (List.forall_mem_cons.mpr ⟨hstmt', hxs⟩)
    unfold eachStatement
    split
    · next name isConstant replaces value pos =>
      have hvalue : value.Traced o := by simpa using hstmt
      refine (hs.expression value hvalue).bind fun e he =>
        (traced_declare name ?_).bind fun _ _ => hnext (by simpa using he)
      split
      · exact fun d hd => Expr.traced_constant? e he d hd
      · simp
    · exact (hs.statement _ stmt hstmt).bind fun _ hstmt' => hnext hstmt'

theorem traced_round (hs : s.Traced o) (purpose : Purpose) {body : List Stmt}
    (hbody : ∀ x ∈ body, x.Traced o) : (round s purpose body).Traced o := by
  unfold round
  refine Pass.Traced.get.bind fun before hbefore => (traced_eachStatement hs _ fun x hx =>
    hbody x (mem_of_mem_reached hx)).bind fun body' hbody' => ?_
  refine Pass.Traced.bind (.update fun p hp => ?_) fun _ _ =>
    .pure (traced_ended purpose (traced_needed purpose hbody'))
  exact ⟨hbefore.known⟩

theorem traced_repeatedly {step : List Stmt → Pass (List Stmt)}
    (hstep : ∀ body, (∀ x ∈ body, x.Traced o) → (step body).Traced o) {n : ℕ} {body : List Stmt}
    (hbody : ∀ x ∈ body, x.Traced o) : (repeatedly step n body).Traced o := by
  induction n generalizing body with
  | zero => exact .pure hbody
  | succ n ih =>
    rw [repeatedly]
    refine Pass.Traced.bind (.update fun p hp => ?_) fun _ _ =>
      (hstep body hbody).bind fun body' hbody' => Pass.Traced.get.bind fun p _ => ?_
    · exact ⟨hp.known⟩
    · split
      · exact (ih hbody').bind fun _ hxs => traced_changed hxs
      · exact .pure hbody'

/-- Simplifying statements makes no failures. -/
theorem traced_bodyRule (hs : s.Traced o) (purpose : Purpose) {body : List Stmt}
    (hbody : ∀ x ∈ body, x.Traced o) : (bodyRule s purpose body).Traced o := by
  unfold bodyRule
  split
  · exact .pure (by simp)
  · refine Pass.Traced.get.bind fun before _ => (traced_repeatedly
      (fun _ h => traced_round hs purpose h) (traced_flattened body hbody)).bind
      fun body' hbody' => .bind (.update fun p hp => ?_) fun _ _ => .pure hbody'
    exact ⟨hp.known⟩

/-! ## Choices -/

theorem traced_branch (hs : s.Traced o) (keepsValue : Bool) {body : List Stmt}
    (hbody : ∀ x ∈ body, x.Traced o) (pos : Position) :
    (branch s keepsValue body pos).Traced o := by
  unfold branch
  refine (hs.body _ body hbody).bind fun body' hbody' => ?_
  split
  · exact traced_changed (by simp)
  · exact traced_changed (by simpa using hbody')

theorem traced_chooseRule (hs : s.Traced o) (keepsValue : Bool) {condition : Expr}
    (hcondition : condition.Traced o) {body other : List Stmt} (hbody : ∀ x ∈ body, x.Traced o)
    (hother : ∀ x ∈ other, x.Traced o) (bodyPos otherPos pos : Position) :
    (chooseRule s keepsValue condition body bodyPos other otherPos pos).Traced o := by
  unfold chooseRule
  split
  · refine (hs.expression _ hcondition).bind fun e he => ?_
    split
    · exact traced_changed (by simpa using he)
    · exact traced_changed (by simpa using he)
  · split
    · split
      · exact traced_changed (by simp)
      · exact traced_branch hs _ hother _
    · exact traced_branch hs _ hbody _
    · exact (hs.expression _ hcondition).bind fun e he => (hs.body _ body hbody).bind fun b hb =>
        (hs.body _ other hother).bind fun b' hb' => .pure (by simpa using ⟨he, hb, hb'⟩)

theorem traced_taken (hs : s.Traced o) {action : Expr} (haction : action.Traced o) :
    (taken s action).Traced o :=
  (hs.statement _ _ (by simpa using haction)).bind fun _ hstmt => traced_changed hstmt

theorem traced_defaultBody (hs : s.Traced o) {otherwise : Option Expr}
    (h : IsTraced o otherwise) : (defaultBody s otherwise).Traced o := by
  cases otherwise with
  | none => exact .pure (by simp)
  | some action =>
    exact (hs.statement _ _ (by simpa using h)).bind fun stmt hstmt =>
      .pure ⟨stmt.traced_asBlock hstmt, trivial⟩

theorem traced_perhapsTaken (hs : s.Traced o) {c : Case} (hc : c.Traced o)
    {otherwise : Option Expr} (h : IsTraced o otherwise) (pos : Position) :
    (perhapsTaken s c otherwise pos).Traced o := by
  obtain ⟨-, hcondition, haction⟩ := Case.traced_iff.mp hc
  unfold perhapsTaken
  split
  · exact traced_taken hs haction
  · exact (hs.expression _ hcondition).bind fun e he => (traced_defaultBody hs h).bind
      fun b hb => traced_changed (by simpa using ⟨he, haction, hb.1⟩)

theorem mem_of_mem_rangesOf {cases : List Case} {r : Datum × Case} (hr : r ∈ rangesOf cases) :
    r.2 ∈ cases ∧ r.1 ∈ r.2.patterns := by
  obtain ⟨c, hc, hr⟩ := List.mem_flatMap.mp hr
  obtain ⟨d, hd, rfl⟩ := List.mem_map.mp hr
  exact ⟨hc, List.mem_of_mem_filter hd⟩

theorem traced_caseRule (hs : s.Traced o) {c : Case} (hc : c.Traced o) :
    (caseRule s c).Traced o := by
  obtain ⟨hpatterns, hcondition, haction⟩ := Case.traced_iff.mp hc
  unfold caseRule
  refine (hs.expression _ hcondition).bind fun e he => (hs.expression _ haction).bind
    fun a ha => ?_
  split
  · exact traced_changed (by simpa using ⟨hpatterns, he⟩)
  · exact .pure (by simpa using ⟨hpatterns, he, ha⟩)

theorem traced_selectKnown (hs : s.Traced o) {subject : Expr} (hsubject : subject.Traced o)
    (d : Datum) {cases : List Case} (hcases : ∀ c ∈ cases, c.Traced o) {otherwise : Option Expr}
    (h : IsTraced o otherwise) (pos : Position) :
    (selectKnown s subject d cases otherwise pos).Traced o := by
  have hselect {kept : List Case} (hkept : ∀ c ∈ kept, c.Traced o) :
      IsTraced o (Stmt.select subject kept otherwise pos) := by
    simpa using ⟨hsubject, hkept, h⟩
  unfold selectKnown
  extract_lets isSure byDefault ranges found byRange
  have hdefault : byDefault.Traced o := by
    dsimp only [byDefault]
    split
    · exact traced_taken hs (h _ rfl)
    · exact traced_changed (by simp)
  have hranges : ∀ r ∈ (rangesOf cases).filter fun r => Evaluation.inPattern d r.1,
      r.2.Traced o ∧ r.1.Traced o := by
    intro r hr
    obtain ⟨hcase, hpattern⟩ := mem_of_mem_rangesOf (List.mem_of_mem_filter hr)
    exact ⟨hcases r.2 hcase, (Case.traced_iff.mp (hcases r.2 hcase)).1 r.1 hpattern⟩
  split
  · next c hc => 
    exact traced_perhapsTaken hs (hcases c (List.mem_of_mem_filter (hc ▸ List.mem_cons_self))) h _
  · split
    · next c hc =>
      have hmem := List.mem_of_mem_filter (List.mem_of_find?_eq_some hc)
      exact traced_taken hs (Case.traced_iff.mp (hcases c hmem)).2.2
    · dsimp only [byRange, ranges, found]
      split
      · exact hdefault
      · split
        · split
          · next r _ hr =>
            exact traced_perhapsTaken hs (hranges r (hr ▸ List.mem_cons_self)).1 h _
          · exact hdefault
        · refine (Pass.Traced.mapM fun r hr => traced_caseRule hs ?_).bind fun kept hkept => ?_
          · obtain ⟨hcase, hpattern⟩ := hranges r hr
            exact Case.traced_iff.mpr ⟨by simpa [Case.patterns] using hpattern,
              (Case.traced_iff.mp hcase).2⟩
          · split
            · exact traced_changed (hselect hkept)
            · exact .pure (hselect hkept)

theorem traced_selectRule (hs : s.Traced o) {subject : Expr} (hsubject : subject.Traced o)
    {cases : List Case} (hcases : ∀ c ∈ cases, c.Traced o) {otherwise : Option Expr}
    (h : IsTraced o otherwise) (pos : Position) :
    (selectRule s subject cases otherwise pos).Traced o := by
  unfold selectRule
  split
  · exact traced_selectKnown hs hsubject _ hcases h pos
  · refine (hs.expression _ hsubject).bind fun e he => (Pass.Traced.mapM fun c hc =>
      traced_caseRule hs (hcases c hc)).bind fun cases' hcases' => ?_
    refine (Pass.Traced.optionMapM fun x hx => hs.expression x (h x hx)).bind
      fun otherwise' h' => ?_
    have hselect : IsTraced o (Stmt.select e (cases'.filter fun c => !c.condition.isBool false)
        otherwise' pos) := by
      simpa using ⟨he, fun c hc _ => hcases' c hc, h'⟩
    split
    · exact traced_changed hselect
    · exact .pure hselect

/-! ## All statements -/

theorem traced_ofExpression {e : Expr} (he : e.Traced o) : (ofExpression e).Traced o := by
  unfold ofExpression
  split <;> simpa using he

theorem traced_assignRule (hs : s.Traced o) (op : Option String) (opPos : Position)
    {place value : Expr} (hplace : place.Traced o) (hvalue : value.Traced o) :
    (assignRule s op opPos place value).Traced o := by
  have hassign {place' value' : Expr} (hplace' : place'.Traced o) (hvalue' : value'.Traced o)
      (op' : Option String) (pos : Position) : IsTraced o (Stmt.assign op' pos place' value') := by
    simpa using ⟨hplace', hvalue'⟩
  unfold assignRule
  split
  · split
    · exact traced_changed (hassign hplace (by simp_all) _ _)
    · exact (hs.expression _ hvalue).bind fun _ hv => .pure (hassign hplace hv _ _)
  · exact (hs.expression _ hvalue).bind fun _ hv => .pure (hassign hplace hv _ _)
  · exact (hs.expression _ hplace).bind fun _ hp => (hs.expression _ hvalue).bind
      fun _ hv => .pure (hassign hp hv _ _)

/-- Simplifying a statement makes no failures. -/
theorem traced_statementRule (hs : s.Traced o) (keepsValue : Bool) {stmt : Stmt}
    (hstmt : stmt.Traced o) : (statementRule s keepsValue stmt).Traced o := by
  unfold statementRule
  dsimp only
  split
  all_goals try simp only [Stmt.Traced] at hstmt
  · exact traced_assignRule hs _ _ hstmt.1 hstmt.2
  · exact traced_chooseRule hs _ hstmt.1 hstmt.2.1 hstmt.2.2 _ _ _
  · exact traced_selectRule hs hstmt.1 hstmt.2.1 hstmt.2.2 _
  · split
    · exact traced_changed (by simp)
    · refine (hs.expression _ hstmt.1).bind fun e he => (hs.body _ _ hstmt.2).bind
        fun b hb => .pure ?_
      split <;> simp_all
  · exact (hs.expression _ hstmt.1).bind fun e he => (hs.body _ _ hstmt.2).bind
      fun b hb => .pure (by simpa using ⟨he, hb⟩)
  · exact (hs.expression _ hstmt.1).bind fun e he => (hs.body _ _ hstmt.2).bind
      fun b hb => .pure (by simpa using ⟨he, hb⟩)
  · exact (hs.expression _ hstmt).bind fun e he => .pure (by simpa using he)
  · refine (hs.body _ _ hstmt).bind fun b hb => ?_
    split
    · exact traced_changed (by simp)
    · split
      · exact .pure (by simpa using hb)
      · exact traced_changed (hb _ List.mem_cons_self)
    · exact .pure (by simpa using hb)
  · split
    · exact (hs.body _ _ hstmt.1).bind fun b hb => traced_changed (by simpa using hb)
    · exact (hs.body _ _ hstmt.1).bind fun b hb => (hs.body _ _ hstmt.2).bind
        fun b' hb' => .pure (by simpa using ⟨hb, hb'⟩)
  · exact traced_changed (by simp)
  · exact (hs.body _ _ (by simpa using hstmt)).bind fun b hb => traced_changed (by simpa using hb)
  · exact traced_changed (by simpa using hstmt)
  · exact traced_changed (by simpa using hstmt)
  · exact (hs.expression _ hstmt).bind fun e he => .pure (by simpa using he)
  · exact (hs.expression _ hstmt).bind fun e he => .pure (traced_ofExpression he)
  · exact (hs.expression _ (by simpa using hstmt)).bind fun e he => .pure (by simpa using he)
  · exact (hs.expression _ (by simpa using hstmt)).bind fun e he => .pure (by simpa using he)
  · exact (hs.expression _ (by simpa using hstmt)).bind fun e he => .pure (by simpa using he)
  · refine Pass.Traced.get.bind fun p _ => ?_
    split
    · exact traced_changed (by simp)
    · split
      · split
        · exact traced_changed (by simp)
        · exact .pure (by simp)
      · exact .pure (by simp)
  · exact .pure hstmt

end Simplification

/-- All passes make no failures, however deep they refer to each other. -/
theorem Simplifier.traced_within (n : ℕ) : (Simplifier.within n).Traced o := by
  induction n with
  | zero => exact ⟨fun _ h => .pure h, fun _ _ h => .pure h, fun _ _ h => .pure h⟩
  | succ n ih =>
    exact ⟨fun _ h => Simplification.traced_expressionRule ih h,
      fun _ _ h => Simplification.traced_statementRule ih _ h,
      fun _ _ h => Simplification.traced_bodyRule ih _ h⟩

/-- **Simplifying a script makes no failures.** -/
theorem Program.traced_simplified {p : Program} (hp : p.Traced o) : p.simplified.Traced o := by
  have hbody {body : List Stmt} (h : ∀ x ∈ body, x.Traced o) :
      ∀ x ∈ Script.simplified simplificationBound body, x.Traced o :=
    ((Simplifier.traced_within _).body _ body h {} ⟨by simp⟩).1
  refine ⟨hbody hp.body, fun f hf => ?_, hp.closures⟩
  obtain ⟨g, hg, rfl⟩ := List.mem_map.mp hf
  exact hbody (hp.functions g hg)

end ScriptHost.Script
