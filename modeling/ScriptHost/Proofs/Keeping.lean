import Mathlib
import ScriptHost.Proofs.Provenance.Syntax
import ScriptHost.Script.Program

/-!
# What reading keeps

Whatever a rule of the grammar reads, the functions that the text has defined before stay defined,
and the literals that it reads off the text hold no failures of host functions. A parser that is put
together from parsers with this property has it, and so has every rule, by induction on how deep the
rules refer to each other.
-/

namespace ScriptHost.Script

variable {o : Origin}

/-- All failures in the functions so far come from an origin. -/
structure ParserState.Traced (o : Origin) (s : ParserState) : Prop where
  /-- Those in the named functions do. -/
  functions : ∀ f ∈ s.functions, f.Traced o
  /-- Those in the closures do. -/
  closures : ∀ f ∈ s.closures, f.Traced o

section Instances

variable {α β : Type}

instance : Traceable Placed := .plain
instance : Traceable Context := .plain
instance : Traceable Declared := .plain
instance : Traceable ParserState := ⟨ParserState.Traced⟩
instance [Traceable α] [Traceable β] : Traceable (α ⊕ β) :=
  ⟨fun o => Sum.elim (IsTraced o) (IsTraced o)⟩

@[simp, grind =] theorem isTraced_placed (t : Placed) : IsTraced o t ↔ True := .rfl
@[simp, grind =] theorem isTraced_context (c : Context) : IsTraced o c ↔ True := .rfl
@[simp, grind =] theorem isTraced_declared (d : Declared) : IsTraced o d ↔ True := .rfl
@[simp, grind =] theorem isTraced_parserState (s : ParserState) : IsTraced o s ↔ s.Traced o := .rfl
@[simp, grind =] theorem isTraced_inl [Traceable α] [Traceable β] (a : α) :
    IsTraced o (.inl a : α ⊕ β) ↔ IsTraced o a := .rfl
@[simp, grind =] theorem isTraced_inr [Traceable α] [Traceable β] (b : β) :
    IsTraced o (.inr b : α ⊕ β) ↔ IsTraced o b := .rfl

end Instances

/-- A parser reads traced data, and only adds traced functions to those so far. -/
def Parser.Keeps {α : Type} [Traceable α] (o : Origin) (p : Parser α) : Prop :=
  ∀ s a t, s.Traced o → p s = .ok (a, t) →
    IsTraced o a ∧ t.Traced o ∧ s.functions <:+ t.functions

namespace Parser.Keeps

variable {α β σ : Type} [Traceable α] [Traceable β] [Traceable σ] {p : Parser α}
  {f : α → Parser β}

/-- A result without tokens. -/
@[grind ←]
theorem pure {a : α} (ha : IsTraced o a) : Keeps o (Pure.pure a : Parser α) := by
  rintro s _ _ hs ⟨⟩
  exact ⟨ha, hs, List.suffix_rfl⟩

/-- Parsers one after the other. -/
@[grind ←]
theorem bind (hp : p.Keeps o) (hf : ∀ a, IsTraced o a → (f a).Keeps o) : Keeps o (p >>= f) := by
  intro s b t hs h
  have hbind : (p s >>= fun q => f q.1 q.2) = .ok (b, t) := h
  cases hfirst : p s with
  | error e =>
    rw [hfirst] at hbind
    cases hbind
  | ok q =>
    rw [hfirst] at hbind
    obtain ⟨ha, hq, hfront⟩ := hp s q.1 q.2 hs hfirst
    obtain ⟨hb, ht, hback⟩ := hf q.1 ha q.2 b t hq hbind
    exact ⟨hb, ht, hfront.trans hback⟩

/-- A parser that never succeeds. -/
@[grind ←]
theorem fail (problem : ParseProblem) (pos : Position) :
    Keeps o (Parser.fail problem pos : Parser α) := by
  rintro s _ _ _ ⟨⟩

/-- Nothing comes after a parser that never succeeds. -/
@[grind ←]
theorem fail_bind {γ : Type} (problem : ParseProblem) (pos : Position) (f : γ → Parser β) :
    Keeps o (Parser.fail problem pos >>= f) := by
  rintro s _ _ _ ⟨⟩

/-- A parser that never succeeds. -/
@[grind ←]
theorem missing (token purpose : String) (pos : Position) :
    Keeps o (Parser.missing token purpose pos : Parser α) := fail _ pos

/-- A parser that reads traced data with functions that are the same. -/
theorem of_eq (h : ∀ s a t, p s = .ok (a, t) →
    IsTraced o a ∧ t.functions = s.functions ∧ t.closures = s.closures) : p.Keeps o := by
  intro s a t hs hp
  obtain ⟨ha, hfunctions, hclosures⟩ := h s a t hp
  exact ⟨ha, ⟨hfunctions ▸ hs.functions, hclosures ▸ hs.closures⟩, hfunctions ▸ List.suffix_rfl⟩

/-- A parser run from a state with the same functions. -/
theorem from_eq (hp : p.Keeps o) {s s' : ParserState} (hs : s.Traced o) {a : α}
    {t : ParserState} (h : p s' = .ok (a, t)) (hfunctions : s'.functions = s.functions)
    (hclosures : s'.closures = s.closures) :
    IsTraced o a ∧ t.Traced o ∧ s.functions <:+ t.functions :=
  hfunctions ▸ hp s' a t ⟨hfunctions ▸ hs.functions, hclosures ▸ hs.closures⟩ h

/-- Looking at the next token. -/
@[grind ←]
theorem peek : Keeps o Parser.peek := of_eq fun _ _ _ h => by cases h; simp

/-- Taking the next token. -/
@[grind ←]
theorem next : Keeps o Parser.next := by
  refine of_eq fun s a t h => ?_
  rw [Parser.next] at h
  split at h <;> cases h <;> simp

/-- Asking for the state. -/
@[grind ←]
theorem get : Keeps o (MonadState.get : Parser ParserState) := by
  rintro s _ _ hs ⟨⟩
  exact ⟨hs, hs, List.suffix_rfl⟩

/-- Taking a mark that may stand here. -/
@[grind ←]
theorem accept (mark : String) : Keeps o (Parser.accept mark) := by
  unfold Parser.accept
  grind

/-- Taking a mark that has to stand here. -/
@[grind ←]
theorem expect (mark purpose : String) : Keeps o (Parser.expect mark purpose) := by
  unfold Parser.expect
  grind

/-- One level deeper. -/
@[grind ←]
theorem deeper (c : Context) : Keeps o (Parser.deeper c) := by
  unfold Parser.deeper
  grind

/-- The name of a variable. -/
@[grind ←]
theorem declaredName : Keeps o Parser.declaredName := by
  unfold Parser.declaredName
  grind

/-- Declaring a variable. -/
@[grind ←]
theorem declare (name : String) (isConstant : Bool) : Keeps o (Parser.declare name isConstant) :=
  of_eq fun _ _ _ h => by cases h; simp

/-- Forgetting variables. -/
@[grind ←]
theorem forget (n : ℕ) : Keeps o (Parser.forget n) := of_eq fun _ _ _ h => by cases h; simp

/-- A block of its own. -/
@[grind ←]
theorem inBlock (hp : p.Keeps o) : Keeps o (Parser.inBlock p) := by
  intro s a t hs h
  simp only [Parser.inBlock] at h
  split at h
  · cases h
  · next b after heq =>
    cases h
    obtain ⟨ha, hafter, hsuffix⟩ := hp.from_eq hs heq rfl rfl
    exact ⟨ha, ⟨hafter.functions, hafter.closures⟩, hsuffix⟩

/-- The declaration of a variable. -/
@[grind ←]
theorem declaration? (name : String) : Keeps o (Parser.declaration? name) :=
  of_eq fun _ _ _ h => by cases h; simp

/-- Referring to a variable. -/
@[grind ←]
theorem refer (name : String) (pos : Position) : Keeps o (Parser.refer name pos) := by
  refine of_eq fun s a t h => ?_
  simp only [Parser.refer] at h
  split at h <;> cases h
  · split <;> simp
  · simp

/-- An expression that may be a condition. -/
@[grind ←]
theorem asCondition {e : Expr} (he : e.Traced o) : Keeps o (Parser.asCondition e) := by
  unfold Parser.asCondition
  grind

/-- What is no block. -/
@[grind ←]
theorem notBlock (what : String) : Keeps o (Parser.notBlock what) := by
  unfold Parser.notBlock
  grind

/-- What is no assignment. -/
@[grind ←]
theorem notAssignment : Keeps o Parser.notAssignment := by
  unfold Parser.notAssignment
  grind

/-- A repetition. -/
@[grind ←]
theorem untilDone {step : σ → Parser (σ ⊕ α)} (hstep : ∀ x, IsTraced o x → (step x).Keeps o)
    (fuel : ℕ) {x : σ} (hx : IsTraced o x) : Keeps o (Parser.untilDone step fuel x) := by
  induction fuel generalizing x with
  | zero => exact peek.bind fun t _ => fail _ _
  | succ fuel ih =>
    refine (hstep x hx).bind fun r hr => ?_
    cases r with
    | inl y => exact ih hr
    | inr a => exact pure hr

/-- A repetition. -/
@[grind ←]
theorem repeated {step : σ → Parser (σ ⊕ α)} (hstep : ∀ x, IsTraced o x → (step x).Keeps o)
    {x : σ} (hx : IsTraced o x) : Keeps o (Parser.repeated step x) :=
  fun s => untilDone hstep (2 * s.tokens.length + 2) hx s

/-- Parsers for each item of a list. -/
@[grind ←]
theorem mapM {γ : Type} {g : γ → Parser α} (hg : ∀ c, (g c).Keeps o) (cs : List γ) :
    Keeps o (cs.mapM g) := by
  induction cs with
  | nil => exact pure (by simp)
  | cons c cs ih =>
    rw [List.mapM_cons]
    exact (hg c).bind fun a ha => ih.bind fun as has => pure (List.forall_mem_cons.mpr ⟨ha, has⟩)

/-- Parsers for each item of a list, in turn. -/
@[grind ←]
theorem foldlM {γ : Type} {g : α → γ → Parser α} {cs : List γ}
    (hg : ∀ a, IsTraced o a → ∀ c ∈ cs, (g a c).Keeps o) {a : α} (ha : IsTraced o a) :
    Keeps o (cs.foldlM g a) := by
  induction cs generalizing a with
  | nil => exact pure ha
  | cons c cs ih =>
    rw [List.foldlM_cons]
    exact (hg a ha c List.mem_cons_self).bind fun b hb =>
      ih (fun a ha c' hc' => hg a ha c' (List.mem_cons_of_mem c hc')) hb

end Parser.Keeps

namespace Grammar

open ScriptHost.Script.Parser

/-- All rules keep what reading keeps. -/
structure Keeps (o : Origin) (g : Grammar) : Prop where
  /-- Statements do. -/
  statement : ∀ c, (g.statement c).Keeps o
  /-- Blocks do. -/
  block : ∀ c, (g.block c).Keeps o
  /-- Expressions do. -/
  expression : ∀ c, (g.expression c).Keeps o
  /-- Operands do. -/
  operand : ∀ c, (g.operand c).Keeps o
  /-- Operators do. -/
  operators : ∀ c least e, e.Traced o → (g.operators c least e).Keeps o
  /-- Operands without operators do. -/
  primary : ∀ c afterDot, (g.primary c afterDot).Keeps o
  /-- Indices do. -/
  index : ∀ c e isOptional checked, (g.index c e isOptional checked).Keeps o
  /-- Choices do. -/
  choice : ∀ c, (g.choice c).Keeps o

attribute [grind ←] Keeps.statement Keeps.block Keeps.expression Keeps.operand Keeps.operators
  Keeps.primary Keeps.index Keeps.choice

variable {g : Grammar} {c : Context}

@[grind ←]
theorem keeps_endsCase (t : Token) : (endsCase t).Keeps o := .of_eq fun _ _ _ h => by cases h; simp

@[grind ←]
theorem keeps_capturing : capturing.Keeps o := .of_eq fun _ _ _ h => by cases h; simp

@[grind ←]
theorem keeps_notCapturing : notCapturing.Keeps o := .of_eq fun _ _ _ h => by cases h; simp

@[grind ←]
theorem keeps_enclosed {α : Type} [Traceable α] {p : Parser α} (hp : p.Keeps o) :
    (enclosed p).Keeps o := by
  intro s a t hs h
  simp only [enclosed] at h
  split at h
  · cases h
  · next b after heq =>
    cases h
    obtain ⟨hb, hafter, hsuffix⟩ := hp.from_eq hs heq rfl rfl
    exact ⟨⟨hb, by simp⟩, ⟨hafter.functions, hafter.closures⟩, hsuffix⟩

@[grind ←]
theorem keeps_keepClosure (params : List String) {body : List Stmt}
    (hbody : ∀ s ∈ body, s.Traced o) : (keepClosure params body).Keeps o := by
  rintro s _ _ hs ⟨⟩
  exact ⟨trivial, ⟨hs.functions, List.forall_mem_cons.mpr ⟨hbody, hs.closures⟩⟩, List.suffix_rfl⟩

@[grind ←]
theorem keeps_caseValue (hg : g.Keeps o) (c : Context) : (caseValue g c).Keeps o := by
  intro s a t hs h
  simp only [caseValue] at h
  split at h
  · next b after heq =>
    obtain ⟨rfl, rfl⟩ : b = a ∧ _ = t := by simpa using h
    obtain ⟨hb, hafter, hsuffix⟩ := (hg.expression c).from_eq hs heq rfl rfl
    exact ⟨hb, ⟨hafter.functions, hafter.closures⟩, hsuffix⟩
  · cases h

@[grind ←]
theorem keeps_declareInBlock (name : String) (isConstant : Bool) :
    (declareInBlock name isConstant).Keeps o := by
  refine .of_eq fun s a t h => ?_
  simp only [declareInBlock] at h
  split at h
  · split at h <;> cases h <;> simp
  · cases h
    simp

@[grind ←]
theorem keeps_keepFunction {f : Function} (hf : f.Traced o) (pos : Position) :
    (keepFunction f pos).Keeps o := by
  intro s a t hs h
  simp only [keepFunction] at h
  split at h
  · cases h
  · cases h
    exact ⟨trivial, ⟨List.forall_mem_cons.mpr ⟨hf, hs.functions⟩, hs.closures⟩,
      List.suffix_cons f s.functions⟩

/-! ## Rules of expressions -/

@[grind ←]
theorem traced_negated (pos : Position) {e : Expr} (he : e.Traced o) :
    (negated pos e).Traced o := by
  unfold negated
  split
  · split <;> simp
  · simp
  · simpa using he

@[grind ←]
theorem traced_joinAll {lhs rhs : Expr} (hlhs : lhs.Traced o) (hrhs : rhs.Traced o)
    (pos : Position) : (joinAll lhs rhs pos).Traced o := by
  unfold joinAll
  split <;> grind

@[grind ←]
theorem traced_joinAny {lhs rhs : Expr} (hlhs : lhs.Traced o) (hrhs : rhs.Traced o)
    (pos : Position) : (joinAny lhs rhs pos).Traced o := by
  unfold joinAny
  split <;> grind

@[grind ←]
theorem traced_joinCoalesce {lhs rhs : Expr} (hlhs : lhs.Traced o) (hrhs : rhs.Traced o)
    (pos : Position) : (joinCoalesce lhs rhs pos).Traced o := by
  unfold joinCoalesce
  split <;> grind

@[grind ←]
theorem keeps_nextPrecedence (t : Placed) : (nextPrecedence t).Keeps o := by
  unfold nextPrecedence
  grind

@[grind ←]
theorem keeps_combined (op : Token) (pos : Position) {lhs rhs : Expr} (hlhs : lhs.Traced o)
    (hrhs : rhs.Traced o) : (combined op pos lhs rhs).Keeps o := by
  unfold combined
  grind

@[grind ←]
theorem keeps_operandRule (hg : g.Keeps o) (c : Context) : (operandRule g c).Keeps o := by
  unfold operandRule
  refine Keeps.peek.bind fun t _ => (keeps_endsCase t.token).bind fun ends _ => ?_
  split
  · exact .fail _ t.pos
  · dsimp only
    split
    case h_2 =>
      refine Keeps.next.bind fun _ _ => (Keeps.deeper _).bind fun _ _ =>
        (hg.operand _).bind fun e he => ?_
      split <;> grind
    all_goals grind

@[grind ←]
theorem keeps_operatorsRule (hg : g.Keeps o) (c : Context) (least : ℕ) {lhs : Expr}
    (hlhs : lhs.Traced o) : (operatorsRule g c least lhs).Keeps o := by
  unfold operatorsRule
  refine Keeps.repeated (x := (_, lhs)) (fun (c, lhs) ⟨_, hlhs⟩ => Keeps.peek.bind fun t _ =>
    (keeps_endsCase t.token).bind fun ends _ => ?_) (by exact ⟨trivial, hlhs⟩)
  split
  · exact .pure hlhs
  · refine (keeps_nextPrecedence t).bind fun strength _ => ?_
    dsimp only
    split
    · exact .pure hlhs
    · refine Keeps.next.bind fun _ _ => (hg.operand _).bind fun rhs hrhs =>
        Keeps.peek.bind fun u _ => (keeps_nextPrecedence u).bind fun following _ => ?_
      split <;> grind

@[grind ←]
theorem keeps_expressionRule (hg : g.Keeps o) (c : Context) : (expressionRule g c).Keeps o := by
  unfold expressionRule
  grind

@[grind ←]
theorem keeps_nextArgument (hg : g.Keeps o) (c : Context) (name : String) {args : List Expr}
    (hargs : ∀ x ∈ args, x.Traced o) : (nextArgument g c name args).Keeps o := by
  unfold nextArgument
  refine Keeps.peek.bind fun t _ => ?_
  dsimp only
  split <;> grind

@[grind ←]
theorem keeps_arguments (hg : g.Keeps o) (c : Context) (name : String) :
    (arguments g c name).Keeps o := by
  unfold arguments
  refine Keeps.peek.bind fun t _ => ?_
  split <;> grind

@[grind ←]
theorem keeps_indexRule (hg : g.Keeps o) (c : Context) (e : Expr) (isOptional checked : Bool) :
    (indexRule g c e isOptional checked).Keeps o := by
  unfold indexRule
  refine (Keeps.deeper c).bind fun c' _ => (hg.expression c').bind fun key hkey => ?_
  split
  · exact .fail _ _
  · refine Keeps.peek.bind fun t _ => ?_
    split
    · refine Keeps.next.bind fun _ _ => Keeps.peek.bind fun u _ => ?_
      split <;> grind
    · exact .fail _ _
    · exact .missing _ _ _

@[grind ←]
theorem traced_extended (isOpen : Bool) {e : Expr} (he : e.Traced o) {links : List Link}
    (hlinks : ∀ l ∈ links, l.Traced o) : (extended isOpen e links).Traced o := by
  unfold extended
  split <;> grind

@[grind ←]
theorem keeps_firstLink (isOptional : Bool) (opPos : Position) {e : Expr} (he : e.Traced o) :
    (firstLink isOptional opPos e).Keeps o := by
  unfold firstLink
  grind

@[grind ←]
theorem keeps_linksAfterDot (isOptional : Bool) (opPos : Position) {e : Expr} (he : e.Traced o) :
    (linksAfterDot isOptional opPos e).Keeps o := by
  unfold linksAfterDot
  grind

@[grind ←]
theorem keeps_afterDot (hg : g.Keeps o) (c : Context) (pos : Position)
    (isOptional isOpen : Bool) {e : Expr} (he : e.Traced o) :
    (afterDot g c pos isOptional isOpen e).Keeps o := by
  unfold afterDot
  have hrest (c' : Context) : Parser.Keeps o (do
      let rhs ← g.primary c' true
      pure (Sum.inl (true, extended isOpen e (← linksAfterDot isOptional pos rhs)) :
        (Bool × Expr) ⊕ Expr)) :=
    (hg.primary c' true).bind fun rhs hrhs =>
      (keeps_linksAfterDot isOptional pos hrhs).bind fun links hlinks =>
        .pure ⟨trivial, traced_extended isOpen he hlinks⟩
  refine Keeps.next.bind fun _ _ => Keeps.peek.bind fun t _ => ?_
  dsimp only
  split
  · exact keeps_notCapturing.bind fun _ _ => (Keeps.deeper _).bind fun c' _ => hrest c'
  · exact (Keeps.deeper _).bind fun c' _ => hrest c'

@[grind ←]
theorem keeps_nextSuffix (hg : g.Keeps o) (c : Context) {p : Bool × Expr} (hp : p.2.Traced o) :
    (nextSuffix g c p).Keeps o := by
  obtain ⟨isOpen, e⟩ := p
  have hcall {args : List Expr} (hargs : IsTraced o args) (name : String) (inScope : Bool)
      (pos : Position) : Parser.Keeps o
        (Pure.pure (Sum.inl (true, .call name args inScope pos) : (Bool × Expr) ⊕ Expr)) :=
    .pure ⟨trivial, by simpa using hargs⟩
  have hindex (isOptional : Bool) (c' : Context) : Parser.Keeps o (do
      let links ← g.index c' e isOptional true
      pure (Sum.inl (true, extended isOpen e links) : (Bool × Expr) ⊕ Expr)) :=
    (hg.index c' e isOptional true).bind fun links hlinks =>
      .pure ⟨trivial, traced_extended isOpen hp hlinks⟩
  unfold nextSuffix
  refine Keeps.peek.bind fun t _ => ?_
  split
  · refine Keeps.next.bind fun _ _ => Keeps.peek.bind fun u _ => ?_
    split
    · exact Keeps.next.bind fun _ _ => hcall (by simp) _ _ _
    · split
      · exact Keeps.next.bind fun _ _ => (keeps_arguments hg _ _).bind fun args hargs =>
          hcall hargs _ _ _
      · exact .missing _ _ _
  · exact Keeps.next.bind fun _ _ => (keeps_arguments hg _ _).bind fun args hargs =>
      hcall hargs _ _ _
  · exact Keeps.next.bind fun _ _ => hcall (by simp) _ _ _
  · exact Keeps.next.bind fun _ _ => (Keeps.deeper _).bind fun c' _ => hindex false c'
  · exact Keeps.next.bind fun _ _ => (Keeps.deeper _).bind fun c' _ => hindex true c'
  · exact keeps_afterDot hg c _ _ _ hp
  · exact keeps_afterDot hg c _ _ _ hp
  · exact .pure hp

@[grind ←]
theorem keeps_suffixes (hg : g.Keeps o) (c : Context) {root : Expr} (hroot : root.Traced o) :
    (suffixes g c root).Keeps o := by
  unfold suffixes
  grind

@[grind ←]
theorem keeps_group (hg : g.Keeps o) (c : Context) : (group g c).Keeps o := by
  unfold group
  grind

@[grind ←]
theorem keeps_nextItem (hg : g.Keeps o) (c : Context) (start : Position) {items : List Expr}
    (hitems : ∀ e ∈ items, e.Traced o) : (nextItem g c start items).Keeps o := by
  unfold nextItem
  refine Keeps.peek.bind fun t _ => ?_
  dsimp only
  split
  · exact .fail _ _
  · split
    · grind
    · exact .missing _ _ _
    · refine (Keeps.deeper _).bind fun c' _ => (hg.expression c').bind fun e he =>
        Keeps.peek.bind fun u _ => ?_
      split <;> grind

@[grind ←]
theorem keeps_arrayLiteral (hg : g.Keeps o) (c : Context) : (arrayLiteral g c).Keeps o := by
  unfold arrayLiteral
  grind

@[grind ←]
theorem keeps_fieldKey (fields : List (String × Expr)) : (fieldKey fields).Keeps o := by
  unfold fieldKey
  have hkey (s : String) (pos : Position) : (fieldKey.key fields s pos).Keeps o := by
    unfold fieldKey.key
    grind
  refine Keeps.next.bind fun t _ => ?_
  split <;> grind

@[grind ←]
theorem keeps_mapLiteral (hg : g.Keeps o) (c : Context) : (mapLiteral g c).Keeps o := by
  unfold mapLiteral
  refine Keeps.next.bind fun start _ =>
    .repeated (fun fields hfields => Keeps.peek.bind fun t _ => ?_) (by simp)
  split
  · exact Keeps.next.bind fun _ _ => .pure (by simpa using hfields)
  · exact .missing _ _ _
  · refine (keeps_fieldKey fields).bind fun key _ => (Keeps.expect _ _).bind fun _ _ =>
      Keeps.peek.bind fun u _ => ?_
    dsimp only
    split
    · exact .fail _ _
    · refine (Keeps.deeper _).bind fun c' _ => (hg.expression c').bind fun e he =>
        Keeps.peek.bind fun u _ => ?_
      have hnew : IsTraced o (fields ++ [(key, e)]) :=
        List.forall_mem_append.mpr ⟨hfields, by simpa using he⟩
      split <;> grind

@[grind ←]
theorem keeps_interpolatedText (hg : g.Keeps o) (c : Context) : (interpolatedText g c).Keeps o := by
  have hpart (s : String) (pos : Position) :
      ∀ e ∈ (if s.isEmpty then [] else [Expr.literal (.string s) pos]), e.Traced o := by
    split <;> simp
  unfold interpolatedText
  refine (Keeps.deeper _).bind fun c' _ => Keeps.next.bind fun start _ =>
    .repeated (fun segments hsegments => (hg.block c').bind fun b hb =>
      Keeps.next.bind fun t _ => ?_) ?_
  · have hnext (s : String) (pos : Position) :
        IsTraced o (segments ++ [.block b.1 b.2] ++
          if s.isEmpty then [] else [Expr.literal (.string s) pos]) := by
      refine List.forall_mem_append.mpr ⟨List.forall_mem_append.mpr ⟨hsegments, ?_⟩, hpart s pos⟩
      simpa using hb.1
    dsimp only
    split
    · exact .pure (by simpa using hnext _ _)
    · exact .pure (hnext _ _)
    · exact .fail _ _
    · exact .fail _ _
  · split
    · exact hpart _ _
    · simp

@[grind ←]
theorem keeps_nextParameter (close function closing separating : String) (params : List String) :
    (nextParameter close function closing separating params).Keeps o := by
  unfold nextParameter
  refine Keeps.next.bind fun t _ => ?_
  split
  · split
    · exact .fail _ _
    · refine (Keeps.declare _ _).bind fun _ _ => Keeps.next.bind fun u _ => ?_
      split
      · exact .pure (by simp)
      · split <;> grind
  · exact .fail _ _
  · split
    · exact .pure (by simp)
    · exact .missing _ _ _

@[grind ←]
theorem keeps_closureParameters : (closureParameters).Keeps o := by
  unfold closureParameters
  grind

@[grind ←]
theorem keeps_closure (hg : g.Keeps o) (c : Context) : (closure g c).Keeps o := by
  unfold closure
  refine (Keeps.deeper _).bind fun c₁ _ => (Keeps.deeper c₁).bind fun c₂ _ =>
    .bind (keeps_enclosed ?_) fun r hr => ?_
  · grind
  · refine (keeps_keepClosure _ hr.1.2).bind fun name _ => ?_
    dsimp only
    split
    · exact .pure (by simp)
    · refine (Keeps.mapM (fun p => (Keeps.refer _ _).bind fun known _ => .pure ?_) _).bind
        fun shared hshared => .pure ?_
      · simp
      · simpa using hshared

@[grind ←]
theorem keeps_named (name : String) (pos : Position) : (named name pos).Keeps o := by
  unfold named
  grind

@[grind ←]
theorem keeps_reservedWord (c : Context) (word : String) (afterDot : Bool) (pos : Position) :
    (reservedWord c word afterDot pos).Keeps o := by
  unfold reservedWord
  grind

@[grind ←]
theorem keeps_primaryRule (hg : g.Keeps o) (c : Context) (afterDot : Bool) :
    (primaryRule g c afterDot).Keeps o := by
  unfold primaryRule
  refine Keeps.peek.bind fun t _ => (keeps_endsCase t.token).bind fun ends _ => ?_
  split
  · exact .fail _ t.pos
  · have hliteral (d : Datum) (c : Context) (hd : d.Traced o) :
        Parser.Keeps o ((do let _ ← next; pure (.literal d t.pos)) >>= suffixes g c) :=
      (Keeps.next.bind fun _ _ => .pure (by simpa using hd)).bind fun e he =>
        keeps_suffixes hg c he
    have hstatement {p : Parser Stmt} (hp : p.Keeps o) (c : Context) :
        Parser.Keeps o ((do
          let s ← p
          pure (.block s.asBlock.1 s.asBlock.2)) >>= suffixes g c) :=
      (hp.bind fun s hs => .pure (by simpa using s.traced_asBlock hs)).bind fun e he =>
        keeps_suffixes hg c he
    dsimp only
    split
    all_goals first
      | exact hliteral _ _ (by simp)
      | exact hstatement (hg.statement _) _
      | exact (Keeps.deeper _).bind fun c' _ => hstatement (hg.choice c') _
      | grind

/-! ## Rules of statements -/

@[grind ←]
theorem keeps_nextInBlock (hg : g.Keeps o) (c : Context) {body : List Stmt}
    (hbody : ∀ s ∈ body, s.Traced o) : (nextInBlock g c body).Keeps o := by
  unfold nextInBlock
  refine Keeps.peek.bind fun t _ => ?_
  split
  · grind
  · exact .missing _ _ _
  · refine (hg.statement c).bind fun s hs => ?_
    have hnew : IsTraced o (body ++ [s]) := List.forall_mem_append.mpr ⟨hbody, by simpa using hs⟩
    split
    · exact .pure hbody
    · refine Keeps.peek.bind fun u _ => ?_
      split <;> grind

@[grind ←]
theorem keeps_blockRule (hg : g.Keeps o) (c : Context) : (blockRule g c).Keeps o := by
  unfold blockRule
  refine (Keeps.expect _ _).bind fun start _ => (Keeps.deeper _).bind fun c' _ => .inBlock ?_
  exact (Keeps.repeated (fun body hbody => keeps_nextInBlock hg _ hbody) (by simp)).bind
    fun body hbody => .pure ⟨hbody, trivial⟩

@[grind ←]
theorem keeps_condition (hg : g.Keeps o) (c : Context) : (condition g c).Keeps o := by
  unfold condition
  grind

@[grind ←]
theorem keeps_choiceRule (hg : g.Keeps o) (c : Context) : (choiceRule g c).Keeps o := by
  unfold choiceRule
  refine Keeps.next.bind fun start hstart => (keeps_condition hg _).bind fun e he =>
    (hg.block _).bind fun body hbody => (Keeps.accept _).bind fun other _ => ?_
  split
  grind

@[grind ←]
theorem keeps_caseValues (hg : g.Keeps o) (c : Context) : (caseValues g c).Keeps o := by
  unfold caseValues
  grind

theorem traced_casePatterns (afterRange : Bool) {d : Datum} (hd : d.Traced o) :
    ∀ p ∈ casePatterns afterRange d, p.Traced o := by
  have hspelled (low : ℤ) (count : ℕ) {whole : Datum} (hwhole : whole.Traced o) :
      ∀ p ∈ casePatterns.spelled afterRange low count whole, p.Traced o := by
    unfold casePatterns.spelled rangeNumbers
    grind
  unfold casePatterns
  split <;> grind

@[grind ←]
theorem keeps_checkedPatterns (cases : List Case) {values : List Expr}
    (hvalues : ∀ e ∈ values, e.Traced o) : (checkedPatterns cases values).Keeps o := by
  unfold checkedPatterns
  refine .foldlM (fun patterns hpatterns e he => ?_) (by simp)
  split
  · exact .fail _ _
  · next d hd =>
    have hd : d.Traced o := Expr.traced_value? (hvalues e he) hd
    dsimp only
    split
    · split
      · exact .fail _ _
      · exact .pure (List.forall_mem_append.mpr ⟨hpatterns, by simp⟩)
    · exact .pure (List.forall_mem_append.mpr ⟨hpatterns, traced_casePatterns _ hd⟩)

@[grind ←]
theorem keeps_selection (hg : g.Keeps o) (c : Context) : (selection g c).Keeps o := by
  have hcase {cases : List Case} (hcases : ∀ c ∈ cases, c.Traced o) {patterns : List Datum}
      (hpatterns : ∀ d ∈ patterns, d.Traced o) (guard : Expr) (hguard : guard.Traced o) {s : Stmt}
      (hs : s.Traced o) : ∀ c ∈ cases ++
        [.mk patterns guard (.block s.asBlock.1 s.asBlock.2)], c.Traced o := by
    have hbody := s.traced_asBlock hs
    refine List.forall_mem_append.mpr ⟨hcases, ?_⟩
    simp_all
  unfold selection
  refine Keeps.next.bind fun start _ => (hg.expression _).bind fun subject hsubject =>
    (Keeps.expect _ _).bind fun _ _ => Keeps.repeated
      (fun (p : List Case × Option (Expr × Position)) hp => Keeps.peek.bind fun t _ => ?_) (by simp)
  obtain ⟨cases, otherwise⟩ := p
  obtain ⟨hcases, hotherwise⟩ := hp
  split
  · refine Keeps.next.bind fun _ _ => .pure ?_
    simp_all
  · exact .missing _ _ _
  · exact .fail _ _
  · simp only [pure_bind]
    split
    · refine Keeps.next.bind fun _ _ => (Keeps.accept _).bind fun hasGuard _ => ?_
      split
      · exact .fail_bind _ _ _
      · refine (Keeps.expect _ _).bind fun _ _ => (hg.statement _).bind fun s hs =>
          Keeps.peek.bind fun u _ => ?_
        have hstate : IsTraced o (cases, some (Expr.block s.asBlock.1 s.asBlock.2, t.pos)) :=
          ⟨hcases, by simpa using s.traced_asBlock hs⟩
        split <;> grind
    · refine (keeps_caseValues hg _).bind fun values hvalues =>
        (Keeps.accept _).bind fun hasGuard _ => ?_
      split
      · refine (keeps_condition hg _).bind fun guard hguard => (Keeps.expect _ _).bind fun _ _ =>
          (hg.statement _).bind fun s hs => (keeps_checkedPatterns cases hvalues).bind
            fun patterns hpatterns => Keeps.peek.bind fun u _ => ?_
        have hstate := hcase hcases hpatterns guard hguard hs
        split <;> grind
      · refine (Keeps.expect _ _).bind fun _ _ => (hg.statement _).bind fun s hs =>
          (keeps_checkedPatterns cases hvalues).bind fun patterns hpatterns =>
            Keeps.peek.bind fun u _ => ?_
        have hstate := hcase hcases hpatterns (.literal (.bool true) .none) (by simp) hs
        split <;> grind

@[grind ←]
theorem keeps_whileLoop (hg : g.Keeps o) (c : Context) : (whileLoop g c).Keeps o := by
  unfold whileLoop
  grind

@[grind ←]
theorem keeps_doLoop (hg : g.Keeps o) (c : Context) : (doLoop g c).Keeps o := by
  unfold doLoop
  refine Keeps.next.bind fun start _ => (hg.block _).bind fun b hb => Keeps.next.bind fun t _ => ?_
  have hend (goOn : Bool) : Parser.Keeps o (do
      let e ← condition g { c with pos := start.pos }
      pure (Stmt.doLoop b.1 e goOn b.2 start.pos)) :=
    (keeps_condition hg _).bind fun e he => .pure (by simpa using ⟨he, hb.1⟩)
  dsimp only
  split
  · exact hend true
  · split
    · exact hend false
    · exact .fail_bind _ _ _

@[grind ←]
theorem keeps_loopNames : (loopNames).Keeps o := by
  unfold loopNames
  refine (Keeps.accept _).bind fun hasCounter _ => ?_
  dsimp only
  split
  · refine Keeps.declaredName.bind fun name _ => (Keeps.accept _).bind fun found _ => ?_
    split
    · exact .missing _ _ _
    · refine Keeps.declaredName.bind fun counter _ => ?_
      split
      · exact .fail _ _
      · refine (Keeps.accept _).bind fun closed _ => ?_
        split
        · exact .missing _ _ _
        · exact .pure (by simp)
  · exact Keeps.declaredName.bind fun name _ => .pure (by simp)

@[grind ←]
theorem keeps_forLoop (hg : g.Keeps o) (c : Context) : (forLoop g c).Keeps o := by
  unfold forLoop
  refine Keeps.next.bind fun start _ => keeps_loopNames.bind fun names _ =>
    (Keeps.expect _ _).bind fun _ _ => (Keeps.notBlock _).bind fun _ _ =>
    (hg.expression _).bind fun items hitems => ?_
  have hbody (counter : Option String) (state : ParserState) : Parser.Keeps o (do
      declare names.1 false
      let b ← g.block { c with pos := start.pos, inLoop := true }
      forget state.declared.length
      pure (Stmt.forLoop names.1 counter items b.1 b.2 start.pos)) :=
    (Keeps.declare _ _).bind fun _ _ => (hg.block _).bind fun b hb =>
      (Keeps.forget _).bind fun _ _ => .pure (by simpa using ⟨hitems, hb.1⟩)
  split
  · exact .fail _ _
  · refine Keeps.get.bind fun state _ => ?_
    dsimp only
    split
    · exact (Keeps.declare _ _).bind fun _ _ => hbody _ state
    · exact hbody _ state

@[grind ←]
theorem keeps_declaration (hg : g.Keeps o) (c : Context) (isConstant : Bool) :
    (declaration g c isConstant).Keeps o := by
  unfold declaration
  grind

@[grind ←]
theorem keeps_moduleUse (hg : g.Keeps o) (c : Context) : (moduleUse g c).Keeps o := by
  unfold moduleUse
  grind

@[grind ←]
theorem keeps_release (hg : g.Keeps o) (c : Context) : (release g c).Keeps o := by
  unfold release
  grind

@[grind ←]
theorem keeps_parameters (function : String) : (parameters function).Keeps o := by
  unfold parameters
  grind

@[grind ←]
theorem keeps_functionName : (functionName).Keeps o := by
  unfold functionName
  grind

@[grind ←]
theorem keeps_parameterList (function : String) : (parameterList function).Keeps o := by
  unfold parameterList
  grind

@[grind ←]
theorem keeps_function (hg : g.Keeps o) (c : Context) : (function g c).Keeps o := by
  unfold function
  refine keeps_functionName.bind fun name _ => (keeps_parameterList name).bind fun params _ =>
    Keeps.peek.bind fun t _ => ?_
  split
  · exact (Keeps.deeper c).bind fun c' _ => (hg.block c').bind fun b hb => .pure hb.1
  · exact .fail _ _

@[grind ←]
theorem keeps_definition (hg : g.Keeps o) (c : Context) : (definition g c).Keeps o := by
  unfold definition
  grind

@[grind ←]
theorem keeps_assignment (op : Option String) (opPos : Position) {place value : Expr}
    (hplace : place.Traced o) (hvalue : value.Traced o) : (assignment op opPos place value).Keeps o := by
  unfold assignment
  grind

@[grind ←]
theorem keeps_expressionStatement (hg : g.Keeps o) (c : Context) :
    (expressionStatement g c).Keeps o := by
  unfold expressionStatement
  grind

@[grind ←]
theorem keeps_departure (hg : g.Keeps o) (c : Context) : (departure g c).Keeps o := by
  unfold departure
  refine Keeps.next.bind fun start _ => Keeps.peek.bind fun t _ => ?_
  have hmake (value : Option Expr) (hvalue : IsTraced o value) : IsTraced o
      (if start.token.isMark "return" then Stmt.ret value start.pos
        else Stmt.throw value start.pos) := by
    split <;> simpa using hvalue
  dsimp only
  split
  · exact .pure (hmake none (by simp))
  · exact .pure (hmake none (by simp))
  · exact .pure (hmake none (by simp))
  · exact (Keeps.deeper _).bind fun c' _ => (hg.expression c').bind fun e he =>
      .pure (hmake (some e) (by simpa using he))

@[grind ←]
theorem keeps_leave (hg : g.Keeps o) (c : Context) : (leave g c).Keeps o := by
  unfold leave
  refine Keeps.next.bind fun start _ => Keeps.peek.bind fun t _ => ?_
  split
  · exact .pure (by simp)
  · exact .pure (by simp)
  · exact .pure (by simp)
  · exact (Keeps.deeper _).bind fun c' _ => (hg.expression c').bind fun e he =>
      .pure (by simpa using he)

@[grind ←]
theorem keeps_guarded (hg : g.Keeps o) (c : Context) : (guarded g c).Keeps o := by
  unfold guarded
  refine Keeps.next.bind fun start _ => (hg.block _).bind fun body hbody =>
    (Keeps.accept _).bind fun found _ => ?_
  dsimp only
  split
  · exact .missing _ _ _
  · refine (Keeps.accept _).bind fun isNamed _ => Keeps.get.bind fun state _ => ?_
    have hhandler (name : Option String) : Parser.Keeps o (do
        let b ← g.block { c with pos := start.pos }
        forget state.declared.length
        pure (Stmt.guarded body.1 body.2 name b.1 b.2 start.pos)) :=
      (hg.block _).bind fun b hb => (Keeps.forget _).bind fun _ _ =>
        .pure (by simpa using ⟨hbody.1, hb.1⟩)
    split
    · refine Keeps.declaredName.bind fun name _ => (Keeps.accept _).bind fun closed _ => ?_
      split
      · exact .fail_bind _ _ _
      · exact (Keeps.declare _ _).bind fun _ _ => hhandler _
    · exact hhandler none

@[grind ←]
theorem keeps_statementRule (hg : g.Keeps o) (c : Context) : (statementRule g c).Keeps o := by
  unfold statementRule
  refine Keeps.peek.bind fun t _ => ?_
  dsimp only
  split <;> grind

@[grind ←]
theorem keeps_nextInScript (hg : g.Keeps o) (c : Context) {body : List Stmt}
    (hbody : ∀ s ∈ body, s.Traced o) : (nextInScript g c body).Keeps o := by
  unfold nextInScript
  refine Keeps.peek.bind fun t _ => ?_
  split
  · exact .pure hbody
  · refine (hg.statement c).bind fun s hs => ?_
    have hnew : IsTraced o (body ++ [s]) := List.forall_mem_append.mpr ⟨hbody, by simpa using hs⟩
    split
    · exact .pure hbody
    · refine Keeps.peek.bind fun u _ => ?_
      split <;> grind

/-! ## Whole scripts -/

/-- All rules keep what reading keeps, however deep they refer to each other. -/
theorem keepsAll_within (n : ℕ) : (within n).Keeps o := by
  induction n with
  | zero => constructor <;> intros <;> exact .fail _ _
  | succ n ih =>
    exact ⟨keeps_statementRule ih, keeps_blockRule ih, keeps_expressionRule ih,
      keeps_operandRule ih, keeps_operatorsRule ih, keeps_primaryRule ih, keeps_indexRule ih,
      keeps_choiceRule ih⟩

end Grammar

/-- A script that is read off a text holds no failures of host functions. -/
theorem Program.traced_ofText? {limits : Limits} {text : String} {p : Program}
    (h : Program.ofText? limits text = .ok p) : p.Traced o := by
  simp only [ofText?] at h
  split at h
  · cases h
  · next body final hrule =>
    cases h
    obtain ⟨hbody, hfinal, -⟩ := Parser.Keeps.repeated
      (fun _ hx => Grammar.keeps_nextInScript (Grammar.keepsAll_within _) _ hx)
      (by simp) _ body final ⟨by simp, by simp⟩ hrule
    exact ⟨hbody, fun f hf => hfinal.functions f (List.mem_reverse.mp hf),
      fun f hf => hfinal.closures f (List.mem_reverse.mp hf)⟩

end ScriptHost.Script
