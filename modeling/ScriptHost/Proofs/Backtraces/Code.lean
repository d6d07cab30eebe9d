import Mathlib
import ScriptHost.Proofs.Evaluation

/-!
# Positions of code

A fault has the position at which it arose, and for every call that it left on its way the position
of the call. Both lie in code that was running: in the function that was called last, and in the
function that made the call.
-/

namespace ScriptHost.Script

variable {ω α β : Type}

/-! ## Syntax -/

mutual

/-- The positions in an expression. -/
def Expr.positions : Expr → List Position
  | .literal _ pos | .var _ _ pos | .this pos => [pos]
  | .interpolated xs pos | .array xs pos | .call _ xs _ pos | .operator _ xs pos | .all xs pos
  | .any xs pos | .coalesce xs pos => pos :: positionsOfExprs xs
  | .map fields pos => pos :: positionsOfFields fields
  | .block body pos => pos :: positionsOf body
  | .chain root links => root.positions ++ positionsOfLinks links

/-- The positions in a link. -/
def Link.positions : Link → List Position
  | .property _ _ opPos pos => [opPos, pos]
  | .method _ args _ opPos pos => opPos :: pos :: positionsOfExprs args
  | .index key _ opPos => opPos :: key.positions

/-- The positions in a statement. -/
def Stmt.positions : Stmt → List Position
  | .noop pos | .next pos => [pos]
  | .expr x | .callOnly x => x.positions
  | .block body pos => pos :: positionsOf body
  | .assign _ pos place value => pos :: (place.positions ++ value.positions)
  | .declare _ _ _ x pos | .useModule x pos => pos :: x.positions
  | .choose condition body bodyPos other otherPos pos =>
    bodyPos :: otherPos :: pos :: (condition.positions ++ (positionsOf body ++ positionsOf other))
  | .select subject cases otherwise pos =>
    pos :: (subject.positions ++ (positionsOfCases cases ++ positionsOfOption otherwise))
  | .whileLoop x body bodyPos pos | .doLoop body x _ bodyPos pos
  | .forLoop _ _ x body bodyPos pos =>
    bodyPos :: pos :: (x.positions ++ positionsOf body)
  | .leave value pos | .ret value pos | .throw value pos => pos :: positionsOfOption value
  | .guarded body bodyPos _ handler handlerPos pos =>
    bodyPos :: handlerPos :: pos :: (positionsOf body ++ positionsOf handler)
  | .release _ namePos pos => [namePos, pos]
  | .share names => names.map (·.2)

/-- The positions in a case. -/
def Case.positions : Case → List Position
  | .mk _ condition action => condition.positions ++ action.positions

/-- The positions in expressions. -/
def positionsOfExprs : List Expr → List Position
  | [] => []
  | x :: rest => x.positions ++ positionsOfExprs rest

/-- The positions in fields. -/
def positionsOfFields : List (String × Expr) → List Position
  | [] => []
  | (_, x) :: rest => x.positions ++ positionsOfFields rest

/-- The positions in links. -/
def positionsOfLinks : List Link → List Position
  | [] => []
  | l :: rest => l.positions ++ positionsOfLinks rest

/-- The positions in statements. -/
def positionsOf : List Stmt → List Position
  | [] => []
  | s :: rest => s.positions ++ positionsOf rest

/-- The positions in cases. -/
def positionsOfCases : List Case → List Position
  | [] => []
  | c :: rest => c.positions ++ positionsOfCases rest

/-- The positions in an optional expression. -/
def positionsOfOption : Option Expr → List Position
  | none => []
  | some x => x.positions

end

/-- A position lies in some code, if it is known. -/
def Position.LiesIn (code : Set Position) (pos : Position) : Prop := pos.isNone = false → pos ∈ code

/-- All positions in an expression lie in some code. -/
def Expr.LiesIn (code : Set Position) (x : Expr) : Prop := ∀ pos ∈ x.positions, pos.LiesIn code

/-- All positions in a link lie in some code. -/
def Link.LiesIn (code : Set Position) (l : Link) : Prop := ∀ pos ∈ l.positions, pos.LiesIn code

/-- All positions in a statement lie in some code. -/
def Stmt.LiesIn (code : Set Position) (s : Stmt) : Prop := ∀ pos ∈ s.positions, pos.LiesIn code

/-- All positions in a case lie in some code. -/
def Case.LiesIn (code : Set Position) (c : Case) : Prop := ∀ pos ∈ c.positions, pos.LiesIn code

section Parts

variable {code : Set Position}

theorem Position.none_liesIn : Position.none.LiesIn code := fun h => nomatch h

theorem liesIn_exprs {xs : List Expr} :
    (∀ pos ∈ positionsOfExprs xs, pos.LiesIn code) ↔ ∀ x ∈ xs, x.LiesIn code := by
  induction xs with
  | nil => simp [positionsOfExprs]
  | cons x xs ih => simp only [positionsOfExprs, List.forall_mem_append, List.forall_mem_cons, ih,
      Expr.LiesIn]

theorem liesIn_fields {fields : List (String × Expr)} :
    (∀ pos ∈ positionsOfFields fields, pos.LiesIn code) ↔ ∀ p ∈ fields, p.2.LiesIn code := by
  induction fields with
  | nil => simp [positionsOfFields]
  | cons p fields ih => simp only [positionsOfFields, List.forall_mem_append, List.forall_mem_cons,
      ih, Expr.LiesIn]

theorem liesIn_links {links : List Link} :
    (∀ pos ∈ positionsOfLinks links, pos.LiesIn code) ↔ ∀ l ∈ links, l.LiesIn code := by
  induction links with
  | nil => simp [positionsOfLinks]
  | cons l links ih => simp only [positionsOfLinks, List.forall_mem_append, List.forall_mem_cons,
      ih, Link.LiesIn]

theorem liesIn_statements {body : List Stmt} :
    (∀ pos ∈ positionsOf body, pos.LiesIn code) ↔ ∀ s ∈ body, s.LiesIn code := by
  induction body with
  | nil => simp [positionsOf]
  | cons s body ih => simp only [positionsOf, List.forall_mem_append, List.forall_mem_cons, ih,
      Stmt.LiesIn]

theorem liesIn_cases {cases : List Case} :
    (∀ pos ∈ positionsOfCases cases, pos.LiesIn code) ↔ ∀ c ∈ cases, c.LiesIn code := by
  induction cases with
  | nil => simp [positionsOfCases]
  | cons c cases ih => simp only [positionsOfCases, List.forall_mem_append, List.forall_mem_cons,
      ih, Case.LiesIn]

theorem liesIn_option {x : Option Expr} :
    (∀ pos ∈ positionsOfOption x, pos.LiesIn code) ↔ ∀ y ∈ x, y.LiesIn code := by
  cases x <;> simp [positionsOfOption, Expr.LiesIn]

/-- An expression lies in some code if its own position and its parts do. -/
theorem Expr.liesIn_iff {x : Expr} : x.LiesIn code ↔
    match x with
    | .literal _ pos | .var _ _ pos | .this pos => pos.LiesIn code
    | .interpolated xs pos | .array xs pos | .call _ xs _ pos | .operator _ xs pos | .all xs pos
    | .any xs pos | .coalesce xs pos => pos.LiesIn code ∧ ∀ y ∈ xs, y.LiesIn code
    | .map fields pos => pos.LiesIn code ∧ ∀ p ∈ fields, p.2.LiesIn code
    | .block body pos => pos.LiesIn code ∧ ∀ s ∈ body, s.LiesIn code
    | .chain root links => root.LiesIn code ∧ ∀ l ∈ links, l.LiesIn code := by
  rw [Expr.LiesIn]
  cases x <;> simp only [positions, List.forall_mem_cons, List.forall_mem_append, liesIn_exprs,
    liesIn_fields, liesIn_links, liesIn_statements, List.not_mem_nil, false_implies,
    implies_true, and_true, Expr.LiesIn]

/-- A link lies in some code if its own positions and its parts do. -/
theorem Link.liesIn_iff {l : Link} : l.LiesIn code ↔
    match l with
    | .property _ _ opPos pos => opPos.LiesIn code ∧ pos.LiesIn code
    | .method _ args _ opPos pos =>
      opPos.LiesIn code ∧ pos.LiesIn code ∧ ∀ x ∈ args, x.LiesIn code
    | .index key _ opPos => opPos.LiesIn code ∧ key.LiesIn code := by
  rw [Link.LiesIn]
  cases l <;> simp only [positions, List.forall_mem_cons, liesIn_exprs, List.not_mem_nil,
    false_implies, implies_true, and_true, Expr.LiesIn]

/-- A statement lies in some code if its own positions and its parts do. -/
theorem Stmt.liesIn_iff {s : Stmt} : s.LiesIn code ↔
    match s with
    | .noop pos | .next pos => pos.LiesIn code
    | .expr x | .callOnly x => x.LiesIn code
    | .block body pos => pos.LiesIn code ∧ ∀ s ∈ body, s.LiesIn code
    | .assign _ pos place value => pos.LiesIn code ∧ place.LiesIn code ∧ value.LiesIn code
    | .declare _ _ _ x pos | .useModule x pos => pos.LiesIn code ∧ x.LiesIn code
    | .choose condition body bodyPos other otherPos pos =>
      bodyPos.LiesIn code ∧ otherPos.LiesIn code ∧ pos.LiesIn code ∧ condition.LiesIn code ∧
        (∀ s ∈ body, s.LiesIn code) ∧ ∀ s ∈ other, s.LiesIn code
    | .select subject cases otherwise pos =>
      pos.LiesIn code ∧ subject.LiesIn code ∧ (∀ c ∈ cases, c.LiesIn code) ∧
        ∀ x ∈ otherwise, x.LiesIn code
    | .whileLoop x body bodyPos pos | .doLoop body x _ bodyPos pos
    | .forLoop _ _ x body bodyPos pos =>
      bodyPos.LiesIn code ∧ pos.LiesIn code ∧ x.LiesIn code ∧ ∀ s ∈ body, s.LiesIn code
    | .leave value pos | .ret value pos | .throw value pos =>
      pos.LiesIn code ∧ ∀ x ∈ value, x.LiesIn code
    | .guarded body bodyPos _ handler handlerPos pos =>
      bodyPos.LiesIn code ∧ handlerPos.LiesIn code ∧ pos.LiesIn code ∧
        (∀ s ∈ body, s.LiesIn code) ∧ ∀ s ∈ handler, s.LiesIn code
    | .release _ namePos pos => namePos.LiesIn code ∧ pos.LiesIn code
    | .share names => ∀ p ∈ names, p.2.LiesIn code := by
  rw [Stmt.LiesIn]
  cases s <;> simp only [positions, List.forall_mem_cons, List.forall_mem_append,
    List.forall_mem_map, liesIn_statements, liesIn_cases, liesIn_option, List.not_mem_nil,
    false_implies, implies_true, and_true, Expr.LiesIn]

/-- A case lies in some code if its parts do. -/
theorem Case.liesIn_iff {c : Case} :
    c.LiesIn code ↔ c.condition.LiesIn code ∧ c.action.LiesIn code := by
  obtain ⟨patterns, condition, action⟩ := c
  simp only [Case.LiesIn, positions, List.forall_mem_append]
  exact .rfl

/-- Where a link stands. -/
theorem Link.opPos_liesIn {l : Link} (hl : l.LiesIn code) : l.opPos.LiesIn code := by
  cases l
  all_goals exact (Link.liesIn_iff.mp hl).1

/-- Where an expression reports its faults. -/
theorem Expr.position_liesIn {x : Expr} (hx : x.LiesIn code) : x.position.LiesIn code := by
  have hparts := Expr.liesIn_iff.mp hx
  induction x using Expr.position.induct with
  | case13 root ih => exact ih hparts.1 (Expr.liesIn_iff.mp hparts.1)
  | case14 root l rest => exact Link.opPos_liesIn (hparts.2 l List.mem_cons_self)
  | case1 | case5 | case6 => exact hparts
  | _ => exact hparts.1

/-- Where an expression begins. -/
theorem Expr.startPosition_liesIn {x : Expr} (hx : x.LiesIn code) :
    x.startPosition.LiesIn code := by
  have hparts := Expr.liesIn_iff.mp hx
  induction x using Expr.startPosition.induct with
  | case5 root links ih =>
    rw [startPosition]
    exact ih hparts.1 (Expr.liesIn_iff.mp hparts.1)
  | case6 x =>
    rw [startPosition]
    · exact Expr.position_liesIn hx
    all_goals assumption
  | _ s rest pos ih =>
    have hs := hparts.2 s List.mem_cons_self
    rw [startPosition]
    exact ih hs (Expr.liesIn_iff.mp hs)

/-- Where a link reports its faults. -/
theorem Link.pos_liesIn {l : Link} (hl : l.LiesIn code) : l.pos.LiesIn code := by
  have hparts := Link.liesIn_iff.mp hl
  cases l with
  | property name isOptional opPos pos => exact hparts.2
  | method name args isOptional opPos pos => exact hparts.2.1
  | index key isOptional opPos => exact Expr.startPosition_liesIn hparts.2

/-- Where a statement stands. -/
theorem Stmt.position_liesIn {s : Stmt} (hs : s.LiesIn code) : s.position.LiesIn code := by
  have hparts := Stmt.liesIn_iff.mp hs
  cases s with
  | noop | next => exact hparts
  | expr x => exact Expr.startPosition_liesIn hparts
  | callOnly x => exact Expr.position_liesIn hparts
  | block | assign | declare | select | leave | ret | throw | useModule => exact hparts.1
  | whileLoop | doLoop | forLoop => exact hparts.2.1
  | release => exact hparts.2
  | choose | guarded => exact hparts.2.2.1
  | share names =>
    cases names with
    | nil => exact Position.none_liesIn
    | cons p rest => exact hparts p List.mem_cons_self

end Parts

/-! ## Faults -/

/-- Native functions that call functions of the script. -/
def callers : List String :=
  ["map", "for_each", "filter", "some", "all", "retain", "drain", "index_of", "find", "find_map",
    "reduce", "reduce_rev", "sort", "order_by", "dedup", "zip"]

/-- A fault arose in some code. For every call that it left, the position of the call lies in the
code of the caller, and the fault inside it arose in the code of the function; a native function
that calls back has no code of its own, and the positions of a text that a script runs are not
those of the script. -/
inductive Fault.ArisesIn (codeOf : String → Set Position) : Set Position → Fault → Prop where
  /-- A fault made by a script or a host function. -/
  | thrown {code : Set Position} (payload : Datum) {pos : Position} (hpos : pos.LiesIn code) :
      ArisesIn codeOf code (.thrown payload pos)
  /-- Something went wrong. -/
  | raised {code : Set Position} (cause : Cause) {pos : Position} (hpos : pos.LiesIn code) :
      ArisesIn codeOf code (.raised cause pos)
  /-- A call of a function of the script. -/
  | call {code : Set Position} {name source : String} {inner : Fault} {pos : Position}
      (hpos : pos.LiesIn code) (hinner : ArisesIn codeOf (codeOf name) inner) :
      ArisesIn codeOf code (.inCall name source inner pos)
  /-- A call of a native function that calls back. -/
  | callback {code : Set Position} {name source : String} {inner : Fault} {pos : Position}
      (hname : name ∈ callers) (hpos : pos.LiesIn code) (hinner : ArisesIn codeOf code inner) :
      ArisesIn codeOf code (.inCall name source inner pos)
  /-- A text that is run as a script. -/
  | text {code : Set Position} {source : String} {inner : Fault} {pos : Position}
      (hpos : pos.LiesIn code) (hinner : ArisesIn codeOf Set.univ inner) :
      ArisesIn codeOf code (.inCall "eval" source inner pos)

namespace Fault.ArisesIn

variable {codeOf : String → Set Position} {code : Set Position} {x : Fault} {pos : Position}

/-- A fault at another position. -/
theorem withPosition (h : x.ArisesIn codeOf code) (hpos : pos.LiesIn code) :
    (x.withPosition pos).ArisesIn codeOf code := by
  cases h with
  | thrown payload _ => exact .thrown payload hpos
  | raised cause _ => exact .raised cause hpos
  | call _ hinner => exact .call hpos hinner
  | callback hname _ hinner => exact .callback hname hpos hinner
  | text _ hinner => exact .text hpos hinner

/-- A fault that is placed. -/
theorem atIfNone (h : x.ArisesIn codeOf code) (hpos : pos.LiesIn code) :
    (x.atIfNone pos).ArisesIn codeOf code := by
  rw [Fault.atIfNone]
  split
  · exact h.withPosition hpos
  · exact h

end Fault.ArisesIn

/-- The positions in the functions and closures of a name. -/
def Engine.codeOf (e : Engine ω) (name : String) : Set Position :=
  {pos | ∃ f, (f ∈ e.functions ∨ f ∈ e.closures) ∧ f.name = name ∧ pos ∈ positionsOf f.body}

/-- The statements of a function lie in its code. -/
theorem Engine.body_liesIn {e : Engine ω} {f : Function} (hf : f ∈ e.functions ∨ f ∈ e.closures) :
    ∀ s ∈ f.body, s.LiesIn (e.codeOf f.name) :=
  liesIn_statements.mp fun _ hpos _ => ⟨f, hf, rfl, hpos⟩

/-- Everything lies somewhere. -/
theorem Stmt.liesIn_univ (s : Stmt) : s.LiesIn Set.univ := fun _ _ _ => Set.mem_univ _

/-! ## Runs -/

/-- If an outcome is a fault, it is one of these. -/
def Outcome.FaultsAre (p : Fault → Prop) : Outcome α → Prop
  | .fault x => p x
  | .value _ | .jump _ | .exhausted => True

/-- A run ends in no other faults. -/
def Run.FaultsAre (p : Fault → Prop) (r : Run ω α) : Prop := ∀ m, (r m).1.FaultsAre p

/-- A run with a value at hand ends in no other faults. -/
def Focus.FaultsAre (p : Fault → Prop) (r : Focus ω α) : Prop := ∀ d m, (r d m).1.FaultsAre p

/-- A value that a run gives is one of these. -/
def Run.ValuesAre (p : α → Prop) (r : Run ω α) : Prop :=
  ∀ m a m', r m = (.value a, m') → p a

namespace Run.ValuesAre

variable {r : Run ω α} {f : α → Run ω β} {values : α → Prop} {results : β → Prop}

/-- A value at once. -/
theorem pure {a : α} (ha : values a) : Run.ValuesAre values (Pure.pure a : Run ω α) := by
  rintro m b m' ⟨⟩
  exact ha

/-- Runs one after the other. -/
theorem bind (hr : r.ValuesAre values) (hf : ∀ a, values a → (f a).ValuesAre results) :
    Run.ValuesAre results (r >>= f) := by
  intro m b m' h
  change Run.bind r f m = _ at h
  unfold Run.bind at h
  split at h
  · next a after ha => exact hf a (hr m a after ha) after b m' h
  all_goals cases h

/-- Some value. -/
theorem any (r : Run ω α) : r.ValuesAre fun _ => True := fun _ _ _ _ => trivial

end Run.ValuesAre

variable {p q : Fault → Prop}

namespace Run.FaultsAre

variable {r : Run ω α} {f : α → Run ω β}

/-- A value at once. -/
theorem pure (a : α) : Run.FaultsAre p (Pure.pure a : Run ω α) := fun _ => trivial

/-- Runs one after the other, the second one for a value that the first one may give. -/
theorem bindOn {values : α → Prop} (hr : r.FaultsAre p) (hvalues : r.ValuesAre values)
    (hf : ∀ a, values a → (f a).FaultsAre p) : Run.FaultsAre p (r >>= f) := by
  intro m
  have hrun := hr m
  change (Run.bind r f m).1.FaultsAre p
  unfold Run.bind
  cases hresult : r m with
  | mk outcome m' =>
    rw [hresult] at hrun
    cases outcome with
    | value a => exact hf a (hvalues m a m' hresult) m'
    | fault x => exact hrun
    | jump j => exact trivial
    | exhausted => exact trivial

/-- Runs one after the other. -/
theorem bind (hr : r.FaultsAre p) (hf : ∀ a, (f a).FaultsAre p) : Run.FaultsAre p (r >>= f) :=
  hr.bindOn (.any r) fun a _ => hf a

/-- One of two runs. -/
theorem ite {c : Prop} [Decidable c] {r' : Run ω α} (hr : r.FaultsAre p) (hr' : r'.FaultsAre p) :
    Run.FaultsAre p (if c then r else r') := by
  split
  · exact hr
  · exact hr'

/-- A fault. -/
theorem fault {x : Fault} (hx : p x) : Run.FaultsAre p (Run.fault x : Run ω α) := fun _ => hx

/-- A jump. -/
theorem jump (j : Jump) : Run.FaultsAre p (Run.jump j : Run ω α) := fun _ => trivial

/-- No answer. -/
theorem exhausted : Run.FaultsAre p (Run.exhausted : Run ω α) := fun _ => trivial

/-- The machine. -/
theorem machine : Run.FaultsAre p (Run.machine : Run ω (Machine ω)) := fun _ => trivial

/-- A change of the machine. -/
theorem update (g : Machine ω → Machine ω) : Run.FaultsAre p (Run.update g) := fun _ => trivial

/-- A change of the fault. -/
theorem mapFault (hr : r.FaultsAre p) {g : Fault → Fault} (hg : ∀ x, p x → q (g x)) :
    (r.mapFault g).FaultsAre q := by
  intro m
  have hrun := hr m
  unfold Run.mapFault
  generalize r m = result at hrun
  obtain ⟨outcome, m'⟩ := result
  cases outcome with
  | fault x => exact hg x hrun
  | value a => exact trivial
  | jump j => exact trivial
  | exhausted => exact trivial

/-- A change of the machine afterwards. -/
theorem afterwards (hr : r.FaultsAre p) (g : Machine ω → Machine ω → Machine ω) :
    (r.afterwards g).FaultsAre p := fun m => hr m

/-- A run with a value at hand. -/
theorem focus (d : Datum) {s : Focus ω α} (hs : s.FaultsAre p)
    (put : Datum → Machine ω → Machine ω) : (Run.focus d s put).FaultsAre p := fun m => hs d m

/-- Runs for each item of a list. -/
theorem mapM {γ : Type} {g : γ → Run ω α} {cs : List γ} (hg : ∀ c ∈ cs, (g c).FaultsAre p) :
    Run.FaultsAre p (cs.mapM g) := by
  induction cs with
  | nil => exact pure _
  | cons c cs ih =>
    rw [List.mapM_cons]
    exact (hg c List.mem_cons_self).bind fun _ =>
      (ih fun c' hc' => hg c' (List.mem_cons_of_mem c hc')).bind fun _ => pure _

/-- Runs for each item of a list, in turn. -/
theorem foldlM {γ : Type} {g : α → γ → Run ω α} (hg : ∀ a c, (g a c).FaultsAre p) (cs : List γ)
    (a : α) : Run.FaultsAre p (cs.foldlM g a) := by
  induction cs generalizing a with
  | nil => exact pure a
  | cons c cs ih =>
    rw [List.foldlM_cons]
    exact (hg a c).bind fun b => ih b

end Run.FaultsAre

namespace Focus.FaultsAre

variable {r : Focus ω α} {f : α → Focus ω β}

/-- A value at once. -/
theorem pure (a : α) : Focus.FaultsAre p (Pure.pure a : Focus ω α) := fun _ _ => trivial

/-- Runs one after the other. -/
theorem bind (hr : r.FaultsAre p) (hf : ∀ a, (f a).FaultsAre p) :
    Focus.FaultsAre p (r >>= f) := by
  intro d m
  have hrun := hr d m
  simp only [Bind.bind]
  generalize r d m = result at hrun
  obtain ⟨outcome, d', m'⟩ := result
  cases outcome with
  | value a => exact hf a d' m'
  | fault x => exact hrun
  | jump j => exact trivial
  | exhausted => exact trivial

/-- A run that leaves the value at hand alone. -/
theorem lift {s : Run ω α} (hs : s.FaultsAre p) : (Focus.lift s).FaultsAre p := fun _ m => hs m

/-- The value at hand. -/
theorem target : Focus.FaultsAre p (Focus.target : Focus ω Datum) := fun _ _ => trivial

/-- A change of the value at hand. -/
theorem put (d : Datum) : Focus.FaultsAre p (Focus.put d : Focus ω Unit) := fun _ _ => trivial

/-- A call with the value at hand as its first argument. -/
theorem effect {g : Datum → Run ω Effect} (hg : ∀ d, (g d).FaultsAre p) :
    (Focus.effect g).FaultsAre p := by
  intro d m
  have hrun := hg d m
  unfold Focus.effect
  generalize g d m = result at hrun
  obtain ⟨outcome, m'⟩ := result
  cases outcome with
  | fault x => exact hrun
  | value a => exact trivial
  | jump j => exact trivial
  | exhausted => exact trivial

/-- A run with a part of the value at hand. -/
theorem part (d : Datum) (rebuild : Datum → Datum → Datum) (hr : r.FaultsAre p) :
    (Focus.part d rebuild r).FaultsAre p := fun _ m => hr d m

/-- A run on a value, with what is left of it. -/
theorem asEffect {s : Focus ω Datum} (hs : s.FaultsAre p) (d : Datum) :
    (s.asEffect d).FaultsAre p := by
  intro m
  have hrun := hs d m
  unfold Focus.asEffect
  generalize s d m = result at hrun
  obtain ⟨outcome, left, m'⟩ := result
  cases outcome with
  | fault x => exact hrun
  | value v => exact trivial
  | jump j => exact trivial
  | exhausted => exact trivial

end Focus.FaultsAre

/-- The faults of a run arise in some code. -/
abbrev Run.FaultsIn (e : Engine ω) (code : Set Position) (r : Run ω α) : Prop :=
  r.FaultsAre (Fault.ArisesIn e.codeOf code)

/-- The faults of a run with a value at hand arise in some code. -/
abbrev Focus.FaultsIn (e : Engine ω) (code : Set Position) (r : Focus ω α) : Prop :=
  r.FaultsAre (Fault.ArisesIn e.codeOf code)

/-- The runs that the rules refer to have faults in the code that they are given. -/
structure Evaluator.FaultsIn (e : Engine ω) (ev : Evaluator ω) : Prop where
  /-- Those of expressions do. -/
  expression : ∀ code x, x.LiesIn code → (ev.expression x).FaultsIn e code
  /-- Those of statements do. -/
  statement : ∀ code s, s.LiesIn code → (ev.statement s).FaultsIn e code
  /-- Those of native functions do. -/
  native : ∀ code name args access pos, pos.LiesIn code →
    (ev.native name args access pos).FaultsIn e code

end ScriptHost.Script
