import ScriptHost.Proofs.Evaluation

/-!
# Where failures and log events come from

A failure travels through a script as a value that it can hold, throw and catch like any other. An
origin says which failures and which log events there may be. Data is traced to an origin if all
that it carries comes from there, and so is a run that takes traced machines to traced machines and
ends with traced data.
-/

namespace ScriptHost.Script

/-- Where failures and log events may come from. -/
structure Origin where
  /-- The failures. -/
  failure : Failure → Prop
  /-- The log events. -/
  event : LogEvent → Prop

variable {ω : Type}

/-! ## Values and syntax -/

mutual

/-- All failures in a value come from an origin. -/
@[simp, grind =]
def Datum.Traced (o : Origin) : Datum → Prop
  | .array items => ∀ d ∈ items, d.Traced o
  | .map fields => ∀ p ∈ fields, p.2.Traced o
  | .fnPtr _ curried => ∀ c ∈ curried, c.Traced o
  | .failure f => o.failure f
  | .shared d => d.Traced o
  | .unit | .bool _ | .int _ | .float _ | .decimal _ | .bigInt _ | .string _ | .char _ | .date _
  | .time _ | .dateTime _ | .blob _ | .range .. | .rangeInclusive .. | .steps .. | .handle _
  | .sized .. | .single _ | .foreign _ => True
termination_by d => sizeOf d
decreasing_by
  all_goals simp_wf
  · have := List.sizeOf_lt_of_mem ‹_ ∈ _›
    omega
  · have := List.sizeOf_lt_of_mem ‹_ ∈ _›
    cases p
    simp at *
    omega
  · have := List.sizeOf_lt_of_mem ‹_ ∈ _›
    omega

/-- All failures in a captured value come from an origin. -/
@[simp, grind =]
def Capture.Traced (o : Origin) : Capture → Prop
  | .value d => d.Traced o
  | .cell _ => True
termination_by c => sizeOf c
decreasing_by all_goals simp_wf

end

/-- The failure that a fault may carry comes from an origin. -/
@[simp, grind =]
def Fault.Traced (o : Origin) : Fault → Prop
  | .thrown payload _ => payload.Traced o
  | .inCall _ _ inner _ => inner.Traced o
  | .raised .. => True

mutual

/-- All failures in the literals of an expression come from an origin. -/
@[simp, grind =]
def Expr.Traced (o : Origin) : Expr → Prop
  | .literal d _ => d.Traced o
  | .interpolated xs _ | .array xs _ | .call _ xs _ _ | .operator _ xs _ | .all xs _ | .any xs _
  | .coalesce xs _ => ∀ x ∈ xs, x.Traced o
  | .map fields _ => ∀ p ∈ fields, p.2.Traced o
  | .block body _ => ∀ s ∈ body, s.Traced o
  | .chain root links => root.Traced o ∧ ∀ l ∈ links, l.Traced o
  | .var .. | .this _ => True
termination_by x => sizeOf x
decreasing_by
  all_goals simp_wf
  all_goals first
    | have := List.sizeOf_lt_of_mem ‹_ ∈ _›
      omega
    | have := List.sizeOf_lt_of_mem ‹_ ∈ _›
      cases p
      simp at *
      omega
    | omega

/-- All failures in the literals of a link come from an origin. -/
@[simp, grind =]
def Link.Traced (o : Origin) : Link → Prop
  | .property .. => True
  | .method _ args _ _ _ => ∀ x ∈ args, x.Traced o
  | .index key _ _ => key.Traced o
termination_by x => sizeOf x
decreasing_by
  all_goals simp_wf
  all_goals try have := List.sizeOf_lt_of_mem ‹_ ∈ _›
  all_goals omega

/-- All failures in the literals of a statement come from an origin. -/
@[simp, grind =]
def Stmt.Traced (o : Origin) : Stmt → Prop
  | .expr e | .callOnly e | .declare _ _ _ e _ | .useModule e _ => e.Traced o
  | .block body _ => ∀ s ∈ body, s.Traced o
  | .assign _ _ place value => place.Traced o ∧ value.Traced o
  | .choose c body _ other _ _ =>
    c.Traced o ∧ (∀ s ∈ body, s.Traced o) ∧ ∀ s ∈ other, s.Traced o
  | .select subject cases otherwise _ =>
    subject.Traced o ∧ (∀ c ∈ cases, c.Traced o) ∧ ∀ x ∈ otherwise, x.Traced o
  | .whileLoop c body _ _ | .doLoop body c _ _ _ | .forLoop _ _ c body _ _ =>
    c.Traced o ∧ ∀ s ∈ body, s.Traced o
  | .leave value _ | .ret value _ | .throw value _ => ∀ x ∈ value, x.Traced o
  | .guarded body _ _ handler _ _ => (∀ s ∈ body, s.Traced o) ∧ ∀ s ∈ handler, s.Traced o
  | .noop _ | .next _ | .release .. | .share _ => True
termination_by x => sizeOf x
decreasing_by
  all_goals simp_wf
  all_goals first
    | have := List.sizeOf_lt_of_mem ‹_ ∈ _›
      omega
    | cases ‹_ ∈ _›
      simp
      omega
    | omega

/-- All failures in the literals of a case come from an origin. -/
@[simp, grind =]
def Case.Traced (o : Origin) : Case → Prop
  | .mk patterns c a => (∀ d ∈ patterns, d.Traced o) ∧ c.Traced o ∧ a.Traced o
termination_by x => sizeOf x
decreasing_by
  all_goals simp_wf
  all_goals omega

end

/-- A case is traced if its parts are. -/
theorem Case.traced_iff {o : Origin} {c : Case} : c.Traced o ↔
    (∀ d ∈ c.patterns, d.Traced o) ∧ c.condition.Traced o ∧ c.action.Traced o := by
  obtain ⟨patterns, condition, action⟩ := c
  rw [Case.Traced]
  exact .rfl

/-- All failures in the statements of a function come from an origin. -/
@[simp, grind =]
def Function.Traced (o : Origin) (f : Function) : Prop := ∀ s ∈ f.body, s.Traced o

/-- All failures in a script come from an origin. -/
structure Program.Traced (o : Origin) (p : Program) : Prop where
  /-- Those in its statements. -/
  body : ∀ s ∈ p.body, s.Traced o
  /-- Those in its functions. -/
  functions : ∀ f ∈ p.functions, f.Traced o
  /-- Those in its closures. -/
  closures : ∀ f ∈ p.closures, f.Traced o

/-! ## Machines -/

/-- All failures in a slot come from an origin. -/
@[simp, grind =]
def Slot.Traced (o : Origin) : Slot → Prop
  | .own d => d.Traced o
  | .cell _ => True

/-- All failures that a jump carries come from an origin. -/
@[simp, grind =]
def Jump.Traced (o : Origin) : Jump → Prop
  | .next => True
  | .leave d | .ret d | .exit d => d.Traced o

/-- All that a machine holds and has written to the log comes from an origin. -/
structure Machine.Traced (o : Origin) (m : Machine ω) : Prop where
  /-- The failures in variables do. -/
  locals : ∀ v ∈ m.locals, v.slot.Traced o
  /-- The failures in the object of the method do. -/
  self : ∀ d ∈ m.self, d.Traced o
  /-- The failures in cells do. -/
  cells : ∀ d ∈ m.cells, d.Traced o
  /-- The log does. -/
  log : ∀ event ∈ m.log, o.event event

/-! ## Results -/

/-- Data that may carry failures. -/
class Traceable (α : Type) where
  /-- All failures that the data carries come from an origin. -/
  IsTraced : Origin → α → Prop

export Traceable (IsTraced)

section Instances

variable {α β : Type} {o : Origin}

/-- Data without failures. -/
@[reducible]
def Traceable.plain : Traceable α := ⟨fun _ _ => True⟩

instance : Traceable Unit := .plain
instance : Traceable Bool := .plain
instance : Traceable String := .plain
instance : Traceable Ordering := .plain
instance : Traceable ℕ := .plain
instance : Traceable Position := .plain
instance : Traceable Datum := ⟨Datum.Traced⟩
instance : Traceable Capture := ⟨Capture.Traced⟩
instance : Traceable Expr := ⟨Expr.Traced⟩
instance : Traceable Link := ⟨Link.Traced⟩
instance : Traceable Stmt := ⟨Stmt.Traced⟩
instance : Traceable Case := ⟨Case.Traced⟩
instance : Traceable Function := ⟨Function.Traced⟩
instance : Traceable (Machine ω) := ⟨Machine.Traced⟩
instance [Traceable α] : Traceable (List α) := ⟨fun o as => ∀ a ∈ as, IsTraced o a⟩
instance [Traceable α] : Traceable (Option α) := ⟨fun o x => ∀ a ∈ x, IsTraced o a⟩
instance [Traceable α] [Traceable β] : Traceable (α × β) :=
  ⟨fun o p => IsTraced o p.1 ∧ IsTraced o p.2⟩

@[simp, grind =] theorem isTraced_unit (u : Unit) : IsTraced o u ↔ True := .rfl
@[simp, grind =] theorem isTraced_bool (b : Bool) : IsTraced o b ↔ True := .rfl
@[simp, grind =] theorem isTraced_string (s : String) : IsTraced o s ↔ True := .rfl
@[simp, grind =] theorem isTraced_ordering (r : Ordering) : IsTraced o r ↔ True := .rfl
@[simp, grind =] theorem isTraced_nat (n : ℕ) : IsTraced o n ↔ True := .rfl
@[simp, grind =] theorem isTraced_position (p : Position) : IsTraced o p ↔ True := .rfl
@[simp, grind =] theorem isTraced_datum (d : Datum) : IsTraced o d ↔ d.Traced o := .rfl
@[simp, grind =] theorem isTraced_capture (c : Capture) : IsTraced o c ↔ c.Traced o := .rfl
@[simp, grind =] theorem isTraced_expr (x : Expr) : IsTraced o x ↔ x.Traced o := .rfl
@[simp, grind =] theorem isTraced_link (l : Link) : IsTraced o l ↔ l.Traced o := .rfl
@[simp, grind =] theorem isTraced_stmt (s : Stmt) : IsTraced o s ↔ s.Traced o := .rfl
@[simp, grind =] theorem isTraced_case (c : Case) : IsTraced o c ↔ c.Traced o := .rfl
@[simp, grind =] theorem isTraced_function (f : Function) : IsTraced o f ↔ f.Traced o := .rfl
@[simp, grind =] theorem isTraced_machine (m : Machine ω) : IsTraced o m ↔ m.Traced o := .rfl
@[simp, grind =] theorem isTraced_list [Traceable α] (as : List α) :
    IsTraced o as ↔ ∀ a ∈ as, IsTraced o a := .rfl
@[simp, grind =] theorem isTraced_option [Traceable α] (x : Option α) :
    IsTraced o x ↔ ∀ a ∈ x, IsTraced o a := .rfl
@[simp, grind =] theorem isTraced_pair [Traceable α] [Traceable β] (p : α × β) :
    IsTraced o p ↔ IsTraced o p.1 ∧ IsTraced o p.2 := .rfl

end Instances

/-- All failures that an outcome carries come from an origin. -/
@[simp, grind =]
def Outcome.Traced {α : Type} [Traceable α] (o : Origin) : Outcome α → Prop
  | .value a => IsTraced o a
  | .fault f => f.Traced o
  | .jump j => j.Traced o
  | .exhausted => True

/-- On a traced machine a run ends traced. -/
def Run.Traced {α : Type} [Traceable α] (o : Origin) (r : Run ω α) : Prop :=
  ∀ m, m.Traced o → (r m).1.Traced o ∧ (r m).2.Traced o

/-- On a traced machine with a traced value at hand a run ends traced. -/
def Focus.Traced {α : Type} [Traceable α] (o : Origin) (r : Focus ω α) : Prop :=
  ∀ d m, d.Traced o → m.Traced o →
    (r d m).1.Traced o ∧ (r d m).2.1.Traced o ∧ (r d m).2.2.Traced o

/-! ## Parts of values -/

section Parts

variable {o : Origin}

/-- Sharing adds nothing. -/
@[simp, grind =]
theorem Datum.traced_unshared (d : Datum) : d.unshared.Traced o ↔ d.Traced o := by
  induction d using Datum.unshared.induct with
  | case1 content ih => rwa [unshared, Datum.Traced]
  | case2 d hd => rw [unshared]; exact hd

/-- A fault at another position. -/
@[simp, grind =]
theorem Fault.traced_withPosition (f : Fault) (pos : Position) :
    (f.withPosition pos).Traced o ↔ f.Traced o := by
  cases f <;> rfl

/-- A fault that is placed. -/
@[simp, grind =]
theorem Fault.traced_atIfNone (f : Fault) (pos : Position) :
    (f.atIfNone pos).Traced o ↔ f.Traced o := by
  unfold atIfNone
  split <;> simp

/-- A fault without its call frames. -/
@[simp, grind =]
theorem Fault.traced_innermost (f : Fault) : f.innermost.Traced o ↔ f.Traced o := by
  induction f using Fault.innermost.induct with
  | case1 name source inner pos ih =>
    rw [innermost, Fault.Traced]
    exact ih
  | case2 f hf => rw [innermost]; exact hf

end Parts

end ScriptHost.Script
