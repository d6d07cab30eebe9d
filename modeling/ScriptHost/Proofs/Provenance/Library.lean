import ScriptHost.Proofs.Fields
import ScriptHost.Proofs.Provenance.Data

/-!
# The library keeps to an origin

Operators and native functions make no failures: what they give, and what they leave of their first
argument, is made of parts of their arguments and of plain values.
-/

namespace ScriptHost.Script

variable {o : Origin}

/-! ## Operators -/

namespace Operator

/-- If an operator has a value, all failures in it come from an origin. -/
def Traced (o : Origin) (x : Option Result) : Prop := ∀ d, x = some (.ok d) → d.Traced o

@[grind ←]
theorem traced_none : Traced o none := fun _ h => nomatch h

theorem traced_error (c : Cause) : Traced o (some (.error c)) := fun _ h => by cases h

@[grind ←]
theorem traced_ok {d : Datum} (hd : d.Traced o) : Traced o (some (.ok d)) :=
  fun _ h => by cases h; exact hd

/-- An operator on a part, if there is one. -/
@[grind ←]
theorem traced_bind {α : Type} {x : Option α} {f : α → Option Result}
    (hf : ∀ a, Traced o (f a)) : Traced o (x.bind f) := by
  cases x with
  | none => exact traced_none
  | some a => exact hf a

@[grind ←]
theorem traced_undefined (what lhs symbol rhs : String) :
    Traced o (some (undefined what lhs symbol rhs)) := traced_error _

@[grind ←]
theorem traced_checkedInt (i a b : ℤ) (what symbol : String) :
    Traced o (some (checkedInt i what a symbol b)) := by
  unfold checkedInt
  grind

@[grind ←]
theorem traced_power (a b : ℤ) : Traced o (some (power a b)) := by
  unfold power
  grind

@[grind ←]
theorem traced_comparison? (symbol : String) (order : Ordering) :
    Traced o (comparison? symbol order) := by
  unfold comparison?
  cases compared? symbol order with
  | none => exact traced_none
  | some b => exact traced_ok (by simp)

@[grind ←]
theorem traced_unlike? (symbol : String) : Traced o (unlike? symbol) := by
  unfold unlike?
  split <;> grind

@[grind ←]
theorem traced_int? (symbol : String) (a b : ℤ) : Traced o (int? symbol a b) := by
  unfold int?
  split <;> grind

@[grind ←]
theorem traced_float? (symbol : String) (a b : Float) : Traced o (float? symbol a b) := by
  unfold float?
  split <;> grind

@[grind ←]
theorem traced_decimal? (symbol : String) (a b : Decimal) : Traced o (decimal? symbol a b) := by
  unfold decimal?
  dsimp only
  split <;> grind

@[grind ←]
theorem traced_text? (symbol a b : String) : Traced o (text? symbol a b) := by
  unfold text?
  split <;> grind

@[grind ←]
theorem traced_bool? (symbol : String) (a b : Bool) : Traced o (bool? symbol a b) := by
  unfold bool?
  split <;> grind

@[grind ←]
theorem traced_blob? (symbol : String) (a b : List ℕ) : Traced o (blob? symbol a b) := by
  unfold blob?
  split <;> grind

@[grind ←]
theorem traced_contains? (a b : Datum) : Traced o (contains? a b) := by
  unfold contains?
  split <;> grind

/-- An operator makes no failures. -/
theorem traced_binary? (symbol : String) (a b : Datum) : Traced o (binary? symbol a b) := by
  unfold binary?
  split <;> grind

/-- An operator in front makes no failures. -/
theorem traced_unary? (symbol : String) (d : Datum) : Traced o (unary? symbol d) := by
  unfold unary?
  split <;> grind

end Operator

/-! ## Answers -/

/-- All failures in an answer come from an origin. -/
structure Answer.Traced (o : Origin) (a : Answer) : Prop where
  /-- Those in the value do. -/
  outcome : ∀ d, a.outcome = .ok d → d.Traced o
  /-- Those in the changed first argument do. -/
  self : ∀ d ∈ a.self, d.Traced o

namespace Library

/-- If there is an answer, all failures in it come from an origin. -/
def Traced (o : Origin) (x : Option Answer) : Prop := ∀ a ∈ x, a.Traced o

@[grind ←]
theorem traced_none : Traced o none := fun _ ha => nomatch ha

@[grind ←]
theorem traced_changes {self value : Datum} (hself : self.Traced o) (hvalue : value.Traced o) :
    Traced o (changes self value) := by
  rintro _ ⟨⟩
  exact ⟨fun d hd => by cases hd; exact hvalue, fun d hd => by cases hd; exact hself⟩

@[grind ←]
theorem traced_becomes {self : Datum} (hself : self.Traced o) : Traced o (becomes self) :=
  traced_changes hself (by simp)

@[grind ←]
theorem traced_yields {d : Datum} (hd : d.Traced o) : Traced o (yields d) := by
  rintro _ ⟨⟩
  exact ⟨fun d' hd' => by cases hd'; exact hd, fun _ hd' => nomatch hd'⟩

@[grind ←]
theorem traced_yieldsInt (i : ℤ) : Traced o (yieldsInt i) := traced_yields (by simp)

@[grind ←]
theorem traced_yieldsBool (b : Bool) : Traced o (yieldsBool b) := traced_yields (by simp)

@[grind ←]
theorem traced_yieldsText (s : String) : Traced o (yieldsText s) := traced_yields (by simp)

@[grind ←]
theorem traced_fails (c : Cause) : Traced o (fails c) := by
  rintro _ ⟨⟩
  exact ⟨fun _ hd => (nomatch hd), fun _ hd => (nomatch hd)⟩

@[grind ←]
theorem traced_ofResult {r : Operator.Result} (hr : Operator.Traced o (some r)) :
    Traced o (ofResult r) := by
  rintro _ ⟨⟩
  exact ⟨fun d hd => hr d (congrArg some hd), fun _ hd => (nomatch hd)⟩

/-- An answer about a part, if there is one. -/
@[grind ←]
theorem traced_bind {α : Type} {x : Option α} {f : α → Option Answer}
    (hf : ∀ a, x = some a → Traced o (f a)) : Traced o (x.bind f) := by
  cases x with
  | none => exact traced_none
  | some a => exact hf a rfl

/-- The first of two answers. -/
theorem traced_orElse {x y : Option Answer} (hx : Traced o x) (hy : Traced o y) :
    Traced o (x <|> y) := by
  cases x with
  | none => exact hy
  | some a => exact hx

/-! ## Arrays, bytes and maps -/

@[grind ←]
theorem traced_answerEqual (negated : Bool) (a b : Datum) :
    Traced o (answerEqual negated a b) := by
  unfold answerEqual
  grind

@[grind ←]
theorem traced_answerFound {f : Option ℕ → Option Answer} (hf : ∀ n, Traced o (f n))
    (r : Except Cause (Option ℕ)) : Traced o (answerFound f r) := by
  cases r with
  | ok n => exact hf n
  | error c => exact traced_fails c

/-- A part has items of the whole. -/
@[grind →]
theorem mem_of_mem_slice {α : Type} {as : List α} {part : ℕ × ℕ} {a : α}
    (ha : a ∈ slice as part) : a ∈ as := List.mem_of_mem_drop (List.mem_of_mem_take ha)

/-- A list with a part replaced has items of both. -/
@[grind →]
theorem mem_or_mem_of_mem_spliced {α : Type} {as others : List α} {part : ℕ × ℕ} {a : α}
    (ha : a ∈ spliced as part others) : a ∈ as ∨ a ∈ others := by
  rcases List.mem_append.mp ha with hfront | hback
  · exact (List.mem_append.mp hfront).imp_left List.mem_of_mem_take
  · exact .inl (List.mem_of_mem_drop hback)

/-- A value that is there, or the empty value. -/
@[grind ←]
theorem traced_getD {x : Option Datum} (hx : ∀ d ∈ x, d.Traced o) : (x.getD .unit).Traced o := by
  cases x with
  | none => simp
  | some d => exact hx d rfl

theorem traced_arrayQuestion (name : String) {args : List Datum}
    (hargs : ∀ d ∈ args, d.Traced o) : Traced o (arrayQuestion name args) := by
  have hposition (n : Option ℕ) : Traced o (arrayQuestion.position n) := by
    cases n <;> exact traced_yieldsInt _
  unfold arrayQuestion
  split
  all_goals try simp only [List.forall_mem_cons, Datum.Traced] at hargs
  all_goals grind

theorem traced_arrayChange (name : String) {args : List Datum}
    (hargs : ∀ d ∈ args, d.Traced o) : Traced o (arrayChange name args) := by
  unfold arrayChange
  split
  all_goals try simp only [List.forall_mem_cons, Datum.Traced] at hargs
  all_goals try split
  all_goals try grind [→ List.mem_of_mem_eraseIdx]
  · -- The last item is taken off.
    next as rest d others heq =>
    have hall : ∀ a ∈ d :: others, a.Traced o := by
      rw [← heq]
      exact fun a ha => hargs.1 a (List.mem_reverse.mp ha)
    grind

theorem traced_blobFunction (name : String) {args : List Datum}
    (hargs : ∀ d ∈ args, d.Traced o) : Traced o (blobFunction name args) := by
  unfold blobFunction
  split
  all_goals grind

/-- Fields with others written over them have no other field. -/
@[grind →]
theorem mem_or_mem_of_mem_union {α : Type} {fields others : List (String × α)} {p : String × α}
    (hp : p ∈ Fields.union fields others) : p ∈ fields ∨ p ∈ others := by
  induction others using List.reverseRecOn with
  | nil => exact .inl hp
  | append_singleton others other ih =>
    rw [Fields.union, List.foldl_append] at hp
    rcases Fields.mem_insert hp with rfl | hp
    · exact .inr (List.mem_append_right others List.mem_cons_self)
    · exact (ih hp).imp_right (List.mem_append_left [other])

/-- A value that is found belongs to a field. -/
@[grind →]
theorem mem_of_mem_get? {α : Type} {fields : List (String × α)} {key : String} {value : α}
    (h : value ∈ Fields.get? key fields) : (key, value) ∈ fields := Fields.mem_of_get? h

theorem traced_mapFunction (name : String) {args : List Datum}
    (hargs : ∀ d ∈ args, d.Traced o) : Traced o (mapFunction name args) := by
  unfold mapFunction
  split
  all_goals try simp only [List.forall_mem_cons, Datum.Traced] at hargs
  all_goals grind [→ Fields.mem_insert, Fields.erase, Fields.keys, Fields.values]

/-! ## Numbers and texts -/

/-- A native function that gives plain values only. -/
def IsPlain (f : Native) : Prop := ∀ o args, Traced o (f args)

@[grind ←]
theorem traced_failsArithmetic (message : String) : Traced o (failsArithmetic message) :=
  traced_fails _

@[grind ←]
theorem traced_yieldsDecimal (what : String) (x : Option Decimal) :
    Traced o (yieldsDecimal what x) := by
  cases x with
  | none => exact traced_failsArithmetic what
  | some d => exact traced_yields (by simp)

@[grind ←]
theorem traced_wholeDecimal (f : ℤ → ℕ → ℤ) (d : Decimal) : Traced o (wholeDecimal f d) :=
  traced_yieldsDecimal _ _

@[grind ←]
theorem traced_checkedMagnitude (i : ℤ) : Traced o (checkedMagnitude i) := by
  unfold checkedMagnitude
  grind

@[grind ←]
theorem traced_parseInt_go (s : String) (base : ℕ) : Traced o (parseInt.go s base) := by
  unfold parseInt.go
  grind

@[grind ←]
theorem traced_extreme_float (greater : Bool) (a b : Float) :
    Traced o (extreme.float greater a b) := by
  unfold extreme.float
  grind

theorem isPlain_numberFunctions : ∀ p ∈ numberFunctions, IsPlain p.2 := by
  intro p hp o args
  fin_cases hp
  all_goals
    simp only [negate.eq_def, plus.eq_def, abs.eq_def, sign.eq_def, isZero.eq_def, isOdd.eq_def,
      isEven.eq_def, rounding.eq_def, fraction.eq_def, parseInt.eq_def, parseFloat.eq_def,
      parseDecimal.eq_def, toInt.eq_def, toFloat.eq_def, toDecimal.eq_def, toDigits.eq_def,
      squareRoot.eq_def, floatFunction.eq_def, log.eq_def, atan.eq_def, hypot.eq_def,
      extreme.eq_def, getBit.eq_def, setBit.eq_def]
    grind

@[grind ←]
theorem traced_yieldsTexts (texts : List (List Char)) : Traced o (yieldsTexts texts) :=
  traced_yields (by simp [ofChars])

@[grind ←]
theorem traced_ofChars (cs : List Char) : (ofChars cs).Traced o := by simp [ofChars]

@[grind ←]
theorem traced_caseOf (f : Char → List Char) (c : Char) : (caseOf f c).Traced o := by
  unfold caseOf
  grind

@[grind ←]
theorem traced_indexInText_answer (n : Option ℕ) : Traced o (indexInText.answer n) := by
  cases n <;> exact traced_yieldsInt _

@[grind ←]
theorem traced_splitRev_go (p : List Char) (limit : ℕ) (s : String) :
    Traced o (splitRev.go p limit s) := traced_yieldsTexts _

theorem isPlain_textFunctions : ∀ p ∈ textFunctions, IsPlain p.2 := by
  intro p hp o args
  fin_cases hp
  all_goals
    simp only [textFunction.eq_def, inCase.eq_def, makeCase.eq_def, textChange.eq_def,
      textQuestion.eq_def, indexInText.eq_def, split.eq_def, splitRev.eq_def, replaceAll.eq_def,
      popText.eq_def, padText.eq_def]
    grind

/-- A function looked up in a table of plain functions. -/
theorem traced_inTable {table : List (String × Native)} (htable : ∀ p ∈ table, IsPlain p.2)
    (name : String) (args : List Datum) : Traced o (inTable table name args) := by
  intro a ha
  obtain ⟨⟨n, f⟩, hp, hanswer⟩ := List.exists_of_findSome?_eq_some ha
  dsimp only at hanswer
  split at hanswer
  · exact htable (n, f) hp o args a hanswer
  · cases hanswer

/-! ## The whole library -/

theorem traced_bigFunction (name : String) (args : List Datum) :
    Traced o (bigFunction name args) := by
  unfold bigFunction
  split <;> grind

theorem traced_showFunction (name : String) (args : List Datum) :
    Traced o (showFunction name args) := by
  unfold showFunction
  split <;> grind

theorem traced_valueFunction (name : String) (args : List Datum) :
    Traced o (valueFunction name args) := by
  have hsteps (a b step : ℤ) : Traced o (valueFunction.steps a b step) := by
    unfold valueFunction.steps
    grind
  unfold valueFunction
  split <;> grind

theorem traced_operatorAnswer? (name : String) (args : List Datum) :
    Traced o (operatorAnswer? name args) := by
  unfold operatorAnswer?
  split
  · next a b =>
    have hbinary := Operator.traced_binary? (o := o) name a b
    split
    · next r hr => exact traced_ofResult (hr ▸ hbinary)
    · exact traced_none
  · next a =>
    have hunary := Operator.traced_unary? (o := o) name a
    exact traced_bind fun r hr => traced_ofResult (hr ▸ hunary)
  · exact traced_none

theorem traced_late (name : String) {args : List Datum} (hargs : ∀ d ∈ args, d.Traced o) :
    Traced o (answer?.late name args) := by
  unfold answer?.late
  split
  all_goals try simp only [List.forall_mem_cons, Datum.Traced] at hargs
  all_goals grind

/-- **The library makes no failures.** What it answers to traced arguments is traced. -/
theorem traced_answer? (name : String) {args : List Datum} (hargs : ∀ d ∈ args, d.Traced o) :
    Traced o (answer? name args) := by
  unfold answer?
  repeat' apply traced_orElse
  · exact traced_arrayQuestion name hargs
  · exact traced_arrayChange name hargs
  · exact traced_mapFunction name hargs
  · exact traced_inTable isPlain_numberFunctions name args
  · exact traced_inTable isPlain_textFunctions name args
  · exact traced_blobFunction name hargs
  · exact traced_bigFunction name args
  · exact traced_valueFunction name args
  · exact traced_operatorAnswer? name args
  · exact traced_showFunction name args
  · exact traced_late name hargs

/-- A property of a traced value is traced. -/
theorem traced_property? (name : String) {d : Datum} (hd : d.Traced o) :
    ∀ v ∈ property? name d, v.Traced o := by
  intro v hv
  unfold property? at hv
  split at hv
  all_goals try (cases hv; simp)
  split at hv
  · split at hv
    · next heq =>
      cases hv
      exact (traced_answer? name (by simpa using hd) _ heq).outcome v rfl
    · cases hv
  · cases hv

end Library

end ScriptHost.Script
