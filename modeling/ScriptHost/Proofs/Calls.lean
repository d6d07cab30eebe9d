import Mathlib
import ScriptHost.Proofs.Evaluation

/-!
# Calls and rounds that end with a value

What a call of a native function, of a method and of a closure gives, and what a round of a loop
gives.
-/

namespace ScriptHost.Script.Evaluation

variable {ω : Type} {e : Engine ω} {ev : Evaluator ω} {m m' : Machine ω} {n : ℕ} {d d' v : Datum}

/-! ## Native functions -/

/-- Only two functions write to the log. -/
theorem report_eq {name : String} (hprint : name ≠ "print") (hdebug : name ≠ "debug") (d : Datum)
    (pos : Position) : report (ω := ω) name d pos = pure d := by
  rw [report]
  · rintro _ rfl
    exact absurd rfl hprint
  · rintro _ rfl
    exact absurd rfl hdebug

/-- A finished call has no value that is too large. -/
theorem finish_gives (he : e.Unlimited) {name : String} (hprint : name ≠ "print")
    (hdebug : name ≠ "debug") (pos : Position) (left : Option Datum) (m : Machine ω) :
    (finish e name .place pos (d, left)).Gives m (d, left) m := by
  refine .bind (checkSize_gives he d pos m) ?_
  rw [report_eq hprint hdebug]
  cases left with
  | none => exact .pure _ m
  | some d' => exact .bind (checkSize_gives he d' pos m) (.pure _ m)

/-- A finished call that leaves its first argument alone. -/
theorem finish_value_gives (he : e.Unlimited) {name : String} (hprint : name ≠ "print")
    (hdebug : name ≠ "debug") (access : Access) (pos : Position) (m : Machine ω) :
    (finish e name access pos (d, none)).Gives m (d, none) m := by
  refine .bind (checkSize_gives he d pos m) ?_
  rw [report_eq hprint hdebug]
  cases access <;> exact .pure _ m

/-- A map gives the value of a key, and the empty value without one. -/
theorem native_get_gives (he : e.Unlimited) (fields : List (String × Datum)) (key : String)
    (pos : Position) (m : Machine ω) :
    ((Evaluator.within e (n + 1)).native "get" [.map fields, .string key] .place pos).Gives m
      ((Fields.get? key fields).getD .unit, none) m :=
  .bind (tick_gives he pos m) (finish_gives he (by decide) (by decide) pos none m)

/-- An array takes one more item. -/
theorem native_push_gives (he : e.Unlimited) (items : List Datum) (d : Datum) (pos : Position)
    (m : Machine ω) :
    ((Evaluator.within e (n + 1)).native "push" [.array items, d] .place pos).Gives m
      (.unit, some (.array (items ++ [d]))) m := by
  refine .bind (tick_gives he pos m) ?_
  cases d <;> exact finish_gives he (by decide) (by decide) pos _ m

/-! ## Methods -/

/-- Values are the values of their slots. -/
theorem slotValues_gives (args : List Datum) (m : Machine ω) :
    ((args.map Slot.own).mapM slotValue).Gives m args m :=
  .mapM (List.forall₂_map_left_iff.mpr (List.forall₂_same.mpr fun d _ => .pure d m))

/-- A method that is no function of the script is a native one. -/
theorem callMethod_gives {name : String} {args : List Datum} {access : Access} {pos : Position}
    {left : Option Datum} (hfunction : function? e name args.length = none)
    (h : (ev.native name (d :: args) access pos).Gives m (v, left) m') :
    (callMethod e ev name (args.map .own) access pos).Gives d m v (left.getD d) m' := by
  rw [callMethod, List.length_map, hfunction]
  exact .bind (.lift (slotValues_gives args m) d) (.effect h)

/-- A map is asked for a key unless it holds another method of that name. -/
theorem callStep_get_gives (he : e.Unlimited) {fields : List (String × Datum)} (key : String)
    (hfunction : function? e "get" 1 = none)
    (hfield : ∀ f curried, Fields.get? "get" fields = some (.fnPtr f curried) →
      f = "get" ∧ curried = [])
    (hclosure : closure? e "get" = none) (firstPos pos : Position) (m : Machine ω) :
    (callStep e (Evaluator.within e (n + 1)) "get" [.string key] .place firstPos pos).Gives
      (.map fields) m ((Fields.get? key fields).getD .unit) (.map fields) m := by
  have hmethod : (callMethod e (Evaluator.within e (n + 1)) "get" ([Datum.string key].map .own)
      .place pos).Gives (.map fields) m ((Fields.get? key fields).getD .unit) (.map fields) m :=
    callMethod_gives hfunction (native_get_gives he fields key pos m)
  intro j
  obtain ⟨k, hk⟩ := hmethod j
  refine ⟨k, Eq.trans ?_ hk⟩
  cases hget : Fields.get? "get" fields with
  | none => simp [callStep, hget]
  | some d =>
    cases d with
    | fnPtr f curried =>
      obtain ⟨rfl, rfl⟩ := hfield f curried hget
      simp [callStep, hget, callPointerOn, pointee?, hclosure]
    | _ => simp [callStep, hget]

/-- An array takes one more item unless the script has a method of its own. -/
theorem callStep_push_gives (he : e.Unlimited) (items : List Datum) (d : Datum)
    (hfunction : function? e "push" 1 = none) (firstPos pos : Position) (m : Machine ω) :
    (callStep e (Evaluator.within e (n + 1)) "push" [d] .place firstPos pos).Gives
      (.array items) m .unit (.array (items ++ [d])) m := by
  have hmethod : (callMethod e (Evaluator.within e (n + 1)) "push" ([d].map .own) .place pos).Gives
      (.array items) m .unit (.array (items ++ [d])) m :=
    callMethod_gives hfunction (native_push_gives he items d pos m)
  exact hmethod

/-! ## Functions of the script -/

/-- The machine inside a function of the script. -/
def entered (f : Function) (args : List Slot) (m : Machine ω) : Machine ω :=
  { m with
    locals := ((f.params.zip args).map fun p => (⟨p.1, false, p.2⟩ : Variable)).reverse
    self := none
    level := m.level + 1 }

/-- The machine after a function of the script. -/
def left (m after : Machine ω) : Machine ω :=
  { after with locals := m.locals, self := m.self, level := m.level }

/-- A function with a body that the limit on calls allows is entered. -/
theorem callFunction_eq {f : Function} {args : List Slot} {m m₁ : Machine ω} {pos : Position}
    (hbody : f.body ≠ []) (htick : tick e pos m = (.value (), m₁))
    (hlevel : m₁.level < e.limits.maxCallLevels) : callFunction e ev f args pos false m =
      match (catchReturn (statements ev f.body)).mapFault (leaveCall f.name pos)
        (entered f args m₁) with
      | (o, after) => (o, left m₁ after) := by
  have hempty : f.body.isEmpty = false := by simpa using hbody
  rw [callFunction, enter, hempty, htick]
  simp only [Bool.false_eq_true, if_false, if_neg (Nat.not_lt.mpr hlevel), List.append_nil]
  rfl

/-- A value is no return to catch. -/
theorem catchReturn_gives {r : Run ω Datum} (h : r.Gives m d m') :
    (catchReturn r).Gives m d m' := by
  intro j
  obtain ⟨k, hr⟩ := h j
  exact ⟨k, by rw [catchReturn, hr]⟩

/-- A function of the script gives the value of its body. -/
theorem callFunction_gives (he : e.Unlimited) {f : Function} {args : List Slot}
    (hbody : f.body ≠ []) (hlevel : m.level < e.limits.maxCallLevels) (pos : Position)
    (h : (statements ev f.body).Gives (entered f args m) d m') :
    (callFunction e ev f args pos false).Gives m d (left m m') := by
  intro j
  obtain ⟨j', htick⟩ := tick_gives he pos m j
  obtain ⟨k, hk⟩ := (catchReturn_gives h).mapFault (leaveCall f.name pos) j'
  refine ⟨k, (callFunction_eq hbody htick hlevel).trans ?_⟩
  have hrun : (catchReturn (statements ev f.body)).mapFault (leaveCall f.name pos)
      (entered f args (m.counting j')) = (.value d, m'.counting k) := hk
  rw [hrun]
  rfl

/-! ## Steps of a path -/

/-- The last step of a path that is a method. -/
theorem follow_method_gives {name : String} {args : List Datum} {firstPos pos : Position}
    (h : (callStep e ev name args .place firstPos pos).Gives d m v d' m') (opPos : Position) :
    (follow e ev .place [(false, .method name args firstPos opPos pos)]).Gives d m v d' m' := by
  refine .bind (.target d m) ?_
  show Focus.Gives (callStep e ev name args .place firstPos pos >>= fun v => .lost v .target) d m v
    d' m'
  exact .bind h (.lost (.target v m'))

/-- The last step of a path that is an index of an array. -/
theorem follow_index_gives (he : e.Unlimited) {items : List Datum} {i : ℕ} (hi : i < items.length)
    (opPos pos : Position) (m : Machine ω) :
    (follow e ev .place [(false, .index (.int i) opPos pos)]).Gives (.array items) m items[i]
      (.array items) m := by
  have hindex : Library.index? items.length (i : ℤ) = some i := by
    rw [Library.index?, if_pos (Int.natCast_nonneg i), if_pos (Int.ofNat_lt.mpr hi),
      Int.toNat_natCast]
  have hpart : (indexPart e false (.array items) (.int i) pos opPos).Gives m
      (.place items[i] fun d => .array (items.set i d)) m := by
    refine .bind (tick_gives he .none m) ?_
    simp only [hindex]
    rw [List.getD_eq_getElem _ _ hi]
    exact .pure _ m
  refine .bind (.target _ m) ?_
  show Focus.Gives (Focus.lift (indexPart e false (.array items) (.int i) pos opPos) >>= fun p =>
    inside p (follow e ev .place []) (follow e ev .copy [])) _ m _ _ m
  have hback : putBack (.place items[i] fun d => .array (items.set i d)) (.array items) items[i] =
      .array items := by
    rw [putBack, Part.place]
    simp
  refine .bind (.lift hpart _) ?_
  have hitem : (Focus.part items[i] (putBack (.place items[i] fun d => .array (items.set i d)))
      Focus.target).Gives (.array items) m items[i] _ m := .part (.target items[i] m)
  rwa [hback] at hitem

/-! ## Arguments -/

/-- The value of an argument that is no constant. -/
theorem argument_gives {x : Expr} (hx : x.value? = none) (h : (ev.expression x).Gives m d m') :
    (argument e ev x).Gives m d m' := by
  rw [argument, hx]
  exact h

/-- The path of one index that is a value. -/
theorem path_index_gives (d : Datum) (opPos pos : Position) (m : Machine ω) :
    (path e ev [.index (.literal d pos) false opPos]).Gives m [(false, .index d opPos pos)] m := by
  have hstep : simpleStep? (.index (.literal d pos) false opPos) =
      some (false, .index d opPos pos) := by
    simp [simpleStep?, Expr.constant?, Expr.startPosition, Expr.position]
  rw [path, hstep]
  exact .pure _ m

/-- The path of one method with arguments. -/
theorem path_method_gives (he : e.Unlimited) (name : String) {args : List Expr}
    {values : List Datum} (hne : args ≠ [])
    (hargs : List.Forall₂ (fun x d => (argument e ev x).Gives m d m) args values)
    (opPos pos : Position) : (path e ev [.method name args false opPos pos]).Gives m
      [(false, .method name values ((args.head?.map Expr.startPosition).getD .none) opPos pos)]
      m := by
  obtain ⟨x, rest, rfl⟩ := List.exists_cons_of_ne_nil hne
  exact .bind (tick_gives he _ m)
    (.bind (.bind (.mapM hargs) (.pure _ m)) (.bind (.pure _ m) (.pure _ m)))

/-! ## Declarations -/

/-- A declaration puts a variable in sight. -/
theorem declare_gives (he : e.Unlimited) (name : String) {x : Expr}
    (h : ((Evaluator.within e n).expression x).Gives m d m') (pos : Position) :
    ((Evaluator.within e (n + 1)).statement (.declare name false false x pos)).Gives m .unit
      (m'.declare name false (.own d.unshared)) := by
  have hdeclare : (Run.update (Machine.declare name false (.own d.unshared))).Gives m' ()
      (m'.declare name false (.own d.unshared)) := .update (fun _ _ => rfl) m'
  exact statement_gives he (.bind h (hdeclare.bind (.pure _ _)))

/-! ## Loops -/

/-- The body of a loop gives a round. -/
theorem bodyRound_gives {body : List Stmt} (hbody : body ≠ [])
    (h : (statements ev body).Gives m d m') :
    (bodyRound ev body).Gives m .goOn (m'.rewind m.locals.length) := by
  have hempty : body.isEmpty = false := by simpa using hbody
  have hblock : (blockRule ev body).Gives m d (m'.rewind m.locals.length) := by
    rw [blockRule, hempty]
    exact h.afterwards fun _ _ => rfl
  intro j
  obtain ⟨k, hk⟩ := hblock j
  exact ⟨k, by rw [bodyRound, hk]⟩

/-- Setting the variable of a loop has nothing to do with the count of operations. -/
theorem setAt_uncounted (depth : ℕ) (d : Datum) : Machine.Uncounted (ω := ω) (setAt depth d) := by
  intro m j
  have hlocals : (m.counting j).locals = m.locals := rfl
  rw [setAt, setAt, hlocals]
  cases m.locals[depth]? with
  | none => rfl
  | some v =>
    obtain ⟨_, _, slot⟩ := v
    cases slot <;> rfl

/-- Setting the variable of a loop declares none. -/
theorem setAt_length (depth : ℕ) (d : Datum) (m : Machine ω) :
    (setAt depth d m).locals.length = m.locals.length := by
  rw [setAt]
  cases m.locals[depth]? with
  | none => rfl
  | some v =>
    obtain ⟨_, _, slot⟩ := v
    cases slot with
    | own _ => exact List.length_set
    | cell _ => rfl

end ScriptHost.Script.Evaluation
