import Mathlib
import ScriptHost.Proofs.Decoding
import ScriptHost.Proofs.Failures
import ScriptHost.Proofs.Preamble

/-!
# Calls of host functions

A script calls a function of the bridge through a function of its own, which passes its parameters
on to the dispatcher. Such a call asks the bridge once, for the host values of its arguments, and
comes to the encoded answer or to the failure.
-/

namespace ScriptHost

open Script

variable {ω : Type}

/-- The machine after the answer of a host function. -/
def Script.Machine.answered (m : Machine ω) (reply : Reply ω) : Machine ω :=
  { m with world := reply.world, log := reply.log.reverse ++ m.log }

/-- What a call comes to that a host function answers: the encoded value, or the failure. -/
def Reply.ending (reply : Reply ω) (m : Machine ω) : Except (Failure × ω) (Datum × Machine ω) :=
  match reply.outcome with
  | .ok v => .ok (encode v, m.answered reply)
  | .error f => .error (f, reply.world)

namespace Script.Evaluation

variable {e : Engine ω} {ev : Evaluator ω} {m m' : Machine ω} {n : ℕ} {d : Datum}

/-! ## The dispatcher -/

/-- A host function is asked for the host values of the arguments. -/
theorem callHost_ends (e : Engine ω) (name : String) (args : List Datum) (pos : Position)
    (m : Machine ω) :
    (callHost e name args pos).Ends m
      ((e.bridge.call name (args.map decoded) m.world).ending m) := by
  have hrun (m' : Machine ω) : callHost e name args pos m' =
      match (e.bridge.call name (args.map decoded) m'.world).outcome with
      | .ok v => (.value (encode v), m'.answered (e.bridge.call name (args.map decoded) m'.world))
      | .error f => (.fault (.thrown (.failure f) pos),
          m'.answered (e.bridge.call name (args.map decoded) m'.world)) := by
    rw [callHost, mapM_decode]
    rfl
  cases houtcome : (e.bridge.call name (args.map decoded) m.world).outcome with
  | ok v =>
    rw [Reply.ending, houtcome]
    intro j
    refine ⟨j, (hrun (m.counting j)).trans ?_⟩
    have hsame : (e.bridge.call name (args.map decoded) (m.counting j).world).outcome = .ok v :=
      houtcome
    rw [hsame]
    rfl
  | error f =>
    rw [Reply.ending, houtcome]
    intro j
    have hsame : (e.bridge.call name (args.map decoded) (m.counting j).world).outcome = .error f :=
      houtcome
    refine ⟨_, _, (hrun (m.counting j)).trans (by rw [hsame]), rfl, rfl⟩

/-- The dispatcher calls the function that it is given the name of. -/
theorem native_dispatcher_ends (he : e.Unlimited) (name : String) (args : List Datum)
    (access : Access) (pos : Position) (m : Machine ω) :
    ((Evaluator.within e (n + 1)).native hostBinding [.string name, .array args] access pos).Ends m
      (((e.bridge.call name (args.map decoded) m.world).ending m).map fun p =>
        ((p.1, none), p.2)) := by
  have hcall := (callHost_ends e name args pos m).before (k := fun p => ((p.1, none), p.2))
    (g := fun d => finish e hostBinding access pos (d, none)) fun d m' _ =>
      finish_value_gives he (by decide) (by decide) access pos m'
  exact .after (tick_gives he pos m) hcall

/-! ## Functions that stand for host functions -/

/-- A function of the script holds its arguments under the names of its parameters. -/
theorem holds_parameters {f : Function} (hnodup : f.params.Nodup) {args : List Datum}
    (hargs : f.params.length = args.length) (m : Machine ω) :
    List.Forall₂ (fun x d => Holds e (entered f (args.map .own) m) x true d) f.params args := by
  have hnames : ((f.params.zip (args.map Slot.own)).map Prod.fst).Nodup := by
    rwa [List.map_fst_zip (by simp [hargs])]
  refine List.forall₂_iff_get.mpr ⟨hargs, fun i hi hi' => ⟨rfl, ?_⟩⟩
  have hmem : (f.params[i], Slot.own args[i]) ∈ f.params.zip (args.map Slot.own) :=
    List.mem_iff_getElem.mpr ⟨i, by simpa using ⟨hi, hi'⟩, by simp⟩
  have hsome : ((entered f (args.map .own) m).lookup? f.params[i]).isSome := by
    rw [Machine.lookup?, List.find?_isSome]
    exact ⟨_, List.mem_reverse.mpr (List.mem_map_of_mem hmem), beq_self_eq_true _⟩
  obtain ⟨v, hv⟩ := Option.isSome_iff_exists.mp hsome
  have hname := List.find?_some hv
  obtain ⟨p, hp, rfl⟩ := List.mem_map.mp (List.mem_reverse.mp (List.mem_of_find?_eq_some hv))
  have hsame := List.inj_on_of_nodup_map hnames hp hmem (by simpa using hname)
  rw [hsame] at hv
  exact hv

/-- The items of an array that are variables. -/
theorem arrayRule_gives (he : e.Unlimited) {items : List Expr} {names : List String}
    {ds : List Datum} (hitems : List.Forall₂ (fun x e => ∃ p, e = .var x true p) names items)
    (hholds : List.Forall₂ (fun x d => Holds e m x true d) names ds) (reversed : List Datum) :
    (arrayRule e (Evaluator.within e (n + 1)) items reversed).Gives m
      (.array (reversed.reverse ++ ds.map Datum.unshared)) m := by
  induction hitems generalizing ds reversed with
  | nil =>
    cases hholds
    rw [List.map_nil, List.append_nil]
    exact .pure _ m
  | cons hitem _ ih =>
    obtain ⟨p, rfl⟩ := hitem
    cases hholds with
    | cons hhold hholds =>
      rename_i d ds
      have hrest := ih hholds (d.unshared :: reversed)
      rw [List.reverse_cons, List.append_assoc, List.singleton_append] at hrest
      exact .bind (var_gives he hhold p) (.bind (checkSize_gives he _ _ m) hrest)

/-- An argument that gathers variables. -/
theorem argument_gathers_gives (he : e.Unlimited) {names : List String} {ds : List Datum}
    {x : Expr} (hx : Gathers names x)
    (hholds : List.Forall₂ (fun x d => Holds e m x true d) names ds) :
    (argument e (Evaluator.within e (n + 2)) x).Gives m (.array (ds.map Datum.unshared)) m := by
  cases hx with
  | empty pos =>
    cases hholds
    exact .bind (tick_gives he _ m) (.pure _ m)
  | array hitems pos =>
    cases hitems with
    | nil =>
      cases hholds
      exact .bind (tick_gives he _ m) (.pure _ m)
    | cons hfirst hrest =>
      have hvalue := arrayRule_gives (n := n) he (.cons hfirst hrest) hholds []
      obtain ⟨p, rfl⟩ := hfirst
      exact argument_gives (by simp [Expr.value?, Expr.constant?, constants?])
        (expression_gives he hvalue)

/-- A call of the dispatcher with variables asks the function for their host values. -/
theorem dispatch_ends (he : e.Unlimited) (hdispatch : function? e hostBinding 2 = none)
    {name : String} {params : List String} {ds : List Datum} {x : Expr}
    (hx : IsDispatch name params x)
    (hholds : List.Forall₂ (fun x d => Holds e m x true d) params ds) :
    (valueRule e (Evaluator.within e (n + 2)) x).Ends m
      ((e.bridge.call name (ds.map decoded) m.world).ending m) := by
  obtain ⟨harray, p, q⟩ := hx
  have harguments : (arguments e (Evaluator.within e (n + 2))
      [.literal (.string name) p, _]).Gives m
      [.string name, .array (ds.map Datum.unshared)] m :=
    .mapM (.cons (.bind (tick_gives he _ m) (.pure _ m))
      (.cons (argument_gathers_gives he harray hholds) .nil))
  have hdecoded : (ds.map Datum.unshared).map decoded = ds.map decoded := by
    rw [List.map_map]
    exact List.map_congr_left fun d _ => decoded_unshared d
  have hnative := native_dispatcher_ends (n := n + 1) he name (ds.map Datum.unshared) .copy q m
  rw [hdecoded] at hnative
  have hnamed : (callByName e (Evaluator.within e (n + 2)) hostBinding
      ([Datum.string name, .array (ds.map Datum.unshared)].map .own) .copy q false).Ends m
        (((e.bridge.call name (ds.map decoded) m.world).ending m).map fun p =>
          ((p.1, none), p.2)) := by
    rw [callByName, List.length_map, List.length_cons, List.length_singleton, hdispatch]
    exact .after (slotValues_gives _ m) hnative
  have hcall : (callValues e (Evaluator.within e (n + 2)) hostBinding
      [.string name, .array (ds.map Datum.unshared)] false q).Ends m
        ((((e.bridge.call name (ds.map decoded) m.world).ending m).map fun p =>
          ((p.1, none), p.2)).map fun p => (p.1.1, p.2)) :=
    hnamed.before fun effect m' _ => .pure effect.1 m'
  have hending (o : Except (Failure × ω) (Datum × Machine ω)) : (o.map fun p =>
      ((p.1, (none : Option Datum)), p.2)).map (fun p => (p.1.1, p.2)) = o := by
    cases o <;> rfl
  rw [hending] at hcall
  exact .after harguments hcall

/-! ## Calls of functions -/

/-- A function that sees no variables of its caller. -/
theorem insideFunction_entered (f : Function) (args : List Slot) (m : Machine ω) :
    insideFunction f args false none m = entered f args m := by
  simp [insideFunction, entered]

/-- A function of the script comes to what its body comes to. -/
theorem callFunction_ends (he : e.Unlimited) {f : Function} {args : List Slot} (hbody : f.body ≠ [])
    (hlevel : m.level < e.limits.maxCallLevels) (pos : Position)
    {o : Except (Failure × ω) (Datum × Machine ω)}
    (h : (statements ev f.body).Ends (entered f args m) o) :
    (callFunction e ev f args pos false).Ends m (o.map fun p => (p.1, left m p.2)) := by
  cases o with
  | ok p => exact callFunction_gives he hbody hlevel pos h
  | error p =>
    intro j
    obtain ⟨k, htick⟩ := tick_gives he pos m j
    refine callFunction_failsOn hbody htick hlevel ?_
    rw [insideFunction_entered]
    exact h k

/-- A statement comes to what its rule comes to. -/
theorem statement_ends (he : e.Unlimited) {s : Stmt} {o : Except (Failure × ω) (Datum × Machine ω)}
    (h : (actionRule e (Evaluator.within e n) s).Ends m o) :
    ((Evaluator.within e (n + 1)).statement s).Ends m o :=
  .after (tick_gives he _ m) h

/-- **A function that stands for a host function asks it once.** The host function gets the host
values of the arguments in their order; the call comes to its encoded answer or to its failure. -/
theorem callFunction_stub_ends (he : e.Unlimited) (hdispatch : function? e hostBinding 2 = none)
    {name : String} {arity : ℕ} {f : Function} (hf : IsStub .callOnly (name, arity) f)
    {args : List Datum} (hargs : args.length = arity) (hlevel : m.level < e.limits.maxCallLevels)
    (pos : Position) :
    (callFunction e (Evaluator.within e (n + 3)) f (args.map .own) pos false).Ends m
      ((e.bridge.call name (args.map decoded) m.world).ending m) := by
  obtain ⟨x, hx, rfl⟩ := hf
  have hlength : (parameterNames arity).length = args.length := by simp [parameterNames, hargs]
  have hholds := holds_parameters (e := e)
    (f := ⟨name, parameterNames arity, [.callOnly x]⟩) (parameterNames_nodup arity) hlength m
  have hbody := dispatch_ends (n := n) he hdispatch hx hholds
  have hcall := callFunction_ends (f := ⟨name, parameterNames arity, [.callOnly x]⟩) he
    (List.cons_ne_nil _ _) hlevel pos (statement_ends he (s := .callOnly x) hbody)
  have hending (reply : Reply ω) :
      (reply.ending (entered ⟨name, parameterNames arity, [.callOnly x]⟩ (args.map .own) m)).map
        (fun p => (p.1, left m p.2)) = reply.ending m := by
    cases houtcome : reply.outcome <;> simp only [Reply.ending, houtcome] <;> rfl
  have hsame := hending (e.bridge.call name (args.map decoded) m.world)
  rw [← hsame]
  exact hcall

/-- The values of the arguments of a call by name. A variable or the object in front is read after
the other arguments. -/
def callArguments (e : Engine ω) (ev : Evaluator ω) (args : List Expr) : Run ω (List Datum) :=
  match args with
  | .this selfPos :: rest => do
    tick e selfPos
    let values ← arguments e ev rest
    let self ← selfValue selfPos
    pure (self :: values)
  | .var v known varPos :: rest => do
    tick e varPos
    let values ← arguments e ev rest
    let first ← variableValue e v known varPos
    pure (first :: values)
  | args => arguments e ev args

/-- There is one value for each argument. -/
theorem length_arguments {args : List Expr} {ds : List Datum}
    (h : arguments e ev args m = (.value ds, m')) : ds.length = args.length := by
  rw [arguments] at h
  induction args generalizing ds m with
  | nil =>
    cases h
    rfl
  | cons x args ih =>
    rw [List.mapM_cons] at h
    obtain ⟨d, m₁, -, h⟩ := Run.bind_eq_value.mp h
    obtain ⟨rest, m₂, hrest, h⟩ := Run.bind_eq_value.mp h
    cases h
    rw [List.length_cons, List.length_cons, ih hrest]

/-- There is one value for each argument of a call by name. -/
theorem length_callArguments {args : List Expr} {ds : List Datum}
    (h : callArguments e ev args m = (.value ds, m')) : ds.length = args.length := by
  cases args with
  | nil => exact length_arguments h
  | cons x rest =>
    cases x with
    | this selfPos =>
      obtain ⟨_, m₁, -, h⟩ := Run.bind_eq_value.mp h
      obtain ⟨values, m₂, hvalues, h⟩ := Run.bind_eq_value.mp h
      obtain ⟨self, m₃, -, h⟩ := Run.bind_eq_value.mp h
      cases h
      rw [List.length_cons, List.length_cons, length_arguments hvalues]
    | var v known varPos =>
      obtain ⟨_, m₁, -, h⟩ := Run.bind_eq_value.mp h
      obtain ⟨values, m₂, hvalues, h⟩ := Run.bind_eq_value.mp h
      obtain ⟨first, m₃, -, h⟩ := Run.bind_eq_value.mp h
      cases h
      rw [List.length_cons, List.length_cons, length_arguments hvalues]
    | _ => exact length_arguments h

/-- A function of the script leaves its first argument alone. -/
theorem callByName_function {name : String} {args : List Slot} {f : Function}
    (hfunction : function? e name args.length = some f) (access : Access) (pos : Position) :
    callByName e ev name args access pos false =
      callFunction e ev f args pos false >>= fun d => pure (d, none) := by
  rw [callByName, hfunction]

/-- What is left of a call by name after its arguments. A native function may change the variable or
the object in front. -/
def callOnArguments (e : Engine ω) (ev : Evaluator ω) (name : String) (args : List Expr)
    (pos : Position) (ds : List Datum) : Run ω Datum :=
  match args with
  | .this _ :: _ => do
    let (d, left) ← callByName e ev name (ds.map .own) .place pos false
    match left with
    | some s => .update fun m => { m with self := some s }
    | none => pure ()
    pure d
  | .var v known _ :: _ => do
    let access ← variableAccess e v known
    let (d, left) ← callByName e ev name (ds.map .own) access pos false
    match left, access with
    | some s, .place => .update (Machine.setVariable v s)
    | _, _ => pure ()
    pure d
  | _ => callValues e ev name ds false pos

/-- A call by name evaluates its arguments first. -/
theorem callNamed_arguments (e : Engine ω) (ev : Evaluator ω) (name : String) (args : List Expr)
    (pos : Position) : callNamed e ev name args false pos =
      callArguments e ev args >>= callOnArguments e ev name args pos := by
  cases args with
  | nil => rfl
  | cons x rest =>
    cases x with
    | this selfPos => simp only [callNamed, callArguments, bind_assoc, pure_bind]; rfl
    | var v known varPos => simp only [callNamed, callArguments, bind_assoc, pure_bind]; rfl
    | _ => rfl

/-- How a call may use a variable is known without doing anything. -/
theorem variableAccess_value (e : Engine ω) (name : String) (known : Bool) (m : Machine ω) :
    ∃ access, variableAccess e name known m = (.value access, m) := by
  rw [variableAccess]
  split <;> exact ⟨_, rfl⟩

/-- The call of a function of the script, after its arguments. -/
theorem callOnArguments_eq {name : String} {args : List Expr} {f : Function} {ds : List Datum}
    (hfunction : function? e name (ds.map Slot.own).length = some f) (pos : Position)
    (m : Machine ω) :
    callOnArguments e ev name args pos ds m = callFunction e ev f (ds.map .own) pos false m := by
  have hplain : callValues e ev name ds false pos m =
      callFunction e ev f (ds.map .own) pos false m := by
    rw [callValues, callByName_function hfunction]
    simp only [bind_assoc, pure_bind, bind_pure]
  cases args with
  | nil => exact hplain
  | cons x rest =>
    cases x with
    | this selfPos =>
      rw [callOnArguments, callByName_function hfunction]
      simp only [bind_assoc, pure_bind, bind_pure]
    | var v known varPos =>
      obtain ⟨access, haccess⟩ := variableAccess_value e v known m
      rw [callOnArguments, Run.bind_value haccess, callByName_function hfunction]
      simp only [bind_assoc, pure_bind, bind_pure]
    | _ => exact hplain

/-- Functions are found by the number of arguments. -/
theorem length_slots {args : List Expr} {ds : List Datum}
    (hargs : callArguments e ev args m = (.value ds, m')) :
    (ds.map Slot.own).length = args.length := by
  rw [List.length_map, length_callArguments hargs]

/-- The call of a function of the script. -/
theorem callNamed_eq {name : String} {args : List Expr} {f : Function} {ds : List Datum}
    (hfunction : function? e name args.length = some f)
    (hargs : callArguments e ev args m = (.value ds, m')) (pos : Position) :
    callNamed e ev name args false pos m = callFunction e ev f (ds.map .own) pos false m' := by
  rw [← length_slots hargs] at hfunction
  rw [callNamed_arguments, Run.bind_value hargs, callOnArguments_eq hfunction]

/-- The language itself answers only calls of reserved words. -/
theorem callRule_eq {name : String} (hfree : isReserved name = false) (args : List Expr)
    (inScope : Bool) (pos : Position) :
    callRule e ev name args inScope pos = callNamed e ev name args inScope pos := by
  have hword : ∀ w ∈ ["Fn", "call", "curry", "is_shared", "is_def_var", "is_def_fn", "eval"],
      name ≠ w := by
    rintro w hw rfl
    have hreserved : ["Fn", "call", "curry", "is_shared", "is_def_var", "is_def_fn", "eval"].all
        isReserved = true := by decide +kernel
    rw [List.all_eq_true.mp hreserved name hw] at hfree
    cases hfree
  simp only [List.mem_cons, List.not_mem_nil, or_false, forall_eq_or_imp, forall_eq] at hword
  unfold callRule
  split <;> simp_all

/-- A call by name of a function of the script, after its arguments. -/
theorem call_eq {name : String} {args : List Expr} (hfree : isReserved name = false) {f : Function}
    (hfunction : function? e name args.length = some f) {ds : List Datum}
    (hargs : callArguments e ev args m = (.value ds, m')) (pos : Position) :
    valueRule e ev (.call name args false pos) m =
      callFunction e ev f (ds.map .own) pos false m' :=
  (congrFun (callRule_eq hfree args false pos) m).trans (callNamed_eq hfunction hargs pos)

/-- **A call by name asks the host function once.** The script has a function that stands for the
host function and none that takes the place of the dispatcher. The host function is asked for the
host values of the arguments, after all of them have been evaluated. -/
theorem call_stub_ends (he : e.Unlimited) (hdispatch : function? e hostBinding 2 = none)
    {name : String} {args : List Expr} (hfree : isReserved name = false) {f : Function}
    (hfunction : function? e name args.length = some f)
    (hf : IsStub .callOnly (name, args.length) f) {ds : List Datum}
    (hargs : callArguments e (Evaluator.within e (n + 3)) args m = (.value ds, m'))
    (hlevel : m'.level < e.limits.maxCallLevels) (pos : Position) :
    match (e.bridge.call name (ds.map decoded) m'.world).ending m' with
    | .ok (d, after) => ∃ k, valueRule e (Evaluator.within e (n + 3))
        (.call name args false pos) m =
        (.value d, after.counting k)
    | .error (x, w) =>
      (valueRule e (Evaluator.within e (n + 3)) (.call name args false pos)).FailsOn m x w := by
  have hrun := call_eq hfree hfunction hargs pos
  have hends := callFunction_stub_ends (n := n) he hdispatch hf (length_callArguments hargs)
    hlevel pos
  cases hending : (e.bridge.call name (ds.map decoded) m'.world).ending m' with
  | ok p =>
    rw [hending] at hends
    obtain ⟨k, hk⟩ := hends m'.operations
    exact ⟨k, hrun.trans hk⟩
  | error p =>
    rw [hending] at hends
    obtain ⟨x, after, hx, hcarried, hworld⟩ := hends m'.operations
    exact ⟨x, after, hrun.trans hx, hcarried, hworld⟩

end Script.Evaluation

end ScriptHost
