import Mathlib
import ScriptHost.Proofs.Definitions
import ScriptHost.Proofs.Histories
import ScriptHost.Proofs.HostCalls
import ScriptHost.Proofs.Passing

/-!
# Calls of host functions from scripts

A script that calls a function of its host by name gets what a direct call of the function gives:
the function runs once, on the decoded arguments, and the call has its encoded answer. If the
function fails and nothing on the way out looks at the fault, the script fails with this very
failure.
-/

namespace ScriptHost

open Script Script.Evaluation

variable {ω : Type} {h : Host ω} {registrations : List (Registration ω)} {script : String}
  {program : Program}

/-- Nothing but calls is limited in a script of an open host. -/
theorem Limits.IsOpen.unlimited (hlimits : h.config.IsOpen) (hcalls : 1 ≤ h.config.maxCallLevels)
    (program : Program) : (h.engine program).Unlimited := by
  refine ⟨hlimits.operations, ?_, hcalls⟩
  simp [hasSizeLimit, Host.engine, hlimits.strings, hlimits.arrays, hlimits.maps]

/-- A function that is registered is called with the right number of arguments. -/
theorem Bridge.call_registered {b : Bridge ω} {name : String} {f : HostFunction ω}
    (hf : Fields.get? name b.functions = some f) {args : List Value}
    (harity : args.length = f.arity)
    (world : ω) : b.call name args world = f.run args world := by
  simp [call, hf, harity]

/-- A script whose statements fail ends in the failure, which names the script. -/
theorem Prepared.evaluate_failsOn {α : Type} {p : Prepared} (hp : p.IsFaithful h)
    (hcompiled : h.compileText p.source = .ok program) {vars : Bindings} {s : Store ω} {f : Failure}
    {w : ω}
    (hfails : (statements (Evaluator.within (h.engine program) Engine.ample) program.body).FailsOn
      (vars.machine s.world) f w) (options : ExecutionOptions) (projection : Projection α) :
    noticed (p.evaluate h vars options projection s) =
      (some (.error (f.inScript p.source)), w) := by
  obtain ⟨x, m, hrun, hcarried, hworld⟩ := hfails
  rw [hp.evaluate_noticed vars options projection (t := s) rfl, ← hworld]
  refine evaluate_carried hcompiled ?_ hcarried options projection
  rw [Engine.run, hrun]

/-- The evaluation of statements with the bound of a whole run. -/
def Host.running (h : Host ω) (program : Program) : Run ω Datum :=
  statements (Evaluator.within (h.engine program) Engine.ample) program.body

/-- **A call from a script is a direct call of the function.** The script has no dispatcher of its
own. Wherever it calls a function of the bridge by name, once the arguments have values, the
function runs once, on the built-in host values of them. An answer is encoded to the value of the
call, which is the argument itself where a plain one is given back. A failure that comes through
runs that pass on faults is the failure of the whole run, where it names the script. -/
theorem Host.call_direct (hbuild : Bridge.build registrations = .ok h.bridge)
    (hlimits : h.config.IsOpen) (hcompiled : h.compileText (h.sourceOf script) = .ok program)
    (hdispatch : function? (h.engine program) hostBinding 2 = none)
    {name : String} {f : HostFunction ω} (hf : Fields.get? name h.bridge.functions = some f)
    {args : List Expr} (harity : args.length = f.arity) {n : ℕ} {m m' : Machine ω}
    {ds : List Datum}
    (hargs : callArguments (h.engine program) (Evaluator.within (h.engine program) (n + 3)) args m =
      (.value ds, m'))
    (hlevel : m'.level < h.config.maxCallLevels) (pos : Position) :
    ∃ values, ds.mapM Chain.builtin.decode = some values ∧ values.length = f.arity ∧
      let reply := f.run values m'.world
      let call := valueRule (h.engine program) (Evaluator.within (h.engine program) (n + 3))
        (.call name args false pos)
      match reply.outcome with
      | .ok r => (∃ k, call m = (.value (encode r), (m'.answered reply).counting k)) ∧
        ∀ d, d.isPlain = true → Chain.builtin.decode d = some r → encode r = d
      | .error x => ∀ {α : Type} (p : Prepared) (vars : Bindings) (options : ExecutionOptions)
          (projection : Projection α) (s : Store ω),
          p.source = h.sourceOf script → p.IsFaithful h →
          Relation.ReflTransGen Point.PassesOn ⟨h.running program, vars.machine s.world⟩ ⟨call, m⟩ →
          noticed (p.evaluate h vars options projection s) =
            (some (.error (x.inScript (h.sourceOf script))), reply.world) := by
  have hregistered : (name, f) ∈ h.bridge.functions := Fields.mem_of_get? hf
  have hstub : (name, args.length) ∈ h.bridge.stubs :=
    harity ▸ List.mem_map_of_mem hregistered
  obtain ⟨g, hfunction, hg⟩ := h.exists_function hbuild hlimits hcompiled hstub
  have hfree := ((Bridge.build_stubs hbuild).2 _ hstub).1
  have hlength : (ds.map decoded).length = f.arity := by
    rw [List.length_map, length_callArguments hargs, harity]
  have hcall := call_stub_ends (n := n) (hlimits.unlimited (by omega) program) hdispatch hfree
    hfunction
    hg hargs hlevel pos
  have hdirect : (h.engine program).bridge.call name (ds.map decoded) m'.world =
      f.run (ds.map decoded) m'.world := Bridge.call_registered hf hlength m'.world
  rw [hdirect] at hcall
  refine ⟨ds.map decoded, mapM_decode ds, hlength, ?_⟩
  dsimp only
  cases houtcome : (f.run (ds.map decoded) m'.world).outcome with
  | ok r =>
    rw [Reply.ending, houtcome] at hcall
    refine ⟨hcall, fun d hplain hdecode => ?_⟩
    have hr : r = decoded d := by rw [decoded, hdecode]; rfl
    rw [hr, encode_decoded hplain]
  | error x =>
    rw [Reply.ending, houtcome] at hcall
    intro α p vars options projection s hsource hp hpasses
    rw [← hsource] at hcompiled ⊢
    exact Prepared.evaluate_failsOn hp hcompiled (Point.failsOn_of_passesOn hpasses hcall) options
      projection

/-- Whether a script is a call of a function `g` on 7 that calls a function `f` on what it is
given, behind one function of that name. -/
def isNested : Except Failure Program → Bool
  | .ok ⟨[.callOnly (.call "g" [.literal (.int 7) _] false _)],
      [stub, ⟨"g", ["x"], [.callOnly (.call "f" [.var "x" true _] false _)]⟩], []⟩ =>
    stub.name == "f"
  | _ => false

/-- The host function fails in a function of the script. -/
theorem Host.call_direct_nested :
    let f : HostFunction (List (List Value)) :=
      ⟨1, fun args made => ⟨.error (.host "f" "no"), made ++ [args], []⟩⟩
    let h : Host (List (List Value)) := { bridge := ⟨[("f", f)]⟩ }
    let script := "fn g(x) \x7b f(x) \x7d\ng(7)"
    noticed ((h.prepare script).eval h [] { world := [] }) =
      (some (.error (.hostFunction "f" "no" (some (h.sourceOf script)))), [[.int 7]]) := by
  intro f h script
  have hname : nameProblem? "f" = none := by decide +kernel
  have hbuild : Bridge.build [⟨"f", f⟩] = .ok h.bridge := by
    simp only [Bridge.build, Bridge.build.go, hname]
    rfl
  have hlimits : h.config.IsOpen := ⟨rfl, rfl, rfl, rfl, .inr (by decide)⟩
  obtain ⟨stub, p₁, p₂, p₃, p₄, hstub, hcompiled⟩ : ∃ stub p₁ p₂ p₃ p₄, stub.name = "f" ∧
      h.compileText (h.sourceOf script) =
        .ok ⟨[.callOnly (.call "g" [.literal (.int 7) p₁] false p₂)],
          [stub, ⟨"g", ["x"], [.callOnly (.call "f" [.var "x" true p₃] false p₄)]⟩], []⟩ := by
    have hshape : isNested (h.compileText (h.sourceOf script)) = true := by decide +kernel
    generalize h.compileText (h.sourceOf script) = r at hshape ⊢
    unfold isNested at hshape
    split at hshape
    · exact ⟨_, _, _, _, _, by simpa using hshape, rfl⟩
    · cases hshape
  let g : Function := ⟨"g", ["x"], [.callOnly (.call "f" [.var "x" true p₃] false p₄)]⟩
  let program : Program := ⟨[.callOnly (.call "g" [.literal (.int 7) p₁] false p₂)], [stub, g], []⟩
  let e := h.engine program
  have hdispatch : function? e hostBinding 2 = none := by
    simp [e, program, g, function?, Host.engine, hstub, hostBinding]
  have hg : function? e "g" 1 = some g := by
    simp [e, program, g, function?, Host.engine, hstub]
  obtain ⟨n, hn⟩ : ∃ n, Engine.ample = n + 5 := ⟨10 ^ 15 - 5, by decide⟩
  -- The machines at the begin, in front of the call of `g`, and in front of the call of `f`.
  let m : Machine (List (List Value)) := Bindings.machine [] []
  let inner : Machine (List (List Value)) :=
    insideFunction g [.own (.int 7)] false none { m with operations := 3 }
  have hargs : callArguments e (Evaluator.within e (n + 3)) [.var "x" true p₃]
      { inner with operations := 4 } = (.value [.int 7], { inner with operations := 5 }) := rfl
  have hpasses : Relation.ReflTransGen Point.PassesOn ⟨h.running program, m⟩
      ⟨valueRule e (Evaluator.within e (n + 3)) (.call "f" [.var "x" true p₃] false p₄),
        { inner with operations := 4 }⟩ := by
    rw [Host.running, hn]
    have hfree : isReserved "g" = false := by decide +kernel
    have hseven : callArguments e (Evaluator.within e (n + 4)) [.literal (.int 7) p₁]
        { m with operations := 1 } = (.value [.int 7], { m with operations := 2 }) := rfl
    have hcall : Relation.ReflTransGen Point.PassesOn
        ⟨valueRule e (Evaluator.within e (n + 4)) (.call "g" [.literal (.int 7) p₁] false p₂),
          { m with operations := 1 }⟩
        ⟨callFunction e (Evaluator.within e (n + 4)) g [.own (.int 7)] p₂ false,
          { m with operations := 2 }⟩ :=
      Point.passesOn_call hfree hg hseven p₂
    have hbody : Point.PassesOn
        ⟨callFunction e (Evaluator.within e (n + 4)) g [.own (.int 7)] p₂ false,
          { m with operations := 2 }⟩
        ⟨statements (Evaluator.within e (n + 4)) g.body, inner⟩ :=
      .function (List.cons_ne_nil _ _) rfl (by show 0 < 64; decide) _ false
    exact .head (Point.passesOn_statement (n := n + 4) rfl) (hcall.tail hbody |>.tail
      (Point.passesOn_statement (n := n + 3) rfl))
  obtain ⟨values, hvalues, -, hcall⟩ := call_direct hbuild hlimits hcompiled hdispatch
    (show Fields.get? "f" h.bridge.functions = some f from rfl)
    (show [Expr.var "x" true p₃].length = f.arity from rfl) hargs (by show 1 < 64; decide) p₄
  obtain rfl : [Value.int 7] = values := by
    have hseven : Chain.builtin.decode (.int 7) = some (.int 7) := decode_encode (.int 7)
    have hmap : [Datum.int 7].mapM Chain.builtin.decode = some [.int 7] := by simp [hseven]
    exact Option.some.inj (hmap.symm.trans hvalues)
  have hfails := hcall (h.prepare script) [] h.config.defaultOptions
    (Prepared.decoding (h.chain h.config.defaultOptions)) { world := [] } rfl
    (Prepared.isFaithful_afresh h _) hpasses
  have hends : (some (Except.error (Failure.inScript (h.sourceOf script) (.host "f" "no"))),
      (f.run [.int 7] inner.world).world) =
        ((some (.error (.hostFunction "f" "no" (some (h.sourceOf script)))), [[.int 7]]) :
          Option (Except Failure Value) × List (List Value)) := rfl
  rw [Prepared.eval, Prepared.execute, ← hends]
  exact hfails

/-- A function that orders the items of an array may fail, and the script goes on. -/
theorem Host.eval_sort_goes_on :
    let boom : HostFunction ℕ :=
      ⟨1, fun _ calls => ⟨.error (.host "boom" "no"), calls + 1, []⟩⟩
    let h : Host ℕ := { bridge := ⟨[("boom", boom)]⟩ }
    let script := "let a = [2, 1]; a.sort(|x, y| boom(1)); a"
    noticed ((h.prepare script).eval h [] { world := 0 }) =
      (some (.ok (.list [.int 2, .int 1])), 1) ∧
      noticed ((h.prepare script).eval h [] { world := 0 }) ≠
        (some (.error ((Failure.host "boom" "no").inScript (h.sourceOf script))), 1) := by
  intro boom h script
  have hends : (fun r : Option (Except Failure Value) × ℕ =>
      endsIn (·.ints? == some [2, 1]) r.1 && r.2 == 1)
        (noticed ((h.prepare script).eval h [] { world := 0 })) = true := by decide +kernel
  generalize noticed ((h.prepare script).eval h [] { world := 0 }) = ending at hends ⊢
  obtain ⟨answer, calls⟩ := ending
  obtain ⟨hanswer, hcalls⟩ := Bool.and_eq_true_iff.mp hends
  obtain ⟨v, rfl, hv⟩ := exists_of_endsIn hanswer
  obtain rfl := beq_iff_eq.mp hcalls
  rw [Value.eq_of_ints? (beq_iff_eq.mp hv)]
  exact ⟨rfl, by simp⟩

end ScriptHost
