import Mathlib
import ScriptHost.Proofs.BatchResults
import ScriptHost.Proofs.BridgeTexts

/-!
# Scripts that are a variable

A script that is nothing but the name of a variable gives the value that is bound to the name last,
unless a host function has the name: the name of a function stands for the function.
-/

namespace ScriptHost

open Script Script.Grammar Script.Parser

/-! ## Reading -/

namespace Script.Grammar

variable {n k : ℕ} {c : Context} {s : ParserState} {u : Placed} {l : List Placed}

/-- A variable that the text does not declare is a statement. -/
theorem statement_unknown (hc : c.Roomy (k + 2)) (hs : s.Calm) {x : String}
    (hunknown : s.declared.any (·.name == x) = false) (p : Position)
    (hends : u.token.endsExpression = true) :
    (within (n + 4)).statement c (s.facing (⟨.name x, p⟩ :: u :: l)) =
      .ok (.expr (.var x false p), (s.seeking x p).facing (u :: l)) := by
  have hc' : Context.Roomy { c with pos := p } (k + 2) := hc.congr rfl rfl rfl
  have hread := expression_unknown (n := n) (l := l) hc'.deeper hs hunknown p hends
  have hstatement : expressionStatement (within (n + 3)) { c with pos := p, level := c.level + 1 }
      (s.facing (⟨.name x, p⟩ :: u :: l)) =
        .ok (.expr (.var x false p), (s.seeking x p).facing (u :: l)) := by
    rw [expressionStatement, bind_ok (peek_facing ..), bind_ok hread, bind_ok (peek_facing ..),
      assignmentOperator?_end hends]
    rfl
  rw [within_statement, statementRule, bind_ok (peek_facing ..)]
  exact (bind_ok (deeper_ok hc')).trans hstatement

/-- A variable and the end of the text are a script. -/
theorem loops_unknown (hc : c.Roomy (k + 2)) (hs : s.Calm) {x : String}
    (hunknown : s.declared.any (·.name == x) = false) (p q : Position) :
    Loops (nextInScript (within (n + 4)) c) [] (s.facing [⟨.name x, p⟩, ⟨.eof, q⟩])
      [.expr (.var x false p)] ((s.seeking x p).facing [⟨.eof, q⟩]) := by
  have hstatement := statement_unknown (n := n) (u := ⟨.eof, q⟩) (l := []) hc hs hunknown p rfl
  have hstep := nextInScript_last (t := ⟨.name x, p⟩) (by simp) hstatement rfl []
  exact .more hstep (by simp) (.done (nextInScript_eof _ _ _ q))

end Script.Grammar

namespace Bridge

variable {ω : Type} {b : Bridge ω} {registrations : List (Registration ω)}

/-- Behind the lines of a bridge the name of a variable is read as the variable. -/
theorem ofText?_variable (hbuild : build registrations = .ok b)
    (hident : ∀ f ∈ b.functions, isIdentifier f.1 = true) {limits : Limits}
    (hlimits : limits.IsOpen) (hdepth : limits.maxExprDepth ≠ 1) {x : String}
    (hx : isIdentifier x = true) (hfree : isReserved x = false) :
    ∃ functions pos, List.Forall₂ (IsStub .expr) b.stubs functions ∧
      Program.ofText? limits (b.preamble ++ x) =
        .ok ⟨[.expr (.var x false pos)], functions, []⟩ := by
  have hvalid : [Piece.word x].all Piece.isValid = true := by simp [Piece.isValid, isWord, hx]
  have htext : (b.preamble ++ x).toList =
      b.pieces.flatMap Piece.chars ++ [Piece.word x].flatMap Piece.chars := by
    simp [pieces_chars, Piece.chars]
  obtain ⟨functions, placed, n, hfunctions, hplaced, hread⟩ := ofText?_pieces hlimits
    (build_stubs hbuild).1 (names_of_build hbuild hident) hvalid rfl htext
  have hword : [Piece.word x].filterMap Piece.token? = [.name x] := by
    simp [Piece.token?, wordToken_name hx hfree]
  rw [hword] at hplaced
  obtain ⟨p, rest, rfl, hrest⟩ := map_token_eq_cons.mp hplaced
  obtain ⟨q, others, rfl, hothers⟩ := map_token_eq_cons.mp hrest
  obtain rfl := List.map_eq_nil_iff.mp hothers
  let s : ParserState := { tokens := [], functions := functions.reverse }
  have hc : Context.Roomy { limits, maxLevel := limits.maxExprDepth, isTop := true } 2 := by
    refine ⟨?_, hlimits.arrays⟩
    show limits.maxExprDepth = 0 ∨ 0 + 2 ≤ limits.maxExprDepth
    omega
  have hloops := loops_unknown (n := n + 8) (s := s) (k := 0) hc ⟨rfl, rfl⟩ (x := x) rfl p q
  obtain ⟨hkept, hnone⟩ := seeking_definitions s x p
  refine ⟨functions, p, hfunctions, (hread _ _ _ hloops).trans ?_⟩
  rw [hkept, hnone]
  simp [s]

end Bridge

/-! ## Simplifying -/

namespace Script.Simplification

/-- A script that is a variable stays as it is. -/
theorem simplified_variable (x : String) (known : Bool) (pos : Position) :
    simplified simplificationBound [.expr (.var x known pos)] = [.expr (.var x known pos)] := by
  obtain ⟨n, hn⟩ : ∃ n, simplificationBound = n + 3 := ⟨10 ^ 15 - 3, by decide⟩
  have hempty : NoneKnown {} := fun _ => rfl
  have hstatement : (Simplifier.within (n + 2)).statement true (.expr (.var x known pos)) {} =
      (.expr (.var x known pos), {}) := bind_eq (isFixed_var (n + 1) x known pos {} hempty)
  have hround : round (Simplifier.within (n + 2)) ⟨true, false, true⟩ [.expr (.var x known pos)]
      {} = ([.expr (.var x known pos)], {}) :=
    round_eq (p := {}) (q := {}) rfl (eachStatement_other rfl hstatement []) rfl rfl
  have hrounds := repeatedly_fixed (p := {}) hround n
  have hbody : bodyRule (Simplifier.within (n + 2)) ⟨true, false, true⟩
      [.expr (.var x known pos)] {} = ([.expr (.var x known pos)], {}) := by
    rw [bodyRule]
    · exact (bind_eq (q := {}) rfl).trans ((bind_eq hrounds).trans rfl)
    · exact fun h => List.cons_ne_nil _ _ h
  rw [hn]
  exact congrArg Prod.fst hbody

end Script.Simplification

/-! ## Running -/

/-- The value of a name among bindings: the last one bound to it. -/
def boundTo? (x : String) (vars : List (String × Value)) : Option Value :=
  (vars.reverse.find? (·.1 == x)).map Prod.snd

/-- A run finds the last value that is bound to a name. -/
theorem lookup?_encodeBindings {ω : Type} {x : String} {vars : List (String × Value)} {v : Value}
    (hbound : boundTo? x vars = some v) (world : ω) :
    ((encodeBindings vars).machine world).lookup? x = some ⟨x, false, .own (encode v)⟩ := by
  obtain ⟨p, hp, rfl⟩ := Option.map_eq_some_iff.mp hbound
  have hname : p.1 = x := by simpa using List.find?_some hp
  subst hname
  rw [Machine.lookup?, Bindings.machine, encodeBindings, List.map_map, ← List.map_reverse,
    List.find?_map]
  exact congrArg (Option.map _) hp

namespace Script.Evaluation

variable {ω : Type} {e : Engine ω}

/-- Where operations are not limited, counting one is no fault. -/
theorem tick_value (he : e.limits.maxOperations = 0) (pos : Position) (m : Machine ω) :
    tick e pos m = (.value (), m.counting (m.operations + 1)) := by
  simp only [tick, he, bne_self_eq_false, Bool.false_and, Bool.false_eq_true, if_false]
  rfl

/-- A script that is a variable gives what the variable stands for. -/
theorem run_name (he : e.limits.maxOperations = 0) {x : String} {known : Bool} {pos : Position}
    {d : Datum} {m : Machine ω}
    (hvalue : ∀ n, variableValue e x known pos (m.counting n) = (.value d, m.counting n)) :
    e.run Engine.ample [.expr (.var x known pos)] m =
      (.value d.unshared, m.counting (m.operations + 2)) := by
  obtain ⟨n, hn⟩ : ∃ n, Engine.ample = n + 2 := ⟨10 ^ 15 - 2, by decide⟩
  let m₁ := m.counting (m.operations + 1)
  let m₂ := m.counting (m.operations + 2)
  have hexpression : (Evaluator.within e (n + 1)).expression (.var x known pos) m₁ =
      (.value d, m₂) := (Run.bind_value (tick_value he _ m₁) _).trans (hvalue _)
  have haction : actionRule e (Evaluator.within e (n + 1)) (.expr (.var x known pos)) m₁ =
      (.value d.unshared, m₂) := Run.bind_value hexpression _
  have hstatement : statements (Evaluator.within e (n + 2)) [.expr (.var x known pos)] m =
      (.value d.unshared, m₂) := (Run.bind_value (tick_value he _ m) _).trans haction
  rw [hn, Engine.run, hstatement]

/-- A script that is a variable gives its value. -/
theorem run_variable (he : e.limits.maxOperations = 0) {x : String} {known : Bool} {d : Datum}
    {m : Machine ω} (hvariable : isFunctionWord e x known = false)
    (hlookup : m.lookup? x = some ⟨x, false, .own d⟩) (pos : Position) :
    e.run Engine.ample [.expr (.var x known pos)] m =
      (.value d.unshared, m.counting (m.operations + 2)) := by
  refine run_name he fun n => ?_
  have hfound : (m.counting n).lookup? x = some ⟨x, false, .own d⟩ := hlookup
  rw [variableValue_eq hvariable, hfound]
  rfl

/-- A script that is the name of a function gives the function, whatever is bound to the name. -/
theorem run_functionName (he : e.limits.maxOperations = 0) {x : String} {known : Bool}
    (hfunction : isFunctionWord e x known = true) (pos : Position) (m : Machine ω) :
    e.run Engine.ample [.expr (.var x known pos)] m =
      (.value (.fnPtr x []), m.counting (m.operations + 2)) := by
  have hvalue (n : ℕ) : variableValue e x known pos (m.counting n) =
      (.value (.fnPtr x []), m.counting n) := congrFun (if_pos hfunction) _
  exact run_name he hvalue

end Script.Evaluation

section

variable {ω : Type} {h : Host ω}

/-- A script that begins with a word comes behind the lines of the bridge as it is. -/
theorem Host.sourceOf_word {script : String} {c : Char} {cs : List Char}
    (hchars : script.toList = c :: cs) (hc : isWordStart c = true) :
    h.sourceOf script = h.bridge.preamble ++ script := by
  have hplain : script.startsWith "\x7b" = false := Batch.startsWith_brace hchars (by
    rintro rfl
    cases hc)
  rw [Host.sourceOf, hplain]
  rfl

/-- Of the names that the text does not declare those of the bridge stand for functions. -/
theorem Host.isFunctionWord_iff {functions : List Function}
    (hfunctions : List.Forall₂ (IsStub .expr) h.bridge.stubs functions) (body : List Stmt)
    (x : String) :
    Evaluation.isFunctionWord (h.engine (Program.simplified ⟨body, functions, []⟩)) x false = true ↔
      x ∈ h.bridge.names := by
  have hstubs := map_stubs (Simplification.stubs_simplified hfunctions)
  have hnames : (Program.simplified ⟨body, functions, []⟩).functions.map Function.name =
      h.bridge.names := by
    have hfst := congrArg (List.map Prod.fst) hstubs
    simpa only [Bridge.stubs, Bridge.names, Fields.keys, Program.simplified, List.map_map,
      Function.comp_def] using hfst
  rw [Evaluation.isFunctionWord, Bool.not_false, Bool.true_and, List.any_eq_true, ← hnames,
    List.mem_map]
  simp only [beq_iff_eq]
  rfl

/-- No other names do. -/
theorem Host.isFunctionWord_simplified {functions : List Function}
    (hfunctions : List.Forall₂ (IsStub .expr) h.bridge.stubs functions) (body : List Stmt)
    {x : String} (hvariable : x ∉ h.bridge.names) :
    Evaluation.isFunctionWord (h.engine (Program.simplified ⟨body, functions, []⟩)) x false =
      false :=
  Bool.eq_false_iff.mpr fun hword => hvariable ((h.isFunctionWord_iff hfunctions body x).mp hword)

end

namespace Prepared

variable {ω α : Type} {h : Host ω} {registrations : List (Registration ω)}

/-- A name is compiled to itself, with the functions of the bridge beside it. -/
theorem compileText_name (hbuild : Bridge.build registrations = .ok h.bridge)
    (hident : ∀ f ∈ h.bridge.functions, isIdentifier f.1 = true) (hlimits : h.config.IsOpen)
    (hdepth : h.config.maxExprDepth ≠ 1) {x : String} (hx : isIdentifier x = true)
    (hfree : isReserved x = false) :
    ∃ program pos, h.compileText (h.sourceOf x) = .ok program ∧
      program.body = [.expr (.var x false pos)] ∧
      (Evaluation.isFunctionWord (h.engine program) x false = true ↔ x ∈ h.bridge.names) := by
  obtain ⟨c, cs, hchars, hc, -⟩ := isIdentifier_chars hx
  have htext : h.sourceOf x = h.bridge.preamble ++ x := Host.sourceOf_word hchars hc
  obtain ⟨functions, pos, hfunctions, hread⟩ :=
    Bridge.ofText?_variable hbuild hident hlimits hdepth hx hfree
  refine ⟨Program.simplified ⟨[.expr (.var x false pos)], functions, []⟩, pos, ?_,
    Simplification.simplified_variable x false pos, h.isFunctionWord_iff hfunctions _ x⟩
  rw [Host.compileText, htext, hread]

/-- **A script that is a name gives what the name stands for**: the function, if it is one of the
bridge, or else the value that is bound to it last. However the script was prepared, its outcome is
what the projection makes of that; the names of the bridge have to be identifiers. -/
theorem evaluate_name (hbuild : Bridge.build registrations = .ok h.bridge)
    (hident : ∀ f ∈ h.bridge.functions, isIdentifier f.1 = true) (hlimits : h.config.IsOpen)
    (hdepth : h.config.maxExprDepth ≠ 1) {x : String} (hx : isIdentifier x = true)
    (hfree : isReserved x = false) {p : Prepared} (hp : p.IsFaithful h)
    (hsource : p.source = h.sourceOf x) {vars : List (String × Value)} {v : Value}
    (hbound : boundTo? x vars = some v) (options : ExecutionOptions) (projection : Projection α)
    (s : Store ω) :
    noticed (p.evaluate h (encodeBindings vars) options projection s) =
      (projection.read (if x ∈ h.bridge.names then .fnPtr x [] else encode v), s.world) := by
  obtain ⟨program, pos, hcompiled, hbody, hword⟩ :=
    compileText_name hbuild hident hlimits hdepth hx hfree
  refine (hp.evaluate_noticed _ options projection (t := s) rfl).trans ?_
  rw [hsource]
  split
  next hfunction =>
    have hrun := Evaluation.run_functionName (e := h.engine program) hlimits.operations
      (hword.mpr hfunction) pos ((encodeBindings vars).machine s.world)
    rw [← hbody] at hrun
    exact evaluate_value hcompiled hrun options projection
  next hvariable =>
    have hnone : Evaluation.isFunctionWord (h.engine program) x false = false :=
      Bool.eq_false_iff.mpr fun h => hvariable (hword.mp h)
    have hrun := Evaluation.run_variable (e := h.engine program) hlimits.operations hnone
      (lookup?_encodeBindings hbound s.world) pos
    rw [← hbody, encode, Batch.unshared_encodeWith] at hrun
    exact evaluate_value hcompiled hrun options projection

/-- **A script that is a variable gives the value bound last**, unless the name is one of the
bridge. -/
theorem evaluate_variable (hbuild : Bridge.build registrations = .ok h.bridge)
    (hident : ∀ f ∈ h.bridge.functions, isIdentifier f.1 = true) (hlimits : h.config.IsOpen)
    (hdepth : h.config.maxExprDepth ≠ 1) {x : String} (hx : isIdentifier x = true)
    (hfree : isReserved x = false) (hvariable : x ∉ h.bridge.names) {p : Prepared}
    (hp : p.IsFaithful h) (hsource : p.source = h.sourceOf x) {vars : List (String × Value)}
    {v : Value} (hbound : boundTo? x vars = some v) (options : ExecutionOptions)
    (projection : Projection α) (s : Store ω) :
    noticed (p.evaluate h (encodeBindings vars) options projection s) =
      (projection.read (encode v), s.world) := by
  rw [evaluate_name hbuild hident hlimits hdepth hx hfree hp hsource hbound, if_neg hvariable]

end Prepared

end ScriptHost
