import Mathlib
import ScriptHost.Proofs.Closing.Parsers
import ScriptHost.Proofs.VariableScripts

/-!
# Arithmetic on big integers

A big integer that is bound to a variable comes to a script as a big integer only if it is large,
otherwise as an integer of the language. A sum is exact whichever operand is large. A difference and
a product are exact where the first operand is large, and are no operation at all where it is small.
-/

namespace ScriptHost

open Script Script.Grammar Script.Parser Script.Evaluation

/-- The operators with functions on big integers. -/
inductive Arithmetic where
  /-- Addition. -/
  | sum
  /-- Subtraction. -/
  | difference
  /-- Multiplication. -/
  | product
  deriving DecidableEq

namespace Arithmetic

/-- The symbol of an operator. -/
def symbol : Arithmetic → String
  | sum => "+"
  | difference => "-"
  | product => "*"

/-- The exact result of an operator. -/
def exact : Arithmetic → ℤ → ℤ → ℤ
  | sum, a, b => a + b
  | difference, a, b => a - b
  | product, a, b => a * b

/-- The script that applies an operator to two variables. -/
def script (op : Arithmetic) (x y : String) : String := x ++ " " ++ op.symbol ++ " " ++ y

/-- Whether an operator takes the values that two big integers come to a script as, of which one is
large. -/
def Accepts (op : Arithmetic) (a : ℤ) : Prop := op = sum ∨ loweringBound ≤ a.natAbs

instance (op : Arithmetic) (a : ℤ) : Decidable (op.Accepts a) :=
  inferInstanceAs (Decidable (_ ∨ _))

end Arithmetic

/-! ## Reading -/

/-- Whether a variable as an operand is complete in front of a token. -/
def Script.Token.endsOperand (t : Token) : Bool :=
  t.endsExpression || ["+", "-", "*"].any fun s => t.isMark s

namespace Script.Grammar

variable {n k : ℕ} {c : Context} {s : ParserState} {t u : Placed} {ts l : List Placed}

/-- A token that ends an operand ends an expression or is an operator. -/
theorem endsOperand_cases (ht : t.token.endsOperand = true) :
    t.token.endsExpression = true ∨ ∃ m ∈ ["+", "-", "*"], t.token = .mark m := by
  rw [Token.endsOperand, Bool.or_eq_true, List.any_eq_true] at ht
  refine ht.imp_right ?_
  rintro ⟨m, hm, hmark⟩
  exact ⟨m, hm, Token.eq_mark hmark⟩

/-- A token that ends an operand makes no call of a name before it. -/
theorem noCall_of_endsOperand (ht : t.token.endsOperand = true) :
    (t.token.isMark "(" || t.token.isMark "!" || t.token.isMark "()") = false := by
  rcases endsOperand_cases ht with h | ⟨m, hm, h⟩
  · exact noCall_of_endsExpression h
  · rw [h]
    fin_cases hm <;> rfl

/-- Nothing follows a variable in front of a token that ends the operand. -/
theorem suffixes_endsOperand (g : Grammar) (c : Context) (root : Expr)
    (ht : t.token.endsOperand = true) :
    suffixes g c root (s.facing (t :: ts)) = .ok (root, s.facing (t :: ts)) := by
  rcases endsOperand_cases ht with h | ⟨m, hm, h⟩
  · exact suffixes_end g c root h
  · refine (Loops.done ?_).repeated
    rw [nextSuffix, bind_ok (peek_facing t ts), h]
    fin_cases hm <;> rfl

/-- A variable that the text does not declare is an operand. -/
theorem operand_unknown (hs : s.Calm) {x : String}
    (hunknown : s.declared.any (·.name == x) = false) (p : Position)
    (hends : u.token.endsOperand = true) :
    (within (n + 2)).operand c (s.facing (⟨.name x, p⟩ :: u :: l)) =
      .ok (.var x false p, (s.seeking x p).facing (u :: l)) := by
  have hnamed : named x p (s.facing (⟨.name x, p⟩ :: u :: l)) =
      .ok (.var x false p, (s.seeking x p).facing (u :: l)) :=
    named_unknown hs hunknown p (noCall_of_endsOperand hends)
  rw [within_operand, operandRule, bind_ok (peek_facing ..),
    bind_ok (endsCase_calm (hs.facing _) _)]
  refine (primary_name x p false hs.barEnds).trans ((bind_ok hnamed).trans ?_)
  exact suffixes_endsOperand _ _ _ hends

/-- An operator between an operand and a variable that the text does not declare. -/
theorem operators_arithmetic (hc : c.Roomy (k + 1)) (hs : s.Calm) (op : Arithmetic) {y : String}
    (hunknown : s.declared.any (·.name == y) = false) (lhs : Expr) (o q : Position)
    (hends : u.token.endsExpression = true) :
    operatorsRule (within (n + 2)) c 1 lhs
        (s.facing (⟨.mark op.symbol, o⟩ :: ⟨.name y, q⟩ :: u :: l)) =
      .ok (.operator op.symbol [lhs, .var y false q] o, (s.seeking y q).facing (u :: l)) := by
  have hrhs (c : Context) : (within (n + 2)).operand c (s.facing (⟨.name y, q⟩ :: u :: l)) =
      .ok (.var y false q, (s.seeking y q).facing (u :: l)) := by
    refine operand_unknown hs hunknown q ?_
    rw [Token.endsOperand, hends, Bool.true_or]
  have hcase (t : Token) (ts : List Placed) :
      endsCase t (s.facing ts) = .ok (false, s.facing ts) := endsCase_calm (hs.facing ts) t
  have hlevel : Context.Roomy { c with pos := lhs.position } (k + 1) := hc.congr rfl rfl rfl
  refine Loops.repeated (.more (y := ({ c with pos := o, level := c.level + 1 },
    .operator op.symbol [lhs, .var y false q] o)) (t := (s.seeking y q).facing (u :: l))
    ?_ ?_ (.done ?_))
  · cases op
    all_goals
      refine (bind_ok (peek_facing ..)).trans ((bind_ok (hcase _ _)).trans ?_)
      refine (bind_ok (p := nextPrecedence _) rfl).trans ?_
      refine (bind_ok (next_facing ..)).trans ((bind_ok (hrhs _)).trans ?_)
      refine (bind_ok (peek_facing ..)).trans ((bind_ok (nextPrecedence_end hends)).trans ?_)
      refine (congrFun (if_neg (by exact Bool.false_ne_true)) _).trans ?_
      refine (bind_ok (p := pure _) rfl).trans ?_
      exact (bind_ok (deeper_ok hlevel)).trans rfl
  · simp
  · simp only [bind_ok (peek_facing u l), bind_ok (endsCase_end hends)]
    simp [bind_ok (nextPrecedence_end hends)]
    rfl

/-- An operator between two variables that the text does not declare is an expression. -/
theorem expression_arithmetic (hc : c.Roomy (k + 2)) (hs : s.Calm) (op : Arithmetic) {x y : String}
    (hx : s.declared.any (·.name == x) = false) (hy : s.declared.any (·.name == y) = false)
    (p o q : Position) (hends : u.token.endsExpression = true) :
    (within (n + 4)).expression c
        (s.facing (⟨.name x, p⟩ :: ⟨.mark op.symbol, o⟩ :: ⟨.name y, q⟩ :: u :: l)) =
      .ok (.operator op.symbol [.var x false p, .var y false q] o,
        ((s.seeking x p).seeking y q).facing (u :: l)) := by
  have hoperator : (Token.mark op.symbol).endsOperand = true := by cases op <;> rfl
  have hdeclared : (s.seeking x p).declared.any (·.name == y) = false := by
    rw [ParserState.seeking]
    split <;> exact hy
  have hlhs := operand_unknown (n := n + 1) (c := { c with level := c.level + 1, pos := p })
    (u := ⟨.mark op.symbol, o⟩) (l := ⟨.name y, q⟩ :: u :: l) hs hx p hoperator
  rw [within_expression, expressionRule, bind_ok (deeper_ok hc), bind_ok (peek_facing ..),
    bind_ok hlhs, within_operators]
  exact operators_arithmetic (hc.deeper.congr rfl rfl rfl) (seeking_calm hs x p) op hdeclared _ o q
    hends

/-- An operator between two variables and the end of the text are a script. -/
theorem loops_arithmetic (hc : c.Roomy (k + 3)) (hs : s.Calm) (op : Arithmetic) {x y : String}
    (hx : s.declared.any (·.name == x) = false) (hy : s.declared.any (·.name == y) = false)
    (p o q v : Position) :
    Loops (nextInScript (within (n + 5)) c) []
      (s.facing [⟨.name x, p⟩, ⟨.mark op.symbol, o⟩, ⟨.name y, q⟩, ⟨.eof, v⟩])
      [.expr (.operator op.symbol [.var x false p, .var y false q] o)]
      (((s.seeking x p).seeking y q).facing [⟨.eof, v⟩]) := by
  have hc' : Context.Roomy { c with pos := p } (k + 3) := hc.congr rfl rfl rfl
  have hread := expression_arithmetic (n := n) (u := ⟨.eof, v⟩) (l := []) hc'.deeper hs op hx hy
    p o q rfl
  have hstatement : (within (n + 5)).statement c
      (s.facing [⟨.name x, p⟩, ⟨.mark op.symbol, o⟩, ⟨.name y, q⟩, ⟨.eof, v⟩]) =
        .ok (.expr (.operator op.symbol [.var x false p, .var y false q] o),
          ((s.seeking x p).seeking y q).facing [⟨.eof, v⟩]) := by
    rw [within_statement, statementRule, bind_ok (peek_facing ..)]
    refine (bind_ok (deeper_ok hc')).trans ?_
    show expressionStatement _ _ _ = _
    rw [expressionStatement, bind_ok (peek_facing ..), bind_ok hread, bind_ok (peek_facing ..)]
    rfl
  have hstep := nextInScript_last (t := ⟨.name x, p⟩) (by simp) hstatement rfl []
  exact .more hstep (by simp) (.done (nextInScript_eof _ _ _ v))

end Script.Grammar

namespace Arithmetic

/-- The pieces of the script that applies an operator. -/
def pieces (op : Arithmetic) (x y : String) : List Piece :=
  [.word x, .blank ' ', .mark op.symbol, .blank ' ', .word y]

/-- The script is made of its pieces. -/
theorem pieces_chars (op : Arithmetic) (x y : String) :
    (op.script x y).toList = (op.pieces x y).flatMap Piece.chars := by
  simp [script, pieces, Piece.chars]

variable {x y : String}

/-- The pieces are what they say. -/
theorem pieces_isValid (op : Arithmetic) (hx : isIdentifier x = true)
    (hy : isIdentifier y = true) : (op.pieces x y).all Piece.isValid = true := by
  have hmark : pieceMarks.any (·.1 == op.symbol) = true := by cases op <;> rfl
  simp only [pieces, List.all_cons, Piece.isValid, isWord, hx, hy, hmark, Bool.or_true]
  rfl

/-- The pieces are apart. -/
theorem pieces_areApart (op : Arithmetic) (hy : isIdentifier y = true) :
    areApart (op.pieces x y) none = true := by
  obtain ⟨c, cs, hchars, -⟩ := isIdentifier_chars hy
  cases op <;>
    simp [pieces, areApart, Piece.chars, symbol, hchars, Piece.endsBefore, pieceMarks] <;> rfl

/-- The tokens of the pieces. -/
theorem pieces_tokens (op : Arithmetic) (hx : isIdentifier x = true) (hxfree : isReserved x = false)
    (hy : isIdentifier y = true) (hyfree : isReserved y = false) :
    (op.pieces x y).filterMap Piece.token? = [.name x, .mark op.symbol, .name y] := by
  rw [← wordToken_name hx hxfree, ← wordToken_name hy hyfree]
  rfl

end Arithmetic

/-! ## Simplifying -/

namespace Script.Simplification

/-- An operator between variables stays as it is. -/
theorem isFixed_operator (n : ℕ) (symbol x y : String) (p q o : Position) :
    IsFixed (Simplifier.within n) (.operator symbol [.var x false p, .var y false q] o) := by
  cases n with
  | zero => exact fun _ _ => rfl
  | succ n =>
    intro progress hp
    have hargs : arguments (Simplifier.within n) [.var x false p, .var y false q] progress =
        ([.var x false p, .var y false q], progress) := by
      refine arguments_eq hp fun e he => ?_
      simp only [List.mem_cons, List.not_mem_nil, or_false] at he
      rcases he with rfl | rfl
      · exact ⟨isFixed_var n x false p, .inr rfl⟩
      · exact ⟨isFixed_var n y false q, .inr rfl⟩
    exact bind_eq hargs

/-- A script that is an operator between variables becomes a call, and stays one. -/
theorem simplified_operator (symbol x y : String) (p q o : Position) :
    simplified simplificationBound [.expr (.operator symbol [.var x false p, .var y false q] o)] =
      [.callOnly (.operator symbol [.var x false p, .var y false q] o)] := by
  obtain ⟨n, hn⟩ : ∃ n, simplificationBound = n + 4 := ⟨10 ^ 15 - 4, by decide⟩
  have hempty : NoneKnown {} := fun _ => rfl
  have hfirst : round (Simplifier.within (n + 3)) ⟨true, false, true⟩
      [.expr (.operator symbol [.var x false p, .var y false q] o)] {} =
        ([.callOnly (.operator symbol [.var x false p, .var y false q] o)], { changed := true }) :=
    round_single rfl rfl rfl
  have hsecond : round (Simplifier.within (n + 3)) ⟨true, false, true⟩
      [.callOnly (.operator symbol [.var x false p, .var y false q] o)] {} =
        ([.callOnly (.operator symbol [.var x false p, .var y false q] o)],
          { ({} : Progress) with changed := false }) :=
    round_single rfl rfl (bind_eq (isFixed_operator (n + 2) symbol x y p q o {} hempty))
  have hrest := repeatedly_fixed (p := { changed := true }) hsecond n
  have hrounds : repeatedly (round (Simplifier.within (n + 3)) ⟨true, false, true⟩) (n + 2)
      [.expr (.operator symbol [.var x false p, .var y false q] o)] {} =
        ([.callOnly (.operator symbol [.var x false p, .var y false q] o)],
          { changed := true }) := by
    rw [repeatedly]
    exact (bind_eq rfl).trans ((bind_eq hfirst).trans ((bind_eq rfl).trans
      ((bind_eq hrest).trans rfl)))
  have hbody : bodyRule (Simplifier.within (n + 3)) ⟨true, false, true⟩
      [.expr (.operator symbol [.var x false p, .var y false q] o)] {} =
        ([.callOnly (.operator symbol [.var x false p, .var y false q] o)],
          { changed := true }) := by
    rw [bodyRule]
    · exact (bind_eq (q := {}) rfl).trans ((bind_eq hrounds).trans rfl)
    · exact fun h => List.cons_ne_nil _ _ h
  rw [hn]
  exact congrArg Prod.fst hbody

end Script.Simplification

/-! ## Running -/

namespace Arithmetic

variable {a b : ℤ}

/-- No operator of the language itself takes a big integer. -/
theorem binary?_lowered (op : Arithmetic)
    (hlarge : loweringBound ≤ a.natAbs ∨ loweringBound ≤ b.natAbs) :
    Operator.binary? op.symbol (lowerBigInt a) (lowerBigInt b) = none := by
  rw [lowerBigInt, lowerBigInt]
  split_ifs with ha hb
  · omega
  all_goals cases op <;> rfl

end Arithmetic

namespace Script.Evaluation

variable {ω : Type} {e : Engine ω} {ev : Evaluator ω} {n : ℕ} {m : Machine ω}

/-- A variable as an argument gives its value. -/
theorem argument_variable (he : e.limits.maxOperations = 0) {x : String} {d : Datum}
    (hvariable : isFunctionWord e x false = false)
    (hlookup : m.lookup? x = some ⟨x, false, .own d⟩) (pos : Position) :
    argument e (Evaluator.within e (n + 1)) (.var x false pos) m =
      (.value d, m.counting (m.operations + 1)) := by
  have hfound : (m.counting (m.operations + 1)).lookup? x = some ⟨x, false, .own d⟩ := hlookup
  have hvalue : variableValue e x false pos (m.counting (m.operations + 1)) =
      (.value d, m.counting (m.operations + 1)) := by
    rw [variableValue_eq hvariable, hfound]
    rfl
  exact (Run.bind_value (tick_value he _ m) _).trans hvalue

/-- An operator on big integers as they come to a script is a call of a native function, which gives
the exact result or is not there. -/
theorem callNative_lowered (he : e.limits.maxOperations = 0)
    (hsizes : hasSizeLimit e.limits = false) (op : Arithmetic) {a b : ℤ}
    (hlarge : loweringBound ≤ a.natAbs ∨ loweringBound ≤ b.natAbs) (pos : Position) :
    callNative e ev op.symbol [lowerBigInt a, lowerBigInt b] .copy pos m =
      (if op.Accepts a then .value (.bigInt (op.exact a b), none)
        else .fault (.raised (.functionNotFound (op.symbol ++ " (i64, BigInt)")) pos),
        m.counting (m.operations + 1)) := by
  have hsize (d : Datum) (m : Machine ω) : checkSize e d pos m = (.value (), m) := by
    have hexcess : d.excess? e.limits = none := by simp [Datum.excess?, hsizes]
    rw [checkSize, hexcess]
    rfl
  rw [lowerBigInt, lowerBigInt]
  by_cases ha : a.natAbs < loweringBound
  · have hb : ¬ b.natAbs < loweringBound := by omega
    rw [if_pos ha, if_neg hb]
    by_cases haccepts : op.Accepts a
    · obtain rfl : op = .sum := haccepts.resolve_right (by omega)
      rw [if_pos haccepts]
      exact (Run.bind_value (tick_value he pos m) _).trans (Run.bind_value (hsize (.bigInt _) _) _)
    · rw [if_neg haccepts]
      cases op with
      | sum => exact absurd (.inl rfl) haccepts
      | difference => exact Run.bind_value (tick_value he pos m) _
      | product => exact Run.bind_value (tick_value he pos m) _
  · have haccepts : op.Accepts a := .inr (Nat.not_lt.mp ha)
    rw [if_neg ha, if_pos haccepts]
    split_ifs
    all_goals
      cases op <;>
        exact (Run.bind_value (tick_value he pos m) _).trans
          (Run.bind_value (hsize (.bigInt _) _) _)

/-- The value of an operator on two variables with big integers, of which one is large. -/
theorem operatorRule_lowered (he : e.limits.maxOperations = 0)
    (hsizes : hasSizeLimit e.limits = false) (op : Arithmetic) {a b : ℤ}
    (hlarge : loweringBound ≤ a.natAbs ∨ loweringBound ≤ b.natAbs)
    (hnative : function? e op.symbol 2 = none) {x y : String}
    (hx : isFunctionWord e x false = false) (hy : isFunctionWord e y false = false)
    (ha : m.lookup? x = some ⟨x, false, .own (lowerBigInt a)⟩)
    (hb : m.lookup? y = some ⟨y, false, .own (lowerBigInt b)⟩) (p q pos : Position) :
    operatorRule e (Evaluator.within e (n + 1)) op.symbol [.var x false p, .var y false q] pos m =
      (if op.Accepts a then .value (.bigInt (op.exact a b))
        else .fault (.raised (.functionNotFound (op.symbol ++ " (i64, BigInt)")) pos),
        m.counting (m.operations + 3)) := by
  let m₁ := m.counting (m.operations + 1)
  let m₂ := m.counting (m.operations + 2)
  have hfirst : argument e (Evaluator.within e (n + 1)) (.var x false p) m =
      (.value (lowerBigInt a), m₁) := argument_variable he hx ha p
  have hsecond : argument e (Evaluator.within e (n + 1)) (.var y false q) m₁ =
      (.value (lowerBigInt b), m₂) := argument_variable (m := m₁) he hy hb q
  have hunshared (i : ℤ) : (lowerBigInt i).unshared = lowerBigInt i := by
    rw [lowerBigInt]
    split <;> rfl
  have hcall : callNative e (Evaluator.within e n) op.symbol [lowerBigInt a, lowerBigInt b] .copy
      pos m₂ = (if op.Accepts a then .value (.bigInt (op.exact a b), none)
        else .fault (.raised (.functionNotFound (op.symbol ++ " (i64, BigInt)")) pos),
        m₂.counting (m₂.operations + 1)) := callNative_lowered he hsizes op hlarge pos
  have hbyName : callValues e (Evaluator.within e (n + 1)) op.symbol [lowerBigInt a, lowerBigInt b]
      false pos m₂ = (if op.Accepts a then .value (.bigInt (op.exact a b))
        else .fault (.raised (.functionNotFound (op.symbol ++ " (i64, BigInt)")) pos),
        m.counting (m.operations + 3)) := by
    have hlength : ([lowerBigInt a, lowerBigInt b].map Slot.own).length = 2 := rfl
    rw [callValues, callByName, hlength, hnative]
    by_cases haccepts : op.Accepts a
    · rw [if_pos haccepts] at hcall ⊢
      exact Run.bind_value hcall _
    · rw [if_neg haccepts] at hcall ⊢
      exact Run.bind_fault hcall _
  refine (Run.bind_value hfirst _).trans ((Run.bind_value hsecond _).trans ?_)
  rw [hunshared, hunshared, op.binary?_lowered hlarge]
  cases op <;> exact hbyName

/-- A script that is an operator on two variables with big integers, of which one is large. -/
theorem run_lowered (he : e.limits.maxOperations = 0) (hsizes : hasSizeLimit e.limits = false)
    (op : Arithmetic) {a b : ℤ} (hlarge : loweringBound ≤ a.natAbs ∨ loweringBound ≤ b.natAbs)
    (hnative : function? e op.symbol 2 = none) {x y : String}
    (hx : isFunctionWord e x false = false) (hy : isFunctionWord e y false = false)
    (ha : m.lookup? x = some ⟨x, false, .own (lowerBigInt a)⟩)
    (hb : m.lookup? y = some ⟨y, false, .own (lowerBigInt b)⟩) (p q pos : Position) :
    e.run Engine.ample [.callOnly (.operator op.symbol [.var x false p, .var y false q] pos)] m =
      (if op.Accepts a then .value (.bigInt (op.exact a b))
        else .fault (.raised (.functionNotFound (op.symbol ++ " (i64, BigInt)")) pos),
        m.counting (m.operations + 4)) := by
  obtain ⟨n, hn⟩ : ∃ n, Engine.ample = n + 2 := ⟨10 ^ 15 - 2, by decide⟩
  have hoperator := operatorRule_lowered (n := n) (m := m.counting (m.operations + 1)) he hsizes op
    hlarge hnative hx hy ha hb p q pos
  have hstatement : statements (Evaluator.within e (n + 2))
      [.callOnly (.operator op.symbol [.var x false p, .var y false q] pos)] m =
        (if op.Accepts a then .value (.bigInt (op.exact a b))
          else .fault (.raised (.functionNotFound (op.symbol ++ " (i64, BigInt)")) pos),
          m.counting (m.operations + 4)) :=
    (Run.bind_value (tick_value he _ m) _).trans hoperator
  rw [hn, Engine.run, hstatement]
  by_cases haccepts : op.Accepts a
  · rw [if_pos haccepts, if_pos haccepts]
  · rw [if_neg haccepts, if_neg haccepts]

end Script.Evaluation

variable {ω : Type} {h : Host ω} {registrations : List (Registration ω)}

/-- A name for variables of scripts: an identifier, no reserved word, and no host function. -/
structure Host.IsFree (h : Host ω) (x : String) : Prop where
  /-- The name is an identifier. -/
  identifier : isIdentifier x = true
  /-- The name is no reserved word. -/
  unreserved : isReserved x = false
  /-- No host function has the name. -/
  unregistered : x ∉ h.bridge.names

/-- Behind the lines of a bridge an operator between two variables is read as such. -/
theorem Bridge.ofText?_arithmetic (hbuild : Bridge.build registrations = .ok h.bridge)
    (hident : ∀ f ∈ h.bridge.functions, isIdentifier f.1 = true) {limits : Limits}
    (hlimits : limits.IsOpen) (hdepth : limits.maxExprDepth = 0 ∨ 3 ≤ limits.maxExprDepth)
    {x y : String} (hx : h.IsFree x) (hy : h.IsFree y) (op : Arithmetic) :
    ∃ functions p o q, List.Forall₂ (IsStub .expr) h.bridge.stubs functions ∧
      Program.ofText? limits (h.bridge.preamble ++ op.script x y) =
        .ok ⟨[.expr (.operator op.symbol [.var x false p, .var y false q] o)], functions, []⟩ := by
  have htext : (h.bridge.preamble ++ op.script x y).toList =
      h.bridge.pieces.flatMap Piece.chars ++ (op.pieces x y).flatMap Piece.chars := by
    rw [String.toList_append, pieces_chars, op.pieces_chars]
  obtain ⟨functions, placed, n, hfunctions, hplaced, hread⟩ := ofText?_pieces hlimits
    (build_stubs hbuild).1 (names_of_build hbuild hident)
    (op.pieces_isValid hx.identifier hy.identifier) (op.pieces_areApart hy.identifier) htext
  rw [op.pieces_tokens hx.identifier hx.unreserved hy.identifier hy.unreserved] at hplaced
  obtain ⟨p, behind, rfl, hbehind⟩ := map_token_eq_cons.mp hplaced
  obtain ⟨o, operand, rfl, hoperand⟩ := map_token_eq_cons.mp hbehind
  obtain ⟨q, rest, rfl, hrest⟩ := map_token_eq_cons.mp hoperand
  obtain ⟨v, others, rfl, hothers⟩ := map_token_eq_cons.mp hrest
  obtain rfl := List.map_eq_nil_iff.mp hothers
  let s : ParserState := { tokens := [], functions := functions.reverse }
  have hc : Context.Roomy { limits, maxLevel := limits.maxExprDepth, isTop := true } 3 := by
    refine ⟨?_, hlimits.arrays⟩
    show limits.maxExprDepth = 0 ∨ 0 + 3 ≤ limits.maxExprDepth
    omega
  have hloops := loops_arithmetic (n := n + 7) (s := s) (k := 0) hc ⟨rfl, rfl⟩ op (x := x) (y := y)
    rfl rfl p o q v
  obtain ⟨hkept, hnone⟩ := seeking_definitions s x p
  obtain ⟨hkept', hnone'⟩ := seeking_definitions (s.seeking x p) y q
  refine ⟨functions, p, o, q, hfunctions, (hread _ _ _ hloops).trans ?_⟩
  rw [hkept', hnone', hkept, hnone]
  simp [s]

namespace Prepared

/-- **Arithmetic on big integers.** Two variables are bound to big integers, of which one is so
large that it comes to the script as a big integer. However the script was prepared that applies an
operator to them, it gives the exact sum, and the exact difference or product if the first integer
is the large one. Otherwise the difference and the product fail, as no function takes an integer of
the language and a big integer. -/
theorem eval_arithmetic (hbuild : Bridge.build registrations = .ok h.bridge)
    (hident : ∀ r ∈ registrations, isIdentifier r.name = true) (hlimits : h.config.IsOpen)
    (hdepth : h.config.maxExprDepth = 0 ∨ 3 ≤ h.config.maxExprDepth)
    (hrules : h.rules = Chain.builtin) {x y : String} (hx : h.IsFree x) (hy : h.IsFree y)
    (op : Arithmetic) {p : Prepared} (hp : p.IsFaithful h)
    (hsource : p.source = h.sourceOf (op.script x y)) {vars : List (String × Value)} {a b : ℤ}
    (ha : boundTo? x vars = some (.bigInt a)) (hb : boundTo? y vars = some (.bigInt b))
    (hlarge : loweringBound ≤ a.natAbs ∨ loweringBound ≤ b.natAbs) (s : Store ω) :
    ∃ pos, noticed (p.eval h vars s) =
      (if op.Accepts a then some (.ok (.bigInt (op.exact a b)))
        else some (.error (.execution
          (.raised (.functionNotFound (op.symbol ++ " (i64, BigInt)")) pos) p.source)),
        s.world) := by
  have hident' : ∀ f ∈ h.bridge.functions, isIdentifier f.1 = true := by
    simpa [(Bridge.perm_of_build hbuild).mem_iff] using hident
  obtain ⟨functions, q, o, r, hfunctions, hread⟩ :=
    Bridge.ofText?_arithmetic hbuild hident' hlimits hdepth hx hy op
  obtain ⟨c, cs, hchars, hc, -⟩ := isIdentifier_chars hx.identifier
  have htext : h.sourceOf (op.script x y) = h.bridge.preamble ++ op.script x y := by
    have hscript : (op.script x y).toList = c :: (cs ++ (" " ++ op.symbol ++ " " ++ y).toList) := by
      simp [Arithmetic.script, hchars]
    exact Host.sourceOf_word hscript hc
  let program : Program := Program.simplified
    ⟨[.expr (.operator op.symbol [.var x false q, .var y false r] o)], functions, []⟩
  have hcompiled : h.compileText (h.sourceOf (op.script x y)) = .ok program := by
    rw [Host.compileText, htext, hread]
  have hbody : program.body =
      [.callOnly (.operator op.symbol [.var x false q, .var y false r] o)] :=
    Simplification.simplified_operator op.symbol x y q r o
  have hnative : Evaluation.function? (h.engine program) op.symbol 2 = none := by
    refine no_stub (p := (op.symbol, 2)) (Simplification.stubs_simplified hfunctions) fun hmem => ?_
    obtain ⟨f, hf, heq⟩ := List.mem_map.mp hmem
    have hname := hident' f hf
    rw [show f.1 = op.symbol from congrArg Prod.fst heq] at hname
    cases op <;> exact absurd hname (by decide +kernel)
  have hsizes : hasSizeLimit (h.engine program).limits = false := by
    simp [hasSizeLimit, Host.engine, hlimits.strings, hlimits.arrays, hlimits.maps]
  have hrun := Evaluation.run_lowered (e := h.engine program) hlimits.operations hsizes op hlarge
    hnative (Host.isFunctionWord_simplified hfunctions _ hx.unregistered)
    (Host.isFunctionWord_simplified hfunctions _ hy.unregistered)
    (lookup?_encodeBindings ha s.world) (lookup?_encodeBindings hb s.world) q r o
  have hchain : h.chain h.config.defaultOptions = Chain.builtin := by
    rw [Host.chain, hrules]
    split <;> rfl
  rw [← hbody] at hrun
  refine ⟨o, ?_⟩
  rw [eval, execute, hchain]
  refine (hp.evaluate_noticed _ _ _ (t := s) rfl).trans ?_
  rw [hsource]
  by_cases haccepts : op.Accepts a
  · rw [if_pos haccepts] at hrun ⊢
    exact evaluate_value hcompiled hrun _ _
  · rw [if_neg haccepts] at hrun ⊢
    exact evaluate_fault hcompiled hrun _ _

/-- A small integer times a large one. -/
theorem eval_arithmetic_product :
    let h : Host Unit := { bridge := .empty }
    ∃ pos, noticed ((h.prepare "a * b").eval h
        [("a", .bigInt 2), ("b", .bigInt 9223372036854775807)] { world := () }) =
      (some (.error (.execution (.raised (.functionNotFound "* (i64, BigInt)") pos) "a * b")),
        ()) := by
  intro h
  have hfree (x : String) (hident : isIdentifier x = true) (hreserved : isReserved x = false) :
      h.IsFree x := ⟨hident, hreserved, fun hmem => nomatch hmem⟩
  have hscript : Arithmetic.product.script "a" "b" = "a * b" := by decide +kernel
  have hsource : h.sourceOf "a * b" = "a * b" := by decide +kernel
  have hbuild : Bridge.build ([] : List (Registration Unit)) = .ok h.bridge := rfl
  let vars : List (String × Value) := [("a", .bigInt 2), ("b", .bigInt 9223372036854775807)]
  have hfirst : boundTo? "a" vars = some (.bigInt 2) := rfl
  have hsecond : boundTo? "b" vars = some (.bigInt 9223372036854775807) := rfl
  obtain ⟨pos, hanswer⟩ := eval_arithmetic hbuild (by simp)
    Config.isOpen_default (.inr (by decide)) rfl (hfree "a" (by decide +kernel) (by decide +kernel))
    (hfree "b" (by decide +kernel) (by decide +kernel)) .product (p := h.prepare "a * b")
    (isFaithful_afresh h _) (congrArg h.sourceOf hscript).symm
    hfirst hsecond (.inr (by decide)) { world := () }
  refine ⟨pos, ?_⟩
  rw [if_neg (by decide)] at hanswer
  rw [hanswer, Host.prepare, hsource]
  rfl

end Prepared

end ScriptHost
