import Mathlib
import ScriptHost.Proofs.Parsing

/-!
# Reading expressions

Which tokens are read as which expression. The grammar nests references to its rules, so the facts
hold for every grammar nested deeply enough, in every context with room for some levels.
-/

namespace ScriptHost.Script

/-- Whether an expression is complete in front of a token. -/
def Token.endsExpression : Token → Bool
  | .mark s => [")", "]", ",", ";", "\x7b", "\x7d"].contains s
  | .eof => true
  | _ => false

/-- Whether a token begins an operand without operators in front of it. -/
def Token.beginsPrimary : Token → Bool
  | .name _ | .int _ | .string _ => true
  | .mark s => ["[", "|"].contains s
  | _ => false

/-- A state in which names are variables and bars are operators. -/
structure ParserState.Calm (s : ParserState) : Prop where
  /-- The next name is a variable. -/
  capturing : s.capturing = true
  /-- A bar ends no expression. -/
  barEnds : s.barEnds = false

/-- The state before other tokens is as calm. -/
theorem ParserState.Calm.facing {s : ParserState} (hs : s.Calm) (ts : List Placed) :
    (s.facing ts).Calm := ⟨hs.capturing, hs.barEnds⟩

namespace Grammar

open ScriptHost.Script.Parser ParserState

variable {n k : ℕ} {c : Context} {s s' : ParserState} {t u : Placed} {ts l : List Placed} {e : Expr}

/-- Each rule refers to rules that are nested less. -/
@[simp] theorem within_expression (c : Context) :
    (within (n + 1)).expression c = expressionRule (within n) c := rfl

/-- Each rule refers to rules that are nested less. -/
@[simp] theorem within_operand (c : Context) :
    (within (n + 1)).operand c = operandRule (within n) c := rfl

/-- Each rule refers to rules that are nested less. -/
@[simp] theorem within_operators (c : Context) (least : ℕ) (e : Expr) :
    (within (n + 1)).operators c least e = operatorsRule (within n) c least e := rfl

/-- Each rule refers to rules that are nested less. -/
@[simp] theorem within_primary (c : Context) (afterDot : Bool) :
    (within (n + 1)).primary c afterDot = primaryRule (within n) c afterDot := rfl

/-- Each rule refers to rules that are nested less. -/
@[simp] theorem within_index (c : Context) (e : Expr) (isOptional checked : Bool) :
    (within (n + 1)).index c e isOptional checked =
      indexRule (within n) c e isOptional checked := rfl

/-! ## Where expressions end -/

/-- A token that ends an expression is one of these. -/
theorem endsExpression_cases {t : Token} (ht : t.endsExpression = true) :
    t = .eof ∨ ∃ m ∈ [")", "]", ",", ";", "\x7b", "\x7d"], t = .mark m := by
  cases t with
  | eof => exact .inl rfl
  | mark m => exact .inr ⟨m, by simpa [Token.endsExpression] using ht, rfl⟩
  | _ => cases ht

/-- A token that begins an operand is one of these. -/
theorem beginsPrimary_cases {t : Token} (ht : t.beginsPrimary = true) :
    (∃ x, t = .name x) ∨ (∃ i, t = .int i) ∨ (∃ x, t = .string x) ∨ t = .mark "[" ∨
      t = .mark "|" := by
  cases t with
  | name x => exact .inl ⟨x, rfl⟩
  | int i => exact .inr (.inl ⟨i, rfl⟩)
  | string x => exact .inr (.inr (.inl ⟨x, rfl⟩))
  | mark m =>
    simp only [Token.beginsPrimary, List.contains_iff_mem, List.mem_cons, List.not_mem_nil,
      or_false] at ht
    rcases ht with rfl | rfl
    · exact .inr (.inr (.inr (.inl rfl)))
    · exact .inr (.inr (.inr (.inr rfl)))
  | _ => cases ht

/-- A bar does not end an expression, and no other token does by itself. -/
theorem endsCase_calm (hs : s.Calm) (t : Token) : endsCase t s = .ok (false, s) := by
  rw [endsCase, hs.barEnds]
  rfl

/-- Nothing follows an operand in front of a token that ends the expression. -/
theorem nextSuffix_end (g : Grammar) (c : Context) (isOpen : Bool) (e : Expr)
    (ht : t.token.endsExpression = true) :
    nextSuffix g c (isOpen, e) (s.facing (t :: ts)) = .ok (.inr e, s.facing (t :: ts)) := by
  rw [nextSuffix, bind_ok (peek_facing t ts)]
  rcases endsExpression_cases ht with h | ⟨m, hm, h⟩
  · rw [h]
    rfl
  · rw [h]
    fin_cases hm <;> rfl

/-- An operand in front of a token that ends the expression has no suffixes. -/
theorem suffixes_end (g : Grammar) (c : Context) (root : Expr)
    (ht : t.token.endsExpression = true) :
    suffixes g c root (s.facing (t :: ts)) = .ok (root, s.facing (t :: ts)) :=
  (Loops.done (nextSuffix_end g c false root ht)).repeated

/-- A token that ends every expression is no bar. -/
theorem isMark_bar_end {t : Token} (ht : t.endsExpression = true) : t.isMark "|" = false := by
  rcases endsExpression_cases ht with rfl | ⟨m, hm, rfl⟩
  · rfl
  · fin_cases hm <;> rfl

/-- A token that ends the expression binds nothing. -/
theorem nextPrecedence_end (ht : t.token.endsExpression = true) :
    nextPrecedence t s = .ok (0, s) := by
  rw [nextPrecedence]
  rcases endsExpression_cases ht with h | ⟨m, hm, h⟩
  · rw [h]
    rfl
  · rw [h]
    fin_cases hm <;> rfl

/-- A token that ends every expression does so as no bar. -/
theorem endsCase_end (ht : t.token.endsExpression = true) :
    endsCase t.token s = .ok (false, s) := by
  rw [endsCase, isMark_bar_end ht, Bool.and_false]

/-- No operator stands in front of a token that ends the expression. -/
theorem operators_end (g : Grammar) (c : Context) {least : ℕ} (hleast : 0 < least) (lhs : Expr)
    (ht : t.token.endsExpression = true) :
    operatorsRule g c least lhs (s.facing (t :: ts)) = .ok (lhs, s.facing (t :: ts)) := by
  refine Loops.repeated (.done ?_)
  simp only [bind_ok (peek_facing t ts), bind_ok (endsCase_end ht)]
  simp [bind_ok (nextPrecedence_end ht), hleast]
  rfl

/-- An operand in front of a token that ends the expression is the expression. -/
theorem expression_of_primary (hc : c.Roomy (k + 1)) (hs : s.Calm)
    (hbegins : t.token.beginsPrimary = true) (hends : u.token.endsExpression = true)
    (hprimary : ∀ c', c'.Roomy k → (within n).primary c' false (s.facing (t :: ts)) =
      .ok (e, s'.facing (u :: l))) :
    (within (n + 2)).expression c (s.facing (t :: ts)) = .ok (e, s'.facing (u :: l)) := by
  have hdeeper : Context.Roomy { c with level := c.level + 1, pos := t.pos } k :=
    hc.deeper.congr rfl rfl rfl
  have hoperand : (within (n + 1)).operand { c with level := c.level + 1, pos := t.pos }
      (s.facing (t :: ts)) = .ok (e, s'.facing (u :: l)) := by
    rw [within_operand, operandRule, bind_ok (peek_facing t ts),
      bind_ok (endsCase_calm (hs.facing _) t.token)]
    have hrule := hprimary { c with level := c.level + 1, pos := t.pos } hdeeper
    obtain ⟨token, p⟩ := t
    rcases beginsPrimary_cases hbegins with ⟨x, rfl⟩ | ⟨i, rfl⟩ | ⟨x, rfl⟩ | rfl | rfl
    all_goals exact hrule
  rw [within_expression, expressionRule, bind_ok (deeper_ok hc), bind_ok (peek_facing t ts),
    bind_ok hoperand, within_operators, operators_end _ _ Nat.one_pos e hends]

/-! ## Operands -/

/-- A number is read as its value. -/
theorem primary_int (i : ℤ) (p : Position) (afterDot : Bool) (hs : s.Calm)
    (hends : u.token.endsExpression = true) :
    (within (n + 1)).primary c afterDot (s.facing (⟨.int i, p⟩ :: u :: l)) =
      .ok (.literal (.int i) p, s.facing (u :: l)) := by
  rw [within_primary, primaryRule, bind_ok (peek_facing ..),
    bind_ok (endsCase_calm (hs.facing _) _)]
  exact suffixes_end _ _ _ hends

/-- A quoted text is read as its value. -/
theorem primary_string (x : String) (p : Position) (afterDot : Bool) (hs : s.Calm)
    (hends : u.token.endsExpression = true) :
    (within (n + 1)).primary c afterDot (s.facing (⟨.string x, p⟩ :: u :: l)) =
      .ok (.literal (.string x) p, s.facing (u :: l)) := by
  rw [within_primary, primaryRule, bind_ok (peek_facing ..),
    bind_ok (endsCase_calm (hs.facing _) _)]
  exact suffixes_end _ _ _ hends

/-- A name is an operand that more may follow. -/
theorem primary_name (x : String) (p : Position) (afterDot : Bool) (hs : s.barEnds = false) :
    (within (n + 1)).primary c afterDot (s.facing (⟨.name x, p⟩ :: ts)) =
      (named x p >>= suffixes (within n) { c with pos := p }) (s.facing (⟨.name x, p⟩ :: ts)) := by
  have hcase : endsCase (.name x) (s.facing (⟨.name x, p⟩ :: ts)) =
      .ok (false, s.facing (⟨.name x, p⟩ :: ts)) := by
    rw [endsCase]
    simp [ParserState.facing, hs]
  rw [within_primary, primaryRule, bind_ok (peek_facing ..), bind_ok hcase]
  rfl

/-- A variable that the text declares. -/
theorem named_known {x : String} {p : Position} (hs : s.Calm)
    (hknown : s.declared.any (·.name == x) = true)
    (hcall : (t.token.isMark "(" || t.token.isMark "!" || t.token.isMark "()") = false) :
    named x p (s.facing (⟨.name x, p⟩ :: t :: ts)) = .ok (.var x true p, s.facing (t :: ts)) := by
  have hrefer : refer x p (s.facing (t :: ts)) = .ok (true, s.facing (t :: ts)) := by
    simp [refer, ParserState.facing, hs.capturing, hknown]
  rw [named, bind_ok (next_facing ..), bind_ok (peek_facing ..), hcall]
  simp only [Bool.false_eq_true, if_false]
  rw [bind_ok hrefer]
  rfl

/-! ## Lists of expressions -/

/-- Tokens that are an expression, in front of any token that ends it. -/
structure Reads (n k : ℕ) (s : ParserState) (ps : List Placed) (e : Expr) : Prop where
  /-- They begin an operand. -/
  begins : ∃ t ts, ps = t :: ts ∧ t.token.beginsPrimary = true
  /-- They are taken, and nothing else changes. -/
  reads : ∀ (c : Context) (u : Placed) (l : List Placed), c.Roomy k →
    u.token.endsExpression = true →
    (within n).expression c (s.facing (ps ++ u :: l)) = .ok (e, s.facing (u :: l))

/-- Expressions with commas between them. -/
inductive Listed (n k : ℕ) (s : ParserState) : List Placed → List Expr → Prop where
  /-- The last expression. -/
  | last {ps : List Placed} {e : Expr} (h : Reads n k s ps e) : Listed n k s ps [e]
  /-- An expression before others. -/
  | cons {ps qs : List Placed} {e : Expr} {es : List Expr} (p : Position) (h : Reads n k s ps e)
      (hrest : Listed n k s qs es) : Listed n k s (ps ++ ⟨.mark ",", p⟩ :: qs) (e :: es)

/-- The first token of a list begins an operand. -/
theorem Listed.begins {ps : List Placed} {es : List Expr} (h : Listed n k s ps es) :
    ∃ t ts, ps = t :: ts ∧ t.token.beginsPrimary = true := by
  cases h with
  | last h => exact h.begins
  | cons p h hrest =>
    obtain ⟨t, ts, rfl, ht⟩ := h.begins
    exact ⟨t, _, rfl, ht⟩

/-- Expressions with commas between them are listed, and of the kinds that their tokens tell. -/
theorem exists_listed {α : Type} {items : List α} (hitems : items ≠ []) {spelling : α → List Token}
    (kind : α → Expr → Prop)
    (h : ∀ i ∈ items, ∀ ps, ps.map Placed.token = spelling i → ∃ e, Reads n k s ps e ∧ kind i e)
    {ps : List Placed}
    (hps : ps.map Placed.token = [.mark ","].intercalate (items.map spelling)) :
    ∃ es, Listed n k s ps es ∧ List.Forall₂ kind items es := by
  induction items generalizing ps with
  | nil => exact absurd rfl hitems
  | cons i items ih =>
    cases items with
    | nil =>
      rw [List.map_cons, List.map_nil, List.intercalate_singleton] at hps
      obtain ⟨e, hread, hkind⟩ := h i List.mem_cons_self ps hps
      exact ⟨[e], .last hread, .cons hkind .nil⟩
    | cons j items =>
      rw [List.map_cons, List.map_cons, List.intercalate_cons_cons, ← List.map_cons,
        List.append_assoc, List.singleton_append] at hps
      obtain ⟨first, rest, rfl, hfirst, hrest⟩ := List.map_eq_append_iff.mp hps
      obtain ⟨⟨token, p⟩, others, rfl, hcomma, hothers⟩ := List.map_eq_cons_iff.mp hrest
      obtain ⟨e, hread, hkind⟩ := h i List.mem_cons_self first hfirst
      obtain ⟨es, hlisted, hkinds⟩ := ih (List.cons_ne_nil j items)
        (fun i' hi' => h i' (List.mem_cons_of_mem i hi')) hothers
      simp only at hcomma
      subst hcomma
      exact ⟨e :: es, .cons p hread hlisted, .cons hkind hkinds⟩

/-- A token that begins an operand closes no list. -/
theorem isMark_of_beginsPrimary {t : Token} (ht : t.beginsPrimary = true) {m : String}
    (hm : m ∈ [")", "]", ","]) : t.isMark m = false := by
  rcases beginsPrimary_cases ht with ⟨x, rfl⟩ | ⟨i, rfl⟩ | ⟨x, rfl⟩ | rfl | rfl
  all_goals fin_cases hm <;> rfl

/-- The arguments of a call. -/
theorem arguments_listed (hc : c.Roomy (k + 1)) {ps : List Placed} {es : List Expr}
    (h : Listed n k s ps es) (name : String) (p : Position) :
    arguments (within n) c name (s.facing (ps ++ ⟨.mark ")", p⟩ :: u :: l)) =
      .ok (es, s.facing (u :: l)) := by
  have hloop : ∀ args, Loops (nextArgument (within n) { c with level := c.level + 1 } name) args
      (s.facing (ps ++ ⟨.mark ")", p⟩ :: u :: l)) (args ++ es) (s.facing (u :: l)) := by
    induction h with
    | last h =>
      intro args
      obtain ⟨t, ts, rfl, ht⟩ := h.begins
      have hread := h.reads _ ⟨.mark ")", p⟩ (u :: l) hc.deeper rfl
      refine .done ?_
      rw [List.cons_append] at hread ⊢
      rw [nextArgument, bind_ok (peek_facing ..), isMark_of_beginsPrimary ht (by simp)]
      simp only [Bool.false_eq_true, if_false]
      rw [bind_ok (bind_ok hread), bind_ok (peek_facing ..)]
      rfl
    | cons q h hrest ih =>
      rename_i e es
      intro args
      obtain ⟨t, ts, rfl, ht⟩ := h.begins
      obtain ⟨t', ts', rfl, ht'⟩ := hrest.begins
      have hread := h.reads _ ⟨.mark ",", q⟩ (t' :: ts' ++ ⟨.mark ")", p⟩ :: u :: l) hc.deeper rfl
      have hless : (t' :: ts' ++ ⟨.mark ")", p⟩ :: u :: l).length <
          (t :: ts ++ ⟨.mark ",", q⟩ :: t' :: ts' ++ ⟨.mark ")", p⟩ :: u :: l).length := by
        simp only [List.length_append, List.length_cons]
        omega
      have hrest' := ih (args ++ [e])
      rw [List.append_assoc, List.singleton_append] at hrest'
      refine .more ?_ hless hrest'
      rw [List.append_assoc]
      rw [List.cons_append] at hread ⊢
      rw [nextArgument, bind_ok (peek_facing ..), isMark_of_beginsPrimary ht (by simp)]
      simp only [Bool.false_eq_true, if_false]
      rw [bind_ok (bind_ok hread), bind_ok (peek_facing ..)]
      rfl
  obtain ⟨t, ts, rfl, ht⟩ := h.begins
  have hargs := (hloop []).repeated
  rw [List.cons_append] at hargs ⊢
  rw [arguments, bind_ok (peek_facing ..)]
  obtain ⟨token, q⟩ := t
  rcases beginsPrimary_cases ht with ⟨x, rfl⟩ | ⟨i, rfl⟩ | ⟨x, rfl⟩ | rfl | rfl
  all_goals exact (bind_ok (deeper_ok hc)).trans hargs

/-- An array literal ends with a bracket. -/
theorem nextItem_close (hc : c.Roomy k) (items : List Expr) (p q : Position) :
    nextItem (within n) c p items (s.facing (⟨.mark "]", q⟩ :: u :: l)) =
      .ok (.inr (.array items p), s.facing (u :: l)) := by
  rw [nextItem, bind_ok (peek_facing ..), hc.arrays]
  rfl

/-- An item in front of a comma, which is taken, or of the closing bracket is one more. -/
theorem nextItem_item (hc : c.Roomy (k + 1)) {ps : List Placed} (h : Reads n k s ps e)
    (items : List Expr) (p : Position) (u t : Placed) (ts : List Placed) {rest : List Placed}
    (hu : u.token = .mark "," ∧ rest = t :: ts ∨ u.token = .mark "]" ∧ rest = u :: t :: ts) :
    nextItem (within n) c p items (s.facing (ps ++ u :: t :: ts)) =
      .ok (.inl (items ++ [e]), s.facing rest) := by
  have hends : u.token.endsExpression = true := by
    rcases hu with ⟨hu, -⟩ | ⟨hu, -⟩ <;> rw [hu] <;> rfl
  have hread := h.reads _ u (t :: ts) hc.deeper hends
  obtain ⟨⟨first, q⟩, others, rfl, hfirst⟩ := h.begins
  obtain ⟨token, r⟩ := u
  rw [List.cons_append] at hread ⊢
  rw [nextItem, bind_ok (peek_facing ..), hc.arrays]
  rcases beginsPrimary_cases hfirst with ⟨x, rfl⟩ | ⟨i, rfl⟩ | ⟨x, rfl⟩ | rfl | rfl
  all_goals
    rcases hu with ⟨rfl, rfl⟩ | ⟨rfl, rfl⟩
    · exact (bind_ok (deeper_ok hc)).trans (bind_ok hread)
    · exact (bind_ok (deeper_ok hc)).trans (bind_ok hread)

/-- The items of an array literal. -/
theorem arrayLiteral_listed (hc : c.Roomy (k + 1)) {ps : List Placed} {es : List Expr}
    (h : Listed n k s ps es) (p q : Position) :
    arrayLiteral (within n) c (s.facing (⟨.mark "[", p⟩ :: (ps ++ ⟨.mark "]", q⟩ :: u :: l))) =
      .ok (.array es p, s.facing (u :: l)) := by
  have hc' : Context.Roomy { c with pos := p } (k + 1) := hc.congr rfl rfl rfl
  have hloop : ∀ items, Loops (nextItem (within n) { c with pos := p } p) items
      (s.facing (ps ++ ⟨.mark "]", q⟩ :: u :: l)) (.array (items ++ es) p)
      (s.facing (u :: l)) := by
    induction h with
    | last h =>
      intro items
      have hitem := nextItem_item hc' h items p ⟨.mark "]", q⟩ u l (.inr ⟨rfl, rfl⟩)
      obtain ⟨t, ts, rfl, -⟩ := h.begins
      refine .more hitem ?_ (.done (nextItem_close hc' _ p q))
      simp only [facing_tokens, List.length_append, List.length_cons]
      omega
    | cons r h hrest ih =>
      rename_i e es
      intro items
      obtain ⟨t, ts, rfl, -⟩ := hrest.begins
      have hitem := nextItem_item hc' h items p ⟨.mark ",", r⟩ t
        (ts ++ ⟨.mark "]", q⟩ :: u :: l) (.inl ⟨rfl, rfl⟩)
      have hrest' := ih (items ++ [e])
      rw [List.append_assoc, List.singleton_append] at hrest'
      rw [List.append_assoc, List.cons_append, List.cons_append]
      refine .more hitem ?_ hrest'
      simp only [facing_tokens, List.length_append, List.length_cons]
      omega
  obtain ⟨t, ts, rfl, ht⟩ := h.begins
  rw [arrayLiteral, List.cons_append, bind_ok (next_facing ..)]
  exact (hloop []).repeated

/-- An array literal without items. -/
theorem arrayLiteral_empty (hc : c.Roomy k) (p q : Position) :
    arrayLiteral (within n) c (s.facing (⟨.mark "[", p⟩ :: ⟨.mark "]", q⟩ :: u :: l)) =
      .ok (.array [] p, s.facing (u :: l)) := by
  have hc' : Context.Roomy { c with pos := p } k := hc.congr rfl rfl rfl
  rw [arrayLiteral, bind_ok (next_facing ..)]
  exact (Loops.done (nextItem_close hc' [] p q)).repeated

/-! ## Indices and method calls -/

/-- An index in brackets that ends the expression. -/
theorem index_close (hc : c.Roomy (k + 1)) {ps : List Placed} {key : Expr}
    (h : Reads n k s ps key) {container : Expr} (hkey : indexProblem? container key = none)
    (q : Position) (hends : u.token.endsExpression = true) :
    (within (n + 1)).index c container false true (s.facing (ps ++ ⟨.mark "]", q⟩ :: u :: l)) =
      .ok ([.index key false c.pos], s.facing (u :: l)) := by
  have hnot : (u.token.isMark "[" || u.token.isMark "?[") = false := by
    rcases endsExpression_cases hends with h | ⟨m, hm, h⟩
    · rw [h]
      rfl
    · rw [h]
      fin_cases hm <;> rfl
  rw [within_index, indexRule, bind_ok (deeper_ok hc), bind_ok (h.reads _ _ _ hc.deeper rfl)]
  simp only [if_true, hkey]
  rw [bind_ok (peek_facing ..)]
  show (next >>= _) _ = _
  rw [bind_ok (next_facing ..), bind_ok (peek_facing ..), hnot]
  rfl

/-- An operand may be followed by an index in brackets. -/
theorem nextSuffix_index (hc : c.Roomy (k + 2)) {ps : List Placed} {key : Expr}
    (h : Reads n k s ps key) {e : Expr} (hkey : indexProblem? e key = none) (isOpen : Bool)
    (p q : Position) (hends : u.token.endsExpression = true) :
    nextSuffix (within (n + 1)) c (isOpen, e)
        (s.facing (⟨.mark "[", p⟩ :: (ps ++ ⟨.mark "]", q⟩ :: u :: l))) =
      .ok (.inl (true, extended isOpen e [.index key false p]), s.facing (u :: l)) := by
  have hc' : Context.Roomy { c with pos := p } (k + 2) := hc.congr rfl rfl rfl
  have hindex := index_close hc'.deeper h hkey q hends (l := l)
  obtain ⟨t, ts, rfl, -⟩ := h.begins
  rw [nextSuffix, bind_ok (peek_facing ..)]
  exact (bind_ok (next_facing ..)).trans
    ((bind_ok (deeper_ok hc')).trans ((bind_ok hindex).trans rfl))

/-- The end of a name that is called takes the next name for a variable again. -/
theorem capturing_facing (hs : s.Calm) (b : Bool) :
    capturing (({ s with capturing := b } : ParserState).facing ts) = .ok ((), s.facing ts) := by
  obtain ⟨hcapturing, -⟩ := hs
  simp [capturing, ParserState.facing, ← hcapturing]

/-- The arguments after a name make a call of it. -/
theorem suffixes_call (hc : c.Roomy (k + 1)) {ps : List Placed} {es : List Expr}
    (h : Listed n k s ps es) (name : String) (known : Bool) (p q r : Position)
    (hends : u.token.endsExpression = true) :
    suffixes (within n) c (.var name known p)
        (s.facing (⟨.mark "(", q⟩ :: (ps ++ ⟨.mark ")", r⟩ :: u :: l))) =
      .ok (.call name es false p, s.facing (u :: l)) := by
  have hc' : Context.Roomy { c with pos := p } (k + 1) := hc.congr rfl rfl rfl
  have hargs := arguments_listed hc' h name r (u := u) (l := l)
  have hcall : nextSuffix (within n) c (false, .var name known p)
      (s.facing (⟨.mark "(", q⟩ :: (ps ++ ⟨.mark ")", r⟩ :: u :: l))) =
        .ok (.inl (true, .call name es false p), s.facing (u :: l)) := by
    obtain ⟨t, ts, rfl, -⟩ := h.begins
    rw [nextSuffix, bind_ok (peek_facing ..)]
    exact (bind_ok (next_facing ..)).trans ((bind_ok hargs).trans rfl)
  refine (Loops.more hcall ?_ (.done (nextSuffix_end _ _ _ _ hends))).repeated
  simp only [facing_tokens, List.length_cons, List.length_append]
  omega

/-- A name in front of arguments is no variable. -/
theorem named_called (hs : s.Calm) (b : Bool) (name : String) (p q : Position) :
    named name p (({ s with capturing := b } : ParserState).facing
        (⟨.name name, p⟩ :: ⟨.mark "(", q⟩ :: ts)) =
      .ok (.var name false p, s.facing (⟨.mark "(", q⟩ :: ts)) := by
  rw [named, bind_ok (next_facing ..), bind_ok (peek_facing ..)]
  exact (bind_ok (capturing_facing hs b)).trans rfl

/-- A name with arguments is a call. -/
theorem primary_call (hc : c.Roomy (k + 1)) (hs : s.Calm) (b afterDot : Bool) {ps : List Placed}
    {es : List Expr} (h : Listed n k s ps es) (name : String) (p q r : Position)
    (hends : u.token.endsExpression = true) :
    (within (n + 1)).primary c afterDot (({ s with capturing := b } : ParserState).facing
        (⟨.name name, p⟩ :: ⟨.mark "(", q⟩ :: (ps ++ ⟨.mark ")", r⟩ :: u :: l))) =
      .ok (.call name es false p, s.facing (u :: l)) := by
  have hc' : Context.Roomy { c with pos := p } (k + 1) := hc.congr rfl rfl rfl
  have hbar : ({ s with capturing := b } : ParserState).barEnds = false := hs.barEnds
  rw [primary_name name p afterDot hbar, bind_ok (named_called hs b name p q)]
  exact suffixes_call hc' h name false p q r hends

/-- Some reserved words are called as methods. -/
theorem primary_methodWord (hc : c.Roomy (k + 1)) (hs : s.Calm) {ps : List Placed}
    {es : List Expr} (h : Listed n k s ps es) {word : String} (hword : word ∈ methodWords)
    (p q r : Position) (hends : u.token.endsExpression = true) :
    (within (n + 1)).primary c true (s.facing
        (⟨.reserved word, p⟩ :: ⟨.mark "(", q⟩ :: (ps ++ ⟨.mark ")", r⟩ :: u :: l))) =
      .ok (.call word es false p, s.facing (u :: l)) := by
  have hc' : Context.Roomy { c with pos := p } (k + 1) := hc.congr rfl rfl rfl
  have hreserved : reservedWord { c with pos := p } word true p (s.facing
      (⟨.reserved word, p⟩ :: ⟨.mark "(", q⟩ :: (ps ++ ⟨.mark ")", r⟩ :: u :: l))) =
        .ok (.var word false p, s.facing (⟨.mark "(", q⟩ :: (ps ++ ⟨.mark ")", r⟩ :: u :: l))) := by
    rw [reservedWord, bind_ok (next_facing ..), bind_ok (peek_facing ..)]
    simp [Token.isMark, hword]
    rfl
  rw [within_primary, primaryRule, bind_ok (peek_facing ..),
    bind_ok (endsCase_calm (hs.facing _) _)]
  exact (bind_ok hreserved).trans (suffixes_call hc' h word false p q r hends)

/-- Whether a token may be the name of a method. -/
def namesMethod (t : Token) (name : String) : Prop :=
  t = .name name ∨ t = .reserved name ∧ name ∈ methodWords

/-- An operand may be followed by the call of a method. -/
theorem nextSuffix_method (hc : c.Roomy (k + 2)) (hs : s.Calm) {ps : List Placed}
    {es : List Expr} (h : Listed n k s ps es) {name : String} (hname : namesMethod t.token name)
    (isOpen : Bool) (e : Expr) (d q r : Position) (hends : u.token.endsExpression = true) :
    nextSuffix (within (n + 1)) c (isOpen, e) (s.facing
        (⟨.mark ".", d⟩ :: t :: ⟨.mark "(", q⟩ :: (ps ++ ⟨.mark ")", r⟩ :: u :: l))) =
      .ok (.inl (true, extended isOpen e [.method name es false d t.pos]), s.facing (u :: l)) := by
  have hc' : Context.Roomy { c with pos := d } (k + 2) := hc.congr rfl rfl rfl
  have hes : es.isEmpty = false := by
    cases h <;> rfl
  have hlink : linksAfterDot false d (.call name es false t.pos) (s.facing (u :: l)) =
      .ok ([.method name es false d t.pos], s.facing (u :: l)) := by
    simp only [linksAfterDot, firstLink, hes, Bool.false_and, Bool.false_eq_true, if_false]
    rfl
  obtain ⟨token, p⟩ := t
  rw [nextSuffix, bind_ok (peek_facing ..)]
  show afterDot _ _ _ _ _ _ _ = _
  rw [afterDot, bind_ok (next_facing ..), bind_ok (peek_facing ..)]
  rcases hname with hname | ⟨hname, hword⟩
  · subst hname
    have hcall := primary_call hc'.deeper hs false true h name p q r hends (l := l)
    exact (bind_ok (a := ()) rfl).trans ((bind_ok (deeper_ok hc')).trans
      ((bind_ok hcall).trans ((bind_ok hlink).trans rfl)))
  · subst hname
    have hcall := primary_methodWord hc'.deeper hs h hword p q r hends (l := l)
    exact (bind_ok (deeper_ok hc')).trans ((bind_ok hcall).trans ((bind_ok hlink).trans rfl))

/-! ## Whole expressions -/

/-- Room for more levels is enough. -/
theorem Reads.mono {j : ℕ} {ps : List Placed} (h : Reads n j s ps e) (hle : j ≤ k) :
    Reads n k s ps e :=
  ⟨h.begins, fun c u l hc hends => h.reads c u l (hc.mono hle) hends⟩

/-- An operand that is read in front of any token that ends it is an expression. -/
theorem reads_of_primary (hs : s.Calm) (hbegins : t.token.beginsPrimary = true)
    (hprimary : ∀ (c : Context) (u : Placed) (l : List Placed), c.Roomy k →
      u.token.endsExpression = true → (within n).primary c false (s.facing (t :: ts ++ u :: l)) =
        .ok (e, s.facing (u :: l))) :
    Reads (n + 2) (k + 1) s (t :: ts) e := by
  refine ⟨⟨t, ts, rfl, hbegins⟩, fun c u l hc hends => ?_⟩
  rw [List.cons_append]
  exact expression_of_primary hc hs hbegins hends fun c' hc' => hprimary c' u l hc' hends

/-- A number is an expression. -/
theorem reads_int (hs : s.Calm) (i : ℤ) (p : Position) :
    Reads (n + 3) (k + 1) s [⟨.int i, p⟩] (.literal (.int i) p) :=
  reads_of_primary hs rfl fun _ _ _ _ hends => primary_int i p false hs hends

/-- A quoted text is an expression. -/
theorem reads_string (hs : s.Calm) (x : String) (p : Position) :
    Reads (n + 3) (k + 1) s [⟨.string x, p⟩] (.literal (.string x) p) :=
  reads_of_primary hs rfl fun _ _ _ _ hends => primary_string x p false hs hends

/-- A token that ends an expression makes no call of a name before it. -/
theorem noCall_of_endsExpression {t : Token} (ht : t.endsExpression = true) :
    (t.isMark "(" || t.isMark "!" || t.isMark "()") = false := by
  rcases endsExpression_cases ht with rfl | ⟨m, hm, rfl⟩
  · rfl
  · fin_cases hm <;> rfl

/-- A declared variable is an expression. -/
theorem reads_known (hs : s.Calm) {x : String} (hknown : s.declared.any (·.name == x) = true)
    (p : Position) : Reads (n + 3) (k + 1) s [⟨.name x, p⟩] (.var x true p) := by
  refine reads_of_primary hs rfl fun c u l _ hends => ?_
  rw [List.singleton_append, primary_name x p false hs.barEnds,
    bind_ok (named_known hs hknown (noCall_of_endsExpression hends))]
  exact suffixes_end _ _ _ hends

/-- A literal of listed items is an expression. -/
theorem reads_array (hs : s.Calm) {ps : List Placed} {es : List Expr} (h : Listed n k s ps es)
    (p q : Position) :
    Reads (n + 3) (k + 3) s (⟨.mark "[", p⟩ :: (ps ++ [⟨.mark "]", q⟩])) (.array es p) := by
  refine reads_of_primary hs rfl fun c u l hc hends => ?_
  have hc' : Context.Roomy { c with pos := p } (k + 2) := hc.congr rfl rfl rfl
  have hitems := arrayLiteral_listed hc'.deeper h p q (u := u) (l := l)
  rw [within_primary, primaryRule, List.cons_append, List.append_assoc, List.singleton_append,
    bind_ok (peek_facing ..), bind_ok (endsCase_calm (hs.facing _) _)]
  exact (bind_ok (deeper_ok hc')).trans ((bind_ok hitems).trans (suffixes_end _ _ _ hends))

/-- A literal without items is an expression. -/
theorem reads_emptyArray (hs : s.Calm) (p q : Position) :
    Reads (n + 3) (k + 2) s [⟨.mark "[", p⟩, ⟨.mark "]", q⟩] (.array [] p) := by
  refine reads_of_primary hs rfl fun c u l hc hends => ?_
  have hc' : Context.Roomy { c with pos := p } (k + 1) := hc.congr rfl rfl rfl
  have hitems := arrayLiteral_empty (n := n) (s := s) hc'.deeper p q (u := u) (l := l)
  rw [within_primary, primaryRule, List.cons_append, List.singleton_append,
    bind_ok (peek_facing ..), bind_ok (endsCase_calm (hs.facing _) _)]
  exact (bind_ok (deeper_ok hc')).trans ((bind_ok hitems).trans (suffixes_end _ _ _ hends))

/-- A name with arguments is an expression. -/
theorem reads_call (hs : s.Calm) {ps : List Placed} {es : List Expr} (h : Listed n k s ps es)
    (name : String) (p q r : Position) :
    Reads (n + 3) (k + 2) s (⟨.name name, p⟩ :: ⟨.mark "(", q⟩ :: (ps ++ [⟨.mark ")", r⟩]))
      (.call name es false p) := by
  refine reads_of_primary hs rfl fun c u l hc hends => ?_
  have hcall := primary_call hc hs s.capturing false h name p q r hends (l := l)
  rw [List.cons_append, List.cons_append, List.append_assoc, List.singleton_append]
  exact hcall

/-- A name with empty parentheses is an expression. -/
theorem reads_callAlone (hs : s.Calm) (name : String) (p q : Position) :
    Reads (n + 3) (k + 1) s [⟨.name name, p⟩, ⟨.mark "()", q⟩] (.call name [] false p) := by
  refine reads_of_primary hs rfl fun c u l _ hends => ?_
  have hnamed : named name p (s.facing (⟨.name name, p⟩ :: ⟨.mark "()", q⟩ :: u :: l)) =
      .ok (.var name false p, s.facing (⟨.mark "()", q⟩ :: u :: l)) := by
    rw [named, bind_ok (next_facing ..), bind_ok (peek_facing ..)]
    exact (bind_ok (capturing_facing hs s.capturing)).trans rfl
  have hcall : nextSuffix (within n) { c with pos := p } (false, .var name false p)
      (s.facing (⟨.mark "()", q⟩ :: u :: l)) =
        .ok (.inl (true, .call name [] false p), s.facing (u :: l)) := by
    rw [nextSuffix, bind_ok (peek_facing ..)]
    exact (bind_ok (next_facing ..)).trans rfl
  rw [List.cons_append, List.singleton_append, primary_name name p false hs.barEnds, bind_ok hnamed]
  refine (Loops.more hcall ?_ (.done (nextSuffix_end _ _ _ _ hends))).repeated
  simp only [facing_tokens, List.length_cons]
  omega

/-- An element of a declared variable is an expression. -/
theorem reads_index (hs : s.Calm) {x : String} (hknown : s.declared.any (·.name == x) = true)
    {ps : List Placed} {key : Expr} (h : Reads n k s ps key) (p q r : Position) :
    Reads (n + 4) (k + 3) s (⟨.name x, p⟩ :: ⟨.mark "[", q⟩ :: (ps ++ [⟨.mark "]", r⟩]))
      (.chain (.var x true p) [.index key false q]) := by
  refine reads_of_primary hs rfl fun c u l hc hends => ?_
  have hc' : Context.Roomy { c with pos := p } (k + 2) := hc.congr rfl rfl rfl
  have hindex := nextSuffix_index hc' h (e := .var x true p) rfl false q r hends (l := l)
  rw [List.cons_append, List.cons_append, List.append_assoc, List.singleton_append,
    primary_name x p false hs.barEnds, bind_ok (named_known hs hknown rfl)]
  refine (Loops.more hindex ?_ (.done (nextSuffix_end _ _ _ _ hends))).repeated
  simp only [facing_tokens, List.length_cons, List.length_append]
  omega

/-- The call of a method of a declared variable is an expression. -/
theorem reads_method (hs : s.Calm) {x : String} (hknown : s.declared.any (·.name == x) = true)
    {ps : List Placed} {es : List Expr} (h : Listed n k s ps es) {name : String}
    (hname : namesMethod t.token name) (p d q r : Position) :
    Reads (n + 4) (k + 3) s
      (⟨.name x, p⟩ :: ⟨.mark ".", d⟩ :: t :: ⟨.mark "(", q⟩ :: (ps ++ [⟨.mark ")", r⟩]))
      (.chain (.var x true p) [.method name es false d t.pos]) := by
  refine reads_of_primary hs rfl fun c u l hc hends => ?_
  have hc' : Context.Roomy { c with pos := p } (k + 2) := hc.congr rfl rfl rfl
  have hmethod := nextSuffix_method hc' hs h hname false (.var x true p) d q r hends (l := l)
  simp only [List.cons_append, List.append_assoc]
  rw [primary_name x p false hs.barEnds, bind_ok (named_known hs hknown rfl)]
  refine (Loops.more hmethod ?_ (.done (nextSuffix_end _ _ _ _ hends))).repeated
  simp only [facing_tokens, List.length_cons, List.length_append]
  omega

end Grammar

end ScriptHost.Script
