import Mathlib
import ScriptHost.Proofs.Closing.Statements
import ScriptHost.Proofs.Preamble

/-!
# One expression, alone and in parentheses

A text may be one expression behind definitions of functions. The same tokens are then a statement
of a script; in parentheses they are the same statement, two levels deeper, and without the closing
parenthesis they are none.
-/

namespace ScriptHost.Script

namespace Parser

variable {α : Type} {s : ParserState}

/-- What is read is all the rest of a text, if anything is read. -/
def ReadsAll (r : Except Complaint (α × ParserState)) : Prop :=
  ∀ a t, r = .ok (a, t) → ∃ q, t.tokens = [⟨.eof, q⟩]

/-- What has nothing to do at the end of a text does nothing after a parser that reads all. -/
theorem bind_of_readsAll {p : Parser α} {f : α → Parser α} (hp : ReadsAll (p s))
    (hf : ∀ a (t : ParserState) q,
      f a (t.facing [⟨.eof, q⟩]) = .ok (a, t.facing [⟨.eof, q⟩])) :
    (p >>= f) s = p s := by
  cases h : p s with
  | error complaint => exact bind_error h f
  | ok r =>
    obtain ⟨a, t⟩ := r
    obtain ⟨q, htokens⟩ := hp a t h
    have hfacing : t = t.facing [⟨.eof, q⟩] := by rw [← htokens]; rfl
    rw [bind_ok h, hfacing, hf]

end Parser

namespace Grammar

open ScriptHost.Script.Parser ParserState

variable {n : ℕ} {c : Context} {s s' : ParserState} {e : Expr} {p q : Position}
  {ts : List Placed}

/-! ## In parentheses -/

/-- Where an expression is read there is room for one more level. -/
theorem room_of_expression {r : Expr × ParserState} (h : (within n).expression c s = .ok r) :
    c.maxLevel = 0 ∨ c.level + 1 ≤ c.maxLevel := by
  cases n with
  | zero => cases h
  | succ n =>
    rw [within_expression, expressionRule, deeper] at h
    split_ifs at h with hdeep
    · cases h
    · simp only [Bool.and_eq_true, bne_iff_ne, decide_eq_true_eq, not_and] at hdeep
      omega

/-- The position in front of an expression is of no account. -/
theorem expression_at {r : Expr × ParserState} (h : (within n).expression c s = .ok r)
    (pos : Position) : (within n).expression { c with pos } s = .ok r := by
  cases n with
  | zero => cases h
  | succ n =>
    rw [within_expression, expressionRule, deeper] at h ⊢
    split_ifs at h ⊢
    · cases h
    · exact h

/-- A group that is all the rest of a text is an expression. -/
theorem expression_group (hc : c.Roomy 2)
    (hall : ReadsAll (group (within n) { c with pos := p, level := c.level + 2 }
      (s.facing (⟨.mark "(", p⟩ :: ts)))) :
    (within (n + 3)).expression c (s.facing (⟨.mark "(", p⟩ :: ts)) =
      group (within n) { c with pos := p, level := c.level + 2 }
        (s.facing (⟨.mark "(", p⟩ :: ts)) := by
  let d : Context := { c with pos := p, level := c.level + 1 }
  have hd : d.Roomy 1 := hc.deeper.congr rfl rfl rfl
  have hcase : endsCase (.mark "(") = pure false := endsCase_of_isMark rfl
  have hprimary : (within (n + 1)).primary d false (s.facing (⟨.mark "(", p⟩ :: ts)) =
      group (within n) { c with pos := p, level := c.level + 2 }
        (s.facing (⟨.mark "(", p⟩ :: ts)) := by
    rw [within_primary, primaryRule, bind_ok (peek_facing ..), hcase, pure_bind]
    exact (bind_ok (deeper_ok hd)).trans
      (bind_of_readsAll hall fun e t q => suffixes_end (t := ⟨.eof, q⟩) _ _ e rfl)
  have hoperand : (within (n + 2)).operand d (s.facing (⟨.mark "(", p⟩ :: ts)) =
      (within (n + 1)).primary d false (s.facing (⟨.mark "(", p⟩ :: ts)) := by
    rw [within_operand, operandRule, bind_ok (peek_facing ..), hcase, pure_bind]
    rfl
  rw [hprimary] at hoperand
  rw [within_expression, expressionRule, bind_ok (deeper_ok hc), bind_ok (peek_facing ..)]
  exact (bind_of_readsAll (hoperand ▸ hall) fun e t q =>
    operators_end (t := ⟨.eof, q⟩) _ _ Nat.one_pos e rfl).trans hoperand

/-- An expression in parentheses is this expression, two levels deeper. -/
theorem expression_parentheses (hc : c.Roomy 2) {t : Placed} (ht : t.token.isMark ")" = false)
    {r : Position}
    (hread : (within n).expression { c with pos := p, level := c.level + 2 }
      (s.facing (t :: ts)) = .ok (e, s'.facing [⟨.mark ")", q⟩, ⟨.eof, r⟩])) :
    (within (n + 3)).expression c (s.facing (⟨.mark "(", p⟩ :: t :: ts)) =
      .ok (e, s'.facing [⟨.eof, r⟩]) := by
  have hgroup : group (within n) { c with pos := p, level := c.level + 2 }
      (s.facing (⟨.mark "(", p⟩ :: t :: ts)) = .ok (e, s'.facing [⟨.eof, r⟩]) := by
    rw [group, bind_ok (next_facing ..), bind_ok (accept_other ht ts)]
    exact (bind_ok hread).trans ((bind_ok (expect_mark ..)).trans rfl)
  refine (expression_group hc ?_).trans hgroup
  rw [hgroup]
  rintro _ _ ⟨⟩
  exact ⟨r, rfl⟩

/-- What is missing where a group has no closing parenthesis. -/
def unclosedGroup : ParseProblem := .missingToken ")" "for a matching ( in this expression"

/-- An expression behind a parenthesis is none without a closing one. -/
theorem expression_unclosed (hc : c.Roomy 2) {t : Placed} (ht : t.token.isMark ")" = false)
    (hread : (within n).expression { c with pos := p, level := c.level + 2 }
      (s.facing (t :: ts)) = .ok (e, s'.facing [⟨.eof, q⟩])) :
    (within (n + 3)).expression c (s.facing (⟨.mark "(", p⟩ :: t :: ts)) =
      .error (unclosedGroup, q) := by
  have hgroup : group (within n) { c with pos := p, level := c.level + 2 }
      (s.facing (⟨.mark "(", p⟩ :: t :: ts)) = .error (unclosedGroup, q) := by
    rw [group, bind_ok (next_facing ..), bind_ok (accept_other ht ts)]
    exact (bind_ok hread).trans rfl
  refine (expression_group hc ?_).trans hgroup
  rw [hgroup]
  rintro _ _ ⟨⟩

/-! ## Statements -/

/-- Where an expression begins with a parenthesis or with an object map, a statement is an
expression. -/
theorem statement_eq_expressionStatement (hc : c.Roomy 1) {token : Token}
    (htoken : token = .mark "(" ∨ token = .mark "#\x7b") :
    (within (n + 1)).statement c (s.facing (⟨token, p⟩ :: ts)) =
      expressionStatement (within n) { c with pos := p, level := c.level + 1 }
        (s.facing (⟨token, p⟩ :: ts)) := by
  have hd : Context.Roomy { c with pos := p } 1 := hc.congr rfl rfl rfl
  rw [within_statement, statementRule, bind_ok (peek_facing ..)]
  rcases htoken with rfl | rfl <;> exact bind_ok (deeper_ok hd)

/-- An expression that is all the rest of a text is the last statement of a script. -/
theorem loops_expression (hc : c.Roomy 1) {token : Token}
    (htoken : token = .mark "(" ∨ token = .mark "#\x7b")
    (hread : (within n).expression { c with pos := p, level := c.level + 1 }
      (s.facing (⟨token, p⟩ :: ts)) = .ok (e, s'.facing [⟨.eof, q⟩])) (hts : ts ≠ []) :
    Loops (nextInScript (within (n + 1)) c) [] (s.facing (⟨token, p⟩ :: ts)) [.expr e]
      (s'.facing [⟨.eof, q⟩]) := by
  have hne : token ≠ .eof := by rcases htoken with rfl | rfl <;> exact Token.noConfusion
  have hstatement : (within (n + 1)).statement c (s.facing (⟨token, p⟩ :: ts)) =
      .ok (.expr e, s'.facing [⟨.eof, q⟩]) := by
    rw [statement_eq_expressionStatement hc htoken, expressionStatement, bind_ok (peek_facing ..),
      bind_ok hread]
    rfl
  refine .more (nextInScript_last hne hstatement rfl []) ?_ (.done (nextInScript_eof _ _ _ q))
  have hpos := List.length_pos_iff.mpr hts
  simp only [facing_tokens, List.length_cons, List.length_nil]
  omega

/-- A script fails where its next statement should be an expression and is none. -/
theorem nextInScript_error (hc : c.Roomy 1) {token : Token}
    (htoken : token = .mark "(" ∨ token = .mark "#\x7b") {complaint : Complaint}
    (herror : (within n).expression { c with pos := p, level := c.level + 1 }
      (s.facing (⟨token, p⟩ :: ts)) = .error complaint) (body : List Stmt) :
    nextInScript (within (n + 1)) c body (s.facing (⟨token, p⟩ :: ts)) = .error complaint := by
  have hstatement : (within (n + 1)).statement c (s.facing (⟨token, p⟩ :: ts)) =
      .error complaint := by
    rw [statement_eq_expressionStatement hc htoken, expressionStatement, bind_ok (peek_facing ..),
      bind_error herror]
  rw [nextInScript, bind_ok (peek_facing ..)]
  rcases htoken with rfl | rfl <;> exact bind_error hstatement _

/-! ## One expression -/

/-- The next definition of a text that is one expression, or the expression. Definitions follow one
grammar, the expression another one, at some level. -/
def nextOrExpression (g g' : Grammar) (c : Context) (level : ℕ) (_ : Unit) :
    Parser (Unit ⊕ Expr) := do
  let t ← peek
  if t.token.isMark "fn" then
    let _ ← g.statement c
    pure (.inl ())
  else
    let e ← g'.expression { c with pos := t.pos, level }
    let t ← peek
    match t.token with
    | .eof => pure (.inr e)
    | .fault problem => fail problem t.pos
    | token => fail (.unexpected token.text) t.pos

/-- One expression goes on behind the definition of a function. -/
theorem passesDefinitions_nextOrExpression (g g' : Grammar) (c : Context) (level : ℕ) :
    PassesDefinitions g c (nextOrExpression g g' c level) () := by
  intro s s' o p ts h
  rw [nextOrExpression, bind_ok (peek_facing ..)]
  exact (bind_ok h).trans rfl

/-- Grammars that nest deeper read the same expression, also at a level with more room, and nothing
follows it. -/
theorem transfers_nextOrExpression {k : Stop} (hk : k.token.token = .eof)
    {g₁ g₁' g₂ g₂' : Grammar} (hg : g₁.Transfers k g₂) (hg' : g₁'.Transfers k g₂')
    {level level' : ℕ} (hlevel : level' ≤ level) (c : Context) (x : Unit) (ts : List Placed) :
    Parser.Transfers k ts (nextOrExpression g₁ g₁' c level x) (nextOrExpression g₂ g₂' c level' x)
      (Transfers.Steps Same fun a b us => a = b ∧ us = []) := by
  have hroomier (pos : Position) :
      Context.Roomier { c with pos, level } { c with pos, level := level' } :=
    ⟨rfl, rfl, rfl, rfl, rfl, (Nat.eq_zero_or_pos c.maxLevel).imp_right fun h =>
      ⟨Nat.pos_iff_ne_zero.mp h, by simp only; omega⟩⟩
  unfold nextOrExpression
  cases ts with
  | nil => exact .of_failsAtEnd (.peek fun pos => (hg'.expression_end _).bind _)
  | cons t us =>
    refine .peek_cons ?_
    split
    · exact (hg.statement (.refl c) t us).same fun _ _ => .pure rfl
    · refine (hg'.expression (hroomier t.pos) _).same fun e us => ?_
      cases us with
      | nil =>
        refine .peek_nil ?_
        rw [hk]
        exact .pure ⟨rfl, rfl⟩
      | cons u us =>
        refine .peek_cons ?_
        split
        · next heof =>
          exact fun _ _ _ hcomplete _ => absurd heof (hcomplete.inner u List.mem_cons_self)
        · exact .fail _ _
        · exact .fail _ _

/-- Grammars that nest deeper read the same text that is one expression, to its end. -/
theorem transfers_repeated_nextOrExpression {k : Stop} (hk : k.token.token = .eof)
    {g₁ g₁' g₂ g₂' : Grammar} (hg : g₁.Transfers k g₂) (hg' : g₁'.Transfers k g₂')
    {level level' : ℕ} (hlevel : level' ≤ level) (c : Context) (ts : List Placed) :
    Parser.Transfers k ts (repeated (nextOrExpression g₁ g₁' c level) ())
      (repeated (nextOrExpression g₂ g₂' c level') ()) fun a b us => a = b ∧ us = [] :=
  .repeated (I := Same)
    (fun x _ us hx => hx ▸ transfers_nextOrExpression hk hg hg' hlevel c x us) rfl

/-- Where no definition follows, the one expression does. -/
theorem expression_of_untilDone {g g' : Grammar} {level fuel : ℕ} {t : Placed}
    (ht : t.token.isMark "fn" = false) {final : ParserState}
    (h : untilDone (nextOrExpression g g' c level) fuel () (s.facing (t :: ts)) =
      .ok (e, final)) :
    g'.expression { c with pos := t.pos, level } (s.facing (t :: ts)) = .ok (e, final) := by
  cases fuel with
  | zero => cases h
  | succ fuel =>
    rw [untilDone] at h
    cases hexpression : g'.expression { c with pos := t.pos, level } (s.facing (t :: ts)) with
    | error complaint =>
      have hstep : nextOrExpression g g' c level () (s.facing (t :: ts)) = .error complaint := by
        rw [nextOrExpression, bind_ok (peek_facing ..), ht]
        exact bind_error hexpression _
      rw [bind_error hstep] at h
      cases h
    | ok r =>
      obtain ⟨e', u⟩ := r
      have hstep : nextOrExpression g g' c level () (s.facing (t :: ts)) =
          (match (u.tokens.headD ⟨.eof, .none⟩).token with
            | .eof => pure (.inr e')
            | .fault problem => fail problem (u.tokens.headD ⟨.eof, .none⟩).pos
            | token => fail (.unexpected token.text) (u.tokens.headD ⟨.eof, .none⟩).pos :
              Parser (Unit ⊕ Expr)) u := by
        rw [nextOrExpression, bind_ok (peek_facing ..), ht]
        exact bind_ok hexpression
      generalize u.tokens.headD ⟨.eof, .none⟩ = head at hstep
      obtain ⟨token, pos⟩ := head
      cases token with
      | eof =>
        rw [bind_ok hstep] at h
        cases h
        rfl
      | _ =>
        rw [bind_error hstep] at h
        cases h

end Grammar

open ScriptHost.Script.Parser ScriptHost.Script.Grammar

/-- Read a text that is one expression behind definitions of functions, at some level. -/
def Program.ofExpression? (limits : Limits) (level : ℕ) (text : String) :
    Except Complaint Program :=
  let placed := tokens limits.maxStringSize text
  let g := within (8 * placed.length + 8)
  let c : Context := { limits, maxLevel := limits.maxExprDepth, isTop := true }
  match repeated (nextOrExpression g g c level) () { tokens := placed } with
  | .error e => .error e
  | .ok (e, s) => .ok ⟨[.expr e], s.functions.reverse, s.closures.reverse⟩

/-- Where the definitions end, the expression of a text is read, also by a grammar that nests deeper
and at a level with more room. -/
theorem Program.expression_of_ofExpression? {limits : Limits} {level level' n m : ℕ}
    {text : String} {p : Program} (h : Program.ofExpression? limits level text = .ok p)
    (hlevel : level' ≤ level) {ts : List Placed} {q : Position}
    (htokens : tokens limits.maxStringSize text = ts ++ [⟨.eof, q⟩]) (hcomplete : IsComplete ts)
    (hn : 8 * (tokens limits.maxStringSize text).length + 8 ≤ n)
    (hm : 8 * (tokens limits.maxStringSize text).length + 8 ≤ m) {s : ParserState} {t : Placed}
    {us : List Placed} (ht : t.token.isMark "fn" = false)
    (hreaches : Reaches (nextOrExpression (within n) (within m)
        { limits, maxLevel := limits.maxExprDepth, isTop := true } level') ()
      { tokens := tokens limits.maxStringSize text } () (s.facing (t :: us))) :
    ∃ (e : Expr) (final : ParserState),
      p = ⟨[.expr e], final.functions.reverse, final.closures.reverse⟩ ∧
      (within m).expression
          { limits, maxLevel := limits.maxExprDepth, isTop := true, pos := t.pos, level := level' }
          (s.facing (t :: us)) =
        .ok (e, final.facing [⟨.eof, q⟩]) := by
  let k := Stop.bare q q
  simp only [Program.ofExpression?] at h
  split at h
  · cases h
  · next e final hread =>
    cases h
    have hstart : ({ tokens := [] } : ParserState).facing (k.ended ts) =
        { tokens := tokens limits.maxStringSize text } := by rw [htokens]; rfl
    obtain ⟨_, us, -, ⟨rfl, rfl⟩, -, hdone⟩ :=
      transfers_repeated_nextOrExpression (k := k) rfl (transfers_within k hn)
        (transfers_within k hm) hlevel _ ts { tokens := [] } e final hcomplete (by
          rw [hstart, hread])
    refine ⟨e, final, rfl, ?_⟩
    rw [show k.closed ts = k.ended ts from rfl, hstart] at hdone
    obtain ⟨fuel, huntil⟩ := hreaches.untilDone hdone
    exact expression_of_untilDone ht huntil

end ScriptHost.Script
