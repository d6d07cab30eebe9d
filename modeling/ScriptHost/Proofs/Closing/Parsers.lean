import Mathlib
import ScriptHost.Proofs.Parsing

/-!
# Reading in front of another end

What a parser reads in front of the end of a text, it reads in front of a closing parenthesis as
well, as long as it does not ask for the end itself. The relation is stated for two parsers, so that
the rules of one grammar can be compared with those of a grammar that may nest deeper; parsers that
are put together from related parsers are related.
-/

namespace ScriptHost.Script

/-- Marks that a closing parenthesis joins, or that may end a text but not what stands in
parentheses. -/
def openMarks : List String := ["(", "*", "|", "||", "=>", "return", "throw", "break"]

/-- Whether a token is such a mark. -/
def Token.isOpen (t : Token) : Bool := openMarks.any t.isMark

/-- A token that is a mark. -/
theorem Token.eq_mark {t : Token} {mark : String} (h : t.isMark mark = true) : t = .mark mark := by
  cases t with
  | mark m => exact congrArg Token.mark (beq_iff_eq.mp h)
  | _ => cases h

/-- Tokens in front of an end that belong to nothing behind them. -/
structure IsComplete (ts : List Placed) : Prop where
  /-- The last one is no open mark. -/
  last : ∀ t ∈ ts.getLast?, t.token.isOpen = false
  /-- None of them is an end. -/
  inner : ∀ t ∈ ts, t.token ≠ .eof

/-- What follows the first token is complete as well. -/
theorem IsComplete.tail {t : Placed} {ts : List Placed} (h : IsComplete (t :: ts)) :
    IsComplete ts := by
  refine ⟨fun u hu => h.last u ?_, fun u hu => h.inner u (List.mem_cons_of_mem t hu)⟩
  rw [Option.mem_def] at hu ⊢
  rw [List.getLast?_cons, hu]
  rfl

/-- What follows some tokens is complete as well. -/
theorem IsComplete.append {ts us : List Placed} (h : IsComplete (ts ++ us)) : IsComplete us := by
  induction ts with
  | nil => exact h
  | cons t ts ih => exact ih h.tail

/-- An open mark is followed by something. -/
theorem IsComplete.ne_nil {t : Placed} {ts : List Placed} (h : IsComplete (t :: ts))
    (ht : t.token.isOpen = true) : ts ≠ [] := by
  rintro rfl
  rw [h.last t rfl] at ht
  cases ht

/-- An end of a text, and a token that may stand in its place. -/
structure Stop where
  /-- Where the text ends. -/
  pos : Position
  /-- The token in place of the end. -/
  token : Placed
  /-- What follows that token. -/
  rest : List Placed
  /-- The token is an end or a closing parenthesis. -/
  isStop : token.token = .eof ∨ token.token = .mark ")"

namespace Stop

/-- Tokens in front of the end. -/
def ended (k : Stop) (ts : List Placed) : List Placed := ts ++ [⟨.eof, k.pos⟩]

/-- Tokens in front of what stands in place of the end. -/
def closed (k : Stop) (ts : List Placed) : List Placed := ts ++ k.token :: k.rest

/-- A closing parenthesis in place of the end, in front of the end. -/
def parenthesis (pos p q : Position) : Stop := ⟨pos, ⟨.mark ")", p⟩, [⟨.eof, q⟩], .inr rfl⟩

/-- An end in place of the end. -/
def bare (pos q : Position) : Stop := ⟨pos, ⟨.eof, q⟩, [], .inl rfl⟩

/-- The token in place of the end is no mark but a closing parenthesis. -/
theorem isMark_token (k : Stop) {mark : String} (hmark : mark ≠ ")") :
    k.token.token.isMark mark = false := by
  rcases k.isStop with h | h <;> rw [h]
  · rfl
  · exact beq_eq_false_iff_ne.mpr hmark.symm

end Stop

/-! ## Contexts -/

/-- A context that differs only in how deep it is nested, and has as many levels left at least. -/
structure Context.Roomier (c c' : Context) : Prop where
  /-- The limits are the same. -/
  limits : c'.limits = c.limits
  /-- The position is the same. -/
  pos : c'.pos = c.pos
  /-- Both are at the top level, or none. -/
  isTop : c'.isTop = c.isTop
  /-- Both are in a function, or none. -/
  inFunction : c'.inFunction = c.inFunction
  /-- Both are in a loop, or none. -/
  inLoop : c'.inLoop = c.inLoop
  /-- The levels that are left. -/
  room : c'.maxLevel = 0 ∨ c.maxLevel ≠ 0 ∧ c'.level + c.maxLevel ≤ c'.maxLevel + c.level

namespace Context.Roomier

variable {c c' : Context}

/-- A context has as many levels left as it has. -/
theorem refl (c : Context) : c.Roomier c :=
  ⟨rfl, rfl, rfl, rfl, rfl, (Nat.eq_zero_or_pos c.maxLevel).imp_right fun h => ⟨by omega, by omega⟩⟩

/-- At another position. -/
theorem at_ (hc : c.Roomier c') (pos : Position) :
    Roomier { c with pos } { c' with pos } :=
  ⟨hc.limits, rfl, hc.isTop, hc.inFunction, hc.inLoop, hc.room⟩

/-- In a loop. -/
theorem loop (hc : c.Roomier c') (pos : Position) :
    Roomier { c with pos, inLoop := true } { c' with pos, inLoop := true } :=
  ⟨hc.limits, rfl, hc.isTop, hc.inFunction, rfl, hc.room⟩

/-- Below the top level. -/
theorem below (hc : c.Roomier c') :
    Roomier { c with isTop := false } { c' with isTop := false } :=
  ⟨hc.limits, hc.pos, rfl, hc.inFunction, hc.inLoop, hc.room⟩

/-- In a closure. -/
theorem closure (hc : c.Roomier c') :
    Roomier { c with isTop := false, inFunction := true, inLoop := false }
      { c' with isTop := false, inFunction := true, inLoop := false } :=
  ⟨hc.limits, hc.pos, rfl, rfl, rfl, hc.room⟩

/-- One level deeper. -/
theorem deeper (hc : c.Roomier c') :
    Roomier { c with level := c.level + 1 } { c' with level := c'.level + 1 } :=
  ⟨hc.limits, hc.pos, hc.isTop, hc.inFunction, hc.inLoop,
    hc.room.imp_right fun ⟨hlimit, hle⟩ => ⟨hlimit, by simp only; omega⟩⟩

end Context.Roomier

namespace Parser

variable {α β γ δ σ τ : Type}

/-! ## Parsers that do not look at tokens -/

/-- A parser that does the same in front of any tokens, and leaves them. -/
def IsBlind (p : Parser α) : Prop :=
  ∀ s ts, p (s.facing ts) = (p s).map fun r => (r.1, r.2.facing ts)

namespace IsBlind

variable {p : Parser α} {f : α → Parser β}

/-- A result without tokens. -/
theorem pure (a : α) : IsBlind (Pure.pure a : Parser α) := fun _ _ => rfl

/-- Giving up. -/
theorem fail (problem : ParseProblem) (pos : Position) :
    IsBlind (Parser.fail problem pos : Parser α) := fun _ _ => rfl

/-- Parsers one after the other. -/
theorem bind (hp : p.IsBlind) (hf : ∀ a, (f a).IsBlind) : IsBlind (p >>= f) := by
  intro s ts
  show (p (s.facing ts) >>= fun r => f r.1 r.2) = (p s >>= fun r => f r.1 r.2).map _
  rw [hp]
  cases p s with
  | error e => rfl
  | ok r => exact hf r.1 r.2 ts

/-- Declaring a variable. -/
theorem declare (name : String) (isConstant : Bool) : IsBlind (Parser.declare name isConstant) :=
  fun _ _ => rfl

/-- Forgetting variables. -/
theorem forget (n : ℕ) : IsBlind (Parser.forget n) := fun _ _ => rfl

/-- The declaration of a variable. -/
theorem declaration? (name : String) : IsBlind (Parser.declaration? name) := fun _ _ => rfl

/-- Referring to a variable. -/
theorem refer (name : String) (pos : Position) : IsBlind (Parser.refer name pos) := by
  intro s ts
  cases hcapturing : s.capturing with
  | true =>
    simp only [Parser.refer, ParserState.facing, hcapturing, if_true, Except.map]
    split <;> simp [hcapturing]
  | false =>
    simp only [Parser.refer, ParserState.facing, hcapturing]
    rfl

/-- An expression that may be a condition. -/
theorem asCondition (e : Expr) : IsBlind (Parser.asCondition e) := by
  unfold Parser.asCondition
  split
  · exact fail _ _
  · exact pure _

/-- Parsers for each item of a list. -/
theorem mapM {g : γ → Parser α} (hg : ∀ c, (g c).IsBlind) (cs : List γ) :
    IsBlind (cs.mapM g) := by
  induction cs with
  | nil => exact pure []
  | cons c cs ih =>
    rw [List.mapM_cons]
    exact (hg c).bind fun a => ih.bind fun as => pure (a :: as)

/-- Parsers for each item of a list, in turn. -/
theorem foldlM {g : α → γ → Parser α} (hg : ∀ a c, (g a c).IsBlind) (cs : List γ) (a : α) :
    IsBlind (cs.foldlM g a) := by
  induction cs generalizing a with
  | nil => exact pure a
  | cons c cs ih =>
    rw [List.foldlM_cons]
    exact (hg a c).bind fun b => ih b

end IsBlind

/-! ## Parsers that have no result -/

/-- A parser that has no result at the end of a text. -/
def FailsAtEnd (p : Parser α) : Prop :=
  ∀ (s : ParserState) (pos : Position) (r : α × ParserState), p (s.facing [⟨.eof, pos⟩]) ≠ .ok r

namespace FailsAtEnd

variable {p : Parser α} {f : α → Parser β}

/-- Giving up. -/
theorem fail (problem : ParseProblem) (pos : Position) :
    FailsAtEnd (Parser.fail problem pos : Parser α) := by
  rintro _ _ _ ⟨⟩

/-- Nothing comes after a parser that has no result. -/
theorem bind (hp : p.FailsAtEnd) (f : α → Parser β) : FailsAtEnd (p >>= f) := by
  intro s pos r h
  replace h : (p (s.facing [⟨.eof, pos⟩]) >>= fun r => f r.1 r.2) = .ok r := h
  cases hfirst : p (s.facing [⟨.eof, pos⟩]) with
  | error e =>
    rw [hfirst] at h
    cases h
  | ok q => exact hp s pos q hfirst

/-- A parser that has no result behind one that leaves the tokens. -/
theorem blind (hp : p.IsBlind) (hf : ∀ a, (f a).FailsAtEnd) : FailsAtEnd (p >>= f) := by
  intro s pos r h
  replace h : (p (s.facing [⟨.eof, pos⟩]) >>= fun r => f r.1 r.2) = .ok r := h
  rw [hp] at h
  cases hfirst : p s with
  | error e =>
    rw [hfirst] at h
    cases h
  | ok q =>
    rw [hfirst] at h
    exact hf q.1 q.2 pos r h

/-- Looking at the end. -/
theorem peek {f : Placed → Parser β} (hf : ∀ pos, (f ⟨.eof, pos⟩).FailsAtEnd) :
    FailsAtEnd (Parser.peek >>= f) := fun s pos r => hf pos s pos r

/-- Taking the end. -/
theorem next {f : Placed → Parser β} (hf : ∀ pos, (f ⟨.eof, pos⟩).FailsAtEnd) :
    FailsAtEnd (Parser.next >>= f) := fun s pos r => hf pos s pos r

/-- The name of a variable. -/
theorem declaredName : FailsAtEnd Parser.declaredName := next fun _ => fail _ _

/-- One level deeper. -/
theorem deeper {c : Context} {f : Context → Parser β} (hf : ∀ d, (f d).FailsAtEnd) :
    FailsAtEnd (Parser.deeper c >>= f) := by
  unfold Parser.deeper
  split
  · exact (fail _ _).bind f
  · exact hf _

end FailsAtEnd

/-! ## Related parsers -/

/-- What the first parser reads in front of the end of a text, the second one reads in front of what
stands in its place: the results are related, and the same tokens are left. -/
def Transfers (k : Stop) (ts : List Placed) (p : Parser α) (q : Parser β)
    (R : α → β → List Placed → Prop) : Prop :=
  ∀ (s : ParserState) (a : α) (t : ParserState), IsComplete ts →
    p (s.facing (k.ended ts)) = .ok (a, t) →
      ∃ b us, IsComplete us ∧ R a b us ∧ t.tokens = k.ended us ∧
        q (s.facing (k.closed ts)) = .ok (b, t.facing (k.closed us))

/-- The results are the same. -/
abbrev Same (a b : α) (_ : List Placed) : Prop := a = b

namespace Transfers

variable {k : Stop} {ts : List Placed} {p : Parser α} {q : Parser β}
  {f : α → Parser γ} {f' : β → Parser δ} {M : α → β → List Placed → Prop}
  {R : γ → δ → List Placed → Prop}

/-- Results without tokens. -/
theorem pure {a : α} {b : β} (h : M a b ts) : Transfers k ts (Pure.pure a) (Pure.pure b) M := by
  rintro s _ _ hcomplete ⟨⟩
  exact ⟨b, ts, hcomplete, h, rfl, rfl⟩

/-- Parsers one after the other. -/
theorem bind (hp : Transfers k ts p q M)
    (hf : ∀ a b us, M a b us → Transfers k us (f a) (f' b) R) :
    Transfers k ts (p >>= f) (q >>= f') R := by
  intro s c t hcomplete h
  replace h : (p (s.facing (k.ended ts)) >>= fun r => f r.1 r.2) = .ok (c, t) := h
  cases hfirst : p (s.facing (k.ended ts)) with
  | error e =>
    rw [hfirst] at h
    cases h
  | ok r =>
    rw [hfirst] at h
    obtain ⟨b, us, hus, hM, htokens, hq⟩ := hp s r.1 r.2 hcomplete hfirst
    have hfacing : r.2 = r.2.facing (k.ended us) := by rw [← htokens]; rfl
    obtain ⟨d, vs, hvs, hR, hleft, hf'⟩ := hf r.1 b us hM r.2 c t hus (hfacing ▸ h)
    refine ⟨d, vs, hvs, hR, hleft, ?_⟩
    rw [bind_ok hq]
    exact hf'

/-- Parsers behind others that give the same. -/
theorem same {p q : Parser α} {f' : α → Parser δ} (hp : Transfers k ts p q Same)
    (hf : ∀ a us, Transfers k us (f a) (f' a) R) : Transfers k ts (p >>= f) (q >>= f') R :=
  hp.bind fun a _ us hab => hab ▸ hf a us

/-- A weaker relation. -/
theorem mono {N : α → β → List Placed → Prop} (hp : Transfers k ts p q M)
    (hM : ∀ a b us, M a b us → N a b us) : Transfers k ts p q N := by
  intro s a t hcomplete h
  obtain ⟨b, us, hus, hR, hrest⟩ := hp s a t hcomplete h
  exact ⟨b, us, hus, hM a b us hR, hrest⟩

/-- A parser that gives up. -/
theorem fail (problem : ParseProblem) (pos : Position) :
    Transfers k ts (Parser.fail problem pos) q M := by
  rintro _ _ _ _ ⟨⟩

/-- A parser that gives up. -/
theorem missing (token purpose : String) (pos : Position) :
    Transfers k ts (Parser.missing token purpose pos) q M := fail _ _

/-- Nothing comes after a parser that gives up. -/
theorem fail_bind (problem : ParseProblem) (pos : Position) (f : α → Parser γ) {q : Parser δ} :
    Transfers k ts (Parser.fail problem pos >>= f) q R := by
  rintro _ _ _ _ ⟨⟩

/-- A parser that has no result at the end, where there is nothing else. -/
theorem of_failsAtEnd (hp : p.FailsAtEnd) : Transfers k [] p q M :=
  fun s _ _ _ h => absurd h (hp s k.pos _)

/-- A parser that does not look at tokens. -/
theorem of_isBlind {p : Parser α} (hp : p.IsBlind) :
    Transfers k ts p p fun a b us => a = b ∧ us = ts := by
  intro s a t hcomplete h
  have hsame := hp (s.facing (k.ended ts)) (k.ended ts)
  have hother := hp (s.facing (k.ended ts)) (k.closed ts)
  rw [ParserState.facing_facing, h] at hsame hother
  obtain ⟨-, ht⟩ := Prod.mk.inj (Except.ok.inj hsame)
  exact ⟨a, ts, hcomplete, ⟨rfl, rfl⟩, by rw [ht, ParserState.facing_tokens], hother⟩

/-- A parser that does not look at tokens gives the same. -/
theorem blind_same {p : Parser α} (hp : p.IsBlind) : Transfers k ts p p Same :=
  (of_isBlind hp).mono fun _ _ _ h => h.1

/-- Parsers behind one that does not look at tokens. -/
theorem blind {p : Parser α} {f' : α → Parser δ} (hp : p.IsBlind)
    (hf : ∀ a, Transfers k ts (f a) (f' a) R) : Transfers k ts (p >>= f) (p >>= f') R :=
  (of_isBlind hp).bind fun a b us ⟨hab, hus⟩ => by
    subst hab hus
    exact hf a

section Tokens

variable {f f' : Placed → Parser γ} {R : γ → γ → List Placed → Prop}

/-- Looking at a token that is there. -/
theorem peek_cons {t : Placed} (h : Transfers k (t :: ts) (f t) (f' t) R) :
    Transfers k (t :: ts) (Parser.peek >>= f) (Parser.peek >>= f') R := h

/-- Looking at the end. -/
theorem peek_nil (h : Transfers k [] (f ⟨.eof, k.pos⟩) (f' k.token) R) :
    Transfers k [] (Parser.peek >>= f) (Parser.peek >>= f') R := h

/-- Looking at the next token, which may be the end. -/
theorem peek (hcons : ∀ token pos us,
      Transfers k (⟨token, pos⟩ :: us) (f ⟨token, pos⟩) (f' ⟨token, pos⟩) R)
    (hnil : ∀ token pos, token = .eof ∨ token = .mark ")" →
      Transfers k [] (f ⟨.eof, k.pos⟩) (f' ⟨token, pos⟩) R) :
    Transfers k ts (Parser.peek >>= f) (Parser.peek >>= f') R := by
  cases ts with
  | nil => exact hnil k.token.token k.token.pos k.isStop
  | cons t us => exact hcons t.token t.pos us

/-- Taking a token that is there. -/
theorem next_cons {t : Placed} (h : (t.token.isOpen = true → ts ≠ []) →
      Transfers k ts (f t) (f' t) R) :
    Transfers k (t :: ts) (Parser.next >>= f) (Parser.next >>= f') R := by
  intro s a u hcomplete hread
  have hplain : Parser.next (s.facing (k.ended (t :: ts))) = .ok (t, s.facing (k.ended ts)) := by
    cases ts <;> rfl
  have hother : Parser.next (s.facing (k.closed (t :: ts))) = .ok (t, s.facing (k.closed ts)) := by
    cases ts <;> rfl
  rw [bind_ok hplain] at hread
  rw [bind_ok hother]
  exact h hcomplete.ne_nil s a u hcomplete.tail hread

/-- Taking the next token, which may not be the end. -/
theorem next (hcons : ∀ token pos us, (token.isOpen = true → us ≠ []) →
      Transfers k us (f ⟨token, pos⟩) (f' ⟨token, pos⟩) R)
    (hnil : ∀ pos, (f ⟨.eof, pos⟩).FailsAtEnd) :
    Transfers k ts (Parser.next >>= f) (Parser.next >>= f') R := by
  cases ts with
  | nil => exact of_failsAtEnd (.next hnil)
  | cons t us => exact next_cons fun hopen => hcons t.token t.pos us hopen

end Tokens

section Marks

variable {mark : String} {R : γ → γ → List Placed → Prop}

/-- A mark that may stand here. -/
theorem accept {f f' : Bool × Position → Parser γ} (hmark : mark ≠ ")" ∨ ts ≠ [])
    (hyes : ∀ pos us, ((Token.mark mark).isOpen = true → us ≠ []) →
      Transfers k us (f (true, pos)) (f' (true, pos)) R)
    (hno : ∀ pos pos', Transfers k ts (f (false, pos)) (f' (false, pos')) R) :
    Transfers k ts (Parser.accept mark >>= f) (Parser.accept mark >>= f') R := by
  simp only [Parser.accept, bind_assoc]
  cases ts with
  | nil =>
    have hother := k.isMark_token (hmark.resolve_right fun h => h rfl)
    refine peek_nil ?_
    rw [hother]
    exact hno k.pos k.token.pos
  | cons t us =>
    refine peek_cons ?_
    split
    · next ht =>
      rw [bind_assoc, bind_assoc]
      refine next_cons fun hopen => ?_
      rw [Token.eq_mark ht] at hopen
      exact hyes t.pos us hopen
    · exact hno t.pos t.pos

/-- A mark that has to stand here, or else nothing is read. -/
theorem accept_required {f f' : Bool × Position → Parser γ}
    (hyes : ∀ pos us, ((Token.mark mark).isOpen = true → us ≠ []) →
      Transfers k us (f (true, pos)) (f' (true, pos)) R)
    (hno : ∀ pos s r, f (false, pos) s ≠ .ok r) :
    Transfers k ts (Parser.accept mark >>= f) (Parser.accept mark >>= f') R := by
  cases ts with
  | nil => exact of_failsAtEnd fun s pos r => hno pos _ r
  | cons t us =>
    exact accept (.inr (List.cons_ne_nil t us)) hyes fun pos _ s a u _ h => absurd h (hno pos _ _)

/-- A mark that has to stand here. -/
theorem expect {purpose : String} {f f' : Position → Parser γ}
    (h : ∀ pos us, ((Token.mark mark).isOpen = true → us ≠ []) →
      Transfers k us (f pos) (f' pos) R) :
    Transfers k ts (Parser.expect mark purpose >>= f) (Parser.expect mark purpose >>= f') R := by
  simp only [Parser.expect, bind_assoc]
  refine next (fun token pos us hopen => ?_) fun pos => (FailsAtEnd.fail _ _).bind f
  dsimp only
  split
  · next ht =>
    rw [Token.eq_mark ht] at hopen
    exact h pos us hopen
  · split
    · exact fail_bind _ _ _
    · exact fail_bind _ _ _

/-- The name of a variable. -/
theorem declaredName : Transfers k ts Parser.declaredName Parser.declaredName Same := by
  refine next (fun token pos us _ => ?_) fun pos => .fail _ _
  dsimp only
  split
  · exact pure rfl
  · exact fail _ _
  · exact fail _ _
  · exact fail _ _

end Marks

/-- One level deeper. -/
theorem deeper {c c' : Context} (hc : c.Roomier c') {f f' : Context → Parser γ}
    {R : γ → γ → List Placed → Prop}
    (h : ∀ {d d' : Context}, d.Roomier d' → Transfers k ts (f d) (f' d') R) :
    Transfers k ts (Parser.deeper c >>= f) (Parser.deeper c' >>= f') R := by
  unfold Parser.deeper
  split
  · exact fail_bind _ _ _
  · next hdeep =>
    have hroom : ¬(c'.maxLevel != 0 && decide (c'.maxLevel ≤ c'.level)) = true := by
      have hle := hc.room
      simp only [Bool.and_eq_true, bne_iff_ne, decide_eq_true_eq] at hdeep ⊢
      omega
    rw [if_neg hroom]
    exact h hc.deeper

/-- Asking for the state, of which only the declared variables count. -/
theorem get {f f' : ParserState → Parser γ} {R : γ → γ → List Placed → Prop}
    (h : ∀ s s', s.declared = s'.declared → Transfers k ts (f s) (f' s') R) :
    Transfers k ts ((MonadState.get : Parser ParserState) >>= f) (MonadState.get >>= f') R :=
  fun s a t hcomplete hread =>
    h (s.facing (k.ended ts)) (s.facing (k.closed ts)) rfl s a t hcomplete hread

/-- A block of its own. -/
theorem inBlock {p q : Parser α} (hp : Transfers k ts p q Same) :
    Transfers k ts (Parser.inBlock p) (Parser.inBlock q) Same := by
  intro s a t hcomplete h
  simp only [Parser.inBlock] at h
  split at h
  · cases h
  · next b after heq =>
    cases h
    obtain ⟨_, us, hus, rfl, htokens, hq⟩ :=
      hp { s with outer := s.declared.length } a _ hcomplete heq
    refine ⟨_, us, hus, rfl, htokens, ?_⟩
    have hrun : q { s.facing (k.closed ts) with
        outer := (s.facing (k.closed ts)).declared.length } = _ := hq
    simp only [Parser.inBlock, hrun]
    rfl

/-! ## Repetitions -/

/-- How one step of a repetition is related to one of another repetition: both go on, or both are
done. -/
def Steps (I : σ → τ → List Placed → Prop) (R : α → β → List Placed → Prop) :
    σ ⊕ α → τ ⊕ β → List Placed → Prop
  | .inl x, .inl y, us => I x y us
  | .inr a, .inr b, us => R a b us
  | _, _, _ => False

/-- A repetition with a bound that is at least as large. -/
theorem untilDone {step : σ → Parser (σ ⊕ α)} {step' : τ → Parser (τ ⊕ β)}
    {I : σ → τ → List Placed → Prop}
    (hstep : ∀ x y us, I x y us → Transfers k us (step x) (step' y) (Steps I M)) {n m : ℕ}
    (hle : n ≤ m) {x : σ} {y : τ} (hI : I x y ts) :
    Transfers k ts (Parser.untilDone step n x) (Parser.untilDone step' m y) M := by
  induction n generalizing m x y ts with
  | zero => exact fun s a t _ h => nomatch h
  | succ n ih =>
    obtain ⟨m, rfl⟩ := Nat.exists_eq_add_of_le' (Nat.one_le_of_lt hle)
    refine (hstep x y ts hI).bind fun r r' us hr => ?_
    cases r <;> cases r'
    · exact ih (by omega) hr
    · exact hr.elim
    · exact hr.elim
    · exact pure hr

/-- A repetition. -/
theorem repeated {step : σ → Parser (σ ⊕ α)} {step' : τ → Parser (τ ⊕ β)}
    {I : σ → τ → List Placed → Prop}
    (hstep : ∀ x y us, I x y us → Transfers k us (step x) (step' y) (Steps I M))
    {x : σ} {y : τ} (hI : I x y ts) :
    Transfers k ts (Parser.repeated step x) (Parser.repeated step' y) M := by
  intro s
  refine untilDone hstep ?_ hI s
  simp [Stop.ended, Stop.closed]

/-- A repetition of steps that give the same. -/
theorem repeated_same {step step' : σ → Parser (σ ⊕ α)}
    (hstep : ∀ x us, Transfers k us (step x) (step' x) Same) (x : σ) :
    Transfers k ts (Parser.repeated step x) (Parser.repeated step' x) Same := by
  refine repeated (I := Same) (fun x y us hxy => hxy ▸ (hstep x us).mono ?_) rfl
  rintro r _ us rfl
  cases r <;> rfl

end Transfers

end Parser

end ScriptHost.Script
