import Mathlib
import ScriptHost.Script.Program

/-!
# Running parsers

What the parsers that all rules are made of do in front of given tokens. A repetition is followed
step by step, each step in front of fewer tokens than the one before, so its bound is never met.
-/

namespace ScriptHost.Script

/-- The state in front of other tokens. -/
def ParserState.facing (s : ParserState) (ts : List Placed) : ParserState := { s with tokens := ts }

/-- The tokens in front. -/
@[simp] theorem ParserState.facing_tokens (s : ParserState) (ts : List Placed) :
    (s.facing ts).tokens = ts := rfl

/-- Only the last tokens count. -/
@[simp] theorem ParserState.facing_facing (s : ParserState) (ts us : List Placed) :
    (s.facing ts).facing us = s.facing us := rfl

/-- A context that has room for so many more levels and no limit on arrays. -/
structure Context.Roomy (c : Context) (levels : ℕ) : Prop where
  /-- The levels that are left. -/
  room : c.maxLevel = 0 ∨ c.level + levels ≤ c.maxLevel
  /-- Arrays may have any size. -/
  arrays : c.limits.maxArraySize = 0

namespace Context.Roomy

variable {c : Context} {j k : ℕ}

/-- Room for more levels is room for fewer. -/
theorem mono (hc : c.Roomy k) (hle : j ≤ k) : c.Roomy j :=
  ⟨hc.room.imp_right fun h => by omega, hc.arrays⟩

/-- One level deeper there is room for one less. -/
theorem deeper (hc : c.Roomy (k + 1)) : Roomy { c with level := c.level + 1 } k :=
  ⟨hc.room.imp_right fun h => by simp only; omega, hc.arrays⟩

/-- Only limits and levels matter. -/
theorem congr {c' : Context} (hc : c.Roomy k) (hlimits : c'.limits = c.limits)
    (hlevel : c'.level = c.level) (hmax : c'.maxLevel = c.maxLevel) : c'.Roomy k := by
  obtain ⟨hroom, harrays⟩ := hc
  exact ⟨by rw [hlevel, hmax]; exact hroom, by rw [hlimits]; exact harrays⟩

end Context.Roomy

namespace Parser

variable {α β σ : Type} {s s' : ParserState}

/-- A parser goes on after one that has succeeded. -/
theorem bind_ok {p : Parser α} {f : α → Parser β} {a : α} (h : p s = .ok (a, s')) :
    (p >>= f) s = f a s' := by
  show (p s >>= fun r => f r.1 r.2) = f a s'
  rw [h]
  rfl

/-- Nothing comes after a parser that has failed. -/
theorem bind_error {p : Parser α} {complaint : Complaint} (h : p s = .error complaint)
    (f : α → Parser β) : (p >>= f) s = .error complaint := by
  show (p s >>= fun r => f r.1 r.2) = _
  rw [h]
  rfl

/-- The next token. -/
theorem peek_facing (t : Placed) (ts : List Placed) :
    peek (s.facing (t :: ts)) = .ok (t, s.facing (t :: ts)) := rfl

/-- A token before others is taken. -/
theorem next_facing (t u : Placed) (ts : List Placed) :
    next (s.facing (t :: u :: ts)) = .ok (t, s.facing (u :: ts)) := rfl

/-- A mark that stands here is accepted. -/
theorem accept_mark (m : String) (p : Position) (u : Placed) (ts : List Placed) :
    accept m (s.facing (⟨.mark m, p⟩ :: u :: ts)) = .ok ((true, p), s.facing (u :: ts)) := by
  rw [accept, bind_ok (peek_facing ..)]
  simp only [Token.isMark, beq_self_eq_true, if_true]
  rw [bind_ok (next_facing ..)]
  rfl

/-- A mark that does not stand here is not accepted. -/
theorem accept_other {m : String} {t : Placed} (ht : t.token.isMark m = false)
    (ts : List Placed) :
    accept m (s.facing (t :: ts)) = .ok ((false, t.pos), s.facing (t :: ts)) := by
  rw [accept, bind_ok (peek_facing ..), ht]
  rfl

/-- A mark that has to stand here and does is taken. -/
theorem expect_mark (m purpose : String) (p : Position) (u : Placed) (ts : List Placed) :
    expect m purpose (s.facing (⟨.mark m, p⟩ :: u :: ts)) = .ok (p, s.facing (u :: ts)) := by
  rw [expect, bind_ok (next_facing ..)]
  simp only [Token.isMark, beq_self_eq_true, if_true]
  rfl

/-- The name of a variable. -/
theorem declaredName_name (x : String) (p : Position) (u : Placed) (ts : List Placed) :
    declaredName (s.facing (⟨.name x, p⟩ :: u :: ts)) = .ok ((x, p), s.facing (u :: ts)) := rfl

/-- Where there is room, one level deeper is no fault. -/
theorem deeper_ok {c : Context} {k : ℕ} (hc : c.Roomy (k + 1)) :
    deeper c s = .ok ({ c with level := c.level + 1 }, s) := by
  have hroom : (c.maxLevel != 0 && decide (c.maxLevel ≤ c.level)) = false := by
    rcases hc.room with hzero | hle
    · simp [hzero]
    · have hnot : ¬c.maxLevel ≤ c.level := by omega
      simp [hnot]
  rw [deeper, if_neg (by simp [hroom])]
  rfl

/-! ## Repetitions -/

/-- A repetition that ends: each step that goes on leaves fewer tokens. -/
inductive Loops (step : σ → Parser (σ ⊕ α)) : σ → ParserState → α → ParserState → Prop where
  /-- The last step. -/
  | done {x : σ} {s s' : ParserState} {a : α} (h : step x s = .ok (.inr a, s')) :
      Loops step x s a s'
  /-- A step after which the repetition goes on. -/
  | more {x y : σ} {s t s' : ParserState} {a : α} (h : step x s = .ok (.inl y, t))
      (hless : t.tokens.length < s.tokens.length) (hrest : Loops step y t a s') :
      Loops step x s a s'

/-- A bound beyond the number of tokens is never met. -/
theorem Loops.untilDone {step : σ → Parser (σ ⊕ α)} {x : σ} {a : α} (h : Loops step x s a s')
    {fuel : ℕ} (hfuel : s.tokens.length < fuel) :
    untilDone step fuel x s = .ok (a, s') := by
  induction h generalizing fuel with
  | done hstep =>
    obtain ⟨fuel, rfl⟩ := Nat.exists_eq_add_of_lt hfuel
    rw [Parser.untilDone, bind_ok hstep]
    rfl
  | more hstep hless hrest ih =>
    cases fuel with
    | zero => exact absurd hfuel (Nat.not_lt_zero _)
    | succ fuel =>
      rw [Parser.untilDone, bind_ok hstep]
      exact ih (by omega)

/-- A repetition arrives at a state: each step on the way leaves fewer tokens. -/
inductive Reaches (step : σ → Parser (σ ⊕ α)) : σ → ParserState → σ → ParserState → Prop where
  /-- No step is taken. -/
  | refl (x : σ) (s : ParserState) : Reaches step x s x s
  /-- A step before others. -/
  | more {x y z : σ} {s t u : ParserState} (h : step x s = .ok (.inl y, t))
      (hless : t.tokens.length < s.tokens.length) (hrest : Reaches step y t z u) :
      Reaches step x s z u

/-- A repetition that arrives at a state ends as it does from there. -/
theorem Reaches.loops {step : σ → Parser (σ ⊕ α)} {x y : σ} {t : ParserState} {a : α}
    (h : Reaches step x s y t) (hrest : Loops step y t a s') : Loops step x s a s' := by
  induction h with
  | refl => exact hrest
  | more hstep hless _ ih => exact .more hstep hless (ih hrest)

/-- A repetition that succeeds does so from every state that it arrives at. -/
theorem Reaches.untilDone {step : σ → Parser (σ ⊕ α)} {x y : σ} {t : ParserState}
    {r : α × ParserState} (h : Reaches step x s y t) {fuel : ℕ}
    (hdone : Parser.untilDone step fuel x s = .ok r) :
    ∃ fuel', Parser.untilDone step fuel' y t = .ok r := by
  induction h generalizing fuel with
  | refl => exact ⟨fuel, hdone⟩
  | more hstep _ _ ih =>
    cases fuel with
    | zero => cases hdone
    | succ fuel =>
      rw [Parser.untilDone, bind_ok hstep] at hdone
      exact ih hdone

/-- A repetition that arrives at a state fails as it does there. -/
theorem Reaches.repeated_error {step : σ → Parser (σ ⊕ α)} {x y : σ} {t : ParserState}
    {complaint : Complaint} (h : Reaches step x s y t) (herror : step y t = .error complaint) :
    repeated step x s = .error complaint := by
  have huntil {fuel : ℕ} (hfuel : s.tokens.length < fuel) :
      Parser.untilDone step fuel x s = .error complaint := by
    induction h generalizing fuel with
    | refl x s =>
      obtain ⟨fuel, rfl⟩ := Nat.exists_eq_add_of_lt hfuel
      rw [Parser.untilDone, bind_error herror]
    | more hstep hless _ ih =>
      obtain ⟨fuel, rfl⟩ := Nat.exists_eq_add_of_le' (Nat.one_le_of_lt hfuel)
      rw [Parser.untilDone, bind_ok hstep]
      exact ih herror (by omega)
  exact huntil (by omega)

/-- A repetition that ends gives its result. -/
theorem Loops.repeated {step : σ → Parser (σ ⊕ α)} {x : σ} {a : α} (h : Loops step x s a s') :
    repeated step x s = .ok (a, s') := h.untilDone (by omega)

end Parser

end ScriptHost.Script
