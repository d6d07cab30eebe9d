import Mathlib
import ScriptHost.Proofs.Progress

/-!
# Texts further down

Where a text begins does not matter to the scanner. The same text in a lower line has the same
tokens, each so many lines lower and in the same column.
-/

namespace ScriptHost.Script

/-! ## Positions and cursors -/

namespace Position

/-- The position so many lines further down; no position stays none. -/
def lower (n : ℕ) (p : Position) : Position := if p.line = 0 then p else ⟨p.line + n, p.column⟩

variable (n : ℕ) (p q : Position)

/-- No position stays none, and only that. -/
@[simp] theorem isNone_lower : (p.lower n).isNone = p.isNone := by
  rw [lower]
  split
  · rfl
  · next hline => simp [isNone, hline]

/-- The column stays. -/
@[simp] theorem lower_column : (p.lower n).column = p.column := by
  rw [lower]
  split <;> rfl

/-- Moving on in the line is the same further down. -/
theorem lower_right (k : ℕ) :
    ({ p.lower n with column := p.column + k } : Position) =
      ({ p with column := p.column + k } : Position).lower n := by
  rw [lower, lower]
  split <;> rfl

/-- Passing a character is the same further down. -/
@[simp] theorem lower_advance : (p.lower n).advance = p.advance.lower n := by
  rw [advance, lower_column]
  exact lower_right n p 1

/-- The next line is the same further down. -/
theorem lower_nextLine {p : Position} (hp : 0 < p.line) :
    (p.lower n).nextLine = p.nextLine.lower n := by
  simp only [lower, nextLine, Nat.ne_of_gt hp, if_false, Nat.succ_ne_zero]
  congr 1
  omega

/-- A position instead of none is the same further down. -/
@[simp] theorem lower_orElse : (p.lower n).orElse (q.lower n) = (p.orElse q).lower n := by
  rw [orElse, orElse, isNone_lower]
  split <;> rfl

end Position

namespace Cursor

/-- The same place in the same text further down. -/
def lower (n : ℕ) (c : Cursor) : Cursor := ⟨c.rest, c.pos.lower n⟩

variable (n : ℕ) (c : Cursor)

/-- What is left stays. -/
@[simp] theorem lower_rest : (c.lower n).rest = c.rest := rfl

/-- The position is lower. -/
@[simp] theorem lower_pos : (c.lower n).pos = c.pos.lower n := rfl

/-- The next character stays. -/
@[simp] theorem lower_peek? : (c.lower n).peek? = c.peek? := by
  rw [peek?, peek?, lower_rest]

/-- Taking a character is the same further down. -/
theorem lower_next? (ch : Char) (rest : List Char) (pos : Position) :
    (Cursor.lower n ⟨ch :: rest, pos⟩).next? = some (ch, Cursor.lower n ⟨rest, pos.advance⟩) := by
  rw [next?, lower, lower, Position.lower_advance]

/-- Characters are passed over further down as well. -/
@[simp] theorem lower_skip (k : ℕ) : (c.lower n).skip k = (c.skip k).lower n := by
  simp only [skip, lower, Position.lower_column]
  rw [Position.lower_right]

/-- A line break is the same further down. -/
theorem lower_newLine {c : Cursor} (hc : 0 < c.pos.line) :
    (c.lower n).newLine = c.newLine.lower n := by
  simp only [newLine, lower, Position.lower_nextLine n hc]

/-- A line break at the begin of a text in back-quotes is the same further down. -/
theorem lower_afterBreak {c : Cursor} (hc : 0 < c.pos.line) :
    (c.lower n).afterBreak = c.afterBreak.lower n := by
  have hline (k : ℕ) : ((c.lower n).skip k).newLine = ((c.skip k).newLine).lower n := by
    rw [lower_skip, lower_newLine n (by exact hc)]
  rw [afterBreak, afterBreak, lower_rest]
  split
  · exact hline 2
  · exact hline 1
  · exact hline 1
  · rfl

end Cursor

/-! ## Blanks and comments -/

/-- A gap is the same further down. -/
theorem skipGap_lower (n : ℕ) (gap : Gap) {pos : Position} (cs : List Char)
    (hpos : 0 < pos.line) : skipGap gap (pos.lower n) cs = (skipGap gap pos cs).lower n := by
  fun_induction skipGap gap pos cs with
  | case1 pos rest ih => simpa [skipGap] using ih hpos
  | case2 pos rest ih => simpa [skipGap] using ih hpos
  | case3 pos rest hline hblock ih =>
    rw [skipGap, if_pos rfl, Position.lower_nextLine n hpos]
    · exact ih (Nat.succ_pos _)
    · exact hline
    · exact hblock
  | case4 pos c rest hline hblock hbreak hblank ih =>
    rw [skipGap, if_neg hbreak, if_pos hblank, Position.lower_advance]
    · exact ih hpos
    · exact hline
    · exact hblock
  | case5 pos c rest hline hblock hbreak hblank =>
    rw [skipGap, if_neg hbreak, if_neg hblank]
    · rfl
    · exact hline
    · exact hblock
  | case6 pos rest ih =>
    rw [skipGap, Position.lower_nextLine n hpos]
    exact ih (Nat.succ_pos _)
  | case7 pos rest hreturn ih =>
    rw [skipGap, if_pos rfl, Position.lower_nextLine n hpos]
    · exact ih (Nat.succ_pos _)
    · exact hreturn
  | case8 pos c rest hreturn hbreak ih =>
    rw [skipGap, if_neg hbreak, Position.lower_advance]
    · exact ih hpos
    · exact hreturn
  | case9 depth pos rest ih => simpa [skipGap] using ih hpos
  | case10 depth pos rest ih => simpa [skipGap] using ih hpos
  | case11 depth pos c rest hdeeper hends ih =>
    have hnext : (if c = '\n' then (pos.lower n).nextLine else (pos.lower n).advance) =
        (if c = '\n' then pos.nextLine else pos.advance).lower n := by
      split
      · exact Position.lower_nextLine n hpos
      · exact Position.lower_advance n pos
    rw [skipGap, hnext]
    · refine ih ?_
      split
      · exact Nat.succ_pos _
      · exact hpos
    · exact hdeeper
    · exact hends
  | case12 gap pos => cases gap <;> rfl

/-! ## Numbers -/

/-- The same part of a number further down. -/
def NumberScan.lower (n : ℕ) (s : NumberScan) : NumberScan := { s with cursor := s.cursor.lower n }

/-- A number is the same further down. -/
theorem scanNumber_lower (n fuel : ℕ) (shape : NumberShape) (s : NumberScan) :
    scanNumber fuel shape (s.lower n) =
      ((scanNumber fuel shape s).1, (scanNumber fuel shape s).2.lower n) := by
  induction fuel generalizing shape s with
  | zero => rfl
  | succ fuel ih =>
    obtain ⟨taken, cs, pos⟩ := s
    cases cs with
    | nil => rfl
    | cons c rest =>
      have hnext (shape : NumberShape) (taken : List Char) (k : ℕ) :=
        ih shape ⟨taken, Cursor.skip ⟨c :: rest, pos⟩ k⟩
      simp only [NumberScan.lower] at hnext
      simp only [scanNumber, NumberScan.lower, Cursor.lower_rest, Cursor.lower_skip]
      split_ifs with hline htakes hpoint hexponent
      · exact hnext _ _ _
      · exact hnext _ _ _
      · cases rest with
        | nil => exact hnext _ _ _
        | cons d rest =>
          dsimp only
          split_ifs
          · exact hnext _ _ _
          · rfl
          · exact hnext _ _ _
      · cases rest with
        | nil => rfl
        | cons d rest =>
          dsimp only
          split_ifs
          · exact hnext _ _ _
          · exact hnext _ _ _
          · rfl
      all_goals
        split
        · exact hnext _ _ _
        · rfl

/-! ## Texts -/

/-- The same part of a text further down. -/
def TextScan.lower (n : ℕ) (scan : TextScan) : TextScan :=
  { scan with first := scan.first.lower n, cursor := scan.cursor.lower n }

/-- The same fault or result further down. -/
def lowerResult {α : Type} (n : ℕ) (lowerValue : α → α) :
    Except (ParseProblem × Position) α → Except (ParseProblem × Position) α
  | .error (problem, pos) => .error (problem, pos.lower n)
  | .ok a => .ok (lowerValue a)

/-- Hexadecimal digits are the same further down. -/
theorem scanHex_lower (n k : ℕ) (seen : List Char) (value : ℕ) (c : Cursor) :
    scanHex k seen value (c.lower n) =
      lowerResult n (fun r => (r.1, r.2.1, r.2.2.lower n)) (scanHex k seen value c) := by
  induction k generalizing seen value c with
  | zero => rfl
  | succ k ih =>
    obtain ⟨rest, pos⟩ := c
    cases rest with
    | nil => rfl
    | cons d rest =>
      have hnext (value : ℕ) := ih (seen ++ [d]) value ⟨rest, pos.advance⟩
      simp only [scanHex, Cursor.next?, Cursor.lower, Position.lower_advance] at hnext ⊢
      split
      · rfl
      · exact hnext _

/-- A text is the same further down. -/
theorem scanText_lower (n : ℕ) {style : QuoteStyle} {limit : ℕ} {start : Position} {fuel : ℕ}
    {acc : List Char} {size : ℕ} {escaped : Bool} {first : Position} {skipUntil : ℕ} {c : Cursor}
    (hc : 0 < c.pos.line) :
    scanText style limit (start.lower n) fuel acc size escaped (first.lower n) skipUntil
        (c.lower n) =
      lowerResult n (·.lower n)
        (scanText style limit start fuel acc size escaped first skipUntil c) := by
  induction fuel generalizing acc size escaped first skipUntil c with
  | zero => rfl
  | succ fuel ih =>
    obtain ⟨rest, pos⟩ := c
    cases rest with
    | nil =>
      simp only [scanText, Cursor.next?, Cursor.lower]
      split_ifs <;> rfl
    | cons ch rest =>
      -- A closing mark that is doubled stands for itself, and both are passed.
      have hline : (if (ch == style.mark && !escaped) = true then
          (⟨rest, pos.advance⟩ : Cursor).skip 1 else ⟨rest, pos.advance⟩).pos.line = pos.line := by
        split <;> rfl
      have hskip : (if (ch == style.mark && !escaped) = true then
          ((⟨rest, pos.advance⟩ : Cursor).lower n).skip 1
            else (⟨rest, pos.advance⟩ : Cursor).lower n) =
          (if (ch == style.mark && !escaped) = true then
            (⟨rest, pos.advance⟩ : Cursor).skip 1 else ⟨rest, pos.advance⟩).lower n := by
        split
        · exact Cursor.lower_skip ..
        · rfl
      simp only [scanText, Cursor.lower_next?, Cursor.lower_peek?]
      simp only [Cursor.next?]
      by_cases hblock : (style.interpolates && ch == '$' && !escaped &&
          Cursor.peek? ⟨rest, pos.advance⟩ == some '\x7b') = true
      · rw [if_pos hblock, if_pos hblock]
        split_ifs <;> rfl
      rw [if_neg hblock, if_neg hblock]
      by_cases hlimit : (!withinLimit limit size) = true
      · rw [if_pos hlimit, if_pos hlimit]
        rfl
      rw [if_neg hlimit, if_neg hlimit]
      by_cases hlast : (ch == style.mark && !escaped &&
          Cursor.peek? ⟨rest, pos.advance⟩ != some ch) = true
      · rw [if_pos hlast, if_pos hlast]
        split_ifs <;> rfl
      rw [if_neg hlast, if_neg hlast, hskip]
      -- The rest does not ask how the scanner came behind the character.
      generalize (if (ch == style.mark && !escaped) = true then
          (⟨rest, pos.advance⟩ : Cursor).skip 1 else ⟨rest, pos.advance⟩) = c at hline ⊢
      replace hc : 0 < c.pos.line := hline.trans_gt hc
      rw [Cursor.lower_peek?, Cursor.lower_pos, Position.lower_orElse]
      by_cases hreturn : (ch == '\r' && c.peek? == some '\n') = true
      · rw [if_pos hreturn, if_pos hreturn]
        exact ih hc
      rw [if_neg hreturn, if_neg hreturn]
      by_cases hslash : (ch == '\\' && !style.verbatim && !escaped) = true
      · rw [if_pos hslash, if_pos hslash]
        exact ih hc
      rw [if_neg hslash, if_neg hslash]
      cases escaped with
      | true =>
        simp only [if_true, scanHex_lower, Cursor.lower_newLine n hc, Position.lower_column]
        split_ifs
        all_goals first
          | rfl
          | exact ih hc
          | exact ih (Nat.succ_pos _)
          | generalize hhex : scanHex _ ['\\', ch] 0 c = digits
            cases digits with
            | error e => rfl
            | ok r =>
              dsimp only [lowerResult]
              split_ifs
              · exact ih (hc.trans_le (scanHex_leadsTo hhex).line_le)
              · rfl
      | false =>
        simp only [Bool.false_eq_true, if_false, Cursor.lower_newLine n hc, Position.lower_column]
        split_ifs
        · exact ih (Nat.succ_pos _)
        · rfl
        · exact ih hc
        · exact ih hc

/-- A quoted text is the same further down. -/
theorem scanQuoted_lower (n : ℕ) {style : QuoteStyle} {limit : ℕ} {start : Position} {c : Cursor}
    (hc : 0 < c.pos.line) :
    scanQuoted style limit (start.lower n) (c.lower n) =
      lowerResult n (·.lower n) (scanQuoted style limit start c) := by
  have hnone : Position.none.lower n = .none := rfl
  rw [scanQuoted, ← hnone]
  exact scanText_lower n hc

/-! ## Tokens -/

/-- The same token further down. -/
def Placed.lower (n : ℕ) (t : Placed) : Placed := { t with pos := t.pos.lower n }

/-- The same scan further down. -/
def Scanned.lower (n : ℕ) (s : Scanned) : Scanned :=
  { s with placed := s.placed.lower n, cursor := s.cursor.lower n }

/-- The token of a quoted text is the same further down. -/
theorem textToken_lower (n : ℕ) (state : ScanState) (pos : Position)
    (scan : Except (ParseProblem × Position) TextScan) :
    textToken state (pos.lower n) (lowerResult n (·.lower n) scan) =
      (textToken state pos scan).lower n := by
  cases scan with
  | error e => rfl
  | ok scan =>
    simp only [textToken, lowerResult, TextScan.lower]
    split_ifs <;> rfl

/-- A text that goes on behind a block is reported at the same place further down. -/
theorem continuedPosition_lower (n : ℕ) (fallback : Position)
    (scan : Except (ParseProblem × Position) TextScan) :
    continuedPosition (fallback.lower n) (lowerResult n (·.lower n) scan) =
      (continuedPosition fallback scan).lower n := by
  cases scan with
  | error e => rfl
  | ok scan =>
    simp only [continuedPosition, lowerResult, TextScan.lower, Position.isNone_lower]
    split_ifs <;> rfl

/-- A symbol is the same further down. -/
theorem scanSymbol_lower (n : ℕ) (state : ScanState) (cursor : Cursor) (pos : Position) (c : Char) :
    scanToken.symbol state (cursor.lower n) (pos.lower n) c =
      (scanToken.symbol state cursor pos c).lower n := by
  rw [scanToken.symbol, scanToken.symbol, Cursor.lower_rest]
  cases symbolToken? cursor.rest with
  | none => exact congrArg (Scanned.mk _ _) (Cursor.lower_skip ..)
  | some p => exact congrArg (Scanned.mk _ _) (Cursor.lower_skip ..)

/-- A mark is the same further down. -/
theorem scanMark_lower (n : ℕ) (state : ScanState) (pos : Position) (c : Char) (rest : List Char) :
    scanMark state (pos.lower n) c rest = (scanMark state pos c rest).lower n := by
  have hsymbol (c : Char) :
      scanToken.symbol state ⟨c :: rest, pos.lower n⟩ (pos.lower n).advance c =
        (scanToken.symbol state ⟨c :: rest, pos⟩ pos.advance c).lower n := by
    rw [Position.lower_advance]
    exact scanSymbol_lower n state ⟨c :: rest, pos⟩ pos.advance c
  have hskip (k : ℕ) : Cursor.skip ⟨c :: rest, pos.lower n⟩ k =
      (Cursor.skip ⟨c :: rest, pos⟩ k).lower n := Cursor.lower_skip n ⟨c :: rest, pos⟩ k
  unfold scanMark
  split
  · next d tail =>
    split_ifs
    · have hafter : Cursor.skip ⟨d :: tail, (pos.lower n).advance⟩ 1 =
          (Cursor.skip ⟨d :: tail, pos.advance⟩ 1).lower n := by
        rw [Position.lower_advance]
        exact Cursor.lower_skip n ⟨d :: tail, pos.advance⟩ 1
      have hnumber := scanNumber_lower n tail.length {}
        ⟨[d], Cursor.skip ⟨d :: tail, pos.advance⟩ 1⟩
      rw [hafter, Position.lower_advance]
      exact congrArg (fun r => (⟨⟨numberToken true r.1 r.2.taken, pos.advance.lower n⟩, state,
        r.2.cursor⟩ : Scanned)) hnumber
    · exact hsymbol _
  · split_ifs
    · rw [hskip, Position.lower_advance]
      rfl
    · rw [hskip, Position.lower_advance]
      rfl
  · exact hsymbol _

/-- A token is the same further down. -/
theorem scanToken_lower (n limit : ℕ) (state : ScanState) {cursor : Cursor}
    (hcursor : 0 < cursor.pos.line) :
    scanToken limit state (cursor.lower n) = (scanToken limit state cursor).lower n := by
  cases htext : state.inText with
  | true =>
    simp only [scanToken, htext, if_true, Cursor.lower_pos, scanQuoted_lower n hcursor]
    rw [← textToken_lower, ← continuedPosition_lower]
    rfl
  | false =>
    have hline := hcursor.trans_le (skipGap_leadsTo .blank cursor.pos cursor.rest).line_le
    simp only [scanToken, htext, Bool.false_eq_true, if_false, Cursor.lower_pos, Cursor.lower_rest,
      skipGap_lower n .blank cursor.rest hcursor]
    generalize skipGap .blank cursor.pos cursor.rest = after at hline ⊢
    obtain ⟨rest, pos⟩ := after
    cases rest with
    | nil =>
      simp only [Cursor.next?, Cursor.lower, Position.lower_advance]
      rfl
    | cons c rest =>
      have hskip (k : ℕ) : Cursor.skip (Cursor.lower n ⟨c :: rest, pos⟩) k =
          (Cursor.skip ⟨c :: rest, pos⟩ k).lower n := Cursor.lower_skip ..
      simp only [Cursor.lower_next?, Cursor.lower_peek?, Cursor.lower_rest, Cursor.lower_pos]
      simp only [Cursor.next?]
      split_ifs with hdigit hstart hquote hback hsingle hempty
      · have hnumber := scanNumber_lower n rest.length {} ⟨[c], ⟨rest, pos.advance⟩⟩
        exact congrArg (fun r => (⟨⟨numberToken false r.1 r.2.taken, pos.advance.lower n⟩, state,
          r.2.cursor⟩ : Scanned)) hnumber
      · exact congrArg (Scanned.mk _ _) (hskip _)
      · rw [scanQuoted_lower n (by exact hline), textToken_lower]
      · have hbreak := Cursor.lower_afterBreak n (c := ⟨rest, pos.advance⟩) hline
        have hafter := hline.trans_le (Cursor.leadsTo_afterBreak ⟨rest, pos.advance⟩).line_le
        let after := Cursor.afterBreak ⟨rest, pos.advance⟩
        calc
          _ = textToken state (pos.advance.lower n)
              (scanQuoted backQuoted limit (after.lower n).pos (after.lower n)) :=
            congrArg (fun c => textToken state _ (scanQuoted backQuoted limit c.pos c)) hbreak
          _ = (textToken state pos.advance
              (scanQuoted backQuoted limit after.pos after)).lower n := by
            rw [Cursor.lower_pos, scanQuoted_lower n hafter, textToken_lower]
          _ = _ := rfl
      · exact congrArg (Scanned.mk _ _) (hskip 2)
      · rw [scanQuoted_lower n (by exact hline)]
        cases scanQuoted singleQuoted limit pos.advance ⟨rest, pos.advance⟩ with
        | error e => rfl
        | ok scan =>
          dsimp only [lowerResult, TextScan.lower]
          split <;> rfl
      · have hmark := scanMark_lower n state pos c rest
        simp only [scanMark, Position.lower_advance] at hmark
        exact hmark

/-- **The same text further down has the same tokens further down.** -/
theorem tokensFrom_lower (n limit fuel : ℕ) (state : ScanState) {cursor : Cursor}
    (hcursor : 0 < cursor.pos.line) :
    tokensFrom limit fuel state (cursor.lower n) =
      (tokensFrom limit fuel state cursor).map (·.lower n) := by
  induction fuel generalizing state cursor with
  | zero => rfl
  | succ fuel ih =>
    rw [tokensFrom, tokensFrom, scanToken_lower n limit state hcursor]
    have htakes := @scanToken_takes limit state cursor
    generalize scanToken limit state cursor = s at htakes
    dsimp only [Scanned.lower, Placed.lower]
    split
    · rfl
    · rfl
    · next heof hfault =>
      rw [ih _ (hcursor.trans_le (htakes heof hfault).line_le)]
      rfl

end ScriptHost.Script
