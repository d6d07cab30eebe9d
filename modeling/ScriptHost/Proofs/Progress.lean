import Mathlib
import ScriptHost.Proofs.Closing.Scanner
import ScriptHost.Proofs.Scanning

/-!
# The scanner goes on

Every token but a fault and the end takes a character of the text, and leads to no earlier line. The
bound that the scanner is given is therefore never reached.
-/

namespace ScriptHost.Script

/-! ## Cursors one behind the other -/

namespace Cursor

/-- One cursor is behind another or the same: nothing is put back, and the line is no earlier
one. -/
structure LeadsTo (c d : Cursor) : Prop where
  /-- There are not more characters left. -/
  length_le : d.rest.length ≤ c.rest.length
  /-- The line is no earlier one. -/
  line_le : c.pos.line ≤ d.pos.line

/-- One cursor is behind another, with a character taken. -/
structure Takes (c d : Cursor) : Prop where
  /-- There are fewer characters left. -/
  length_lt : d.rest.length < c.rest.length
  /-- The line is no earlier one. -/
  line_le : c.pos.line ≤ d.pos.line

variable {c d e : Cursor}

/-- A cursor leads to itself. -/
theorem LeadsTo.refl (c : Cursor) : c.LeadsTo c := ⟨Nat.le_refl _, Nat.le_refl _⟩

/-- Going on twice is going on. -/
theorem LeadsTo.trans (hc : c.LeadsTo d) (hd : d.LeadsTo e) : c.LeadsTo e :=
  ⟨hd.length_le.trans hc.length_le, hc.line_le.trans hd.line_le⟩

/-- Taking a character is going on. -/
theorem Takes.leadsTo (h : c.Takes d) : c.LeadsTo d := ⟨h.length_lt.le, h.line_le⟩

/-- Whoever takes a character and goes on takes a character. -/
theorem Takes.trans_leadsTo (hc : c.Takes d) (hd : d.LeadsTo e) : c.Takes e :=
  ⟨hd.length_le.trans_lt hc.length_lt, hc.line_le.trans hd.line_le⟩

/-- Whoever goes on and takes a character takes a character. -/
theorem LeadsTo.trans_takes (hc : c.LeadsTo d) (hd : d.Takes e) : c.Takes e :=
  ⟨hd.length_lt.trans_le hc.length_le, hc.line_le.trans hd.line_le⟩

/-- The next character is taken. -/
theorem takes_next (ch : Char) (rest : List Char) (pos : Position) :
    Takes ⟨ch :: rest, pos⟩ ⟨rest, pos.advance⟩ := ⟨Nat.lt_succ_self _, Nat.le_refl _⟩

/-- Passing characters is going on. -/
theorem leadsTo_skip (c : Cursor) (n : ℕ) : c.LeadsTo (c.skip n) :=
  ⟨(List.drop_sublist n c.rest).length_le, Nat.le_refl _⟩

/-- Passing some characters takes one. -/
theorem takes_skip (ch : Char) (rest : List Char) (pos : Position) {n : ℕ} (hn : 0 < n) :
    Takes ⟨ch :: rest, pos⟩ (skip ⟨ch :: rest, pos⟩ n) := by
  refine ⟨?_, Nat.le_refl _⟩
  simp only [skip, List.length_drop, List.length_cons]
  omega

/-- A line break is going on. -/
theorem leadsTo_newLine (c : Cursor) : c.LeadsTo c.newLine := ⟨Nat.le_refl _, Nat.le_succ _⟩

/-- A line break at the begin of a text in back-quotes is going on. -/
theorem leadsTo_afterBreak (c : Cursor) : c.LeadsTo c.afterBreak := by
  rw [afterBreak]
  split
  · exact (c.leadsTo_skip 2).trans (leadsTo_newLine _)
  · exact (c.leadsTo_skip 1).trans (leadsTo_newLine _)
  · exact (c.leadsTo_skip 1).trans (leadsTo_newLine _)
  · exact .refl c

end Cursor

/-! ## Blanks and numbers -/

/-- A gap leads on. -/
theorem skipGap_leadsTo (gap : Gap) (pos : Position) (cs : List Char) :
    Cursor.LeadsTo ⟨cs, pos⟩ (skipGap gap pos cs) := by
  fun_induction skipGap gap pos cs
  case case1 ih | case2 ih | case9 ih | case10 ih =>
    exact ((Cursor.takes_next ..).leadsTo.trans (Cursor.takes_next ..).leadsTo).trans ih
  case case4 ih | case8 ih => exact (Cursor.takes_next ..).leadsTo.trans ih
  case case3 ih | case7 ih =>
    exact ((Cursor.takes_next ..).leadsTo.trans (Cursor.leadsTo_newLine _)).trans ih
  case case6 ih =>
    exact ((Cursor.takes_next ..).leadsTo.trans ((Cursor.takes_next ..).leadsTo.trans
      (Cursor.leadsTo_newLine _))).trans ih
  case case5 | case12 => exact .refl _
  case case11 ih =>
    refine Cursor.LeadsTo.trans ?_ ih
    split
    · exact (Cursor.takes_next ..).leadsTo.trans (Cursor.leadsTo_newLine _)
    · exact (Cursor.takes_next ..).leadsTo

/-- A number leads on. -/
theorem scanNumber_leadsTo (fuel : ℕ) (shape : NumberShape) (s : NumberScan) :
    s.cursor.LeadsTo (scanNumber fuel shape s).2.cursor := by
  fun_induction scanNumber fuel shape s
  case case1 | case2 | case7 | case11 | case12 | case14 => exact .refl _
  case case3 ih | case4 ih | case5 ih | case6 ih | case8 ih | case9 ih | case10 ih | case13 ih =>
    exact (Cursor.leadsTo_skip ..).trans ih

/-! ## Texts -/

/-- Hexadecimal digits lead on. -/
theorem scanHex_leadsTo {k value : ℕ} {seen : List Char} {c : Cursor} {r : ℕ × List Char × Cursor}
    (h : scanHex k seen value c = .ok r) : c.LeadsTo r.2.2 := by
  induction k generalizing seen value c with
  | zero =>
    cases h
    exact .refl c
  | succ k ih =>
    obtain ⟨rest, pos⟩ := c
    cases rest with
    | nil => cases h
    | cons d rest =>
      simp only [scanHex, Cursor.next?] at h
      split at h
      · cases h
      · exact (Cursor.takes_next ..).leadsTo.trans (ih h)

/-- A text takes a character, unless it goes on at the end of the script. -/
theorem scanText_takes {style : QuoteStyle} {limit : ℕ} {start : Position} {fuel : ℕ}
    {acc : List Char} {size : ℕ} {escaped : Bool} {first : Position} {skipUntil : ℕ} {c : Cursor}
    {scan : TextScan}
    (h : scanText style limit start fuel acc size escaped first skipUntil c = .ok scan) :
    c.Takes scan.cursor ∨ (scan.cursor = c ∧ scan.atBlock = false ∧ scan.open_ = true) := by
  induction fuel generalizing acc size escaped first skipUntil c with
  | zero => cases h
  | succ fuel ih =>
    obtain ⟨rest, pos⟩ := c
    cases rest with
    | nil =>
      simp only [scanText, Cursor.next?] at h
      split_ifs at h
      cases h
      exact .inr ⟨rfl, rfl, rfl⟩
    | cons ch rest =>
      -- There is a character, and every way from here on leads behind it.
      left
      have hnext := Cursor.takes_next ch rest pos
      have hskip : Cursor.Takes ⟨ch :: rest, pos⟩ (if (ch == style.mark && !escaped) = true then
          (⟨rest, pos.advance⟩ : Cursor).skip 1 else ⟨rest, pos.advance⟩) := by
        split
        · exact hnext.trans_leadsTo (Cursor.leadsTo_skip _ 1)
        · exact hnext
      simp only [scanText, Cursor.next?] at h
      by_cases hblock : (style.interpolates && ch == '$' && !escaped &&
          Cursor.peek? ⟨rest, pos.advance⟩ == some '\x7b') = true
      · rw [if_pos hblock] at h
        split_ifs at h
        cases h
        exact hnext
      rw [if_neg hblock] at h
      by_cases hlimit : (!withinLimit limit size) = true
      · rw [if_pos hlimit] at h
        cases h
      rw [if_neg hlimit] at h
      by_cases hlast : (ch == style.mark && !escaped &&
          Cursor.peek? ⟨rest, pos.advance⟩ != some ch) = true
      · rw [if_pos hlast] at h
        split_ifs at h
        cases h
        exact hnext
      rw [if_neg hlast] at h
      generalize (if (ch == style.mark && !escaped) = true then
          (⟨rest, pos.advance⟩ : Cursor).skip 1 else ⟨rest, pos.advance⟩) = c at h hskip
      -- What is left to do is to go on from a cursor behind the character.
      replace ih {acc size escaped first skipUntil} {d : Cursor} (hd : c.LeadsTo d)
          (h : scanText style limit start fuel acc size escaped first skipUntil d = .ok scan) :
          Cursor.Takes ⟨ch :: rest, pos⟩ scan.cursor := by
        rcases ih h with htakes | ⟨heq, -⟩
        · exact hskip.trans_leadsTo (hd.trans htakes.leadsTo)
        · exact heq ▸ hskip.trans_leadsTo hd
      by_cases hreturn : (ch == '\r' && c.peek? == some '\n') = true
      · rw [if_pos hreturn] at h
        exact ih (.refl c) h
      rw [if_neg hreturn] at h
      by_cases hslash : (ch == '\\' && !style.verbatim && !escaped) = true
      · rw [if_pos hslash] at h
        exact ih (.refl c) h
      rw [if_neg hslash] at h
      cases escaped with
      | true =>
        simp only [if_true] at h
        split_ifs at h
        all_goals first
          | exact ih (.refl c) h
          | exact ih c.leadsTo_newLine h
          | split at h
            · cases h
            · next value seen after hhex =>
              split_ifs at h
              exact ih (scanHex_leadsTo hhex) h
      | false =>
        simp only [Bool.false_eq_true, if_false] at h
        split_ifs at h
        · exact ih c.leadsTo_newLine h
        · exact ih (.refl c) h
        · exact ih (.refl c) h

/-- A text leads on. -/
theorem scanQuoted_leadsTo {style : QuoteStyle} {limit : ℕ} {start : Position} {c : Cursor}
    {scan : TextScan} (h : scanQuoted style limit start c = .ok scan) : c.LeadsTo scan.cursor := by
  rcases scanText_takes h with htakes | ⟨heq, -⟩
  · exact htakes.leadsTo
  · exact heq ▸ .refl c

/-! ## Tokens -/

/-- The token of a quoted text takes a character, unless it is a fault. -/
theorem textToken_takes {state : ScanState} {pos start : Position} {style : QuoteStyle}
    {limit : ℕ} {c : Cursor}
    (hfault : ∀ problem,
      (textToken state pos (scanQuoted style limit start c)).placed.token ≠ .fault problem) :
    c.Takes (textToken state pos (scanQuoted style limit start c)).cursor := by
  cases h : scanQuoted style limit start c with
  | error e =>
    rw [h] at hfault
    exact absurd rfl (hfault e.1)
  | ok scan =>
    rw [h, textToken] at hfault
    rcases scanText_takes h with htakes | ⟨-, hblock, hopen⟩
    · rw [textToken]
      split_ifs <;> exact htakes
    · rw [hblock, hopen] at hfault
      exact absurd rfl (hfault .openString)

/-- A symbol has characters. -/
theorem symbolToken?_pos {cs : List Char} {t : Token} {n : ℕ}
    (h : symbolToken? cs = some (t, n)) : 0 < n := by
  have hsome : ∀ s ∈ symbols ++ reservedSymbols.map Prod.fst, 0 < s.length := by decide +kernel
  rw [symbolToken?] at h
  split at h
  · next s advice hreserved =>
    have hs := hsome s (List.mem_append_right _
      (List.mem_map_of_mem (List.mem_of_find?_eq_some hreserved)))
    split at h
    · next p hplain =>
      have hp := hsome p (List.mem_append_left _ (List.mem_of_find?_eq_some hplain))
      split_ifs at h <;> cases h
      · exact hp
      · exact hs
    · cases h
      exact hs
  · obtain ⟨p, hplain, heq⟩ := Option.map_eq_some_iff.mp h
    cases heq
    exact hsome p (List.mem_append_left _ (List.mem_of_find?_eq_some hplain))

/-- A symbol takes a character. -/
theorem scanSymbol_takes (state : ScanState) (c ch : Char) (rest : List Char) (pos at_ : Position) :
    Cursor.Takes ⟨ch :: rest, pos⟩ (scanToken.symbol state ⟨ch :: rest, pos⟩ at_ c).cursor := by
  rw [scanToken.symbol]
  split
  · next hsymbol => exact Cursor.takes_skip ch rest pos (symbolToken?_pos hsymbol)
  · exact Cursor.takes_skip ch rest pos Nat.one_pos

/-- A mark takes a character. -/
theorem scanMark_takes (state : ScanState) (pos : Position) (c : Char) (rest : List Char) :
    Cursor.Takes ⟨c :: rest, pos⟩ (scanMark state pos c rest).cursor := by
  unfold scanMark
  split
  · next d tail =>
    split_ifs
    · let after := Cursor.skip ⟨d :: tail, pos.advance⟩ 1
      have hafter : Cursor.Takes ⟨'-' :: d :: tail, pos⟩ after :=
        (Cursor.takes_next ..).trans_leadsTo (Cursor.leadsTo_skip _ 1)
      exact hafter.trans_leadsTo (scanNumber_leadsTo after.rest.length {} ⟨[d], after⟩)
    · exact scanSymbol_takes ..
  · split_ifs
    · exact Cursor.takes_skip _ _ _ Nat.one_pos
    · exact Cursor.takes_skip _ _ _ (Nat.succ_pos 2)
  · exact scanSymbol_takes ..

/-- A token takes a character, unless it is a fault or the end. -/
theorem scanToken_takes {limit : ℕ} {state : ScanState} {cursor : Cursor}
    (heof : (scanToken limit state cursor).placed.token ≠ .eof)
    (hfault : ∀ problem, (scanToken limit state cursor).placed.token ≠ .fault problem) :
    cursor.Takes (scanToken limit state cursor).cursor := by
  cases htext : state.inText with
  | true =>
    simp only [scanToken, htext, if_true] at hfault ⊢
    exact textToken_takes hfault
  | false =>
    refine (skipGap_leadsTo .blank cursor.pos cursor.rest).trans_takes ?_
    simp only [scanToken, htext, Bool.false_eq_true, if_false] at heof hfault ⊢
    generalize skipGap .blank cursor.pos cursor.rest = after at heof hfault ⊢
    obtain ⟨rest, pos⟩ := after
    cases rest with
    | nil => exact absurd rfl heof
    | cons c rest =>
      have hnext := Cursor.takes_next c rest pos
      simp only [Cursor.next?] at heof hfault ⊢
      split_ifs at hfault ⊢ with hdigit hstart hquote hback hsingle hempty
      · exact hnext.trans_leadsTo
          (scanNumber_leadsTo rest.length {} ⟨[c], ⟨rest, pos.advance⟩⟩)
      · refine Cursor.takes_skip c rest pos ?_
        simp [isWordPart_of_isWordStart hstart]
      · exact hnext.trans_leadsTo (textToken_takes hfault).leadsTo
      · exact hnext.trans_leadsTo ((Cursor.leadsTo_afterBreak ⟨rest, pos.advance⟩).trans
          (textToken_takes hfault).leadsTo)
      · exact Cursor.takes_skip c rest pos (Nat.succ_pos 1)
      · cases hscan : scanQuoted singleQuoted limit pos.advance ⟨rest, pos.advance⟩ with
        | error e => exact hnext
        | ok scan =>
          have hend := hnext.trans_leadsTo (scanQuoted_leadsTo hscan)
          dsimp only
          split <;> exact hend
      · exact scanMark_takes state pos c rest

/-- **The bound of the scanner is never reached.** With any bound above the number of characters the
tokens are the same. -/
theorem tokensFrom_bound {limit fuel fuel' : ℕ} (state : ScanState) {cursor : Cursor}
    (hfuel : cursor.rest.length < fuel) (hfuel' : cursor.rest.length < fuel') :
    tokensFrom limit fuel state cursor = tokensFrom limit fuel' state cursor := by
  induction fuel generalizing fuel' state cursor with
  | zero => exact absurd hfuel (Nat.not_lt_zero _)
  | succ fuel ih =>
    obtain ⟨fuel', rfl⟩ := Nat.exists_eq_add_of_le' (Nat.one_le_of_lt hfuel')
    have htakes := @scanToken_takes limit state cursor
    rw [tokensFrom, tokensFrom]
    generalize scanToken limit state cursor = s at htakes
    dsimp only
    split
    · rfl
    · rfl
    · next heof hfault =>
      have hlength := (htakes heof hfault).length_lt
      rw [ih _ (by omega) (show _ < fuel' by omega)]

end ScriptHost.Script
