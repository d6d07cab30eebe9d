import Mathlib
import ScriptHost.Script.Lexer

/-!
# A parenthesis behind a text

The scanner looks at most a few characters beyond the token that it takes. A closing parenthesis
behind a text therefore leaves the tokens of the text as they are, unless the last of them is the
beginning of another one, and it is a token itself, unless the text ends in a comment.
-/

namespace ScriptHost.Script

/-! ## Cursors in a longer text -/

/-- The same place in a text that goes on with a closing parenthesis. -/
def Cursor.closed (c : Cursor) : Cursor := ⟨c.rest ++ [')'], c.pos⟩

/-- What is left. -/
@[simp] theorem Cursor.closed_rest (c : Cursor) : c.closed.rest = c.rest ++ [')'] := rfl

/-- The position stays. -/
@[simp] theorem Cursor.closed_pos (c : Cursor) : c.closed.pos = c.pos := rfl

/-- Characters that are there are passed over. -/
theorem Cursor.closed_skip (c : Cursor) {n : ℕ} (hn : n ≤ c.rest.length) :
    c.closed.skip n = (c.skip n).closed := by
  simp [Cursor.skip, Cursor.closed, List.drop_append_of_le_length hn]

/-- The same scan in a text that goes on with a closing parenthesis. -/
def Scanned.closed (s : Scanned) : Scanned := { s with cursor := s.cursor.closed }

/-- Only a closing parenthesis can be the first character that was not there before. -/
theorem ne_cons_of_append {d : Char} (hd : d ≠ ')') {cs : List Char} (h : ∀ r, cs ≠ d :: r)
    (r : List Char) : cs ++ [')'] ≠ d :: r := by
  cases cs with
  | nil => exact fun heq => hd (List.cons.inj heq).1.symm
  | cons c cs => exact fun heq => h cs (congrArg (· :: cs) (List.cons.inj heq).1)

/-! ## Blanks and comments -/

/-- A gap ends where it ended without the parenthesis; if that was the end of the text, then the
parenthesis is part of the last comment, or the gap ends in front of it. -/
theorem skipGap_closed (gap : Gap) (pos : Position) (cs : List Char) :
    ((skipGap gap pos cs).rest ≠ [] → skipGap gap pos (cs ++ [')']) = (skipGap gap pos cs).closed) ∧
      ((skipGap gap pos cs).rest = [] →
        ∃ last, skipGap gap pos (cs ++ [')']) = skipGap last (skipGap gap pos cs).pos [')']) := by
  fun_induction skipGap gap pos cs with
  | case1 pos rest ih => simpa [skipGap] using ih
  | case2 pos rest ih => simpa [skipGap] using ih
  | case3 pos rest hline hblock ih =>
    rw [List.cons_append, skipGap]
    · simpa using ih
    · exact fun r h => absurd h (by decide)
    · exact fun r h => absurd h (by decide)
  | case4 pos c rest hline hblock hbreak hblank ih =>
    rw [List.cons_append, skipGap, if_neg hbreak, if_pos hblank]
    · exact ih
    · exact fun r hc => ne_cons_of_append (by decide) (fun r => hline r hc) r
    · exact fun r hc => ne_cons_of_append (by decide) (fun r => hblock r hc) r
  | case5 pos c rest hline hblock hbreak hblank =>
    rw [List.cons_append, skipGap, if_neg hbreak, if_neg hblank]
    · exact ⟨fun _ => rfl, fun h => absurd h (List.cons_ne_nil _ _)⟩
    · exact fun r hc => ne_cons_of_append (by decide) (fun r => hline r hc) r
    · exact fun r hc => ne_cons_of_append (by decide) (fun r => hblock r hc) r
  | case6 pos rest ih => simpa [skipGap] using ih
  | case7 pos rest hreturn ih =>
    rw [List.cons_append, skipGap, if_pos rfl]
    · exact ih
    · exact fun r h => absurd h (by decide)
  | case8 pos c rest hreturn hbreak ih =>
    rw [List.cons_append, skipGap, if_neg hbreak]
    · exact ih
    · exact fun r hc => ne_cons_of_append (by decide) (fun r => hreturn r hc) r
  | case9 depth pos rest ih => simpa [skipGap] using ih
  | case10 depth pos rest ih => simpa [skipGap] using ih
  | case11 depth pos c rest hdeeper hends ih =>
    rw [List.cons_append, skipGap]
    · exact ih
    · exact fun r hc => ne_cons_of_append (by decide) (fun r => hdeeper r hc) r
    · exact fun r hc => ne_cons_of_append (by decide) (fun r => hends r hc) r
  | case12 gap pos => exact ⟨fun h => absurd rfl h, fun _ => ⟨gap, rfl⟩⟩

/-! ## Numbers -/

/-- The same part of a number in a text that goes on with a closing parenthesis. -/
def NumberScan.closed (s : NumberScan) : NumberScan := { s with cursor := s.cursor.closed }

/-- No number takes a parenthesis. -/
theorem scanNumber_paren (fuel : ℕ) (shape : NumberShape) (taken : List Char) (pos : Position) :
    scanNumber fuel shape ⟨taken, ⟨[')'], pos⟩⟩ = (shape, ⟨taken, ⟨[')'], pos⟩⟩) := by
  have htakes : shape.takes ')' = false := by
    rw [NumberShape.takes]
    split <;> rfl
  cases fuel with
  | zero => rfl
  | succ fuel => simp [scanNumber, htakes]

/-- A number ends where it ended. -/
theorem scanNumber_closed {fuel fuel' : ℕ} (shape : NumberShape) (taken cs : List Char)
    (pos : Position) (hfuel : cs.length ≤ fuel) (hfuel' : cs.length ≤ fuel') :
    scanNumber fuel' shape ⟨taken, ⟨cs ++ [')'], pos⟩⟩ =
      ((scanNumber fuel shape ⟨taken, ⟨cs, pos⟩⟩).1,
        (scanNumber fuel shape ⟨taken, ⟨cs, pos⟩⟩).2.closed) := by
  induction fuel generalizing shape taken cs pos fuel' with
  | zero =>
    obtain rfl := List.length_eq_zero_iff.mp (Nat.le_zero.mp hfuel)
    exact scanNumber_paren fuel' shape taken pos
  | succ fuel ih =>
    cases cs with
    | nil => exact scanNumber_paren fuel' shape taken pos
    | cons c rest =>
      obtain ⟨fuel', rfl⟩ : ∃ k, fuel' = k + 1 :=
        Nat.exists_eq_add_one.mpr (Nat.lt_of_lt_of_le (Nat.succ_pos _) hfuel')
      simp only [List.length_cons, Nat.add_le_add_iff_right] at hfuel hfuel'
      have hnext (shape : NumberShape) (taken : List Char) (pos : Position) :=
        ih shape taken rest pos hfuel hfuel'
      simp only [scanNumber, List.cons_append, Cursor.skip, List.drop_succ_cons, List.drop_zero]
      split_ifs with hline htakes hpoint hexponent
      · exact hnext _ _ _
      · exact hnext _ _ _
      · cases rest with
        | nil => simpa using hnext _ _ _
        | cons d rest =>
          simp only [List.cons_append] at hnext ⊢
          split_ifs
          · exact hnext _ _ _
          · rfl
          · exact hnext _ _ _
      · cases rest with
        | nil => rfl
        | cons d rest =>
          simp only [List.cons_append] at hnext ⊢
          split_ifs
          · exact hnext _ _ _
          · exact ih _ _ rest _ (by simp at hfuel; omega) (by simp at hfuel'; omega)
          · rfl
      all_goals
        split
        · simp_all
        · simp_all [NumberScan.closed, Cursor.closed]

/-! ## Texts -/

/-- Looking for a character that is no closing parenthesis finds what it found. -/
theorem peek?_closed {d : Char} (hd : d ≠ ')') (cs : List Char) (pos : Position) :
    (Cursor.peek? ⟨cs ++ [')'], pos⟩ == some d) = (Cursor.peek? ⟨cs, pos⟩ == some d) := by
  cases cs with
  | nil => simpa [Cursor.peek?] using hd.symm
  | cons c cs => rfl

/-- Hexadecimal digits end where they ended. -/
theorem scanHex_closed {n value : ℕ} {seen : List Char} {c : Cursor} {r : ℕ × List Char × Cursor}
    (h : scanHex n seen value c = .ok r) :
    scanHex n seen value c.closed = .ok (r.1, r.2.1, r.2.2.closed) := by
  induction n generalizing seen value c with
  | zero =>
    cases h
    rfl
  | succ n ih =>
    obtain ⟨rest, pos⟩ := c
    cases rest with
    | nil => cases h
    | cons d rest =>
      simp only [scanHex, Cursor.next?, Cursor.closed, List.cons_append] at h ⊢
      split at h
      · cases h
      · exact ih h

/-- The mark that ends a text is told from a doubled one as it was. -/
theorem endMark_closed {mark : Char} (hmark : mark ≠ ')') (ch : Char) (escaped : Bool)
    (rest : List Char) (pos : Position) :
    (ch == mark && !escaped && Cursor.peek? ⟨rest ++ [')'], pos⟩ != some ch) =
      (ch == mark && !escaped && Cursor.peek? ⟨rest, pos⟩ != some ch) := by
  cases hch : ch == mark with
  | false => rfl
  | true => rw [beq_iff_eq.mp hch, bne, bne, peek?_closed hmark]

/-- A closing mark that does not end the text is doubled, and both of it are there to skip. -/
theorem skipDoubled_closed {mark ch : Char} {escaped : Bool} {rest : List Char} {pos : Position}
    (hlast : (ch == mark && !escaped && Cursor.peek? ⟨rest, pos⟩ != some ch) ≠ true) :
    (if (ch == mark && !escaped) = true then (⟨rest ++ [')'], pos⟩ : Cursor).skip 1
        else ⟨rest ++ [')'], pos⟩) =
      (if (ch == mark && !escaped) = true then (⟨rest, pos⟩ : Cursor).skip 1
        else ⟨rest, pos⟩).closed := by
  by_cases hdoubled : (ch == mark && !escaped) = true
  · rw [if_pos hdoubled, if_pos hdoubled]
    cases rest with
    | nil => simp [hdoubled, Cursor.peek?] at hlast
    | cons d rest => rfl
  · rw [if_neg hdoubled, if_neg hdoubled]
    rfl

/-- A quoted text that is closed ends where it ended. -/
theorem scanText_closed {style : QuoteStyle} (hmark : style.mark ≠ ')') {limit : ℕ}
    {start : Position} {fuel fuel' : ℕ} (hfuel : fuel ≤ fuel') {acc : List Char} {size : ℕ}
    {escaped : Bool} {first : Position} {skipUntil : ℕ} {c : Cursor} {scan : TextScan}
    (h : scanText style limit start fuel acc size escaped first skipUntil c = .ok scan)
    (hclosed : (scan.atBlock = true ∨ scan.open_ = false) ∨
      (style.verbatim = false ∧ style.continues = false)) :
    scanText style limit start fuel' acc size escaped first skipUntil c.closed =
      .ok { scan with cursor := scan.cursor.closed } := by
  induction fuel generalizing fuel' acc size escaped first skipUntil c with
  | zero => cases h
  | succ fuel ih =>
    obtain ⟨fuel', rfl⟩ : ∃ k, fuel' = k + 1 := Nat.exists_eq_add_one.mpr (by omega)
    replace ih := @ih fuel' (by omega)
    obtain ⟨rest, pos⟩ := c
    cases rest with
    | nil =>
      simp only [scanText, Cursor.next?] at h
      split_ifs at h with hends
      cases h
      rcases hclosed with (h | h) | ⟨hverbatim, hcontinues⟩
      · cases h
      · cases h
      · simp [hverbatim, hcontinues] at hends
    | cons ch rest =>
      have hbrace := peek?_closed (d := '\x7b') (by decide) rest pos.advance
      simp only [scanText, Cursor.next?] at h
      simp only [scanText, Cursor.next?, Cursor.closed, List.cons_append, hbrace]
      rw [endMark_closed hmark]
      by_cases hblock : (style.interpolates && ch == '$' && !escaped &&
          Cursor.peek? ⟨rest, pos.advance⟩ == some '\x7b') = true
      · rw [if_pos hblock] at h ⊢
        split_ifs at h ⊢
        cases h
        rfl
      rw [if_neg hblock] at h ⊢
      by_cases hlimit : (!withinLimit limit size) = true
      · rw [if_pos hlimit] at h
        cases h
      rw [if_neg hlimit] at h ⊢
      by_cases hlast : (ch == style.mark && !escaped &&
          Cursor.peek? ⟨rest, pos.advance⟩ != some ch) = true
      · rw [if_pos hlast] at h ⊢
        split_ifs at h ⊢
        cases h
        rfl
      rw [if_neg hlast] at h ⊢
      -- A closing mark that is doubled stands for itself.
      rw [skipDoubled_closed hlast]
      generalize (if (ch == style.mark && !escaped) = true then
          (⟨rest, pos.advance⟩ : Cursor).skip 1 else ⟨rest, pos.advance⟩) = c at h ⊢
      obtain ⟨rest', pos'⟩ := c
      rw [Cursor.closed, peek?_closed (d := '\n') (by decide)]
      by_cases hreturn : (ch == '\r' && Cursor.peek? ⟨rest', pos'⟩ == some '\n') = true
      · rw [if_pos hreturn] at h ⊢
        exact ih h
      rw [if_neg hreturn] at h ⊢
      by_cases hslash : (ch == '\\' && !style.verbatim && !escaped) = true
      · rw [if_pos hslash] at h ⊢
        exact ih h
      rw [if_neg hslash] at h ⊢
      cases escaped with
      | true =>
        simp only [if_true] at h ⊢
        split_ifs at h ⊢
        all_goals first
          | exact ih h
          | split at h
            · cases h
            · next value seen after hhex =>
              have hlonger := scanHex_closed hhex
              simp only [Cursor.closed] at hlonger
              rw [hlonger]
              dsimp only
              split_ifs at h ⊢
              exact ih h
      | false =>
        simp only [Bool.false_eq_true, if_false] at h ⊢
        split_ifs at h ⊢
        all_goals exact ih h

/-! ## Words and symbols -/

/-- No word takes a parenthesis. -/
theorem takeWhile_isWordPart_closed (cs : List Char) :
    (cs ++ [')']).takeWhile isWordPart = cs.takeWhile isWordPart := by
  induction cs with
  | nil => rfl
  | cons c cs ih => simp only [List.cons_append, List.takeWhile_cons, ih]

/-- A parenthesis more makes another symbol of only two characters. -/
theorem symbolToken?_closed {cs : List Char} (hne : cs ≠ []) (hopen : cs ≠ ['('])
    (hstar : cs ≠ ['*']) : symbolToken? (cs ++ [')']) = symbolToken? cs := by
  have hlast : ∀ s ∈ symbols ++ reservedSymbols.map Prod.fst,
      s.toList.getLast? = some ')' → s.toList ∈ [['(', ')'], ['*', ')'], [')']] := by
    decide +kernel
  have hstarts (s : String) (hs : s ∈ symbols ++ reservedSymbols.map Prod.fst) :
      s.toList.isPrefixOf (cs ++ [')']) = s.toList.isPrefixOf cs := by
    rw [Bool.eq_iff_iff, List.isPrefixOf_iff_prefix, List.isPrefixOf_iff_prefix,
      List.prefix_concat_iff, or_iff_right]
    intro hwhole
    have hmem := hlast s hs (by rw [hwhole, List.getLast?_concat])
    rw [hwhole] at hmem
    simp only [List.mem_cons, List.not_mem_nil, or_false] at hmem
    rcases hmem with h | h | h
    · exact hopen (List.append_cancel_right (h : cs ++ [')'] = ['('] ++ [')']))
    · exact hstar (List.append_cancel_right (h : cs ++ [')'] = ['*'] ++ [')']))
    · exact hne (List.append_cancel_right (h : cs ++ [')'] = [] ++ [')']))
  have hplain : symbols.find? (fun s => s.toList.isPrefixOf (cs ++ [')'])) =
      symbols.find? (fun s => s.toList.isPrefixOf cs) :=
    List.find?_congr fun s hs => hstarts s (List.mem_append_left _ hs)
  have hreserved : reservedSymbols.find? (fun p => p.1.toList.isPrefixOf (cs ++ [')'])) =
      reservedSymbols.find? (fun p => p.1.toList.isPrefixOf cs) :=
    List.find?_congr fun p hp => hstarts p.1 (List.mem_append_right _ (List.mem_map_of_mem hp))
  simp only [symbolToken?, hplain, hreserved]

/-- A symbol is not longer than the text that begins with it. -/
theorem symbolToken?_length {cs : List Char} {t : Token} {n : ℕ}
    (h : symbolToken? cs = some (t, n)) : n ≤ cs.length := by
  have hstarts {s : String} (hs : s.toList.isPrefixOf cs = true) : s.length ≤ cs.length := by
    rw [← String.length_toList]
    exact (List.isPrefixOf_iff_prefix.mp hs).length_le
  rw [symbolToken?] at h
  split at h
  · next s advice hreserved =>
    have hs := hstarts (s := s) (by simpa using List.find?_some hreserved)
    split at h
    · next p hplain =>
      have hp := hstarts (s := p) (by simpa using List.find?_some hplain)
      split_ifs at h <;> cases h
      · exact hp
      · exact hs
    · cases h
      exact hs
  · obtain ⟨p, hplain, heq⟩ := Option.map_eq_some_iff.mp h
    cases heq
    exact hstarts (by simpa using List.find?_some hplain)

/-! ## Tokens -/

/-- A quoted text that is a token is the same text. -/
theorem scanQuoted_closed {style : QuoteStyle} (hmark : style.mark ≠ ')') {limit : ℕ}
    {start pos : Position} {c : Cursor} {state : ScanState}
    (hfault : ∀ problem,
      (textToken state pos (scanQuoted style limit start c)).placed.token ≠ .fault problem) :
    ∃ scan, scanQuoted style limit start c = .ok scan ∧
      scanQuoted style limit start c.closed = .ok { scan with cursor := scan.cursor.closed } := by
  cases h : scanQuoted style limit start c with
  | error e =>
    rw [h] at hfault
    exact absurd rfl (hfault e.1)
  | ok scan =>
    rw [h, textToken] at hfault
    have hclosed : scan.atBlock = true ∨ scan.open_ = false := by
      by_contra hnot
      simp only [not_or, Bool.not_eq_true, Bool.not_eq_false] at hnot
      rw [hnot.1, hnot.2] at hfault
      exact hfault .openString rfl
    exact ⟨scan, rfl, scanText_closed hmark (by simp) h (.inl hclosed)⟩

/-- The token of a quoted text is the same. -/
theorem textToken_closed (state : ScanState) (pos : Position) (scan : TextScan) :
    textToken state pos (.ok { scan with cursor := scan.cursor.closed }) =
      (textToken state pos (.ok scan)).closed := by
  rw [textToken, textToken]
  split_ifs <;> rfl

/-- A symbol is the same, unless it is the beginning of another one. -/
theorem scanSymbol_closed {state : ScanState} {pos pos' : Position} {c : Char} {rest : List Char}
    (hopen : (scanToken.symbol state ⟨c :: rest, pos⟩ pos' c).cursor.rest = [] →
      (scanToken.symbol state ⟨c :: rest, pos⟩ pos' c).placed.token ≠ .mark "(" ∧
        (scanToken.symbol state ⟨c :: rest, pos⟩ pos' c).placed.token ≠ .mark "*") :
    scanToken.symbol state ⟨c :: (rest ++ [')']), pos⟩ pos' c =
      (scanToken.symbol state ⟨c :: rest, pos⟩ pos' c).closed := by
  have hparen : c :: rest ≠ ['('] := by
    rintro ⟨⟩
    exact (hopen rfl).1 rfl
  have hstar : c :: rest ≠ ['*'] := by
    rintro ⟨⟩
    exact (hopen rfl).2 rfl
  have hsymbol := symbolToken?_closed (List.cons_ne_nil c rest) hparen hstar
  rw [List.cons_append] at hsymbol
  rw [scanToken.symbol, scanToken.symbol, hsymbol]
  cases h : symbolToken? (c :: rest) with
  | none => rfl
  | some p =>
    exact congrArg (Scanned.mk _ _)
      (Cursor.closed_skip ⟨c :: rest, pos⟩ (symbolToken?_length h))

/-- A text in back-quotes may begin with a line break that does not count. -/
def Cursor.afterBreak (c : Cursor) : Cursor :=
  match c.rest with
  | '\r' :: '\n' :: _ => (c.skip 2).newLine
  | '\r' :: _ => (c.skip 1).newLine
  | '\n' :: _ => (c.skip 1).newLine
  | _ => c

/-- The line break is the same. -/
theorem Cursor.closed_afterBreak (c : Cursor) : c.closed.afterBreak = c.afterBreak.closed := by
  obtain ⟨rest, pos⟩ := c
  rcases rest with _ | ⟨d, rest⟩
  · rfl
  by_cases hreturn : d = '\r'
  · subst hreturn
    rcases rest with _ | ⟨e, rest⟩
    · rfl
    by_cases hbreak : e = '\n'
    · subst hbreak
      rfl
    · simp [afterBreak, closed, skip, newLine, hbreak]
  · by_cases hbreak : d = '\n'
    · subst hbreak
      rfl
    · simp [afterBreak, closed, hreturn, hbreak]

/-- What the scanner makes of a text that begins with a mark, or with a sign of a number. -/
def scanMark (state : ScanState) (pos : Position) (c : Char) (rest : List Char) : Scanned :=
  match c, rest with
  | '-', d :: _ =>
    if d.isDigit && state.signed then
      let after := Cursor.skip ⟨rest, pos.advance⟩ 1
      let scan := scanNumber after.rest.length {} ⟨[d], after⟩
      ⟨⟨numberToken true scan.1 scan.2.taken, pos.advance⟩, state, scan.2.cursor⟩
    else scanToken.symbol state ⟨c :: rest, pos⟩ pos.advance c
  | '!', 'i' :: 'n' :: after =>
    if (after.head?.map isWordPart).getD false then
      ⟨⟨.mark "!", pos.advance⟩, state, Cursor.skip ⟨c :: rest, pos⟩ 1⟩
    else ⟨⟨.mark "!in", pos.advance⟩, state, Cursor.skip ⟨c :: rest, pos⟩ 3⟩
  | _, _ => scanToken.symbol state ⟨c :: rest, pos⟩ pos.advance c

/-- An exclamation mark is a symbol where no word for membership follows. -/
theorem scanMark_bang {rest : List Char} (hrest : ∀ after, rest ≠ 'i' :: 'n' :: after)
    (state : ScanState) (pos : Position) :
    scanMark state pos '!' rest =
      scanToken.symbol state ⟨'!' :: rest, pos⟩ pos.advance '!' := by
  unfold scanMark
  split
  · contradiction
  · exact absurd rfl (hrest _)
  · rfl

/-- A mark is the same, unless it is the beginning of another one. -/
theorem scanMark_closed {state : ScanState} {pos : Position} {c : Char} {rest : List Char}
    (hopen : (scanMark state pos c rest).cursor.rest = [] →
      (scanMark state pos c rest).placed.token ≠ .mark "(" ∧
        (scanMark state pos c rest).placed.token ≠ .mark "*") :
    scanMark state pos c (rest ++ [')']) = (scanMark state pos c rest).closed := by
  by_cases hminus : c = '-'
  · subst hminus
    rcases rest with _ | ⟨d, rest⟩
    · exact scanSymbol_closed hopen
    by_cases hnumber : (d.isDigit && state.signed) = true
    · simp only [scanMark, List.cons_append, if_pos hnumber, Cursor.skip, List.drop_succ_cons,
        List.drop_zero]
      rw [scanNumber_closed {} [d] rest _ le_rfl (by simp)]
      rfl
    · simp only [scanMark, List.cons_append, if_neg hnumber] at hopen ⊢
      exact scanSymbol_closed hopen
  by_cases hbang : c = '!'
  · subst hbang
    by_cases hword : ∃ after, rest = 'i' :: 'n' :: after
    · obtain ⟨after, rfl⟩ := hword
      have hpart : ((after ++ [')']).head?.map isWordPart).getD false =
          (after.head?.map isWordPart).getD false := by cases after <;> rfl
      simp only [scanMark, List.cons_append, hpart]
      split_ifs <;> rfl
    · have hrest : ∀ after, rest ≠ 'i' :: 'n' :: after := fun after h => hword ⟨after, h⟩
      have hlonger : ∀ after, rest ++ [')'] ≠ 'i' :: 'n' :: after := by
        rcases rest with _ | ⟨d, _ | ⟨e, rest⟩⟩
        · simp
        · simp
        · simpa using hrest
      rw [scanMark_bang hrest] at hopen ⊢
      rw [scanMark_bang hlonger]
      exact scanSymbol_closed hopen
  · simp only [scanMark, hminus, hbang, false_implies, implies_true] at hopen ⊢
    exact scanSymbol_closed hopen

/-- A token is the same, unless it is the beginning of another one. -/
theorem scanToken_closed {limit : ℕ} {state : ScanState} {cursor : Cursor}
    (heof : (scanToken limit state cursor).placed.token ≠ .eof)
    (hfault : ∀ problem, (scanToken limit state cursor).placed.token ≠ .fault problem)
    (hopen : (scanToken limit state cursor).cursor.rest = [] →
      (scanToken limit state cursor).placed.token ≠ .mark "(" ∧
        (scanToken limit state cursor).placed.token ≠ .mark "*") :
    scanToken limit state cursor.closed = (scanToken limit state cursor).closed := by
  cases htext : state.inText with
  | true =>
    simp only [scanToken, htext, if_true] at hfault ⊢
    obtain ⟨scan, hscan, hlonger⟩ := scanQuoted_closed (by decide) hfault
    rw [Cursor.closed_pos, hscan, hlonger]
    exact textToken_closed _ _ scan
  | false =>
    simp only [scanToken, htext, Bool.false_eq_true, if_false] at heof hfault hopen ⊢
    obtain ⟨hgap, -⟩ := skipGap_closed .blank cursor.pos cursor.rest
    generalize skipGap .blank cursor.pos cursor.rest = after at heof hfault hopen hgap ⊢
    obtain ⟨rest, pos⟩ := after
    cases rest with
    | nil => exact absurd rfl heof
    | cons c rest =>
      have hpeek := peek?_closed (d := '\'') (by decide) rest pos.advance
      rw [Cursor.closed_pos, Cursor.closed_rest, hgap (List.cons_ne_nil _ _)]
      simp only [Cursor.closed, Cursor.next?, List.cons_append, hpeek] at heof hfault hopen ⊢
      split_ifs at heof hfault hopen ⊢ with hdigit hstart hquote hback hsingle
      · rw [scanNumber_closed {} [c] rest pos.advance le_rfl (by simp)]
        rfl
      · have hword : (c :: (rest ++ [')'])).takeWhile isWordPart =
            (c :: rest).takeWhile isWordPart := takeWhile_isWordPart_closed (c :: rest)
        rw [hword]
        exact congrArg (Scanned.mk _ _)
          (Cursor.closed_skip ⟨c :: rest, pos⟩ (List.takeWhile_sublist _).length_le)
      · obtain ⟨scan, hscan, hlonger⟩ := scanQuoted_closed (by decide) hfault
        rw [hscan]
        exact (congrArg _ hlonger).trans (textToken_closed _ _ scan)
      · let after := Cursor.afterBreak ⟨rest, pos.advance⟩
        obtain ⟨scan, hscan, hlonger⟩ : ∃ scan,
            scanQuoted backQuoted limit after.pos after = .ok scan ∧
              scanQuoted backQuoted limit after.pos after.closed =
                .ok { scan with cursor := scan.cursor.closed } :=
          scanQuoted_closed (by decide) hfault
        have hbreak : Cursor.afterBreak ⟨rest ++ [')'], pos.advance⟩ = after.closed :=
          Cursor.closed_afterBreak ⟨rest, pos.advance⟩
        calc
          _ = textToken state pos.advance (scanQuoted backQuoted limit after.pos after.closed) :=
            congrArg (fun c => textToken state _ (scanQuoted backQuoted limit c.pos c)) hbreak
          _ = (textToken state pos.advance (.ok scan)).closed := by
            rw [hlonger]
            exact textToken_closed _ _ scan
          _ = _ := by
            rw [← hscan]
            rfl
      · exact absurd rfl (hfault _)
      · cases hscan : scanQuoted singleQuoted limit pos.advance ⟨rest, pos.advance⟩ with
        | error e =>
          rw [hscan] at hfault
          exact absurd rfl (hfault e.1)
        | ok scan =>
          have hlonger : scanQuoted singleQuoted limit pos.advance ⟨rest ++ [')'], pos.advance⟩ =
              .ok { scan with cursor := scan.cursor.closed } :=
            scanText_closed (by decide) (by simp) hscan (.inr ⟨rfl, rfl⟩)
          rw [hlonger]
          dsimp only
          split <;> rfl
      · exact scanMark_closed hopen

/-- At the end of a text there is no token. -/
theorem scanToken_nil (limit : ℕ) (state : ScanState) (pos : Position) :
    (scanToken limit state ⟨[], pos⟩).placed.token = .eof ∨
      (scanToken limit state ⟨[], pos⟩).placed.token = .fault .openString := by
  cases htext : state.inText with
  | true =>
    have hempty : withinLimit limit 0 = true := by simp [withinLimit]
    simp [scanToken, htext, scanQuoted, scanText, Cursor.next?, backQuoted, hempty, textToken]
  | false => simp [scanToken, htext, skipGap, Cursor.next?]

/-- At the end of a text there are no tokens. -/
theorem tokensFrom_nil {limit fuel : ℕ} {state : ScanState} {pos q : Position} {ts : List Placed}
    (h : tokensFrom limit fuel state ⟨[], pos⟩ = ts ++ [⟨.eof, q⟩]) : ts = [] := by
  cases fuel with
  | zero => simp [tokensFrom] at h
  | succ fuel =>
    have hlength : ts.length + 1 = 1 := by
      rw [← List.length_singleton (a := (⟨.eof, q⟩ : Placed)), ← List.length_append, ← h,
        tokensFrom]
      rcases scanToken_nil limit state pos with heq | heq <;> rw [heq] <;> rfl
    exact List.length_eq_zero_iff.mp (Nat.succ.inj hlength)

/-- No number is the end of a text. -/
theorem numberToken_ne_eof (negative : Bool) (shape : NumberShape) (taken : List Char) :
    numberToken negative shape taken ≠ .eof := by
  unfold numberToken
  split <;> grind

/-- No word is the end of a text. -/
theorem wordToken_ne_eof (s : String) : wordToken s ≠ .eof := by
  unfold wordToken
  grind

/-- No symbol is the end of a text. -/
theorem symbolToken?_ne_eof (cs : List Char) (n : ℕ) : symbolToken? cs ≠ some (.eof, n) := by
  unfold symbolToken? symbolToken?.reserve
  dsimp only
  split
  · split <;> grind
  · simp

/-- No quoted text is the end of a text. -/
theorem textToken_ne_eof (state : ScanState) (pos : Position)
    (scan : Except (ParseProblem × Position) TextScan) :
    (textToken state pos scan).placed.token ≠ .eof := by
  unfold textToken
  grind

/-- No symbol is the end of a text. -/
theorem scanSymbol_ne_eof (state : ScanState) (cursor : Cursor) (pos : Position) (c : Char) :
    (scanToken.symbol state cursor pos c).placed.token ≠ .eof := by
  unfold scanToken.symbol
  grind [symbolToken?_ne_eof]

/-- Only a gap that reaches the end of a text is followed by the end of a text. -/
theorem gap_of_scanToken_eof {limit : ℕ} {state : ScanState} {cursor : Cursor}
    (h : (scanToken limit state cursor).placed.token = .eof) :
    state.inText = false ∧ (skipGap .blank cursor.pos cursor.rest).rest = [] := by
  cases htext : state.inText with
  | true =>
    simp only [scanToken, htext, if_true] at h
    exact absurd h (textToken_ne_eof _ _ _)
  | false =>
    refine ⟨rfl, ?_⟩
    by_contra hne
    obtain ⟨c, rest, hgap⟩ := List.exists_cons_of_ne_nil hne
    simp only [scanToken, htext, Bool.false_eq_true, if_false, Cursor.next?, hgap] at h
    revert h
    split_ifs
    · exact numberToken_ne_eof _ _ _
    · exact wordToken_ne_eof _
    · exact textToken_ne_eof _ _ _
    · exact textToken_ne_eof _ _ _
    · exact False.elim
    · split
      · exact Token.noConfusion
      · split <;> exact Token.noConfusion
    · split
      · split_ifs
        · exact numberToken_ne_eof _ _ _
        · exact scanSymbol_ne_eof _ _ _ _
      · split_ifs <;> exact False.elim
      · exact scanSymbol_ne_eof _ _ _ _

/-- Only the last token is the end of a text. -/
theorem tokensFrom_ne_eof {limit fuel : ℕ} {state : ScanState} {cursor : Cursor}
    {ts : List Placed} {last : Placed} (h : tokensFrom limit fuel state cursor = ts ++ [last]) :
    ∀ t ∈ ts, t.token ≠ .eof := by
  induction fuel generalizing state cursor ts with
  | zero => simp [tokensFrom] at h
  | succ fuel ih =>
    cases ts with
    | nil => simp
    | cons u ts =>
      rw [tokensFrom] at h
      split at h
      · simp at h
      · simp at h
      · next heof _ =>
        obtain ⟨rfl, hrest⟩ := List.cons.inj h
        exact List.forall_mem_cons.mpr ⟨heof, ih hrest⟩

/-- A parenthesis at the end of a text is a token, or part of a comment. -/
theorem scanToken_eof_closed {limit : ℕ} {state : ScanState} {cursor : Cursor}
    (h : (scanToken limit state cursor).placed.token = .eof) :
    (scanToken limit state cursor.closed).placed.token = .eof ∨
      ∃ p after, scanToken limit state cursor.closed = ⟨⟨.mark ")", p⟩, state, ⟨[], after⟩⟩ ∧
        state.inText = false := by
  obtain ⟨htext, hend⟩ := gap_of_scanToken_eof h
  obtain ⟨last, hclosed⟩ := (skipGap_closed .blank cursor.pos cursor.rest).2 hend
  simp only [scanToken, htext, Bool.false_eq_true, if_false, Cursor.closed_pos,
    Cursor.closed_rest, hclosed]
  generalize (skipGap .blank cursor.pos cursor.rest).pos = pos
  cases last with
  | blank => exact .inr ⟨_, _, rfl, trivial⟩
  | line => exact .inl rfl
  | block depth => exact .inl rfl

/-- **A parenthesis leaves the tokens in front of it as they are**, unless the last of them is the
beginning of another one. It is a token itself, or it is part of a comment. -/
theorem tokensFrom_closed {limit fuel : ℕ} {state : ScanState} {cursor : Cursor}
    {ts : List Placed} {q : Position}
    (h : tokensFrom limit fuel state cursor = ts ++ [⟨.eof, q⟩])
    (hopen : ∀ t ∈ ts.getLast?, t.token ≠ .mark "(" ∧ t.token ≠ .mark "*") :
    (∃ p r, ∀ fuel' > fuel, tokensFrom limit fuel' state cursor.closed =
        ts ++ [⟨.mark ")", p⟩, ⟨.eof, r⟩]) ∨
      ∃ r, ∀ fuel' > fuel, tokensFrom limit fuel' state cursor.closed = ts ++ [⟨.eof, r⟩] := by
  induction fuel generalizing state cursor ts with
  | zero => simp [tokensFrom] at h
  | succ fuel ih =>
    rw [tokensFrom] at h
    split at h
    · next heof =>
      obtain ⟨rfl, -⟩ := (List.append_eq_singleton_iff.mp h.symm).resolve_right (by simp)
      rcases scanToken_eof_closed heof with heof | ⟨p, after, hparen, htext⟩
      · refine .inr ⟨(scanToken limit state cursor.closed).placed.pos, fun fuel' hfuel => ?_⟩
        obtain ⟨fuel', rfl⟩ := Nat.exists_eq_add_of_le' (Nat.one_le_of_lt hfuel)
        rw [tokensFrom]
        simp only [heof, List.nil_append]
        rw [← heof]
      · refine .inl ⟨p, after.advance, fun fuel' hfuel => ?_⟩
        obtain ⟨fuel', rfl⟩ := Nat.exists_eq_add_of_le' (by omega : 2 ≤ fuel')
        rw [tokensFrom, hparen]
        simp [tokensFrom, scanToken, htext, skipGap, Cursor.next?]
    · next problem hfault =>
      obtain ⟨rfl, heq⟩ := (List.append_eq_singleton_iff.mp h.symm).resolve_right (by simp)
      rw [← (List.cons.inj heq).1] at hfault
      cases hfault
    · next heof hfault =>
      cases ts with
      | nil => exact absurd (congrArg Placed.token (List.cons.inj h).1) heof
      | cons u ts =>
        obtain ⟨rfl, hrest⟩ := List.cons.inj h
        have hlast (hnil : (scanToken limit state cursor).cursor.rest = []) : ts = [] := by
          generalize (scanToken limit state cursor).cursor = after at hnil hrest
          obtain ⟨rest, pos⟩ := after
          obtain rfl : rest = [] := hnil
          exact tokensFrom_nil hrest
        have hplaced := scanToken_closed heof hfault fun hnil =>
          hopen _ (by rw [hlast hnil]; rfl)
        have hlater := ih hrest fun t ht => hopen t (by
          rw [Option.mem_def] at ht ⊢
          rw [List.getLast?_cons, ht]
          rfl)
        have hstep (fuel' : ℕ) : tokensFrom limit (fuel' + 1) state cursor.closed =
            (scanToken limit state cursor).placed ::
              tokensFrom limit fuel' { (scanToken limit state cursor).state with
                signed := (scanToken limit state cursor).placed.token.allowsSign }
                (scanToken limit state cursor).cursor.closed := by
          rw [tokensFrom, hplaced]
          dsimp only [Scanned.closed]
          split
          · contradiction
          · exact absurd ‹_› (hfault _)
          · rfl
        refine hlater.imp (fun ⟨p, r, h⟩ => ⟨p, r, fun fuel' hfuel => ?_⟩)
          fun ⟨r, h⟩ => ⟨r, fun fuel' hfuel => ?_⟩
        all_goals
          obtain ⟨fuel', rfl⟩ := Nat.exists_eq_add_of_le' (Nat.one_le_of_lt hfuel)
          rw [hstep, h fuel' (Nat.lt_of_succ_lt_succ hfuel), List.cons_append]

end ScriptHost.Script
