import Mathlib
import ScriptHost.Proofs.Scanning

/-!
# Texts made of pieces

A text put together from words, marks, numbers, quoted texts and blanks is read back as the tokens
of its pieces, wherever each piece is kept apart from the character that follows it.
-/

namespace ScriptHost.Script

/-- A piece of a script text. -/
inductive Piece where
  /-- A blank. -/
  | blank (c : Char)
  /-- A word. -/
  | word (w : String)
  /-- A mark. -/
  | mark (s : String)
  /-- A text in double quotes. -/
  | quoted (s : String)
  /-- A number. -/
  | number (n : ℕ)

/-- Characters that are marks, each with those that would make another mark of it or, behind a sign,
a number. -/
def singleMarks : List (Char × List Char) :=
  [('(', [')', '*']), ('.', ['.']), ('=', ['=', '>']), ('|', ['|', '=', '>']), ('+', ['=', '+']),
    ('*', ['=', '*', ')']),
    ('-', ['=', '-', '>', '0', '1', '2', '3', '4', '5', '6', '7', '8', '9'])]

/-- Marks that group, separate and compute, each with the characters that it is kept apart from. -/
def pieceMarks : List (String × List Char) :=
  [("(", [')', '*']), (")", []), ("()", []), ("[", []), ("]", []), ("\x7b", []), ("\x7d", []),
    ("#\x7b", []), (",", []), (";", []), (".", ['.']), ("=", ['=', '>']), ("|", ['|', '=', '>']),
    ("+", ['=', '+']), ("*", ['=', '*', ')']),
    ("-", ['=', '-', '>', '0', '1', '2', '3', '4', '5', '6', '7', '8', '9'])]

namespace Piece

/-- The characters of a piece. -/
def chars : Piece → List Char
  | blank c => [c]
  | word w => w.toList
  | mark s => s.toList
  | quoted s => '"' :: (s.toList ++ ['"'])
  | number n => Nat.toDigits 10 n

/-- The token of a piece; blanks have none. -/
def token? : Piece → Option Token
  | blank _ => none
  | word w => some (wordToken w)
  | mark s => some (.mark s)
  | quoted s => some (.string s)
  | number n => some (.int n)

/-- Whether a piece is what it says. -/
def isValid : Piece → Bool
  | blank c => c == ' ' || c == '\n'
  | word w => isWord w
  | mark s => pieceMarks.any (·.1 == s)
  | quoted s => s.toList.all isPlain
  | number n => n < 2 ^ 63

/-- Whether a piece ends in front of a character. -/
def endsBefore : Piece → Char → Bool
  | blank _, _ => true
  | word _, c => !isWordPart c
  | mark s, c => pieceMarks.all fun p => p.1 != s || !p.2.contains c
  | quoted _, c => c != '"'
  | number _, c => endsNumber c

/-- The position behind a piece. -/
def past (p : Piece) (pos : Position) : Position :=
  match p with
  | blank c => if c = '\n' then pos.nextLine else pos.advance
  | p => { pos with column := pos.column + p.chars.length }

/-- Between tokens the scanner passes over blanks. -/
theorem scanToken_blank {c : Char} (hc : (blank c).isValid = true) (limit : ℕ) (rest : List Char)
    (signed : Bool) (pos : Position) :
    scanToken limit ⟨signed, [], false⟩ ⟨c :: rest, pos⟩ =
      scanToken limit ⟨signed, [], false⟩ ⟨rest, (blank c).past pos⟩ := by
  simp only [isValid, Bool.or_eq_true, beq_iff_eq] at hc
  rcases hc with rfl | rfl
  · rfl
  · rfl

/-- No blank and no comment begins with part of a word. -/
theorem skipGap_part {c : Char} (hc : isWordPart c = true) (pos : Position) (rest : List Char) :
    skipGap .blank pos (c :: rest) = ⟨c :: rest, pos⟩ := by
  have hslash : c ≠ '/' := by
    rintro rfl
    cases hc
  have hline : c ≠ '\n' := by
    rintro rfl
    cases hc
  rw [skipGap]
  · rw [if_neg hline, if_neg (by simp [isBlank_of_isWordPart hc])]
  · exact fun r h _ => hslash h
  · exact fun r h _ => hslash h

/-- A word does not begin with a digit. -/
theorem isDigit_of_isWordStart {c : Char} (hc : isWordStart c = true) : c.isDigit = false := by
  by_contra h
  simp only [isWordStart, Char.isAlpha, Char.isUpper, Char.isLower, Char.isDigit, Bool.or_eq_true,
    Bool.and_eq_true, decide_eq_true_eq, beq_iff_eq, Bool.not_eq_false, ge_iff_le,
    UInt32.le_iff_toNat_le] at h hc
  rcases hc with (hc | hc) | rfl
  · exact absurd (Nat.le_trans hc.1 h.2) (by decide)
  · exact absurd (Nat.le_trans hc.1 h.2) (by decide)
  · exact absurd h.2 (by decide)

/-- The characters of a word are scanned up to their end. -/
theorem scanToken_chars {w : String} {c : Char} {cs : List Char} (hchars : w.toList = c :: cs)
    (hc : isWordStart c = true) (hcs : cs.all isWordPart = true) (limit : ℕ) {rest : List Char}
    (hrest : ∀ c ∈ rest.head?, isWordPart c = false) (signed : Bool) (pos : Position) :
    scanToken limit ⟨signed, [], false⟩ ⟨w.toList ++ rest, pos⟩ =
      ⟨⟨wordToken w, pos.advance⟩, ⟨signed, [], false⟩, ⟨rest, (word w).past pos⟩⟩ := by
  have hpart := isWordPart_of_isWordStart hc
  have htake : (c :: (cs ++ rest)).takeWhile isWordPart = c :: cs := by
    have hall : ∀ d ∈ c :: cs, isWordPart d = true := by
      simpa [hpart] using List.all_eq_true.mp hcs
    have hnone : rest.takeWhile isWordPart = [] := by
      cases rest with
      | nil => rfl
      | cons d rest => rw [List.takeWhile_cons_of_neg (by simp [hrest d rfl])]
    rw [← List.cons_append, List.takeWhile_append_of_pos hall, hnone, List.append_nil]
  have hword : String.ofList (c :: cs) = w := by rw [← hchars, String.ofList_toList]
  have hpast : (word w).past pos = { pos with column := pos.column + (c :: cs).length } := by
    rw [past, chars, hchars]
    exact fun _ h => Piece.noConfusion h
  rw [hpast, hchars, List.cons_append, scanToken]
  simp only [Bool.false_eq_true, if_false, skipGap_part hpart, Cursor.next?,
    isDigit_of_isWordStart hc, hc, if_true, htake, hword, Cursor.skip]
  simp

/-- A word is scanned up to its end. -/
theorem scanToken_word {w : String} (hw : isWord w = true) (limit : ℕ) {rest : List Char}
    (hrest : ∀ c ∈ rest.head?, isWordPart c = false) (signed : Bool) (pos : Position) :
    scanToken limit ⟨signed, [], false⟩ ⟨w.toList ++ rest, pos⟩ =
      ⟨⟨wordToken w, pos.advance⟩, ⟨signed, [], false⟩, ⟨rest, (word w).past pos⟩⟩ := by
  obtain ⟨c, cs, hchars, hc, hcs⟩ := isWord_chars hw
  exact scanToken_chars hchars hc hcs limit hrest signed pos

/-- A number is scanned up to its end. -/
theorem scanToken_number {n : ℕ} (hn : n < 2 ^ 63) (limit : ℕ) {rest : List Char}
    (hrest : ∀ c ∈ rest.head?, endsNumber c = true) (signed : Bool) (pos : Position) :
    scanToken limit ⟨signed, [], false⟩ ⟨Nat.toDigits 10 n ++ rest, pos⟩ =
      ⟨⟨.int n, pos.advance⟩, ⟨signed, [], false⟩, ⟨rest, (number n).past pos⟩⟩ := by
  have htoken := numberToken_digits hn
  have hdigit : ∀ c ∈ Nat.toDigits 10 n, c.isDigit = true := fun c hc =>
    Nat.isDigit_of_mem_toDigits (by decide) (by decide) hc
  cases hdigits : Nat.toDigits 10 n with
  | nil => exact absurd hdigits Nat.toDigits_ne_nil
  | cons c cs =>
    rw [hdigits] at htoken hdigit
    have hc := hdigit c List.mem_cons_self
    have hscan := scanNumber_digits (fun d hd => hdigit d (List.mem_cons_of_mem c hd))
      hrest (cs ++ rest).length (by simp) [c] pos.advance
    have hpast : (number n).past pos =
        { Position.advance pos with column := (Position.advance pos).column + cs.length } := by
      simp only [past, chars, hdigits, List.length_cons, Position.advance, Position.mk.injEq,
        true_and]
      omega
    rw [List.reverse_cons] at htoken
    rw [hpast, List.cons_append, scanToken]
    simp only [Bool.false_eq_true, if_false, skipGap_part (isWordPart_of_isDigit hc), Cursor.next?,
      hc, if_true, hscan, htoken]

/-- A text in double quotes is scanned up to its closing quote. -/
theorem scanToken_quoted {s : String} (hs : s.toList.all isPlain = true) {rest : List Char}
    (hrest : rest.head? ≠ some '"') (signed : Bool) (pos : Position) :
    scanToken 0 ⟨signed, [], false⟩ ⟨'"' :: (s.toList ++ '"' :: rest), pos⟩ =
      ⟨⟨.string s, pos.advance⟩, ⟨signed, [], false⟩, ⟨rest, (quoted s).past pos⟩⟩ := by
  obtain ⟨first, hscan⟩ := scanText_plain pos.advance hs hrest
    ((s.toList ++ '"' :: rest).length + 1) (by simp) [] 0 .none pos.advance
  have hpast : (quoted s).past pos = { Position.advance pos with
      column := (Position.advance pos).column + (s.toList.length + 1) } := by
    simp only [past, chars, List.length_cons, List.length_append, List.length_nil,
      Position.advance, Position.mk.injEq, true_and]
    omega
  rw [List.reverse_nil, List.nil_append, String.ofList_toList, ← hpast] at hscan
  have hstep : scanToken 0 ⟨signed, [], false⟩ ⟨'"' :: (s.toList ++ '"' :: rest), pos⟩ =
      textToken ⟨signed, [], false⟩ pos.advance
        (scanQuoted doubleQuoted 0 pos.advance ⟨s.toList ++ '"' :: rest, pos.advance⟩) := rfl
  rw [hstep, scanQuoted, hscan]
  rfl

/-- A character that can begin longer symbols is one of its own if none follows. -/
theorem symbolToken?_alone {c : Char} {others : List Char} (hc : (c, others) ∈ singleMarks)
    {rest : List Char} (hrest : ∀ d ∈ rest.head?, d ∉ others) :
    symbolToken? (c :: rest) = some (.mark (String.singleton c), 1) := by
  cases rest with
  | nil => fin_cases hc <;> rfl
  | cons d rest =>
    have hd : ∀ e ∈ others, (e == d) = false := fun e he =>
      beq_eq_false_iff_ne.mpr fun heq => hrest d rfl (heq ▸ he)
    simp only [singleMarks, List.mem_cons, List.not_mem_nil, or_false, Prod.mk.injEq] at hc
    rcases hc with ⟨rfl, rfl⟩ | ⟨rfl, rfl⟩ | ⟨rfl, rfl⟩ | ⟨rfl, rfl⟩ | ⟨rfl, rfl⟩ | ⟨rfl, rfl⟩ |
      ⟨rfl, rfl⟩
    all_goals
      simp only [List.mem_cons, List.not_mem_nil, or_false, forall_eq_or_imp, forall_eq] at hd
      simp [symbolToken?, symbols, reservedSymbols, List.isPrefixOf, hd]
      rfl

/-- A digit is one of ten characters. -/
theorem mem_of_isDigit {d : Char} (hd : d.isDigit = true) :
    d ∈ ['0', '1', '2', '3', '4', '5', '6', '7', '8', '9'] := by
  have hrange : 48 ≤ d.toNat ∧ d.toNat ≤ 57 := by
    simpa [Char.isDigit, UInt32.le_iff_toNat_le] using hd
  obtain ⟨hlow, hhigh⟩ := hrange
  rw [← Char.ofNat_toNat d]
  interval_cases d.toNat <;> decide

/-- The scanner takes a character that is a mark. -/
theorem scanToken_symbol {c : Char} {others : List Char} (hc : (c, others) ∈ singleMarks)
    {limit : ℕ} {rest : List Char} (hrest : ∀ d ∈ rest.head?, d ∉ others) (signed : Bool)
    (pos : Position) :
    scanToken limit ⟨signed, [], false⟩ ⟨c :: rest, pos⟩ =
      ⟨⟨.mark (String.singleton c), pos.advance⟩, ⟨signed, [], false⟩, ⟨rest, pos.advance⟩⟩ := by
  have hstep : scanToken limit ⟨signed, [], false⟩ ⟨c :: rest, pos⟩ =
      scanToken.symbol ⟨signed, [], false⟩ ⟨c :: rest, pos⟩ pos.advance c := by
    fin_cases hc
    iterate 6 rfl
    cases rest with
    | nil => rfl
    | cons d rest =>
      have hd : d.isDigit = false := by
        by_contra h
        have hmem := mem_of_isDigit (by simpa using h)
        exact hrest d rfl (List.mem_append_right ['=', '-', '>'] hmem)
      show (if d.isDigit && signed then _ else _) = _
      rw [hd]
      rfl
  rw [hstep, scanToken.symbol, symbolToken?_alone hc hrest]
  fin_cases hc <;> rfl

/-- A mark is scanned unless what follows makes another mark of it. -/
theorem scanToken_mark {s : String} (hs : (mark s).isValid = true) (limit : ℕ) {rest : List Char}
    (hrest : ∀ c ∈ rest.head?, (mark s).endsBefore c = true) (signed : Bool) (pos : Position) :
    scanToken limit ⟨signed, [], false⟩ ⟨s.toList ++ rest, pos⟩ =
      ⟨⟨.mark s, pos.advance⟩, ⟨signed, [], false⟩, ⟨rest, (mark s).past pos⟩⟩ := by
  have hlisted : ∃ p ∈ pieceMarks, p.1 = s := by simpa [isValid] using hs
  obtain ⟨p, hp, rfl⟩ := hlisted
  have hnext : ∀ c ∈ rest.head?, c ∉ p.2 := fun c hc hmem => by
    have h := List.all_eq_true.mp (hrest c hc) p hp
    simp [hmem] at h
  simp only [pieceMarks, List.mem_cons, List.not_mem_nil, or_false] at hp
  rcases hp with rfl | rfl | rfl | rfl | rfl | rfl | rfl | rfl | rfl | rfl | rfl | rfl | rfl | rfl |
    rfl | rfl
  · exact scanToken_symbol (c := '(') (by simp [singleMarks]) hnext signed pos
  iterate 9 rfl
  · exact scanToken_symbol (c := '.') (by simp [singleMarks]) hnext signed pos
  · exact scanToken_symbol (c := '=') (by simp [singleMarks]) hnext signed pos
  · exact scanToken_symbol (c := '|') (by simp [singleMarks]) hnext signed pos
  · exact scanToken_symbol (c := '+') (by simp [singleMarks]) hnext signed pos
  · exact scanToken_symbol (c := '*') (by simp [singleMarks]) hnext signed pos
  · exact scanToken_symbol (c := '-') (by simp [singleMarks]) hnext signed pos

/-- Every token is that of a piece, no fault and not the end. -/
theorem token?_ne_end {p : Piece} (hp : p.isValid = true) {t : Token} (ht : p.token? = some t) :
    t ≠ .eof ∧ ∀ problem, t ≠ .fault problem := by
  cases p with
  | blank c => cases ht
  | word w =>
    cases ht
    rcases wordToken_cases hp with h | h | h
    · simp [h]
    · simp [h]
    · simp [h]
  | mark s =>
    cases ht
    exact ⟨Token.noConfusion, fun _ => Token.noConfusion⟩
  | quoted s =>
    cases ht
    exact ⟨Token.noConfusion, fun _ => Token.noConfusion⟩
  | number n =>
    cases ht
    exact ⟨Token.noConfusion, fun _ => Token.noConfusion⟩

/-- No piece is empty. -/
theorem chars_ne_nil {p : Piece} (hp : p.isValid = true) : p.chars ≠ [] := by
  cases p with
  | blank c => simp [chars]
  | word w =>
    obtain ⟨c, cs, hchars, -⟩ := isWord_chars hp
    simp [chars, hchars]
  | mark s =>
    have hlisted : ∃ p ∈ pieceMarks, p.1 = s := by simpa [isValid] using hp
    obtain ⟨p, hmark, rfl⟩ := hlisted
    fin_cases hmark <;> simp [chars]
  | quoted s => simp [chars]
  | number n => exact Nat.toDigits_ne_nil

/-- A piece with a token is scanned as this token. -/
theorem scanToken_piece {p : Piece} (hp : p.isValid = true) {t : Token} (ht : p.token? = some t)
    {rest : List Char} (hrest : rest.head?.all p.endsBefore = true) (signed : Bool)
    (pos : Position) :
    scanToken 0 ⟨signed, [], false⟩ ⟨p.chars ++ rest, pos⟩ =
      ⟨⟨t, pos.advance⟩, ⟨signed, [], false⟩, ⟨rest, p.past pos⟩⟩ := by
  have hnext : ∀ c ∈ rest.head?, p.endsBefore c = true := fun c hc => by
    rw [Option.mem_def.mp hc] at hrest
    exact hrest
  cases p with
  | blank c => cases ht
  | word w =>
    cases ht
    exact scanToken_word hp 0 (fun c hc => by simpa [endsBefore] using hnext c hc) signed pos
  | mark s =>
    cases ht
    exact scanToken_mark hp 0 hnext signed pos
  | quoted s =>
    cases ht
    rw [chars, List.cons_append, List.append_assoc, List.singleton_append]
    exact scanToken_quoted hp (fun hquote => by simpa [endsBefore] using hnext _ hquote) signed pos
  | number n =>
    cases ht
    exact scanToken_number (of_decide_eq_true hp) 0 hnext signed pos

end Piece

/-- Whether each piece ends where the next one begins, the last one in front of a character. -/
def areApart : List Piece → Option Char → Bool
  | [], _ => true
  | p :: ps, next => ((ps.flatMap Piece.chars).head?.or next).all p.endsBefore && areApart ps next

/-- Pieces are apart if both parts of them are. -/
theorem areApart_append (ps qs : List Piece) (next : Option Char) :
    areApart (ps ++ qs) next =
      (areApart ps ((qs.flatMap Piece.chars).head?.or next) && areApart qs next) := by
  induction ps with
  | nil => simp [areApart]
  | cons p ps ih => simp [areApart, ih, List.head?_append, Option.or_assoc, Bool.and_assoc]

/-- A token that is no end is put in front of the tokens after it. -/
theorem tokensFrom_succ {limit fuel : ℕ} {state state' : ScanState} {cursor cursor' : Cursor}
    {t : Token} {pos : Position} (ht : t ≠ .eof ∧ ∀ problem, t ≠ .fault problem)
    (hscan : scanToken limit state cursor = ⟨⟨t, pos⟩, state', cursor'⟩) :
    tokensFrom limit (fuel + 1) state cursor =
      ⟨t, pos⟩ :: tokensFrom limit fuel { state' with signed := t.allowsSign } cursor' := by
  rw [tokensFrom, hscan]
  split
  · next h => exact absurd h ht.1
  · next problem h => exact absurd h (ht.2 problem)
  · rfl

/-- Whether a sign behind pieces belongs to a number. -/
def signedPast (signed : Bool) (ps : List Piece) : Bool :=
  (ps.filterMap Piece.token?).foldl (fun _ t => t.allowsSign) signed

/-- The position behind pieces. -/
def posPast (pos : Position) (ps : List Piece) : Position := ps.foldl (fun pos p => p.past pos) pos

/-- **Pieces are read back.** In front of any text that they are apart from, the scanner takes the
tokens of the pieces, and arrives at the text. -/
theorem tokensFrom_past {ps : List Piece} (hvalid : ps.all Piece.isValid = true) (signed : Bool)
    (pos : Position) :
    ∃ placed, placed.map Placed.token = ps.filterMap Piece.token? ∧
      ∀ (rest : List Char), areApart ps rest.head? = true → ∀ fuel,
        (ps.filterMap Piece.token?).length ≤ fuel →
        tokensFrom 0 fuel ⟨signed, [], false⟩ ⟨ps.flatMap Piece.chars ++ rest, pos⟩ =
          placed ++ tokensFrom 0 (fuel - placed.length) ⟨signedPast signed ps, [], false⟩
            ⟨rest, posPast pos ps⟩ := by
  induction ps generalizing signed pos with
  | nil => exact ⟨[], rfl, fun rest _ fuel _ => rfl⟩
  | cons p ps ih =>
    rw [List.all_cons, Bool.and_eq_true] at hvalid
    cases ht : p.token? with
    | none =>
      cases p with
      | blank c =>
        obtain ⟨placed, htokens, hfrom⟩ := ih hvalid.2 signed ((Piece.blank c).past pos)
        refine ⟨placed, by rwa [List.filterMap_cons_none ht], fun rest hapart fuel hfuel => ?_⟩
        rw [areApart, Bool.and_eq_true] at hapart
        rw [List.filterMap_cons_none ht] at hfuel
        rw [signedPast, List.filterMap_cons_none ht]
        refine Eq.trans ?_ (hfrom rest hapart.2 fuel hfuel)
        have hblank := Piece.scanToken_blank hvalid.1 0 (ps.flatMap Piece.chars ++ rest) signed pos
        cases fuel with
        | zero => rfl
        | succ fuel =>
          rw [tokensFrom, tokensFrom, ← hblank]
          rfl
      | word w => cases ht
      | mark s => cases ht
      | quoted s => cases ht
      | number n => cases ht
    | some t =>
      obtain ⟨placed, htokens, hfrom⟩ := ih hvalid.2 t.allowsSign (p.past pos)
      refine ⟨⟨t, pos.advance⟩ :: placed,
        by rw [List.filterMap_cons_some ht, List.map_cons, htokens],
        fun rest hapart fuel hfuel => ?_⟩
      rw [areApart, Bool.and_eq_true] at hapart
      rw [List.filterMap_cons_some ht] at hfuel
      cases fuel with
      | zero => simp at hfuel
      | succ fuel =>
        have hrest : (ps.flatMap Piece.chars ++ rest).head?.all p.endsBefore = true := by
          rw [List.head?_append]
          exact hapart.1
        have hscan := Piece.scanToken_piece hvalid.1 ht hrest signed pos
        rw [List.flatMap_cons, List.append_assoc,
          tokensFrom_succ (Piece.token?_ne_end hvalid.1 ht) hscan,
          hfrom rest hapart.2 fuel (Nat.le_of_succ_le_succ hfuel), signedPast, signedPast,
          List.filterMap_cons_some ht]
        simp [posPast]

/-- Pieces are read back, wherever the scanner arrives behind them. -/
theorem tokensFrom_pieces {ps : List Piece} (hvalid : ps.all Piece.isValid = true) (signed : Bool)
    (pos : Position) :
    ∃ placed signed' pos', placed.map Placed.token = ps.filterMap Piece.token? ∧
      ∀ (rest : List Char), areApart ps rest.head? = true → ∀ fuel,
        (ps.filterMap Piece.token?).length ≤ fuel →
        tokensFrom 0 fuel ⟨signed, [], false⟩ ⟨ps.flatMap Piece.chars ++ rest, pos⟩ =
          placed ++ tokensFrom 0 (fuel - placed.length) ⟨signed', [], false⟩ ⟨rest, pos'⟩ := by
  obtain ⟨placed, hplaced, hfrom⟩ := tokensFrom_past hvalid signed pos
  exact ⟨placed, _, _, hplaced, hfrom⟩

/-- Pieces have at least as many characters as tokens. -/
theorem length_tokens_le {ps : List Piece} (hvalid : ps.all Piece.isValid = true) :
    (ps.filterMap Piece.token?).length ≤ (ps.flatMap Piece.chars).length := by
  induction ps with
  | nil => exact Nat.le_refl 0
  | cons p ps ih =>
    rw [List.all_cons, Bool.and_eq_true] at hvalid
    have hpos : 0 < p.chars.length := List.length_pos_iff.mpr (Piece.chars_ne_nil hvalid.1)
    have hrest := ih hvalid.2
    rw [List.flatMap_cons, List.length_append]
    cases ht : p.token? with
    | none =>
      rw [List.filterMap_cons_none ht]
      omega
    | some t =>
      rw [List.filterMap_cons_some ht, List.length_cons]
      omega

/-- A text that begins with pieces begins with their tokens; behind them it is scanned on. -/
theorem tokens_past {ps : List Piece} (hvalid : ps.all Piece.isValid = true) :
    ∃ placed spare, placed.map Placed.token = ps.filterMap Piece.token? ∧
      ∀ (rest : List Char), areApart ps rest.head? = true → ∀ (text : String),
        text.toList = ps.flatMap Piece.chars ++ rest →
          tokens 0 text = placed ++ tokensFrom 0 (spare + 2 * rest.length + 1)
            ⟨signedPast true ps, [], false⟩ ⟨rest, posPast .start ps⟩ := by
  have hlength := length_tokens_le hvalid
  obtain ⟨placed, hplaced, hfrom⟩ := tokensFrom_past hvalid true .start
  have hcount : placed.length = (ps.filterMap Piece.token?).length := by
    rw [← hplaced, List.length_map]
  refine ⟨placed, 2 * (ps.flatMap Piece.chars).length + 1 - placed.length, hplaced,
    fun rest hapart text htext => ?_⟩
  have hchars : text.toList.length = (ps.flatMap Piece.chars).length + rest.length := by
    rw [htext, List.length_append]
  have htokens := hfrom rest hapart (2 * text.toList.length + 2) (by omega)
  rw [← htext] at htokens
  refine htokens.trans (congrArg (fun fuel => placed ++ tokensFrom 0 fuel _ _) ?_)
  omega

/-- A text that begins with pieces begins with their tokens, wherever the scanner arrives behind
them. -/
theorem tokens_append {ps : List Piece} (hvalid : ps.all Piece.isValid = true) :
    ∃ placed signed pos spare, placed.map Placed.token = ps.filterMap Piece.token? ∧
      ∀ (rest : List Char), areApart ps rest.head? = true → ∀ (text : String),
        text.toList = ps.flatMap Piece.chars ++ rest →
          tokens 0 text = placed ++
            tokensFrom 0 (spare + 2 * rest.length + 1) ⟨signed, [], false⟩ ⟨rest, pos⟩ := by
  obtain ⟨placed, spare, hplaced, hscan⟩ := tokens_past hvalid
  exact ⟨placed, _, _, spare, hplaced, hscan⟩

/-- A text of pieces has their tokens and the end. -/
theorem tokens_pieces {ps : List Piece} (hvalid : ps.all Piece.isValid = true)
    (hapart : areApart ps none = true) (text : String)
    (htext : text.toList = ps.flatMap Piece.chars) :
    (tokens 0 text).map Placed.token = ps.filterMap Piece.token? ++ [.eof] := by
  have hchars : text.toList = ps.flatMap Piece.chars ++ [] := by rw [htext, List.append_nil]
  obtain ⟨placed, signed, pos, spare, hplaced, hscan⟩ := tokens_append hvalid
  rw [hscan [] (by exact hapart) text hchars, List.map_append, hplaced]
  rfl

end ScriptHost.Script
