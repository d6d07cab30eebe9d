import Mathlib
import ScriptHost.Script.Lexer

/-!
# Scanning words, numbers and quoted texts

What the scanner makes of the characters of a word, of a run of digits and of a text in double
quotes, whatever follows them.
-/

namespace ScriptHost.Script

/-! ## Words -/

/-- A word that is a token: an identifier, or one of the words of the language. -/
def isWord (w : String) : Bool :=
  keywords.contains w || callableWords.contains w || reservedWords.contains w || isIdentifier w

/-- The first character of a word may also stand later in it. -/
theorem isWordPart_of_isWordStart {c : Char} (hc : isWordStart c = true) : isWordPart c = true := by
  simp only [isWordStart, isWordPart, Char.isAlphanum, Bool.or_eq_true] at hc ⊢
  rcases hc with halpha | hline
  · exact .inl (.inl halpha)
  · exact .inr hline

/-- The characters of an identifier. -/
theorem isIdentifier_chars {w : String} (hw : isIdentifier w = true) :
    ∃ c cs, w.toList = c :: cs ∧ isWordStart c = true ∧ cs.all isWordPart = true := by
  rw [isIdentifier] at hw
  have hsplit := List.takeWhile_append_dropWhile (p := (· == '_')) (l := w.toList)
  cases hrest : w.toList.dropWhile (· == '_') with
  | nil => simp [hrest] at hw
  | cons c rest =>
    simp only [hrest, Bool.and_eq_true] at hw
    have hc : isWordStart c = true := by simp [isWordStart, hw.1]
    have hline : ∀ d ∈ w.toList.takeWhile (· == '_'), d = '_' := fun d hd => by
      simpa using List.mem_takeWhile_imp hd
    rw [hrest] at hsplit
    cases hlines : w.toList.takeWhile (· == '_') with
    | nil =>
      rw [hlines] at hsplit
      exact ⟨c, rest, hsplit.symm, hc, hw.2⟩
    | cons d lines =>
      rw [hlines] at hsplit hline
      refine ⟨d, lines ++ c :: rest, hsplit.symm, ?_, ?_⟩
      · rw [hline d List.mem_cons_self]
        rfl
      · rw [List.all_append, List.all_cons, isWordPart_of_isWordStart hc, hw.2]
        have hall : lines.all isWordPart = true := List.all_eq_true.mpr fun e he => by
          rw [hline e (List.mem_cons_of_mem d he)]
          rfl
        simp [hall]

/-- The characters of a word. -/
theorem isWord_chars {w : String} (hw : isWord w = true) :
    ∃ c cs, w.toList = c :: cs ∧ isWordStart c = true ∧ cs.all isWordPart = true := by
  simp only [isWord, Bool.or_eq_true, List.contains_iff_mem] at hw
  have hlisted : ∀ v ∈ keywords ++ callableWords ++ reservedWords, ∃ c cs, v.toList = c :: cs ∧
      isWordStart c = true ∧ cs.all isWordPart = true := by
    have hcheck : (keywords ++ callableWords ++ reservedWords).all (fun v =>
        v.toList.head?.any isWordStart && v.toList.tail.all isWordPart) = true := by rfl
    intro v hv
    have hthis := List.all_eq_true.mp hcheck v hv
    cases hchars : v.toList with
    | nil => simp [hchars] at hthis
    | cons c cs =>
      rw [hchars, List.head?_cons, Option.any_some, List.tail_cons] at hthis
      exact ⟨c, cs, rfl, Bool.and_eq_true_iff.mp hthis⟩
  rcases hw with ((hkey | hcall) | hres) | hident
  · exact hlisted w (by simp [hkey])
  · exact hlisted w (by simp [hcall])
  · exact hlisted w (by simp [hres])
  · exact isIdentifier_chars hident

/-- A word is a mark, a reserved word or a name. -/
theorem wordToken_cases {w : String} (hw : isWord w = true) :
    wordToken w = .mark w ∨ wordToken w = .reserved w ∨ wordToken w = .name w := by
  rw [wordToken]
  split
  · exact .inl rfl
  · split
    · exact .inr (.inl rfl)
    · next hkey hreserved =>
      simp only [Bool.or_eq_true, not_or] at hkey hreserved
      simp only [isWord, Bool.or_eq_true] at hw
      have hident : isIdentifier w = true := by
        rcases hw with ((h | h) | h) | h
        · exact absurd h hkey.2
        · exact absurd h hreserved.1
        · exact absurd h hreserved.2
        · exact h
      rw [if_pos hident]
      exact .inr (.inr rfl)

/-- An identifier that is no reserved word is a name. -/
theorem wordToken_name {w : String} (hident : isIdentifier w = true)
    (hfree : isReserved w = false) : wordToken w = .name w := by
  simp only [isReserved, Bool.or_eq_false_iff] at hfree
  have hline : (w == "_") = false := by
    refine beq_eq_false_iff_ne.mpr ?_
    rintro rfl
    cases hident
  simp only [wordToken, hline, hfree.1.1.1, hfree.1.1.2, hfree.1.2, hident, Bool.or_false,
    Bool.false_eq_true, if_false, if_true]

/-- No part of a word is a blank. -/
theorem isBlank_of_isWordPart {c : Char} (hc : isWordPart c = true) : Text.isBlank c = false := by
  have hrange : 48 ≤ c.toNat ∧ c.toNat ≤ 122 := by
    simp only [isWordPart, Char.isAlphanum, Char.isAlpha, Char.isUpper, Char.isLower, Char.isDigit,
      Bool.or_eq_true, Bool.and_eq_true, decide_eq_true_eq, beq_iff_eq] at hc
    rcases hc with ((hc | hc) | hc) | rfl
    · rw [ge_iff_le, UInt32.le_iff_toNat_le, UInt32.le_iff_toNat_le] at hc
      exact ⟨Nat.le_trans (by decide) hc.1, Nat.le_trans hc.2 (by decide)⟩
    · rw [ge_iff_le, UInt32.le_iff_toNat_le, UInt32.le_iff_toNat_le] at hc
      exact ⟨Nat.le_trans (by decide) hc.1, Nat.le_trans hc.2 (by decide)⟩
    · rw [ge_iff_le, UInt32.le_iff_toNat_le, UInt32.le_iff_toNat_le] at hc
      exact ⟨Nat.le_trans (by decide) hc.1, Nat.le_trans hc.2 (by decide)⟩
    · decide
  simp only [Text.isBlank, Bool.or_eq_false_iff, Bool.and_eq_false_iff, decide_eq_false_iff_not,
    beq_eq_false_iff_ne]
  omega

/-! ## Numbers and quoted texts -/

/-- Whether a number may end in front of a character. -/
def endsNumber (c : Char) : Bool := !isWordPart c && c != '.'

/-- A digit is part of a word. -/
theorem isWordPart_of_isDigit {c : Char} (hc : c.isDigit = true) : isWordPart c = true := by
  simp [isWordPart, Char.isAlphanum, hc]

/-- A run of digits is taken whole. -/
theorem scanNumber_digits {digits : List Char} (hdigit : ∀ c ∈ digits, c.isDigit = true)
    {rest : List Char} (hrest : ∀ c ∈ rest.head?, endsNumber c = true) (fuel : ℕ)
    (hfuel : digits.length ≤ fuel) (taken : List Char) (pos : Position) :
    scanNumber fuel {} ⟨taken, ⟨digits ++ rest, pos⟩⟩ =
      ({}, ⟨digits.reverse ++ taken,
        ⟨rest, { pos with column := pos.column + digits.length }⟩⟩) := by
  induction digits generalizing fuel taken pos with
  | nil =>
    cases fuel with
    | zero => rfl
    | succ fuel =>
      cases rest with
      | nil => rfl
      | cons c rest =>
        have hend := hrest c rfl
        simp only [endsNumber, Bool.and_eq_true, Bool.not_eq_true', bne_iff_ne] at hend
        obtain ⟨hpart, hpoint⟩ := hend
        have hne : ∀ d, isWordPart d = true → c ≠ d := fun d hd heq => by
          rw [heq, hd] at hpart
          cases hpart
        have hdigit : c.isDigit = false := by
          by_contra h
          rw [isWordPart_of_isDigit (Bool.eq_true_of_not_eq_false h)] at hpart
          cases hpart
        simp [scanNumber, NumberShape.takes, hdigit, hpoint, hne '_' rfl, hne 'e' rfl, hne 'x' rfl,
          hne 'X' rfl, hne 'o' rfl, hne 'O' rfl, hne 'b' rfl, hne 'B' rfl]
  | cons c digits ih =>
    have hc : c.isDigit = true := hdigit c List.mem_cons_self
    have hline : c ≠ '_' := by
      rintro rfl
      cases hc
    cases fuel with
    | zero => simp at hfuel
    | succ fuel =>
      have hscan := ih (fun d hd => hdigit d (List.mem_cons_of_mem c hd)) fuel
        (Nat.le_of_succ_le_succ hfuel) (c :: taken) { pos with column := pos.column + 1 }
      have hcolumn : pos.column + 1 + digits.length = pos.column + (digits.length + 1) := by omega
      simp only [hcolumn] at hscan
      simpa [scanNumber, NumberShape.takes, Cursor.skip, hc, hline] using hscan

/-- The value of digits. -/
theorem digitsValue_eq (digits : List Char) :
    digitsValue digits = Nat.ofDigitChars 10 digits 0 := by
  simp only [digitsValue, Nat.ofDigitChars, Nat.mul_comm]

/-- The digits of a number are read as the number. -/
theorem numberToken_digits {n : ℕ} (hn : n < 2 ^ 63) :
    numberToken false {} (Nat.toDigits 10 n).reverse = .int n := by
  have hne : Nat.toDigits 10 n ≠ [] := Nat.toDigits_ne_nil
  have hdigit : ∀ c ∈ Nat.toDigits 10 n, c.isDigit = true := fun c hc =>
    Nat.isDigit_of_mem_toDigits (by decide) (by decide) hc
  have hvalue : digitsValue (Nat.toDigits 10 n) = n := by
    rw [digitsValue_eq, Nat.ofDigitChars_ten_toDigits]
  have hint : intOfText? (Nat.toDigits 10 n) = some (n : ℤ) := by
    cases hdigits : Nat.toDigits 10 n with
    | nil => exact absurd hdigits hne
    | cons c cs =>
      rw [hdigits] at hdigit hvalue
      have hc := hdigit c List.mem_cons_self
      have hminus : c ≠ '-' := by
        rintro rfl
        cases hc
      have hplus : c ≠ '+' := by
        rintro rfl
        cases hc
      have hcs : ∀ d ∈ cs, d.isDigit = true := fun d hd => hdigit d (List.mem_cons_of_mem c hd)
      rw [intOfText?]
      · rw [hvalue]
        simpa [hc] using ⟨hcs, hn⟩
      · exact fun r h => hminus (List.cons.inj h).1
      · exact fun r h => hplus (List.cons.inj h).1
  simp [numberToken, hint]

/-- Whether a character stands for itself in a quoted text. -/
def isPlain (c : Char) : Bool := c != '"' && c != '\\' && c != '\n'

/-- Plain characters up to a closing quote are the text. -/
theorem scanText_plain (start : Position) {cs : List Char} (hplain : cs.all isPlain = true)
    {rest : List Char} (hrest : rest.head? ≠ some '"') (fuel : ℕ) (hfuel : cs.length < fuel)
    (acc : List Char) (size : ℕ) (first : Position) (pos : Position) :
    ∃ first', scanText doubleQuoted 0 start fuel acc size false first 0
        ⟨cs ++ '"' :: rest, pos⟩ =
      .ok ⟨String.ofList (acc.reverse ++ cs), false, first', false,
        ⟨rest, { pos with column := pos.column + (cs.length + 1) }⟩⟩ := by
  induction cs generalizing fuel acc size first pos with
  | nil =>
    obtain ⟨fuel, rfl⟩ := Nat.exists_eq_add_of_lt hfuel
    refine ⟨first, ?_⟩
    simp [scanText, doubleQuoted, Cursor.next?, Cursor.peek?, withinLimit, hrest, Position.advance]
  | cons c cs ih =>
    rw [List.all_cons, Bool.and_eq_true] at hplain
    obtain ⟨hc, hcs⟩ := hplain
    simp only [isPlain, Bool.and_eq_true, bne_iff_ne] at hc
    obtain ⟨⟨hquote, hslash⟩, hline⟩ := hc
    cases fuel with
    | zero => simp at hfuel
    | succ fuel =>
      obtain ⟨first', hscan⟩ := ih hcs fuel (Nat.lt_of_succ_lt_succ hfuel) (c :: acc)
        (size + c.utf8Size) (first.orElse pos.advance) pos.advance
      refine ⟨first', ?_⟩
      have hreturn : cs.head?.getD '"' ≠ '\n' := by
        cases cs with
        | nil => decide
        | cons d cs =>
          simp only [List.all_cons, isPlain, Bool.and_eq_true, bne_iff_ne] at hcs
          simpa using hcs.1.2
      have hcolumn : (Position.advance pos).column + (cs.length + 1) =
          pos.column + ((c :: cs).length + 1) := by
        simp only [Position.advance, List.length_cons]
        omega
      simp only [doubleQuoted, hcolumn] at hscan
      simpa [scanText, doubleQuoted, Cursor.next?, Cursor.peek?, withinLimit, hquote, hslash, hline,
        hreturn, Position.advance] using hscan

end ScriptHost.Script
