import Mathlib
import ScriptHost.Number.Decimal

/-!
# Reading the texts of decimal numbers

The text of a decimal number reads back with the same digits and the same scale. Only a zero loses
its sign.
-/

namespace ScriptHost.Decimal

/-- Further digits make a number no smaller. -/
theorem le_ofDigitChars (digits : List Char) (start : ℕ) :
    start ≤ Nat.ofDigitChars 10 digits start := by
  rw [Nat.ofDigitChars_eq_ofDigitChars_zero]
  have hpos : 0 < 10 ^ digits.length := Nat.pow_pos (by decide)
  exact Nat.le_add_right_of_le (Nat.le_mul_of_pos_left start hpos)

/-- Digits that fit are taken into the mantissa, and behind the point they count as places. -/
theorem readDigits_append (negative point seen : Bool) {digits : List Char} (rest : List Char)
    (hdigit : ∀ c ∈ digits, c.isDigit = true) {mantissa : ℕ} (scale : ℕ)
    (hbound : Nat.ofDigitChars 10 digits mantissa < decimalBound)
    (hscale : point = true → scale + digits.length ≤ maxDecimalScale) :
    readDigits negative (digits ++ rest) point seen mantissa scale =
      readDigits negative rest point (seen || !digits.isEmpty)
        (Nat.ofDigitChars 10 digits mantissa)
        (if point then scale + digits.length else scale) := by
  induction digits generalizing seen mantissa scale with
  | nil => simp
  | cons c digits ih =>
    have hc : c.isDigit = true := hdigit c List.mem_cons_self
    have hnext : mantissa * 10 + (c.toNat - '0'.toNat) < decimalBound := by
      refine Nat.lt_of_le_of_lt ?_ hbound
      rw [Nat.ofDigitChars_cons, Nat.mul_comm mantissa]
      exact le_ofDigitChars digits _
    have hroom : (seen && point && scale == maxDecimalScale) = false := by
      cases hpoint : point with
      | false => simp
      | true =>
        have hlength := hscale hpoint
        rw [List.length_cons] at hlength
        have hne : scale ≠ maxDecimalScale := by omega
        simp [hne]
    rw [List.cons_append, readDigits]
    simp only [hroom, hc, hnext, if_true, Bool.false_eq_true, if_false]
    rw [Nat.ofDigitChars_cons, Nat.mul_comm 10 mantissa] at hbound ⊢
    rw [ih _ (fun d hd => hdigit d (List.mem_cons_of_mem c hd)) _ hbound]
    · cases point <;> simp [Nat.add_comm, Nat.add_left_comm]
    · intro hpoint
      have hlength := hscale hpoint
      rw [List.length_cons] at hlength
      simp only [hpoint, if_true]
      omega

/-- Reading ends with the number when it is in range. -/
theorem readDigits_nil (d : Decimal) (point : Bool) :
    readDigits d.negative [] point true d.mantissa d.scale = .ok d.unsignZero := by
  have hmake : make? d.negative d.mantissa d.scale = some d := by
    rw [make?, dif_pos ⟨d.mantissa_lt, d.scale_le⟩]
  simp [readDigits, finish, hmake]

/-- The digits of a decimal number with the zeros before them: at least one more than its places,
and all of them spell the mantissa. -/
theorem text_parts (d : Decimal) :
    ∃ whole places : List Char,
      d.text = String.ofList ((if d.negative then ['-'] else []) ++ whole ++
        (if d.scale == 0 then [] else ['.']) ++ places) ∧
      whole ≠ [] ∧ places.length = d.scale ∧ (∀ c ∈ whole ++ places, c.isDigit = true) ∧
      Nat.ofDigitChars 10 (whole ++ places) 0 = d.mantissa := by
  have hpos : 0 < (Nat.toDigits 10 d.mantissa).length := Nat.length_toDigits_pos
  set padded := List.replicate (d.scale + 1 - (Nat.toDigits 10 d.mantissa).length) '0' ++
    Nat.toDigits 10 d.mantissa with hpadded
  have hlength : d.scale < padded.length := by
    rw [hpadded, List.length_append, List.length_replicate]
    omega
  refine ⟨padded.take (padded.length - d.scale), padded.drop (padded.length - d.scale), rfl,
    ?_, ?_, ?_, ?_⟩
  · rw [← List.length_pos_iff, List.length_take]
    omega
  · rw [List.length_drop]
    omega
  · rw [List.take_append_drop]
    intro c hc
    rw [hpadded] at hc
    rcases List.mem_append.mp hc with hc | hc
    · rw [(List.mem_replicate.mp hc).2]
      rfl
    · exact Nat.isDigit_of_mem_toDigits (by decide) (by decide) hc
  · rw [List.take_append_drop, hpadded, Nat.ofDigitChars_append, Nat.ofDigitChars_replicate_zero,
      Nat.mul_zero, Nat.ofDigitChars_ten_toDigits]

/-- The digits and the point of a decimal number read back as the number. -/
theorem readDigits_text {d : Decimal} {whole places : List Char} (hne : whole ≠ [])
    (hplaces : places.length = d.scale) (hdigit : ∀ c ∈ whole ++ places, c.isDigit = true)
    (hvalue : Nat.ofDigitChars 10 (whole ++ places) 0 = d.mantissa) :
    readDigits d.negative (whole ++ (if d.scale == 0 then [] else ['.']) ++ places) false false
      0 0 = .ok d.unsignZero := by
  have hwhole : ∀ c ∈ whole, c.isDigit = true := fun c hc => hdigit c (List.mem_append_left _ hc)
  have hrest : ∀ c ∈ places, c.isDigit = true := fun c hc => hdigit c (List.mem_append_right _ hc)
  rw [Nat.ofDigitChars_append] at hvalue
  have hbound : Nat.ofDigitChars 10 places (Nat.ofDigitChars 10 whole 0) < decimalBound :=
    hvalue ▸ d.mantissa_lt
  have hfits : Nat.ofDigitChars 10 whole 0 < decimalBound :=
    Nat.lt_of_le_of_lt (le_ofDigitChars places _) hbound
  rw [List.append_assoc, readDigits_append _ _ _ _ hwhole _ hfits (by simp)]
  have hseen : (false || !whole.isEmpty) = true := by simp [hne]
  rw [hseen, if_neg Bool.false_ne_true]
  by_cases hzero : d.scale = 0
  · have hnil : places = [] := List.length_eq_zero_iff.mp (hplaces.trans hzero)
    rw [hnil, Nat.ofDigitChars_nil] at hvalue
    have hend := d.readDigits_nil false
    rw [hzero] at hend
    simpa [hzero, hnil, hvalue] using hend
  · have hpoint : ∀ m, readDigits d.negative ('.' :: places) false true m 0 =
        readDigits d.negative places true true m 0 := by
      intro m
      rw [readDigits]
      rfl
    have hread := readDigits_append d.negative true true [] hrest 0 hbound
      (fun _ => by rw [hplaces, Nat.zero_add]; exact d.scale_le)
    rw [List.append_nil, Bool.true_or, if_pos rfl, Nat.zero_add, hplaces, hvalue,
      d.readDigits_nil true] at hread
    simpa [hzero, hpoint] using hread

/-- **A decimal number is read back from its text**, though a zero loses its sign. -/
theorem ofText_text (d : Decimal) : ofText d.text = .ok d.unsignZero := by
  obtain ⟨whole, places, htext, hne, hplaces, hdigit, hvalue⟩ := d.text_parts
  have hread := readDigits_text hne hplaces hdigit hvalue
  obtain ⟨c, cs, rfl⟩ := List.exists_cons_of_ne_nil hne
  have hc : c.isDigit = true := hdigit c (by simp)
  have hminus : c ≠ '-' := by rintro rfl; cases hc
  have hplus : c ≠ '+' := by rintro rfl; cases hc
  rw [ofText, htext, String.toList_ofList]
  cases hneg : d.negative with
  | false =>
    rw [hneg] at hread
    simpa [hminus, hplus] using hread
  | true =>
    rw [hneg] at hread
    simpa using hread

end ScriptHost.Decimal
