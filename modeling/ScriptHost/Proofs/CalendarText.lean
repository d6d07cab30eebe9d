import Mathlib
import ScriptHost.Calendar.Reading

/-!
# Reading the texts of days and times

The text of a day, of a time of the day and of a time of a day reads back as what it was written
for, over the whole calendar and for leap seconds too.
-/

namespace ScriptHost

/-! ## Padded numbers -/

/-- The characters of a padded number. -/
theorem toList_paddedDigits (width n : ℕ) :
    (paddedDigits width n).toList =
      List.replicate (width - (Nat.toDigits 10 n).length) '0' ++ Nat.toDigits 10 n := by
  rw [paddedDigits, String.toList_ofList]

/-- A padded number consists of digits. -/
theorem isDigit_paddedDigits {width n : ℕ} {c : Char} (hc : c ∈ (paddedDigits width n).toList) :
    c.isDigit = true := by
  rw [toList_paddedDigits] at hc
  rcases List.mem_append.mp hc with hc | hc
  · rw [(List.mem_replicate.mp hc).2]
    rfl
  · exact Nat.isDigit_of_mem_toDigits (by decide) (by decide) hc

/-- A padded number has a digit. -/
theorem paddedDigits_ne_nil (width n : ℕ) : (paddedDigits width n).toList ≠ [] := by
  rw [toList_paddedDigits]
  exact List.append_ne_nil_of_right_ne_nil _ Nat.toDigits_ne_nil

/-- A number that fits the width is padded to it. -/
theorem length_paddedDigits {width n : ℕ} (hpos : 0 < width) (hn : n < 10 ^ width) :
    (paddedDigits width n).toList.length = width := by
  have hle := (Nat.length_toDigits_le_iff (by decide) hpos).mpr hn
  rw [toList_paddedDigits, List.length_append, List.length_replicate]
  omega

/-- A padded number spells the number. -/
theorem ofDigitChars_paddedDigits (width n : ℕ) :
    Nat.ofDigitChars 10 (paddedDigits width n).toList 0 = n := by
  rw [toList_paddedDigits, Nat.ofDigitChars_append, Nat.ofDigitChars_replicate_zero, Nat.mul_zero,
    Nat.ofDigitChars_ten_toDigits]

namespace Calendar

/-! ## The parts of a text -/

/-- No digit is a blank. -/
theorem isBlank_of_isDigit {c : Char} (hc : c.isDigit = true) : Text.isBlank c = false := by
  have hrange : 48 ≤ c.toNat ∧ c.toNat ≤ 57 := by
    simpa [Char.isDigit, UInt32.le_iff_toNat_le] using hc
  simp [Text.isBlank]
  omega

/-- There is no blank to drop before a number. -/
theorem dropBlanks_paddedDigits (width n : ℕ) (rest : List Char) :
    dropBlanks ((paddedDigits width n).toList ++ rest) =
      (paddedDigits width n).toList ++ rest := by
  obtain ⟨c, cs, hcs⟩ := List.exists_cons_of_ne_nil (paddedDigits_ne_nil width n)
  have hdigit : c.isDigit = true := isDigit_paddedDigits (by rw [hcs]; exact List.mem_cons_self)
  rw [hcs, List.cons_append, dropBlanks,
    List.dropWhile_cons_of_neg (by simp [isBlank_of_isDigit hdigit])]

/-- A number is read up to its width, or up to the first character that is no digit. -/
theorem number_digits (width : ℕ) (rest : List Char) {digits : List Char} (hne : digits ≠ [])
    (hdigit : ∀ c ∈ digits, c.isDigit = true) (hwidth : digits.length ≤ width)
    (hend : digits.length = width ∨ rest.takeWhile Char.isDigit = [])
    (hbound : Nat.ofDigitChars 10 digits 0 < 2 ^ 63) :
    number width (digits ++ rest) = .ok (Nat.ofDigitChars 10 digits 0, rest) := by
  have htaken : ((digits ++ rest).take width).takeWhile Char.isDigit = digits := by
    rw [List.take_append, List.take_of_length_le hwidth, List.takeWhile_append_of_pos hdigit]
    rcases hend with hend | hend
    · simp [hend]
    · cases rest with
      | nil => simp
      | cons c rest =>
        have hc : c.isDigit = false := by
          cases h : c.isDigit with
          | false => rfl
          | true => simp [h] at hend
        cases width - digits.length <;> simp [hc]
  have hvalue : digits.foldl (fun n c => n * 10 + (c.toNat - '0'.toNat)) 0 =
      Nat.ofDigitChars 10 digits 0 := by
    simp only [Nat.ofDigitChars_eq_foldl, Nat.mul_comm]
  rw [number]
  · simp only [htaken, hvalue, List.isEmpty_iff, hne, if_false, Nat.not_le.mpr hbound,
      List.drop_left]
  · simp [hne]

/-- A padded number is read back up to its width, or up to the first character that is no digit. -/
theorem number_paddedDigits (limit : ℕ) (rest : List Char) {width n : ℕ} (hpos : 0 < width)
    (hn : n < 10 ^ width) (hsmall : n < 2 ^ 63) (hlimit : width ≤ limit)
    (hend : width = limit ∨ rest.takeWhile Char.isDigit = []) :
    number limit ((paddedDigits width n).toList ++ rest) = .ok (n, rest) := by
  have hlength := length_paddedDigits hpos hn
  have hread := number_digits limit rest (paddedDigits_ne_nil width n)
    (fun c => isDigit_paddedDigits) (by omega) (by rwa [hlength])
    (by rwa [ofDigitChars_paddedDigits])
  rwa [ofDigitChars_paddedDigits] at hread

/-- A number of two digits within its bounds is read back. -/
theorem field_paddedDigits (low high : ℕ) {n : ℕ} (rest : List Char) (hn : n < 100) (hlow : low ≤ n)
    (hhigh : n ≤ high) : field low high ((paddedDigits 2 n).toList ++ rest) = .ok (n, rest) := by
  have hread := number_paddedDigits 2 rest (by decide) hn (by omega)
    (Nat.le_refl 2) (.inl rfl)
  simp [field, dropBlanks_paddedDigits, hread, bind, Except.bind, hlow, hhigh]

/-- No character that ends a number is a digit or a blank. -/
theorem takeWhile_isDigit_mark {c : Char} (hc : c.isDigit = false) (rest : List Char) :
    (c :: rest).takeWhile Char.isDigit = [] := by
  rw [List.takeWhile_cons_of_neg (by simp [hc])]

/-- A year is read back from its digits, with a sign unless it has four of them. -/
theorem year_text {y : Int} (hlow : minYear ≤ y) (hhigh : y ≤ maxYear) (rest : List Char) :
    year ((if y < 0 then "-" ++ paddedDigits 4 y.natAbs
      else if y ≤ 9999 then paddedDigits 4 y.natAbs
      else "+" ++ paddedDigits 4 y.natAbs).toList ++ '-' :: rest) = .ok (y, '-' :: rest) := by
  have hrange : -2147483648 ≤ y ∧ y < 2147483648 := by
    rw [minYear] at hlow
    rw [maxYear] at hhigh
    omega
  have hstop : ('-' :: rest).takeWhile Char.isDigit = [] := takeWhile_isDigit_mark rfl rest
  have hdigits : ∀ n limit : ℕ, n < 2 ^ 63 → (paddedDigits 4 n).toList.length ≤ limit →
      number limit ((paddedDigits 4 n).toList ++ '-' :: rest) = .ok (n, '-' :: rest) := by
    intro n limit hn hlimit
    have hread := number_digits limit ('-' :: rest) (paddedDigits_ne_nil 4 n)
      (fun c => isDigit_paddedDigits) hlimit (.inr hstop) (by rwa [ofDigitChars_paddedDigits])
    rwa [ofDigitChars_paddedDigits] at hread
  rw [year]
  by_cases hneg : y < 0
  · obtain ⟨n, rfl⟩ := Int.exists_eq_neg_ofNat (Int.le_of_lt hneg)
    have hread := hdigits n ((paddedDigits 4 n).toList.length + (rest.length + 1)) (by omega)
      (by omega)
    have hpos : 0 < n := by omega
    simp [hpos, String.toList_append, dropBlanks, Text.isBlank, hread, Except.map, bind,
      Except.bind]
    omega
  obtain ⟨n, rfl⟩ := Int.eq_ofNat_of_zero_le (Int.not_lt.mp hneg)
  by_cases hfour : (n : Int) ≤ 9999
  · have hwidth : (paddedDigits 4 n).toList.length = 4 :=
      length_paddedDigits (by decide) (by omega)
    have hread := hdigits n 4 (by omega) (by omega)
    obtain ⟨c, cs, hcs⟩ := List.exists_cons_of_ne_nil (paddedDigits_ne_nil 4 n)
    have hdigit : c.isDigit = true :=
      isDigit_paddedDigits (by rw [hcs]; exact List.mem_cons_self)
    have hminus : c ≠ '-' := by rintro rfl; cases hdigit
    have hplus : c ≠ '+' := by rintro rfl; cases hdigit
    simp only [hneg, hfour, if_true, if_false, Int.natAbs_natCast, dropBlanks_paddedDigits]
    rw [hcs, List.cons_append] at hread ⊢
    simp [hminus, hplus, hread, Except.map, bind, Except.bind]
    omega
  · have hread := hdigits n ((paddedDigits 4 n).toList.length + (rest.length + 1)) (by omega)
      (by omega)
    simp only [hneg, hfour, if_false, Int.natAbs_natCast]
    simp [String.toList_append, dropBlanks, Text.isBlank, hread, Except.map, bind, Except.bind]
    omega

/-- The parts of a day are read back from its text. -/
theorem dateParts_text (d : Date) (rest : List Char) (hrest : dropBlanks rest = rest) :
    dateParts (d.text.toList ++ rest) = .ok ((d.year, d.month, d.day), rest) := by
  obtain ⟨hlow, hhigh, hmonth, hmonth', hday, hday'⟩ := d.isDay
  have hdays : daysInMonth d.year d.month ≤ 31 := by
    rw [daysInMonth]
    split
    · split <;> omega
    · split <;> omega
  have hyear := year_text hlow hhigh
    ((paddedDigits 2 d.month).toList ++ '-' :: ((paddedDigits 2 d.day).toList ++ rest))
  have hmonths := field_paddedDigits 1 12 ('-' :: ((paddedDigits 2 d.day).toList ++ rest))
    (by omega)
    hmonth hmonth'
  have hdays := field_paddedDigits 1 31 rest (by omega) hday (by omega)
  have hblank : ∀ cs, dropBlanks ('-' :: cs) = '-' :: cs := fun _ => rfl
  rw [Date.text]
  simp only [String.toList_append, List.append_assoc, dateParts]
  simp [hyear, hmonths, hdays, hblank, mark, bind, Except.bind, hrest]

/-- The parts of a time before its seconds are read back. -/
theorem hourMinute_text {hour minute : ℕ} (hhour : hour < 24) (hminute : minute < 60)
    (rest : List Char) :
    hourMinute ((paddedDigits 2 hour).toList ++ ':' :: ((paddedDigits 2 minute).toList ++ rest)) =
      .ok ((hour, minute), rest) := by
  have hhours := field_paddedDigits 0 23 (n := hour)
    (':' :: ((paddedDigits 2 minute).toList ++ rest)) (by omega) (by omega) (by omega)
  have hminutes := field_paddedDigits 0 59 (n := minute) rest (by omega) (by omega) (by omega)
  have hblank : ∀ cs, dropBlanks (':' :: cs) = ':' :: cs := fun _ => rfl
  simp [hourMinute, hhours, hminutes, hblank, mark, bind, Except.bind]

/-- A fraction of a second in a number of places. -/
theorem fraction_places (places n : ℕ) (hpos : 0 < places) (hle : places ≤ 9)
    (hn : n < 10 ^ places) :
    fraction ('.' :: (paddedDigits places n).toList) = .ok (n * 10 ^ (9 - places), []) := by
  have hpow : 10 ^ places ≤ 10 ^ 9 := Nat.pow_le_pow_right (by decide) hle
  have hread := number_paddedDigits 9 [] hpos hn (by omega) hle (.inr rfl)
  rw [List.append_nil] at hread
  simp [fraction, hread, length_paddedDigits hpos hn, bind, Except.bind]

/-- The text of a fraction of a second is read back. -/
theorem fraction_text {nano : ℕ} (hnano : nano < 1000000000) :
    fraction (if nano == 0 then ""
      else if nano % 1000000 == 0 then "." ++ paddedDigits 3 (nano / 1000000)
      else if nano % 1000 == 0 then "." ++ paddedDigits 6 (nano / 1000)
      else "." ++ paddedDigits 9 nano).toList = .ok (nano, []) := by
  by_cases hzero : nano = 0
  · simp [hzero, fraction]
  by_cases hmilli : nano % 1000000 = 0
  · have hread := fraction_places 3 (nano / 1000000) (by decide) (by decide) (by omega)
    have hwhole : nano / 1000000 * 1000000 = nano := by omega
    simpa [hzero, hmilli, String.toList_append, hwhole] using hread
  by_cases hmicro : nano % 1000 = 0
  · have hread := fraction_places 6 (nano / 1000) (by decide) (by decide) (by omega)
    have hwhole : nano / 1000 * 1000 = nano := by omega
    simpa [hzero, hmilli, hmicro, String.toList_append, hwhole] using hread
  · have hread := fraction_places 9 nano (by decide) (by decide) (by omega)
    simpa [hzero, hmilli, hmicro, String.toList_append] using hread

/-- The seconds of a time are read back. -/
theorem secondNano_text {second : ℕ} (hsecond : second ≤ 60) {fractionText : String} {nano : ℕ}
    (hfraction : fraction fractionText.toList = .ok (nano, [])) :
    secondNano (':' :: ((paddedDigits 2 second).toList ++ fractionText.toList)) =
      .ok ((second, nano), []) := by
  have hseconds := field_paddedDigits 0 60 fractionText.toList (by omega) (by omega) hsecond
  have hblank : ∀ cs, dropBlanks (':' :: cs) = ':' :: cs := fun _ => rfl
  have hnil : dropBlanks [] = [] := rfl
  simp [secondNano, hseconds, hfraction, hblank, hnil, mark, bind, Except.bind]

end Calendar

/-- The day with the parts of a day is that day. -/
theorem Date.ofParts?_parts (d : Date) : ofParts? d.year d.month d.day = some d := by
  rw [ofParts?, dif_pos d.isDay]

/-- The time with the parts of a time is that time. -/
theorem Time.ofParts?_parts (t : Time) : ofParts? t.hour t.minute t.second t.nano = some t := by
  rw [ofParts?, dif_pos t.isTime]

/-- The text of a time spells its hour and minute, and a second and fraction that stand for the
rest of it: in a leap second these are second 60 and what is beyond a second. -/
theorem Time.text_parts (t : Time) :
    ∃ (second nano : ℕ) (fractionText : String),
      t.text = paddedDigits 2 t.hour ++ ":" ++ paddedDigits 2 t.minute ++ ":" ++
        paddedDigits 2 second ++ fractionText ∧
      second ≤ 60 ∧ Calendar.fraction fractionText.toList = .ok (nano, []) ∧
      Calendar.timeOf? t.hour t.minute second nano = some t := by
  obtain ⟨-, -, hsecond, hnano⟩ := t.isTime
  by_cases hleap : 1000000000 ≤ t.nano
  · have hlast : t.second = 59 ∧ t.nano < 2000000000 := by omega
    refine ⟨60, t.nano - 1000000000, _, ?_, Nat.le_refl 60,
      Calendar.fraction_text (by omega), ?_⟩
    · simp [text, hleap, hlast.1]
    · have hback : t.nano - 1000000000 + 1000000000 = t.nano := by omega
      have hself := t.ofParts?_parts
      rw [hlast.1] at hself
      simp [Calendar.timeOf?, hback, hself]
  · refine ⟨t.second, t.nano, _, ?_, by omega, Calendar.fraction_text (by omega), ?_⟩
    · simp [text, hleap]
    · have hnot : t.second ≠ 60 := by omega
      simp [Calendar.timeOf?, hnot, t.ofParts?_parts]

/-- **A day is read back from its text.** -/
theorem Date.ofText_text (d : Date) : ofText d.text = .ok d := by
  have hparts := Calendar.dateParts_text d [] rfl
  rw [List.append_nil] at hparts
  simp [ofText, hparts, bind, Except.bind, Calendar.atEnd, Calendar.existing, ofParts?_parts]

/-- **A time of the day is read back from its text.** -/
theorem Time.ofText_text (t : Time) : ofText t.text = .ok t := by
  obtain ⟨second, nano, fractionText, htext, hsecond, hfraction, htime⟩ := t.text_parts
  have hhead := Calendar.hourMinute_text t.isTime.1 t.isTime.2.1
    (':' :: ((paddedDigits 2 second).toList ++ fractionText.toList))
  have hseconds := Calendar.secondNano_text hsecond hfraction
  rw [htext]
  simp [ofText, String.toList_append, hhead, hseconds, htime, bind, Except.bind, Calendar.atEnd,
    Calendar.existing]

/-- **A time of a day is read back from its text.** -/
theorem DateTime.ofText_text (t : DateTime) : ofText t.text = .ok t := by
  obtain ⟨second, nano, fractionText, htext, hsecond, hfraction, htime⟩ := t.time.text_parts
  have hhead := Calendar.hourMinute_text t.time.isTime.1 t.time.isTime.2.1
    (':' :: ((paddedDigits 2 second).toList ++ fractionText.toList))
  have hseconds := Calendar.secondNano_text hsecond hfraction
  have hdate := Calendar.dateParts_text t.date ('T' :: t.time.text.toList) rfl
  have hmark : ∀ cs, Calendar.mark 'T' ('T' :: cs) = .ok cs := fun _ => rfl
  have hcolon : ":".toList = [':'] := rfl
  rw [htext] at hdate
  simp only [String.toList_append, List.append_assoc, hcolon, List.cons_append, List.nil_append]
    at hdate
  rw [text, htext]
  simp [ofText, String.toList_append, hdate, hmark, hhead, hseconds, htime, bind, Except.bind,
    Calendar.atEnd, Calendar.existing, Date.ofParts?_parts]

end ScriptHost
