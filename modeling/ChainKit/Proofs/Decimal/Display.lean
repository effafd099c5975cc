import ChainKit.Proofs.Decimal.Reading
import Mathlib
/-!
# Decimals are displayed plainly

A text of digits around at most one point denotes a number (`Denotes`),
and the decimal it is read as is this number. Many texts denote the same
number, but only one does so without a superfluous zero or point
(`Plain.unique`); that is how a decimal is displayed (`plain_display`). So
nothing is lost by displaying, and the precision does not show
(`display_canonical`).
-/

namespace ChainKit

open Text

namespace Decimal

variable {text other : String} {x y : Decimal} {d e : UInt32} {q : ℚ} {n digits : Nat}
  {cs ds whole behind fraction whole' behind' fraction' : List Char}

/-! ## The number of a text -/

/-- The number that a text of digits around at most one point denotes. -/
def Denotes (text : String) (q : ℚ) : Prop :=
  ∃ whole behind, Cut text.toList whole behind ∧
    q = Numeral.value whole + Numeral.value behind / 10 ^ behind.length

/-- The number that a decimal is. -/
def number (x : Decimal) : ℚ := x.atomics / 10 ^ x.fractionalDigits.toNat

theorem Cut.unique (h : Cut cs whole behind) (h' : Cut cs whole' behind') :
    whole = whole' ∧ behind = behind' :=
  ⟨h.takeWhile_eq.1.symm.trans h'.takeWhile_eq.1, h.takeWhile_eq.2.symm.trans h'.takeWhile_eq.2⟩

theorem Cut.denotes_iff (h : Cut text.toList whole behind) : Denotes text q ↔
    q = Numeral.value whole + Numeral.value behind / 10 ^ behind.length := by
  constructor
  · rintro ⟨whole', behind', h', rfl⟩
    obtain ⟨rfl, rfl⟩ := h.unique h'
    rfl
  · exact fun hq => ⟨whole, behind, h, hq⟩

/-- Zeros at the end of a fraction do not count. -/
theorem Trimmed.value_div (h : Trimmed cs ds) :
    (Numeral.value cs : ℚ) / 10 ^ cs.length = Numeral.value ds / 10 ^ ds.length := by
  obtain ⟨⟨n, rfl⟩, -⟩ := h
  rw [Numeral.value_append_zeros, List.length_append, List.length_replicate, pow_add, Nat.cast_mul,
    Nat.cast_pow, Nat.cast_ofNat]
  exact mul_div_mul_right _ _ (by positivity)

/-- The units are the number of the digits, times a power of ten. -/
theorem units_div (hfits : fraction.length ≤ digits) :
    (units whole fraction digits : ℚ) / 10 ^ digits =
      Numeral.value whole + Numeral.value fraction / 10 ^ fraction.length := by
  have hpow : (10 : ℚ) ^ digits = 10 ^ fraction.length * 10 ^ (digits - fraction.length) := by
    rw [← pow_add, Nat.add_sub_cancel' hfits]
  rw [units, Nat.cast_add, Nat.cast_mul, Nat.cast_mul, Nat.cast_pow, Nat.cast_pow, Nat.cast_ofNat,
    add_div, mul_div_cancel_right₀ _ (by positivity), hpow, mul_div_mul_right _ _ (by positivity)]

theorem units_nil (whole : List Char) (digits : Nat) :
    units whole [] digits = Numeral.value whole * 10 ^ digits := by
  rw [units, Numeral.value_nil, Nat.zero_mul, Nat.add_zero]

/-- **What is read is the number of the text.** -/
theorem denotes_iff_of_ofUserInput (h : ofUserInput text d = .ok x) :
    Denotes text q ↔ q = x.number := by
  cases ofUserInput_eq_iff.1 h with
  | @units whole behind fraction hcut hfraction hfits =>
    rw [number, units_div hfits, ← hfraction.value_div, hcut.denotes_iff]

/-! ## Plain texts -/

/-- A text that has `whole` in front of the point and `fraction` behind it, and no superfluous zero
or point. -/
structure Plain (text : String) (whole fraction : List Char) : Prop where
  toList_eq : text.toList = if fraction = [] then whole else whole ++ '.' :: fraction
  whole_digits : Numeral.isDigits whole = true
  no_leading_zero : 1 < whole.length → whole.head? ≠ some '0'
  fraction_digits : ∀ c ∈ fraction, c.isDigit = true
  no_trailing_zero : fraction.getLast? ≠ some '0'

namespace Plain

theorem cut (h : Plain text whole fraction) : Cut text.toList whole fraction := by
  have hwhole := (Numeral.isDigits_iff.1 h.whole_digits).2
  rw [h.toList_eq]
  split
  · rename_i hnil
    rw [hnil]
    exact .whole hwhole
  · exact .point hwhole h.fraction_digits

theorem trimmed (h : Plain text whole fraction) : Trimmed fraction fraction :=
  ⟨⟨0, by simp⟩, h.no_trailing_zero⟩

/-- A plain text is read as its units. -/
theorem ofUserInput_eq (h : Plain text whole fraction) (hfits : fraction.length ≤ d.toNat) :
    ofUserInput text d = .ok ⟨units whole fraction d.toNat, d⟩ :=
  ofUserInput_of_answer (.units h.cut h.trimmed hfits)

/-- The fraction, filled up with zeros, still consists of digits. -/
theorem padded_digits (h : Plain text whole fraction) (n : Nat) :
    ∀ c ∈ fraction ++ List.replicate n '0', c.isDigit = true :=
  List.forall_mem_append.2 ⟨h.fraction_digits, Numeral.isDigit_zeros n⟩

/-- The fraction, filled up with zeros, counts the units short of a whole. -/
theorem units_div_mod (h : Plain text whole fraction) (hfits : fraction.length ≤ digits) :
    units whole fraction digits / 10 ^ digits = Numeral.value whole ∧
      units whole fraction digits % 10 ^ digits =
        Numeral.value (fraction ++ List.replicate (digits - fraction.length) '0') := by
  have hlt := Numeral.value_lt (h.padded_digits (digits - fraction.length))
  rw [List.length_append, List.length_replicate, Nat.add_sub_cancel' hfits] at hlt
  refine (Nat.div_mod_unique (by positivity)).2 ⟨?_, hlt⟩
  rw [Numeral.value_append_zeros, units, Nat.add_comm, Nat.mul_comm (10 ^ digits)]

/-- Texts of the same units have the same digits. -/
theorem eq_of_units_eq (h : Plain text whole fraction) (h' : Plain other whole' fraction')
    (hfits : fraction.length ≤ digits) (hfits' : fraction'.length ≤ digits)
    (hunits : units whole fraction digits = units whole' fraction' digits) : text = other := by
  obtain ⟨hdiv, hmod⟩ := h.units_div_mod hfits
  obtain ⟨hdiv', hmod'⟩ := h'.units_div_mod hfits'
  have hwhole : whole = whole' := by
    rw [← Numeral.toDigits_value h.whole_digits h.no_leading_zero,
      ← Numeral.toDigits_value h'.whole_digits h'.no_leading_zero, ← hdiv, ← hdiv', hunits]
  have hpadded : fraction ++ List.replicate (digits - fraction.length) '0' =
      fraction' ++ List.replicate (digits - fraction'.length) '0' := by
    refine Numeral.eq_of_value_eq (h.padded_digits _) (h'.padded_digits _) ?_ ?_
    · simp only [List.length_append, List.length_replicate]
      omega
    · rw [← hmod, ← hmod', hunits]
  -- no zero at the end belongs to the fraction
  have hfraction : fraction = fraction' := by
    rw [← h.trimmed.trimZeros_eq, ← h'.trimmed.trimZeros_eq, ← trimZeros_append_zeros fraction,
      hpadded, trimZeros_append_zeros]
  rw [← String.toList_inj, h.toList_eq, h'.toList_eq, hwhole, hfraction]

/-- **A number has one plain text.** -/
theorem unique (h : Plain text whole fraction) (h' : Plain other whole' fraction')
    (hq : Denotes text q) (hq' : Denotes other q) : text = other := by
  -- both are compared in units so small that they make up both fractions
  have hfits := Nat.le_max_left fraction.length fraction'.length
  have hfits' := Nat.le_max_right fraction.length fraction'.length
  refine h.eq_of_units_eq h' hfits hfits' (Nat.cast_injective (R := ℚ) ?_)
  rw [← div_left_inj' (c := (10 : ℚ) ^ max fraction.length fraction'.length) (by positivity),
    units_div hfits, units_div hfits', ← h.cut.denotes_iff.1 hq, ← h'.cut.denotes_iff.1 hq']

end Plain

/-! ## Displaying -/

/-- A number below a power of ten is spelled by that many digits, with zeros in front. -/
theorem exists_padded (hn : n ≠ 0) (hlt : n < 10 ^ digits) : ∃ cs,
    List.replicate (digits - (Nat.toDigits 10 n).length) '0' ++ Nat.toDigits 10 n = cs ∧
    cs.length = digits ∧ Numeral.value cs = n ∧ ∀ c ∈ cs, c.isDigit = true := by
  have hdigits : 0 < digits := by
    rcases Nat.eq_zero_or_pos digits with rfl | hdigits
    · omega
    · exact hdigits
  have hlength := (Nat.length_toDigits_le_iff (by omega) hdigits).2 hlt
  refine ⟨_, rfl, ?_, ?_, ?_⟩
  · rw [List.length_append, List.length_replicate]
    omega
  · rw [Numeral.value_zeros_append, Numeral.value_toDigits]
  · exact List.forall_mem_append.2 ⟨Numeral.isDigit_zeros _,
      (Numeral.isDigits_iff.1 (Numeral.isDigits_toDigits n)).2⟩

/-- Digits make up as many units as their value, cut off at the zeros at their end. -/
theorem Trimmed.units_eq (whole : List Char) (h : Trimmed cs fraction)
    (hlength : cs.length = digits) : fraction.length ≤ digits ∧
      units whole fraction digits = Numeral.value whole * 10 ^ digits + Numeral.value cs := by
  obtain ⟨n, rfl⟩ := h.zeros
  rw [List.length_append, List.length_replicate] at hlength
  refine ⟨by omega, ?_⟩
  rw [units, Numeral.value_append_zeros, ← hlength, Nat.add_sub_cancel_left]

/-- The numeral of a number in front of the point has no superfluous zero. -/
theorem plain_toDigits
    (htext : text.toList = if fraction = [] then Nat.toDigits 10 n
      else Nat.toDigits 10 n ++ '.' :: fraction)
    (hfraction : ∀ c ∈ fraction, c.isDigit = true) (hlast : fraction.getLast? ≠ some '0') :
    Plain text (Nat.toDigits 10 n) fraction :=
  ⟨htext, Numeral.isDigits_toDigits n, Numeral.no_leading_zero n, hfraction, hlast⟩

/-- **A decimal is displayed plainly**, by the digits of its units. -/
theorem plain_display (x : Decimal) : ∃ whole fraction, Plain x.display whole fraction ∧
    fraction.length ≤ x.fractionalDigits.toNat ∧
    units whole fraction x.fractionalDigits.toNat = x.atomics := by
  obtain ⟨atomics, d⟩ := x
  dsimp only
  have hunits := Nat.div_add_mod' atomics (10 ^ d.toNat)
  by_cases hzero : atomics % 10 ^ d.toNat = 0
  · have htext : (display ⟨atomics, d⟩).toList = Nat.toDigits 10 (atomics / 10 ^ d.toNat) := by
      simp only [display, Nat.pow_eq, hzero, if_true, String.toList_ofList]
    refine ⟨_, [], plain_toDigits htext (by simp) (by simp), Nat.zero_le _, ?_⟩
    rw [units_nil, Numeral.value_toDigits]
    omega
  · obtain ⟨padded, hpadded, hlength, hvalue, hdigits⟩ :=
      exists_padded hzero (Nat.mod_lt atomics (by positivity))
    have htrimmed := trimmed_trimZeros padded
    obtain ⟨hfits, hall⟩ :=
      htrimmed.units_eq (Nat.toDigits 10 (atomics / 10 ^ d.toNat)) hlength
    rw [Numeral.value_toDigits, hvalue, hunits] at hall
    have hne : trimZeros padded ≠ [] := by
      intro hnil
      rw [hnil, units_nil, Numeral.value_toDigits] at hall
      omega
    refine ⟨_, _, plain_toDigits ?_ (htrimmed.digits hdigits) htrimmed.last, hfits, hall⟩
    simp only [display, Nat.pow_eq, hzero, if_false, String.toList_ofList, hpadded, hne]

/-- **What is displayed is read back.** -/
theorem ofUserInput_display (x : Decimal) : ofUserInput x.display x.fractionalDigits = .ok x := by
  obtain ⟨whole, fraction, hplain, hfits, hunits⟩ := plain_display x
  rw [hplain.ofUserInput_eq hfits, hunits]

theorem denotes_display_iff : Denotes x.display q ↔ q = x.number :=
  denotes_iff_of_ofUserInput (ofUserInput_display x)

/-- **Decimals are displayed alike exactly if they are the same number.** -/
theorem display_eq_iff : x.display = y.display ↔ x.number = y.number := by
  constructor
  · intro h
    exact (denotes_display_iff.1 (h ▸ denotes_display_iff.2 rfl)).symm
  · intro h
    obtain ⟨_, _, hx, -, -⟩ := plain_display x
    obtain ⟨_, _, hy, -, -⟩ := plain_display y
    exact hx.unique hy (denotes_display_iff.2 rfl) (denotes_display_iff.2 h)

/-- **Displaying is lossless and canonical.** A decimal is read back from the text it is displayed
as, which is plain. Every text that is read as a decimal denotes one number, which is the one that
the displayed text denotes; and the texts of this number, whatever precision they are read with,
are all displayed as the same one. -/
theorem display_canonical (x : Decimal) :
    ofUserInput x.display x.fractionalDigits = .ok x ∧
    (∃ whole fraction, Plain x.display whole fraction) ∧
    ∀ text d, ofUserInput text d = .ok x → ∃ q, (∀ p, Denotes text p ↔ p = q) ∧
      Denotes x.display q ∧
      ∀ other e y, ofUserInput other e = .ok y → (Denotes other q ↔ y.display = x.display) := by
  obtain ⟨whole, fraction, hplain, -, -⟩ := plain_display x
  refine ⟨ofUserInput_display x, ⟨whole, fraction, hplain⟩, fun text d h => ⟨x.number,
    fun p => denotes_iff_of_ofUserInput h, denotes_display_iff.2 rfl, fun other e y hy => ?_⟩⟩
  rw [denotes_iff_of_ofUserInput hy, display_eq_iff, eq_comm]

/-- `001.500` and, to more digits, `1.50` are displayed alike. -/
theorem display_canonical_samplePrice :
    ofUserInput "001.500" 3 = .ok ⟨1500, 3⟩ ∧ ofUserInput "1.50" 6 = .ok ⟨1500000, 6⟩ ∧
      display ⟨1500000, 6⟩ = display ⟨1500, 3⟩ := by
  have hread : ofUserInput "001.500" 3 = .ok ⟨1500, 3⟩ := by decide +kernel
  have hother : ofUserInput "1.50" 6 = .ok ⟨1500000, 6⟩ := by decide +kernel
  obtain ⟨q, hq, -, halike⟩ := (display_canonical ⟨1500, 3⟩).2.2 _ _ hread
  have hsame : q = number ⟨1500000, 6⟩ := by
    rw [← (hq _).1 ((denotes_iff_of_ofUserInput hread).2 rfl)]
    change (1500 : ℚ) / 10 ^ 3 = 1500000 / 10 ^ 6
    norm_num
  exact ⟨hread, hother, (halike _ _ _ hother).1 ((denotes_iff_of_ofUserInput hother).2 hsame)⟩

end Decimal

end ChainKit
