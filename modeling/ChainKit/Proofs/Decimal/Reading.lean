import ChainKit.Proofs.Text.Numeral
import Mathlib
/-!
# Decimals are read exactly

A decimal is written as digits around at most one point (`Cut`). What a
text has to be answered is told by its characters alone (`Answer`), and
this is what it is answered (`ofUserInput_iff_answer`). A reader that
writes the units out, padded with zeros, and reads them as one numeral
gives the same answers (`ofPaddedInput`), so the digits may be counted
instead.
-/

namespace ChainKit

open Text

namespace Decimal

variable {text : String} {d : UInt32} {cs ds whole behind fraction : List Char}
  {answer : Except Error Decimal}

/-! ## Zeros at the end -/

/-- `ds` are the digits of `cs` without the zeros at their end. -/
structure Trimmed (cs ds : List Char) : Prop where
  zeros : ∃ n, cs = ds ++ List.replicate n '0'
  last : ds.getLast? ≠ some '0'

theorem trimZeros_append_zeros (ds : List Char) (n : Nat) :
    trimZeros (ds ++ List.replicate n '0') = trimZeros ds := by
  induction n with
  | zero => simp
  | succ n ih =>
    rw [List.replicate_succ', ← List.append_assoc, ← ih]
    exact List.rdropWhile_concat_pos _ _ _ rfl

theorem trimmed_trimZeros (cs : List Char) : Trimmed cs (trimZeros cs) where
  zeros := by
    have hzeros : cs.rtakeWhile (· = '0') =
        List.replicate (cs.rtakeWhile (· = '0')).length '0' :=
      List.eq_replicate_of_mem fun c hc => by simpa using List.mem_rtakeWhile_imp hc
    exact ⟨_, hzeros ▸ List.rdropWhile_append_rtakeWhile.symm⟩
  last := by
    intro hlast
    have hne : trimZeros cs ≠ [] := by
      intro hnil
      rw [hnil] at hlast
      cases hlast
    rw [List.getLast?_eq_some_getLast hne, Option.some.injEq] at hlast
    exact List.rdropWhile_last_not _ cs hne (decide_eq_true hlast)

theorem Trimmed.trimZeros_eq (h : Trimmed cs ds) : trimZeros cs = ds := by
  obtain ⟨⟨n, rfl⟩, hlast⟩ := h
  rw [trimZeros_append_zeros]
  refine List.rdropWhile_eq_self_iff.2 fun hne hzero => hlast ?_
  rw [List.getLast?_eq_some_getLast hne, of_decide_eq_true hzero]

theorem Trimmed.digits (h : Trimmed cs ds) (hdigits : ∀ c ∈ cs, c.isDigit = true) :
    ∀ c ∈ ds, c.isDigit = true := by
  obtain ⟨n, rfl⟩ := h.zeros
  exact fun c hc => hdigits c (List.mem_append_left _ hc)

/-! ## Digits around a point -/

/-- What may stand in a decimal. -/
def isMark (c : Char) : Bool := c.isDigit || c = '.'

/-- A text of digits around at most one point, cut into those in front of the point and those
behind it. -/
inductive Cut : List Char → List Char → List Char → Prop
  | whole {cs : List Char} (hcs : ∀ c ∈ cs, c.isDigit = true) : Cut cs cs []
  | point {cs ds : List Char} (hcs : ∀ c ∈ cs, c.isDigit = true)
      (hds : ∀ d ∈ ds, d.isDigit = true) : Cut (cs ++ '.' :: ds) cs ds

/-- There are as many atomic units as the digits say in front of the point and behind it. -/
def units (whole fraction : List Char) (digits : Nat) : Nat :=
  Numeral.value whole * 10 ^ digits + Numeral.value fraction * 10 ^ (digits - fraction.length)

/-- What a text has to be answered with, read with `d` fractional digits. -/
inductive Answer (text : String) (d : UInt32) : Except Error Decimal → Prop
  /-- The first character that is neither a digit nor a point is refused. -/
  | foreign {before after : List Char} {c : Char} (htext : text.toList = before ++ c :: after)
      (hbefore : ∀ b ∈ before, isMark b = true) (hc : isMark c = false) :
    Answer text d (.error (.invalidCharacter (before.length + 1)))
  /-- A second point is refused, if there are but digits and points. -/
  | points (hmarks : ∀ c ∈ text.toList, isMark c = true) (hpoints : 2 ≤ text.toList.count '.') :
    Answer text d (.error .multipleSeparators)
  /-- So are more digits behind the point than `d`, not counting zeros at their end. -/
  | long {whole behind fraction : List Char} (hcut : Cut text.toList whole behind)
      (hfraction : Trimmed behind fraction) (hlong : d.toNat < fraction.length) :
    Answer text d (.error .tooManyFractionalDigits)
  /-- All else is a number of atomic units. -/
  | units {whole behind fraction : List Char} (hcut : Cut text.toList whole behind)
      (hfraction : Trimmed behind fraction) (hfits : fraction.length ≤ d.toNat) :
    Answer text d (.ok ⟨units whole fraction d.toNat, d⟩)

/-- A point is no digit. -/
theorem point_notMem (hdigits : ∀ c ∈ cs, c.isDigit = true) : '.' ∉ cs :=
  fun hmem => absurd (hdigits _ hmem) (by decide)

namespace Cut

theorem digits (h : Cut cs whole behind) :
    (∀ c ∈ whole, c.isDigit = true) ∧ ∀ c ∈ behind, c.isDigit = true := by
  cases h with
  | whole hwhole => exact ⟨hwhole, by simp⟩
  | point hwhole hbehind => exact ⟨hwhole, hbehind⟩

theorem isMark (h : Cut cs whole behind) : ∀ c ∈ cs, isMark c = true := by
  have hdigit {c : Char} (hc : c.isDigit = true) : Decimal.isMark c = true := by
    rw [Decimal.isMark, hc, Bool.true_or]
  cases h with
  | whole hwhole => exact fun c hc => hdigit (hwhole c hc)
  | point hwhole hbehind =>
    rw [List.forall_mem_append, List.forall_mem_cons]
    exact ⟨fun c hc => hdigit (hwhole c hc), rfl, fun c hc => hdigit (hbehind c hc)⟩

/-- The digits in front of the point are all up to the first other character, the rest stands
behind it. -/
theorem takeWhile_eq (h : Cut cs whole behind) :
    cs.takeWhile Char.isDigit = whole ∧ (cs.dropWhile Char.isDigit).drop 1 = behind := by
  cases h with
  | whole hwhole =>
    rw [List.takeWhile_eq_self_iff.2 hwhole, List.dropWhile_eq_nil_iff.2 hwhole]
    exact ⟨rfl, rfl⟩
  | point hwhole _ =>
    rw [List.takeWhile_append_of_pos hwhole, List.dropWhile_append_of_pos hwhole]
    simp

theorem contains_behind (h : Cut cs whole behind) : behind.contains '.' = false := by
  rw [← Bool.not_eq_true, List.contains_iff_mem]
  exact point_notMem h.digits.2

/-- The text cut at its points has these two pieces, of which the second may be missing. -/
theorem pieces_eq (h : Cut cs whole behind) : (cs.splitOn '.').length ≤ 2 ∧
    (cs.splitOn '.').headD [] = whole ∧ (cs.splitOn '.')[1]?.getD [] = behind := by
  cases h with
  | whole hwhole =>
    rw [List.splitOn_eq_singleton (point_notMem hwhole)]
    exact ⟨by simp, rfl, rfl⟩
  | point hwhole hbehind =>
    rw [List.splitOn_append_cons_self_of_not_mem (point_notMem hwhole),
      List.splitOn_eq_singleton (point_notMem hbehind)]
    exact ⟨by simp, rfl, rfl⟩

end Cut

/-- A mark that is no point is a digit. -/
theorem isDigit_of_isMark (hmarks : ∀ c ∈ cs, isMark c = true) (hpoint : '.' ∉ cs) :
    ∀ c ∈ cs, c.isDigit = true := by
  intro c hc
  have hmark := hmarks c hc
  rw [isMark, Bool.or_eq_true, decide_eq_true_eq] at hmark
  exact hmark.resolve_right fun heq => hpoint (heq ▸ hc)

/-- Digits and points are cut at the one point that there may be. -/
theorem exists_cut (hmarks : ∀ c ∈ cs, isMark c = true) (hpoints : cs.count '.' < 2) :
    ∃ whole behind, Cut cs whole behind := by
  by_cases hpoint : '.' ∈ cs
  · obtain ⟨whole, behind, rfl, hwhole⟩ := List.eq_append_cons_of_mem hpoint
    rw [List.forall_mem_append, List.forall_mem_cons] at hmarks
    have hbehind : '.' ∉ behind := by
      rw [List.count_append, List.count_cons_self] at hpoints
      exact List.count_eq_zero.1 (by omega)
    exact ⟨whole, behind, .point (isDigit_of_isMark hmarks.1 hwhole)
      (isDigit_of_isMark hmarks.2.2 hbehind)⟩
  · exact ⟨cs, [], .whole (isDigit_of_isMark hmarks hpoint)⟩

/-- Every text has an answer. -/
theorem exists_answer (text : String) (d : UInt32) : ∃ answer, Answer text d answer := by
  by_cases hmarks : ∀ c ∈ text.toList, isMark c = true
  · by_cases hpoints : text.toList.count '.' < 2
    · obtain ⟨whole, behind, hcut⟩ := exists_cut hmarks hpoints
      have hfraction := trimmed_trimZeros behind
      by_cases hfits : (trimZeros behind).length ≤ d.toNat
      · exact ⟨_, .units hcut hfraction hfits⟩
      · exact ⟨_, .long hcut hfraction (Nat.lt_of_not_le hfits)⟩
    · exact ⟨_, .points hmarks (Nat.le_of_not_lt hpoints)⟩
  · -- what stands in front of the first foreign character is kept
    have hne : text.toList.dropWhile isMark ≠ [] := by
      simpa using hmarks
    have htext := List.takeWhile_append_dropWhile (p := isMark) (l := text.toList)
    rw [← List.cons_head_tail hne] at htext
    have hfirst := List.head_dropWhile_not isMark hne
    exact ⟨_, .foreign htext.symm (fun b hb => List.mem_takeWhile_imp hb) (by simpa using hfirst)⟩

/-! ## Two readers -/

/-- The units that a numeral counts, which are none if it is empty. -/
def paddedUnits (cs : List Char) : Except Error Nat :=
  if cs = [] then .ok 0
  else match Numeral.grouped? cs with
    | some n => .ok n
    | none => .error (.invalidQuantity (String.ofList cs))

/-- Reads a decimal off the numeral of its atomic units: the digits in front of the point, those
behind it, and zeros up to the number of fractional digits. -/
def ofPaddedInput (text : String) (fractionalDigits : UInt32) : Except Error Decimal :=
  let cs := text.toList
  match cs.findIdx? fun c => !(c.isDigit || c = '.') with
  | some i => .error (.invalidCharacter (i + 1))
  | none =>
    let pieces := cs.splitOn '.'
    let whole := pieces.headD []
    let fraction := trimZeros (pieces[1]?.getD [])
    if 2 < pieces.length then .error .multipleSeparators
    else if fraction.length > fractionalDigits.toNat then .error .tooManyFractionalDigits
    else
      let zeros := List.replicate (fractionalDigits.toNat - fraction.length) '0'
      (paddedUnits (whole ++ fraction ++ zeros)).map fun atomics => { atomics, fractionalDigits }

theorem findIdx?_of_foreign {before after : List Char} {c : Char}
    (hbefore : ∀ b ∈ before, isMark b = true) (hc : isMark c = false) :
    (before ++ c :: after).findIdx? (fun c => !(c.isDigit || c = '.')) = some before.length := by
  change (before ++ c :: after).findIdx? (fun c => !isMark c) = some before.length
  have hnone : before.findIdx? (fun c => !isMark c) = none :=
    List.findIdx?_eq_none_iff.2 fun b hb => by rw [hbefore b hb, Bool.not_true]
  rw [List.findIdx?_append, hnone, List.findIdx?_cons, hc]
  simp

theorem findIdx?_of_isMark (hmarks : ∀ c ∈ cs, isMark c = true) :
    cs.findIdx? (fun c => !(c.isDigit || c = '.')) = none :=
  List.findIdx?_eq_none_iff.2 fun c hc => congrArg Bool.not (hmarks c hc)

/-- Behind the first of two points stands another. -/
theorem exists_points (hpoints : 2 ≤ cs.count '.') :
    ∃ before between after, cs = before ++ '.' :: (between ++ '.' :: after) ∧ '.' ∉ before := by
  obtain ⟨before, rest, rfl, hbefore⟩ :=
    List.eq_append_cons_of_mem (List.count_pos_iff.1 (show 0 < cs.count '.' by omega))
  rw [List.count_append, List.count_eq_zero.2 hbefore, List.count_cons_self] at hpoints
  obtain ⟨between, after, rfl⟩ :=
    List.append_of_mem (List.count_pos_iff.1 (show 0 < rest.count '.' by omega))
  exact ⟨before, between, after, rfl, hbefore⟩

/-- The digits put together count the units, up to as many tens as digits are missing. -/
theorem value_append_mul {digits : Nat} (hfits : fraction.length ≤ digits) :
    Numeral.value (whole ++ fraction) * 10 ^ (digits - fraction.length) =
      units whole fraction digits := by
  rw [Numeral.value_append, units, Nat.add_mul, Nat.mul_assoc, ← Nat.pow_add,
    Nat.add_sub_cancel' hfits]

/-- Digits count their value, be there any or none. -/
theorem paddedUnits_eq (hdigits : ∀ c ∈ cs, c.isDigit = true) :
    paddedUnits cs = .ok (Numeral.value cs) := by
  rw [paddedUnits]
  split
  · rename_i hnil
    rw [hnil]
    rfl
  · rename_i hne
    rw [Numeral.grouped?_of_isDigits (Numeral.isDigits_iff.2 ⟨hne, hdigits⟩)]

/-- A text is read as it has to be answered. -/
theorem ofUserInput_of_answer (h : Answer text d answer) : ofUserInput text d = answer := by
  cases h with
  | foreign htext hbefore hc =>
    simp only [ofUserInput, htext, findIdx?_of_foreign hbefore hc]
  | points hmarks hpoints =>
    obtain ⟨before, between, after, htext, hbefore⟩ := exists_points hpoints
    have hfind := findIdx?_of_isMark hmarks
    rw [htext] at hfind hmarks
    rw [List.forall_mem_append] at hmarks
    have hdigits := isDigit_of_isMark hmarks.1 hbefore
    have hbehind : ((before ++ '.' :: (between ++ '.' :: after)).dropWhile Char.isDigit).drop 1 =
        between ++ '.' :: after := by
      rw [List.dropWhile_append_of_pos hdigits]
      rfl
    simp only [ofUserInput, htext, hfind, hbehind]
    simp
  | long hcut hfraction hlong =>
    simp only [ofUserInput, findIdx?_of_isMark hcut.isMark, hcut.takeWhile_eq, hcut.contains_behind,
      hfraction.trimZeros_eq]
    simp [hlong]
  | units hcut hfraction hfits =>
    simp only [ofUserInput, findIdx?_of_isMark hcut.isMark, hcut.takeWhile_eq, hcut.contains_behind,
      hfraction.trimZeros_eq]
    rw [if_neg Bool.false_ne_true, if_neg (Nat.not_lt.2 hfits)]
    exact congrArg (fun n => Except.ok (Decimal.mk n d)) (value_append_mul hfits)

/-- The reader that writes the units out answers alike. -/
theorem ofPaddedInput_of_answer (h : Answer text d answer) : ofPaddedInput text d = answer := by
  cases h with
  | foreign htext hbefore hc =>
    simp only [ofPaddedInput, htext, findIdx?_of_foreign hbefore hc]
  | points hmarks hpoints =>
    obtain ⟨before, between, after, htext, hbefore⟩ := exists_points hpoints
    have hpieces : 2 < (text.toList.splitOn '.').length := by
      rw [htext, List.splitOn_append_cons_self, List.splitOn_append_cons_self, List.length_append,
        List.length_append]
      have hlength (es : List Char) : 0 < (es.splitOn '.').length :=
        List.length_pos_iff.2 (List.splitOn_ne_nil _ _)
      have hfirst := hlength before
      have hsecond := hlength between
      have hthird := hlength after
      omega
    simp only [ofPaddedInput, findIdx?_of_isMark hmarks, if_pos hpieces]
  | long hcut hfraction hlong =>
    obtain ⟨hlength, -, hbehind⟩ := hcut.pieces_eq
    simp only [ofPaddedInput, findIdx?_of_isMark hcut.isMark, hbehind, hfraction.trimZeros_eq,
      if_neg (Nat.not_lt.2 hlength)]
    exact if_pos hlong
  | @units whole behind fraction hcut hfraction hfits =>
    obtain ⟨hlength, hwhole, hbehind⟩ := hcut.pieces_eq
    have hdigits : ∀ c ∈ whole ++ fraction ++ List.replicate (d.toNat - fraction.length) '0',
        c.isDigit = true := by
      rw [List.forall_mem_append, List.forall_mem_append]
      exact ⟨⟨hcut.digits.1, hfraction.digits hcut.digits.2⟩, Numeral.isDigit_zeros _⟩
    simp only [ofPaddedInput, findIdx?_of_isMark hcut.isMark, hwhole, hbehind,
      hfraction.trimZeros_eq, if_neg (Nat.not_lt.2 hlength)]
    rw [if_neg (Nat.not_lt.2 hfits), paddedUnits_eq hdigits, Numeral.value_append_zeros,
      value_append_mul hfits]
    rfl

/-- A text is answered as its characters tell, and in no other way. -/
theorem ofUserInput_eq_iff : ofUserInput text d = answer ↔ Answer text d answer := by
  refine ⟨?_, ofUserInput_of_answer⟩
  rintro rfl
  obtain ⟨found, hfound⟩ := exists_answer text d
  rwa [ofUserInput_of_answer hfound]

/-- The two readers answer alike. -/
theorem ofPaddedInput_eq (text : String) (d : UInt32) :
    ofPaddedInput text d = ofUserInput text d :=
  ofPaddedInput_of_answer (ofUserInput_eq_iff.1 rfl)

/-- **A text is read as its number of atomic units, or refused for its first fault.** Writing the
units out instead of counting them makes no difference, and what is read has a canonical
quantity. -/
theorem ofUserInput_iff_answer (text : String) (d : UInt32) :
    (∀ answer, ofUserInput text d = answer ↔ Answer text d answer) ∧
    ofPaddedInput text d = ofUserInput text d ∧
    ∀ x, ofUserInput text d = .ok x → checkQuantity x.quantity = .ok () :=
  ⟨fun _ => ofUserInput_eq_iff, ofPaddedInput_eq text d, fun x _ => checkQuantity_ofNat x.atomics⟩

/-- `12.3400` is read with nine fractional digits, as a canonical quantity. -/
theorem ofUserInput_iff_answer_samplePrice :
    ofUserInput "12.3400" 9 = .ok ⟨12340000000, 9⟩ ∧
      checkQuantity (quantity ⟨12340000000, 9⟩) = .ok () := by
  have hwhole : ∀ c ∈ ['1', '2'], c.isDigit = true := by simp
  have hbehind : ∀ c ∈ ['3', '4', '0', '0'], c.isDigit = true := by simp
  have hcut : Cut "12.3400".toList ['1', '2'] ['3', '4', '0', '0'] := .point hwhole hbehind
  have hfraction : Trimmed ['3', '4', '0', '0'] ['3', '4'] := ⟨⟨2, rfl⟩, by decide⟩
  have hread : ofUserInput "12.3400" 9 = .ok ⟨12340000000, 9⟩ :=
    ((ofUserInput_iff_answer _ _).1 _).2 (.units hcut hfraction (by decide))
  exact ⟨hread, (ofUserInput_iff_answer _ _).2.2 _ hread⟩

end Decimal

end ChainKit
