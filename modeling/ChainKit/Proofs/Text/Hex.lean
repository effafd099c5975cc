import ChainKit.Proofs.Text.Utf8
import ChainKit.Text.Hex
import Mathlib
/-!
# Hexadecimal reads back what it writes

A text is hexadecimal for some bytes exactly when its characters spell
them, two digits of either case a byte (`decode_eq_ok_iff`). The digits
that are written spell their bytes, raising letters changes nothing, and
digits without uppercase letters are the ones that are written.
-/

namespace ChainKit

namespace Text

namespace Hex

/-- The value of a character that is a digit. -/
def valueOf? (c : Char) : Option Nat :=
  if c.toNat < 128 then value? (UInt8.ofNat c.toNat) else none

/-- The characters are two digits for each byte. -/
def Spells : List Char → Bytes → Prop
  | [], [] => True
  | a :: b :: cs, x :: bytes =>
    valueOf? a = some (x.toNat / 16) ∧ valueOf? b = some (x.toNat % 16) ∧ Spells cs bytes
  | _, _ => False

/-! ## Digits -/

/-- A digit has a value below sixteen and is of ASCII. -/
theorem value?_eq_some {b : UInt8} {n : Nat} (h : value? b = some n) :
    n < 16 ∧ b.toNat < 128 := by
  simp only [value?, UInt8.le_iff_toNat_le, UInt8.reduceToNat, Bool.and_eq_true,
    decide_eq_true_eq] at h
  split at h
  · cases h
    omega
  · split at h
    · cases h
      omega
    · split at h
      · cases h
        omega
      · cases h

/-- The byte of a character of ASCII. -/
theorem valueOf?_of_byte {b : UInt8} {n : Nat} (h : value? b = some n) :
    valueOf? (Char.ofNat b.toNat) = some n := by
  have hlt := (value?_eq_some h).2
  have hcode : (Char.ofNat b.toNat).toNat = b.toNat := by
    rw [Char.toNat_ofNat, if_pos (.inl (by omega))]
  rw [valueOf?, hcode, if_pos hlt, UInt8.ofNat_toNat, h]

theorem value?_of_valueOf? {c : Char} {n : Nat} (h : valueOf? c = some n) :
    c.toNat < 128 ∧ value? (UInt8.ofNat c.toNat) = some n := by
  unfold valueOf? at h
  split at h
  · exact ⟨‹_›, h⟩
  · cases h

/-- The digit of a value has the value, in either case. -/
theorem valueOf?_digit {n : Nat} (h : n < 16) :
    valueOf? (digit n) = some n ∧ valueOf? (digit n).toUpper = some n := by
  interval_cases n <;> decide

/-- The digits that are written are no uppercase letters. -/
theorem isUpper_digit {n : Nat} (h : n < 16) : (digit n).isUpper = false := by
  interval_cases n <;> decide

/-- A digit that is no uppercase letter is the one that is written. -/
theorem digit_of_valueOf? {c : Char} {n : Nat} (h : valueOf? c = some n)
    (hcase : c.isUpper = false) : digit n = c := by
  have hwritten : ∀ c : Char, c.toNat < 128 → ∀ n < 16,
      value? (UInt8.ofNat c.toNat) = some n → c.isUpper = false → digit n = c :=
    Utf8.forall_ascii (by decide +kernel)
  obtain ⟨hlt, hvalue⟩ := value?_of_valueOf? h
  exact hwritten c hlt n (value?_eq_some hvalue).1 hvalue hcase

/-! ## Texts -/

/-- Pairs of digits are read as the bytes that they spell. -/
theorem decodePairs_of_spells {cs : List Char} {bytes : Bytes} (h : Spells cs bytes) (index : Nat) :
    decodePairs index (cs.map fun c => UInt8.ofNat c.toNat) = .ok bytes := by
  induction bytes generalizing cs index with
  | nil =>
    rcases cs with _ | ⟨a, _ | ⟨b, cs⟩⟩
    · rfl
    · cases h
    · cases h
  | cons x bytes ih =>
    rcases cs with _ | ⟨a, _ | ⟨b, cs⟩⟩
    · cases h
    · cases h
    · obtain ⟨ha, hb, hrest⟩ := h
      have hsum : x.toNat / 16 * 16 + x.toNat % 16 = x.toNat := by omega
      simp only [List.map_cons, decodePairs, (value?_of_valueOf? ha).2, (value?_of_valueOf? hb).2,
        ih hrest, Except.map, hsum, UInt8.ofNat_toNat]

/-- Spelling characters are of ASCII, and there are two for each byte. -/
theorem Spells.ascii {cs : List Char} {bytes : Bytes} (h : Spells cs bytes) :
    (∀ c ∈ cs, c.toNat < 128) ∧ cs.length = 2 * bytes.length := by
  induction bytes generalizing cs with
  | nil =>
    rcases cs with _ | ⟨a, _ | ⟨b, cs⟩⟩
    · simp
    · cases h
    · cases h
  | cons x bytes ih =>
    rcases cs with _ | ⟨a, _ | ⟨b, cs⟩⟩
    · cases h
    · cases h
    · obtain ⟨ha, hb, hrest⟩ := h
      obtain ⟨hcs, hlength⟩ := ih hrest
      have ha' := (value?_of_valueOf? ha).1
      have hb' := (value?_of_valueOf? hb).1
      refine ⟨fun c hc => ?_, by simp only [List.length_cons, hlength]; omega⟩
      rcases List.mem_cons.1 hc with rfl | hc
      · exact ha'
      · rcases List.mem_cons.1 hc with rfl | hc
        · exact hb'
        · exact hcs c hc

/-- Spelling characters are digits. -/
theorem Spells.isSome_valueOf? {cs : List Char} {bytes : Bytes} (h : Spells cs bytes) :
    ∀ c ∈ cs, (valueOf? c).isSome := by
  induction bytes generalizing cs with
  | nil =>
    rcases cs with _ | ⟨a, _ | ⟨b, cs⟩⟩
    · simp
    · cases h
    · cases h
  | cons x bytes ih =>
    rcases cs with _ | ⟨a, _ | ⟨b, cs⟩⟩
    · cases h
    · cases h
    · obtain ⟨ha, hb, hrest⟩ := h
      simpa [ha, hb] using ih hrest

/-- Two digits for each byte spell some bytes. -/
theorem exists_spells {cs : List Char} {count : Nat} (hlength : cs.length = 2 * count)
    (hdigits : ∀ c ∈ cs, (valueOf? c).isSome) :
    ∃ bytes : Bytes, bytes.length = count ∧ Spells cs bytes := by
  induction count generalizing cs with
  | zero => exact ⟨[], rfl, by rw [List.length_eq_zero_iff.1 hlength]; trivial⟩
  | succ count ih =>
    rcases cs with _ | ⟨a, _ | ⟨b, cs⟩⟩
    · simp at hlength
    · simp only [List.length_cons, List.length_nil] at hlength
      omega
    · rw [List.forall_mem_cons, List.forall_mem_cons] at hdigits
      obtain ⟨ha, hb, hrest⟩ := hdigits
      obtain ⟨high, hhigh⟩ := Option.isSome_iff_exists.1 ha
      obtain ⟨low, hlow⟩ := Option.isSome_iff_exists.1 hb
      have hcs : cs.length = 2 * count := by
        simp only [List.length_cons] at hlength
        omega
      obtain ⟨bytes, hcount, hspells⟩ := ih hcs hrest
      have hhigh' := (value?_eq_some (value?_of_valueOf? hhigh).2).1
      have hlow' := (value?_eq_some (value?_of_valueOf? hlow).2).1
      have hbyte : (UInt8.ofNat (high * 16 + low)).toNat = high * 16 + low :=
        Utf8.toNat_ofNat_of_lt (by omega)
      have hdiv : (high * 16 + low) / 16 = high := by omega
      have hmod : (high * 16 + low) % 16 = low := by omega
      refine ⟨UInt8.ofNat (high * 16 + low) :: bytes, by rw [List.length_cons, hcount], ?_⟩
      exact ⟨by rw [hbyte, hdiv, hhigh], by rw [hbyte, hmod, hlow], hspells⟩

/-- An even number of bytes that are read are digits. -/
theorem spells_of_decodePairs {index : Nat} {bs bytes : Bytes}
    (h : decodePairs index bs = .ok bytes) (heven : bs.length % 2 = 0) :
    Spells (bs.map fun b => Char.ofNat b.toNat) bytes ∧ ∀ b ∈ bs, b.toNat < 128 := by
  -- the first two cases are a digit that is none, the last one has too few bytes for a pair
  induction index, bs using decodePairs.induct generalizing bytes with
  | case1 index a b rest ha => simp [decodePairs, ha] at h
  | case2 index a b rest hb ha =>
    rcases hvalue : value? a with _ | high
    · exact absurd hvalue ha
    · simp [decodePairs, hvalue, hb] at h
  | case3 index a b rest high low hb ha ih =>
    simp only [decodePairs, ha, hb, Except.map] at h
    split at h
    · cases h
    · rename_i tail htail
      cases h
      obtain ⟨hspells, hascii⟩ := ih htail (by simp only [List.length_cons] at heven; omega)
      have hhigh := (value?_eq_some ha).1
      have hlow := (value?_eq_some hb).1
      have hbyte : (UInt8.ofNat (high * 16 + low)).toNat = high * 16 + low :=
        Utf8.toNat_ofNat_of_lt (by omega)
      have hdiv : (high * 16 + low) / 16 = high := by omega
      have hmod : (high * 16 + low) % 16 = low := by omega
      refine ⟨⟨?_, ?_, hspells⟩, fun c hc => ?_⟩
      · rw [hbyte, hdiv, valueOf?_of_byte ha]
      · rw [hbyte, hmod, valueOf?_of_byte hb]
      · rcases List.mem_cons.1 hc with rfl | hc
        · exact (value?_eq_some ha).2
        · rcases List.mem_cons.1 hc with rfl | hc
          · exact (value?_eq_some hb).2
          · exact hascii c hc
  | case4 bs index hshort =>
    rcases bs with _ | ⟨a, _ | ⟨b, rest⟩⟩
    · simp only [decodePairs] at h
      cases h
      simp [Spells]
    · simp at heven
    · exact absurd rfl (hshort a b rest)

/-- **A text is read as some bytes exactly if it spells them.** -/
theorem decode_eq_ok_iff {text : String} {bytes : Bytes} :
    decode text = .ok bytes ↔ Spells text.toList bytes := by
  constructor
  · intro h
    simp only [decode] at h
    split at h
    · cases h
    · rename_i heven
      obtain ⟨hspells, hascii⟩ := spells_of_decodePairs h (by omega)
      rwa [← Utf8.toList_of_encode hascii] at hspells
  · intro h
    obtain ⟨hascii, hlength⟩ := h.ascii
    have hencode : Utf8.encode text = text.toList.map fun c => UInt8.ofNat c.toNat := by
      have := Utf8.encode_ofList_of_lt hascii
      rwa [String.ofList_toList] at this
    rw [decode, hencode, List.length_map, if_neg (by omega), decodePairs_of_spells h]

/-- The digits that are written spell their bytes. -/
theorem spells_digits (bytes : Bytes) : Spells (digits bytes) bytes := by
  induction bytes with
  | nil => trivial
  | cons x bytes ih =>
    have hx := x.toNat_lt
    exact ⟨(valueOf?_digit (by omega)).1, (valueOf?_digit (by omega)).1, ih⟩

theorem isUpper_of_mem_digits {bytes : Bytes} {c : Char} (h : c ∈ digits bytes) :
    c.isUpper = false := by
  induction bytes with
  | nil => cases h
  | cons x bytes ih =>
    have hx := x.toNat_lt
    rcases List.mem_cons.1 h with rfl | h
    · exact isUpper_digit (by omega)
    · rcases List.mem_cons.1 h with rfl | h
      · exact isUpper_digit (by omega)
      · exact ih h

/-- **Bytes are read back from their digits.** -/
theorem decode_encode (bytes : Bytes) : decode (encode bytes) = .ok bytes := by
  rw [decode_eq_ok_iff, encode, String.toList_ofList]
  exact spells_digits bytes

theorem digits_injective : Function.Injective digits := by
  intro b c h
  have hb := decode_encode b
  rw [encode, h, ← encode, decode_encode] at hb
  exact (Except.ok.inj hb).symm

/-- Digits without uppercase letters are those that are written. -/
theorem digits_of_spells {cs : List Char} {bytes : Bytes} (h : Spells cs bytes)
    (hcase : ∀ c ∈ cs, c.isUpper = false) : digits bytes = cs := by
  induction bytes generalizing cs with
  | nil =>
    rcases cs with _ | ⟨a, _ | ⟨b, cs⟩⟩
    · rfl
    · cases h
    · cases h
  | cons x bytes ih =>
    rcases cs with _ | ⟨a, _ | ⟨b, cs⟩⟩
    · cases h
    · cases h
    · obtain ⟨ha, hb, hrest⟩ := h
      have hcs : ∀ c ∈ cs, c.isUpper = false := by
        intro c hc
        exact hcase c (by simp [hc])
      rw [digits, digit_of_valueOf? ha (hcase a (by simp)),
        digit_of_valueOf? hb (hcase b (by simp)), ih hrest hcs]

end Hex

end Text

end ChainKit
