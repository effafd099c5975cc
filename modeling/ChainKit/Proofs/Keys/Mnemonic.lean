import ChainKit.Bytes.Lemmas
import ChainKit.Keys.Mnemonic
import ChainKit.Proofs.Keys.WordList
import ChainKit.Proofs.Outcome
import Mathlib
/-!
# A phrase is read back as its secret

The words of a secret are the digits, in base 2048, of the secret with its
checking bits behind it. Reading puts the digits together again
(`foldl_places`), takes the checking bits off and finds that they fit, so
every secret comes back from its phrase (`ofPhrase_phrase`).
-/

namespace ChainKit

open Text

namespace Keys

namespace Mnemonic

/-! ## Digits -/

/-- The last digit is split off. -/
theorem places_succ (count n : Nat) :
    places (count + 1) n = places count (n / 2048) ++ [n % 2048] := by
  rw [places, List.range_succ, List.map_append, places]
  congr 1
  · refine List.map_congr_left fun i hi => ?_
    have hlt := List.mem_range.1 hi
    have hshift : 11 * (count + 1 - 1 - i) = 11 + 11 * (count - 1 - i) := by omega
    rw [hshift, Nat.shiftRight_add, Nat.shiftRight_eq_div_pow n 11]
  · simp

/-- **The places spell the number again**, up to as many digits as there are places. -/
theorem foldl_places (count n : Nat) :
    (places count n).foldl (fun n place => n * 2048 + place) 0 = n % 2048 ^ count := by
  induction count generalizing n with
  | zero => simp [places, Nat.mod_one]
  | succ count ih =>
    rw [places_succ, List.foldl_append, ih, Nat.pow_succ, Nat.mul_comm (2048 ^ count), Nat.mod_mul]
    simp only [List.foldl_cons, List.foldl_nil]
    omega

@[simp] theorem length_places (count n : Nat) : (places count n).length = count := by
  simp [places]

theorem lt_of_mem_places {count n place : Nat} (h : place ∈ places count n) : place < 2048 := by
  obtain ⟨i, -, rfl⟩ := List.mem_map.1 h
  exact Nat.mod_lt _ (by decide)

/-! ## Words -/

/-- The words at places of the list are found at these places. -/
theorem placesOf_words {ps : List Nat} (h : ∀ place ∈ ps, place < 2048) (i : Nat) :
    placesOf i ((ps.map fun place => WordList.all.getD place "").map String.toList) = .ok ps := by
  induction ps generalizing i with
  | nil => rfl
  | cons place ps ih =>
    have hplace := WordList.idxOf?_getD (h place List.mem_cons_self)
    have hrest := ih (fun p hp => h p (List.mem_cons_of_mem _ hp)) (i + 1)
    simp only [List.map_cons, placesOf, String.ofList_toList, hplace, hrest, Outcome.map_ok]

/-- **The words of a phrase are those that it was written from.** -/
theorem words_phrase (m : Mnemonic) :
    Folding.words m.phrase.toList = m.words.map String.toList := by
  have hmem : ∀ w ∈ m.words, w ∈ WordList.all := by
    intro w hw
    obtain ⟨place, hplace, rfl⟩ := List.mem_map.1 hw
    have hlt := lt_of_mem_places hplace
    rw [← WordList.length_all] at hlt
    rw [List.getD_eq_getElem _ _ hlt]
    exact List.getElem_mem hlt
  rw [phrase, String.toList_intercalate]
  refine Folding.words_intercalate_letters ?_ ?_
  · intro w hw
    obtain ⟨word, hword, rfl⟩ := List.mem_map.1 hw
    exact (WordList.letters_of_mem (hmem word hword)).1
  · intro w hw
    obtain ⟨word, hword, rfl⟩ := List.mem_map.1 hw
    exact (WordList.letters_of_mem (hmem word hword)).2

/-! ## Secrets -/

/-- The number of checking bits: one for four bytes. -/
def checkingBits (m : Mnemonic) : Nat := m.entropy.length / 4

/-- The number that the words spell. -/
def number (m : Mnemonic) : Nat :=
  Bytes.toNat m.entropy * 2 ^ m.checkingBits + checksum m.checkingBits m.entropy

theorem words_eq (m : Mnemonic) : m.words =
    (places (m.checkingBits * 3) m.number).map fun place => WordList.all.getD place "" := by
  rw [number, ← Nat.shiftLeft_eq]
  rfl

theorem checkingBits_bounds (m : Mnemonic) :
    4 ≤ m.checkingBits ∧ m.checkingBits ≤ 8 ∧ m.checkingBits * 4 = m.entropy.length := by
  obtain ⟨hlow, hhigh, hfour⟩ := m.size
  unfold checkingBits
  omega

/-- A checksum has as many bits as asked for. -/
theorem checksum_lt {bits : Nat} (h : bits ≤ 8) (entropy : Bytes) :
    checksum bits entropy < 2 ^ bits := by
  have hbyte : Bytes.toNat ((Sha256.digest entropy).take 1) < 2 ^ (8 - bits) * 2 ^ bits := by
    refine Nat.lt_of_lt_of_le (Bytes.toNat_lt _) ?_
    rw [← Nat.pow_add, Nat.sub_add_cancel h]
    exact Nat.pow_le_pow_right (by decide) (by simp : _ ≤ 1)
  rw [checksum, Nat.shiftRight_eq_div_pow]
  exact Nat.div_lt_of_lt_mul hbyte

/-- All words together hold the secret and its checking bits. -/
theorem number_lt (m : Mnemonic) : m.number < 2048 ^ (m.checkingBits * 3) := by
  obtain ⟨-, hhigh, hlength⟩ := m.checkingBits_bounds
  have hentropy := Bytes.toNat_lt m.entropy
  have hcheck := checksum_lt hhigh m.entropy
  have hbytes : 256 ^ m.entropy.length * 2 ^ m.checkingBits = 2048 ^ (m.checkingBits * 3) := by
    have h256 : 256 = 2 ^ 8 := rfl
    have h2048 : 2048 = 2 ^ 11 := rfl
    rw [h256, h2048, ← Nat.pow_mul, ← Nat.pow_mul, ← Nat.pow_add]
    congr 1
    omega
  calc m.number < (Bytes.toNat m.entropy + 1) * 2 ^ m.checkingBits := by
        rw [number, Nat.add_mul, Nat.one_mul]
        omega
    _ ≤ 256 ^ m.entropy.length * 2 ^ m.checkingBits := Nat.mul_le_mul_right _ hentropy
    _ = _ := hbytes

/-- Without the checking bits the number is that of the secret. -/
theorem number_shiftRight (m : Mnemonic) :
    m.number >>> m.checkingBits = Bytes.toNat m.entropy := by
  have hcheck := checksum_lt m.checkingBits_bounds.2.1 m.entropy
  rw [Nat.shiftRight_eq_div_pow, number, Nat.mul_comm, Nat.mul_add_div (Nat.two_pow_pos _),
    Nat.div_eq_of_lt hcheck, Nat.add_zero]

/-- The last bits of the number check the others. -/
theorem number_mod (m : Mnemonic) :
    m.number % 1 <<< m.checkingBits = checksum m.checkingBits m.entropy := by
  have hcheck := checksum_lt m.checkingBits_bounds.2.1 m.entropy
  rw [Nat.one_shiftLeft, number, Nat.mul_comm, Nat.mul_add_mod, Nat.mod_eq_of_lt hcheck]

/-- **Every secret is read back from its phrase.** -/
theorem ofPhrase_phrase (m : Mnemonic) : ofPhrase m.phrase = .ok m := by
  obtain ⟨hlow, hhigh, hlength⟩ := m.checkingBits_bounds
  have hcount : (Folding.words m.phrase.toList).length = m.checkingBits * 3 := by
    rw [words_phrase, words_eq, List.length_map, List.length_map, length_places]
  have hallowed : isWordCount (m.checkingBits * 3) = true := by
    simp only [isWordCount, Bool.and_eq_true, decide_eq_true_eq]
    omega
  have hplaces : placesOf 0 (Folding.words m.phrase.toList) =
      .ok (places (m.checkingBits * 3) m.number) := by
    rw [words_phrase, words_eq]
    exact placesOf_words (fun _ => lt_of_mem_places) 0
  have hnumber : (places (m.checkingBits * 3) m.number).foldl (fun n place => n * 2048 + place) 0 =
      m.number := by
    rw [foldl_places, Nat.mod_eq_of_lt m.number_lt]
  have hbits : m.checkingBits * 3 / 3 = m.checkingBits := by omega
  simp only [ofPhrase, hcount, hallowed, hplaces, hnumber, hbits, number_shiftRight, hlength,
    Bytes.ofNat_toNat, number_mod, Bool.not_true, Bool.false_eq_true, if_false, if_true,
    Outcome.ok_bind, ofEntropy, m.size, and_self, dite_true]

end Mnemonic

end Keys

end ChainKit
