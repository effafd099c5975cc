import ChainKit.Keys.WordList
import ChainKit.Proofs.Text.Blank
import ChainKit.Proofs.Text.Utf8
import Mathlib
/-!
# The words differ and are lowercase

The list is checked once, on the bytes of its words: they stand in
strictly rising order, and are lowercase letters. So every word stands at
one place only (`idxOf?_getD`), and its characters are letters.
-/

namespace ChainKit

open Text

namespace Keys

namespace WordList

/-- The bytes of a word, as numbers. -/
def codes (w : String) : List Nat := w.toByteArray.data.toList.map UInt8.toNat

theorem length_all : all.length = 2048 := by
  decide +kernel

set_option maxRecDepth 10000 in
theorem isChain_all : (all.map codes).IsChain (· < ·) := by
  decide +kernel

theorem codes_all :
    (all.all fun w => !(codes w).isEmpty && (codes w).all fun n => 97 ≤ n && n ≤ 122) = true := by
  decide +kernel

theorem codes_eq (w : String) : codes w = (Utf8.encode w).map UInt8.toNat := by
  rw [codes, ← String.utf8Encode_toList, List.utf8Encode, List.toList_data_toByteArray, Utf8.encode]

/-- **A word consists of lowercase letters**, of which it has one. -/
theorem letters_of_mem {w : String} (h : w ∈ all) :
    w.toList ≠ [] ∧ ∀ c ∈ w.toList, Folding.IsLetter c := by
  have hcodes := List.all_eq_true.1 codes_all w h
  simp only [codes_eq, Bool.and_eq_true, Bool.not_eq_true', List.isEmpty_eq_false_iff, ne_eq,
    List.map_eq_nil_iff, List.all_eq_true, List.mem_map, decide_eq_true_eq] at hcodes
  obtain ⟨hne, hletters⟩ := hcodes
  have hlist := Utf8.toList_of_encode fun b hb => by
    have := hletters b.toNat ⟨b, hb, rfl⟩
    omega
  rw [hlist]
  refine ⟨by simpa using hne, fun c hc => ?_⟩
  obtain ⟨b, hb, rfl⟩ := List.mem_map.1 hc
  obtain ⟨hlow, hhigh⟩ := hletters b.toNat ⟨b, hb, rfl⟩
  rw [Folding.IsLetter, Char.toNat_ofNat, if_pos (.inl (by omega))]
  exact ⟨hlow, hhigh⟩

/-- No word stands twice. -/
theorem nodup_all : all.Nodup := by
  have hsorted := List.isChain_iff_pairwise.1 isChain_all
  exact List.Nodup.of_map codes (hsorted.imp fun h => ne_of_lt h)

/-- **A word is found at its place.** -/
theorem idxOf?_getD {place : Nat} (h : place < 2048) :
    all.idxOf? (all.getD place "") = some place := by
  rw [← length_all] at h
  rw [List.getD_eq_getElem _ _ h, List.idxOf?_eq_some_iff]
  refine ⟨h, rfl, fun i hi heq => ?_⟩
  have := nodup_all.getElem_inj_iff.1 heq
  omega

end WordList

end Keys

end ChainKit
