import ChainKit.Keys.Path
import ChainKit.Proofs.Outcome
import ChainKit.Proofs.Text.Blank
import ChainKit.Proofs.Text.Numeral
import Mathlib
/-!
# Paths are read back from their texts

An index is its number below the highest bit, and that bit if it is
hardened, so a number and an apostrophe tell all of it (`ofPart_text`).
Neither has a slash in it, so the pieces between slashes are the texts of
the indices one by one. The text of any path is read as that path, and no
two paths have the same text; that holds in particular of the paths that
have names, which there are for all numbers of 31 bits (`text_lossless`).
-/

namespace ChainKit

open Text

namespace Keys

namespace Index

variable (i : Index)

theorem toNat_hardenedBit : hardenedBit.toNat = 2 ^ 31 := rfl

/-- The number of an index is what is left without the highest bit. -/
theorem toNat_number : i.number.toNat = i.raw.toNat % 2 ^ 31 := by
  have hmask : (0x7FFFFFFF : UInt32).toNat = 2 ^ 31 - 1 := rfl
  rw [number, UInt32.toNat_and, hmask, Nat.and_two_pow_sub_one_eq_mod]

theorem isHardened_iff : i.isHardened = true ↔ 2 ^ 31 ≤ i.raw.toNat := by
  rw [isHardened, decide_eq_true_eq, UInt32.le_iff_toNat_le, toNat_hardenedBit]

/-- A number of 31 bits is in range. -/
theorem inRange_eq_ok {n m : UInt32} : inRange n = .ok m ↔ n.toNat < 2 ^ 31 ∧ n = m := by
  have hlt : n < hardenedBit ↔ n.toNat < 2 ^ 31 := UInt32.lt_iff_toNat_lt
  by_cases h : n < hardenedBit
  · rw [inRange, if_pos h, Except.ok.injEq, and_iff_right (hlt.1 h)]
  · rw [inRange, if_neg h]
    exact iff_of_false (fun hok => nomatch hok) fun hok => h (hlt.2 hok.1)

/-- Above a number of 31 bits, to put the highest bit in is to add it. -/
theorem toNat_or_hardenedBit {n : UInt32} (h : n.toNat < 2 ^ 31) :
    (n ||| hardenedBit).toNat = n.toNat + 2 ^ 31 := by
  have hor := Nat.two_pow_add_eq_or_of_lt h 1
  rw [UInt32.toNat_or, toNat_hardenedBit, Nat.or_comm]
  rw [Nat.mul_one] at hor
  omega

/-- **The hardened index of a number** is the one that has it and is hardened. -/
theorem hardened_eq_ok {n : UInt32} {i : Index} :
    hardened n = .ok i ↔ i.number = n ∧ i.isHardened = true := by
  simp only [hardened, Outcome.map_eq_ok, inRange_eq_ok, isHardened_iff, ← UInt32.toNat_inj,
    toNat_number]
  constructor
  · rintro ⟨m, ⟨hlt, hm⟩, rfl⟩
    have hraw := toNat_or_hardenedBit (n := m) (by omega)
    dsimp only
    omega
  · rintro ⟨hnumber, hhigh⟩
    have hlt := i.raw.toNat_lt
    refine ⟨i.number, ?_, ?_⟩
    · rw [toNat_number]
      omega
    · have hraw := toNat_or_hardenedBit (n := i.number) (by rw [toNat_number]; omega)
      rw [toNat_number] at hraw
      obtain ⟨raw⟩ := i
      rw [mk.injEq, ← UInt32.toNat_inj]
      dsimp only at *
      omega

/-- **The index of a number** is the one that has it and is not hardened. -/
theorem normal_eq_ok {n : UInt32} {i : Index} :
    normal n = .ok i ↔ i.number = n ∧ i.isHardened = false := by
  simp only [normal, Outcome.map_eq_ok, inRange_eq_ok, ← Bool.not_eq_true, isHardened_iff,
    ← UInt32.toNat_inj, toNat_number]
  constructor
  · rintro ⟨m, ⟨hlt, hm⟩, rfl⟩
    dsimp only
    omega
  · rintro ⟨hnumber, hlow⟩
    refine ⟨i.raw, ?_, rfl⟩
    omega

/-- An index below the highest bit is that of its number. -/
theorem normal_number (h : i.isHardened = false) : normal i.number = .ok i :=
  normal_eq_ok.2 ⟨rfl, h⟩

/-- An index with the highest bit is the hardened one of its number. -/
theorem hardened_number (h : i.isHardened = true) : hardened i.number = .ok i :=
  hardened_eq_ok.2 ⟨rfl, h⟩

/-- The last character of an index tells whether it is hardened. -/
theorem getLast?_text : i.text.getLast? = some '\x27' ↔ i.isHardened = true := by
  by_cases h : i.isHardened = true
  · simp [text, h]
  · have hdigits := Numeral.isDigits_iff.1 (Numeral.isDigits_toDigits i.number.toNat)
    rw [text, if_neg h, List.append_nil]
    refine iff_of_false (fun hlast => ?_) h
    exact absurd (hdigits.2 _ (List.mem_of_getLast? hlast)) (by decide)

/-- **An index is read back from its number and its apostrophe**, within whatever text. -/
theorem ofPart_text (within : String) : ofPart within i.text = .ok i := by
  by_cases h : i.isHardened = true
  · have hlast := i.getLast?_text.2 h
    have hfront : i.text.dropLast = Nat.toDigits 10 i.number.toNat := by
      rw [text, if_pos h, List.dropLast_concat]
    simp only [ofPart, hlast, if_true, hfront, Numeral.uint32?_toDigits]
    exact i.hardened_number h
  · have hlast := i.getLast?_text.not.2 h
    have hall : i.text = Nat.toDigits 10 i.number.toNat := by
      rw [text, if_neg h, List.append_nil]
    rw [hall] at hlast ⊢
    simp only [ofPart, hlast, if_false, Numeral.uint32?_toDigits]
    exact i.normal_number (Bool.eq_false_of_not_eq_true h)

/-- No slash stands in the text of an index. -/
theorem isSlash_of_mem_text : ∀ c ∈ i.text, decide (c = '/') = false := by
  intro c hc
  rw [decide_eq_false_iff_not]
  rintro rfl
  rcases List.mem_append.1 hc with hdigit | hmark
  · have hdigits := Numeral.isDigits_iff.1 (Numeral.isDigits_toDigits i.number.toNat)
    exact absurd (hdigits.2 _ hdigit) (by decide)
  · split at hmark <;> simp at hmark

/-- A hardened index has a number of 31 bits. -/
theorem exists_hardened_iff {n : UInt32} : (∃ i, hardened n = .ok i) ↔ n.toNat < 2 ^ 31 := by
  rw [hardened, Outcome.exists_map_eq_ok]
  simp [inRange_eq_ok]

/-- An index that is not hardened does as well. -/
theorem exists_normal_iff {n : UInt32} : (∃ i, normal n = .ok i) ↔ n.toNat < 2 ^ 31 := by
  rw [normal, Outcome.exists_map_eq_ok]
  simp [inRange_eq_ok]

end Index

namespace Path

/-- The pieces of a path's text are those of its indices, behind the root. -/
theorem pieces_text (p : Path) :
    pieces (· = '/') p.text.toList = ['m'] :: p.map Index.text := by
  have htext : p.text.toList = ['m'] ++ (p.map Index.text).flatMap ('/' :: ·) := by
    rw [text, String.toList_ofList, List.flatMap_map, List.singleton_append]
  rw [htext]
  refine pieces_flatMap rfl (by simp) ?_
  rw [List.forall_mem_map]
  exact fun i _ => i.isSlash_of_mem_text

/-- **A path is read back from its text**, whatever its indices. -/
theorem ofText_text (p : Path) : ofText p.text = .ok p := by
  have hparts : (p.map Index.text).mapM (Index.ofPart p.text) = .ok p := by
    rw [List.mapM_map]
    exact (Outcome.mapM_eq_pure fun i _ => i.ofPart_text p.text).trans (congrArg _ p.map_id)
  rw [ofText, pieces_text]
  exact hparts

theorem text_injective : Function.Injective text := by
  intro p q h
  have hread := p.ofText_text
  rw [h, ofText_text, Except.ok.injEq] at hread
  exact hread.symm

/-! ## Paths with names -/

/-- A path that is named by a few numbers. -/
inductive Preset where
  | simpleAddress (index : UInt32)
  | coin (coinType account change address : UInt32)
  | coinAccount (coinType account : UInt32)
  | nameService (account : UInt32)
  | ethereum (account : UInt32)

namespace Preset

/-- The numbers that name the path. -/
def numbers : Preset → List UInt32
  | simpleAddress index => [index]
  | coin coinType account change address => [coinType, account, change, address]
  | coinAccount coinType account => [coinType, account]
  | nameService account => [account]
  | ethereum account => [account]

/-- The path, if there is one. -/
def path : Preset → Except PathError Path
  | simpleAddress index => Path.simpleAddress index
  | coin coinType account change address => Path.coin coinType account change address
  | coinAccount coinType account => Path.coinAccount coinType account
  | nameService account => Path.nameService account
  | ethereum account => Path.ethereum account

/-- There is one if all numbers have 31 bits. -/
theorem exists_path_iff (preset : Preset) :
    (∃ p, preset.path = .ok p) ↔ ∀ n ∈ preset.numbers, n.toNat < 2 ^ 31 := by
  -- the numbers that the names themselves bring along
  have hfixed : ∀ n ∈ ([4804438, 44, 234, 60, 0] : List UInt32), n.toNat < 2 ^ 31 := by simp
  simp only [List.forall_mem_cons] at hfixed
  cases preset <;>
    simp only [path, Path.simpleAddress, Path.coin, Path.coinAccount, Path.nameService,
      Path.ethereum, Outcome.exists_bind_eq_ok, Outcome.pure_eq_ok, exists_eq', exists_and_right,
      Index.exists_hardened_iff, Index.exists_normal_iff, hfixed, numbers, List.forall_mem_cons,
      List.not_mem_nil, false_imp_iff, implies_true, and_true, true_and]

end Preset

/-- **Paths are told by their texts.** The text of every path is read as that path, and other paths
have other texts; the paths with names, which there are for numbers of 31 bits, are so as well. -/
theorem text_lossless (p q : Path) (preset : Preset) :
    ofText p.text = .ok p ∧ (p.text = q.text ↔ p = q) ∧
      ((∃ named, preset.path = .ok named) ↔ ∀ n ∈ preset.numbers, n.toNat < 2 ^ 31) ∧
      (preset.path >>= fun named => ofText named.text) = preset.path := by
  refine ⟨p.ofText_text, text_injective.eq_iff, preset.exists_path_iff, ?_⟩
  simp only [ofText_text]
  cases preset.path <;> rfl

end Path

end Keys

end ChainKit
