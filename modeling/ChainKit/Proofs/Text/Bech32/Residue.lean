import ChainKit.Proofs.Text.Bech32
import Mathlib
/-!
# Residues tell symbols apart

Taking a symbol into the checksum can be undone. The bits that are shifted
out show in the five low bits of what they add (`feedback_low`), so the
residue before a symbol is found again from the one behind it
(`absorb_left_injective`). Two texts that differ in one symbol therefore
keep different residues to the end, wherever the symbol stands
(`residue_set_ne`). Up to six symbols are found again from the residue
that they leave (`foldl_absorb_right_injective`), so a text has one checksum
(`exists_checksum`).
-/

namespace ChainKit

namespace Text

namespace Bech32

variable {r t : Residue} {s : Symbol}

/-! ## One symbol -/

/-- The generators are told apart by their five low bits, in every sum of them. -/
theorem feedback_low (h : (feedback r).setWidth 5 = 0) :
    r.getLsbD 25 = false ∧ r.getLsbD 26 = false ∧ r.getLsbD 27 = false ∧ r.getLsbD 28 = false ∧
      r.getLsbD 29 = false := by
  unfold feedback at h
  generalize r.getLsbD 25 = a, r.getLsbD 26 = b, r.getLsbD 27 = c, r.getLsbD 28 = d,
    r.getLsbD 29 = e at h ⊢
  revert a b c d e
  decide

/-- Nothing is added while nothing is shifted out. -/
theorem feedback_eq_zero (h : ∀ i, 25 ≤ i → r.getLsbD i = false) : feedback r = 0 := by
  rw [feedback, h 25 (by omega), h 26 (by omega), h 27 (by omega), h 28 (by omega),
    h 29 (by omega)]
  rfl

/-- Only the residue zero becomes zero. -/
theorem eq_zero_of_absorb (h : absorb r 0 = 0) : r = 0 := by
  have hxor : r <<< 5 ^^^ feedback r = 0 := by
    have := absorb_eq r 0
    rw [h] at this
    simpa using this.symm
  -- the low bits are those of the feedback alone
  have hlow : (feedback r).setWidth 5 = 0 := by
    ext i hi
    have hbit := congrArg (fun x : Residue => x.getLsbD i) hxor
    simpa [hi] using hbit
  obtain ⟨h0, h1, h2, h3, h4⟩ := feedback_low hlow
  have hhigh : ∀ i, 25 ≤ i → r.getLsbD i = false := by
    intro i hi
    by_cases hlt : i < 30
    · interval_cases i <;> assumption
    · exact BitVec.getLsbD_of_ge r i (by omega)
  rw [feedback_eq_zero hhigh] at hxor
  ext i hi
  by_cases hlt : i < 25
  · have hbit := congrArg (fun x : Residue => x.getLsbD (i + 5)) hxor
    simpa [show i + 5 < 30 by omega] using hbit
  · rw [← BitVec.getLsbD_eq_getElem, hhigh i (by omega)]
    simp

/-- Taking in a symbol moves the residues of all texts alike. -/
theorem absorb_eq_xor (r : Residue) (s : Symbol) : absorb r s = absorb r 0 ^^^ s.setWidth 30 := by
  simp only [absorb_eq, BitVec.ofNat_eq_ofNat, BitVec.setWidth_zero, BitVec.xor_zero]
  ac_rfl

/-- **The residue before a symbol is found again.** -/
theorem absorb_left_injective (h : absorb r s = absorb t s) : r = t := by
  have hzero : absorb (r ^^^ t) 0 = 0 := by
    rw [absorb_xor]
    rw [absorb_eq_xor r, absorb_eq_xor t] at h
    rw [(BitVec.xor_left_inj _).1 h, BitVec.xor_self]
    rfl
  have hxor : r ^^^ t = 0 := eq_zero_of_absorb hzero
  rw [← BitVec.xor_right_inj t, BitVec.xor_self, BitVec.xor_comm, hxor]
  rfl

/-- The symbol is found again from the residues before and behind it. -/
theorem absorb_right_injective {s s' : Symbol} (h : absorb r s = absorb r s') : s = s' := by
  rw [absorb_eq_xor r s, absorb_eq_xor r s', BitVec.xor_right_inj] at h
  have hlow := congrArg (BitVec.setWidth 5) h
  simpa using hlow

/-! ## Texts -/

theorem foldl_absorb_left_injective {symbols : List Symbol}
    (h : symbols.foldl absorb r = symbols.foldl absorb t) : r = t := by
  induction symbols generalizing r t with
  | nil => exact h
  | cons s symbols ih => exact absorb_left_injective (ih h)

/-- **Replacing one symbol changes the residue**, wherever it stands. -/
theorem residue_set_ne {front symbols : List Symbol} {j : Nat} {s s' : Symbol}
    (h : symbols[j]? = some s) (hne : s ≠ s') :
    residue (front ++ symbols.set j s') ≠ residue (front ++ symbols) := by
  intro heq
  obtain ⟨hj, rfl⟩ := List.getElem?_eq_some_iff.1 h
  -- both texts are the same in front of the symbol and behind it
  have hself : symbols = symbols.take j ++ symbols[j] :: symbols.drop (j + 1) := by
    rw [List.cons_getElem_drop_succ, List.take_append_drop]
  have hother : symbols.set j s' = symbols.take j ++ s' :: symbols.drop (j + 1) := by
    rw [List.set_eq_take_append_cons_drop, if_pos hj]
  rw [hother] at heq
  conv at heq => rhs; rw [hself]
  simp only [residue, List.foldl_append, List.foldl_cons] at heq
  exact hne (absorb_right_injective (foldl_absorb_left_injective heq)).symm

/-! ## Checksums -/

/-- A symbol is put behind a residue of 25 bits. -/
theorem absorb_of_small (h : r >>> 25 = 0) :
    absorb r s >>> 5 = r ∧ (absorb r s).setWidth 5 = s := by
  have hhigh : ∀ i, 25 ≤ i → r.getLsbD i = false := by
    intro i hi
    have hbit := congrArg (fun x : Residue => x.getLsbD (i - 25)) h
    have hindex : 25 + (i - 25) = i := by omega
    simpa [hindex] using hbit
  rw [absorb_eq, feedback_eq_zero hhigh]
  constructor
  · ext i hi
    by_cases hlt : i < 25
    · simp [show 5 + i < 30 by omega]
    · have hbit : r[i] = false := by rw [← BitVec.getLsbD_eq_getElem, hhigh i (by omega)]
      rw [hbit]
      simpa using fun _ => hhigh i (by omega)
  · ext i hi
    simp

theorem ushiftRight_of_le {k n : Nat} (h : r >>> n = 0) (hle : n ≤ k) : r >>> k = 0 := by
  have hsplit : k = n + (k - n) := by omega
  rw [hsplit, BitVec.shiftRight_add, h]
  simp

/-- Up to six symbols take five bits each. -/
theorem foldl_absorb_ushiftRight {symbols : List Symbol} (h : symbols.length ≤ 6) :
    symbols.foldl absorb 0 >>> (5 * symbols.length) = 0 := by
  induction symbols using List.reverseRecOn with
  | nil => rfl
  | append_singleton symbols s ih =>
    rw [List.length_append, List.length_singleton] at h ⊢
    have hfront := ih (by omega)
    have hsmall := ushiftRight_of_le hfront (k := 25) (by omega)
    rw [List.foldl_append, List.foldl_cons, List.foldl_nil, Nat.mul_add, Nat.add_comm,
      BitVec.shiftRight_add, (absorb_of_small hsmall).1, hfront]

/-- Up to six symbols are found again from the residue that they make. -/
theorem foldl_absorb_right_injective {xs ys : List Symbol} (hlength : xs.length = ys.length)
    (hsix : xs.length ≤ 6) (h : xs.foldl absorb 0 = ys.foldl absorb 0) : xs = ys := by
  induction xs using List.reverseRecOn generalizing ys with
  | nil => exact (List.length_eq_zero_iff.1 hlength.symm).symm
  | append_singleton xs x ih =>
    obtain ⟨ys, y, rfl⟩ : ∃ ys' y, ys = ys' ++ [y] := by
      rcases List.eq_nil_or_concat' ys with rfl | hys
      · simp at hlength
      · exact hys
    simp only [List.length_append, List.length_singleton, Nat.add_right_cancel_iff] at hlength hsix
    simp only [List.foldl_append, List.foldl_cons, List.foldl_nil] at h
    -- no bit has been shifted out in front of the last symbol
    have hxs := foldl_absorb_ushiftRight (show xs.length ≤ 6 by omega)
    have hys := foldl_absorb_ushiftRight (show ys.length ≤ 6 by omega)
    obtain ⟨hxfront, hxlast⟩ := absorb_of_small (s := x) (ushiftRight_of_le hxs (by omega))
    obtain ⟨hyfront, hylast⟩ := absorb_of_small (s := y) (ushiftRight_of_le hys (by omega))
    have hfront : xs = ys := ih hlength (by omega) (by rw [← hxfront, h, hyfront])
    have hlast : x = y := by rw [← hxlast, h, hylast]
    rw [hfront, hlast]

/-- **Symbols whose residue is one are a payload and its checksum.** -/
theorem exists_checksum {hrp : List Char} {symbols : List Symbol} (hsix : 6 ≤ symbols.length)
    (h : residue (expand hrp ++ symbols) = 1) :
    ∃ payload, symbols = payload ++ checksum hrp payload := by
  obtain ⟨payload, tail, rfl, htail⟩ : ∃ payload tail, symbols = payload ++ tail ∧
      tail.length = 6 := by
    refine ⟨symbols.take (symbols.length - 6), symbols.drop (symbols.length - 6), ?_, ?_⟩
    · rw [List.take_append_drop]
    · rw [List.length_drop]
      omega
  have hlength : tail.length = (checksum hrp payload).length := htail.trans rfl
  have hchecksum := residue_checksum hrp payload
  rw [residue, ← List.append_assoc, List.foldl_append] at h hchecksum
  generalize (expand hrp ++ payload).foldl absorb 1 = r at h hchecksum
  -- what stands in front adds the same to both
  have hxor : r = r ^^^ 0 := by simp
  rw [hxor, foldl_absorb_xor] at h hchecksum
  rw [← hchecksum, hlength, BitVec.xor_right_inj] at h
  exact ⟨payload, by rw [foldl_absorb_right_injective hlength htail.le h]⟩

end Bech32

end Text

end ChainKit
