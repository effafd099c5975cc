import ChainKit.Bytes.Lemmas
import ChainKit.Proofs.Text.Utf8
import Mathlib
/-!
# Numbers and their bytes

A number is the sum of its bytes by their places (`toNat_eq_positional`).
Of the bytes that spell it, the fewest start with no zero
(`ofNatTrimmed_toNat`), and all others are these behind zeros, so two byte
strings spell one number exactly if they differ in the zeros in front
(`toNat_eq_iff`).
-/

namespace ChainKit

namespace Bytes

/-! ## Places -/

/-- The sum of the bytes, each times the power of 256 of its place: the last one counts ones, and
every other one counts 256 times as much as the one behind it. -/
def positional (b : Bytes) : Nat := ∑ i : Fin b.length, b[i].toNat * 256 ^ (b.length - 1 - i)

/-- A byte in front leaves the places behind it as they are. -/
theorem positional_cons (x : UInt8) (b : Bytes) :
    positional (x :: b) = x.toNat * 256 ^ b.length + positional b := by
  have hplace : ∀ i : Fin b.length, b.length - (i + 1) = b.length - 1 - i := by
    intro i
    omega
  simp only [positional, List.length_cons, Fin.sum_univ_succ, Fin.getElem_fin, Fin.val_zero,
    List.getElem_cons_zero, Fin.val_succ, List.getElem_cons_succ, Nat.add_sub_cancel, Nat.sub_zero,
    hplace]

/-- Bytes that are read one after the other spell the sum of their places. -/
theorem toNat_eq_positional (b : Bytes) : toNat b = positional b := by
  induction b with
  | nil => rfl
  | cons x b ih => rw [toNat_cons, ih, positional_cons]

/-! ## The fewest bytes of a number -/

@[simp] theorem ofNatTrimmed_zero : ofNatTrimmed 0 = [] := by
  rw [ofNatTrimmed, if_pos rfl]

theorem ofNatTrimmed_of_pos {n : Nat} (h : 0 < n) :
    ofNatTrimmed n = ofNatTrimmed (n / 256) ++ [UInt8.ofNat n] := by
  rw [ofNatTrimmed, if_neg (by omega)]

theorem ofNatTrimmed_ne_nil {n : Nat} (h : 0 < n) : ofNatTrimmed n ≠ [] := by
  simp [ofNatTrimmed_of_pos h]

/-- The fewest bytes of a number spell it. -/
@[simp] theorem toNat_ofNatTrimmed (n : Nat) : toNat (ofNatTrimmed n) = n := by
  induction n using Nat.strong_induction_on with
  | _ n ih =>
    rcases Nat.eq_zero_or_pos n with rfl | hpos
    · simp [toNat]
    · rw [ofNatTrimmed_of_pos hpos, toNat_concat, ih (n / 256) (by omega), UInt8.toNat_ofNat']
      omega

/-- Different numbers have different fewest bytes. -/
theorem ofNatTrimmed_injective : Function.Injective ofNatTrimmed :=
  Function.LeftInverse.injective toNat_ofNatTrimmed

/-- No zero stands in front of them. -/
theorem head?_ofNatTrimmed (n : Nat) : (ofNatTrimmed n).head? ≠ some 0 := by
  induction n using Nat.strong_induction_on with
  | _ n ih =>
    rcases Nat.eq_zero_or_pos n with rfl | hpos
    · simp
    · rw [ofNatTrimmed_of_pos hpos]
      rcases Nat.eq_zero_or_pos (n / 256) with hsmall | hlarge
      · -- a single byte, which is the number itself
        have hbyte : UInt8.ofNat n ≠ 0 := by
          intro hzero
          have := congrArg UInt8.toNat hzero
          rw [Text.Utf8.toNat_ofNat_of_lt (by omega)] at this
          simp at this
          omega
        simpa [hsmall] using hbyte
      · rw [List.head?_append_of_ne_nil _ (ofNatTrimmed_ne_nil hlarge)]
        exact ih (n / 256) (by omega)

/-- A number below a power of 256 takes no more bytes than its exponent. -/
theorem length_ofNatTrimmed_le {width n : Nat} (h : n < 256 ^ width) :
    (ofNatTrimmed n).length ≤ width := by
  induction width generalizing n with
  | zero =>
    have hn : n = 0 := by simpa using h
    simp [hn]
  | succ width ih =>
    rcases Nat.eq_zero_or_pos n with rfl | hpos
    · simp
    · rw [Nat.pow_succ] at h
      have := ih (n := n / 256) (by omega)
      rw [ofNatTrimmed_of_pos hpos, List.length_append, List.length_singleton]
      omega

/-- A number is below the power of 256 with the number of its bytes. -/
theorem lt_pow_length_ofNatTrimmed (n : Nat) : n < 256 ^ (ofNatTrimmed n).length := by
  have hlt := toNat_lt (ofNatTrimmed n)
  rwa [toNat_ofNatTrimmed] at hlt

/-- Bytes that start with no zero are the fewest that spell their number. -/
theorem ofNatTrimmed_toNat {b : Bytes} (h : b.head? ≠ some 0) : ofNatTrimmed (toNat b) = b := by
  induction b using List.reverseRecOn with
  | nil => simp [toNat]
  | append_singleton b x ih =>
    obtain ⟨hfront, hlast⟩ := last_place (toNat b) x
    have hb : b.head? ≠ some 0 := by
      rcases b with _ | ⟨y, b⟩
      · simp
      · exact h
    have hpos : 0 < toNat b * 256 + x.toNat := by
      rcases Nat.eq_zero_or_pos (toNat b) with hzero | hpos
      · -- nothing stands in front, so the last byte is the first
        have hnil : b = [] := by rw [← ih hb, hzero, ofNatTrimmed_zero]
        subst hnil
        have hne : x.toNat ≠ 0 := fun hx0 => h (congrArg some (UInt8.toNat_inj.1 hx0))
        omega
      · omega
    rw [toNat_concat, ofNatTrimmed_of_pos hpos, hfront, ih hb, hlast]

/-! ## Zeros in front -/

/-- Leading zeros that were dropped are filled in again. -/
theorem padLeft_dropWhile (b : Bytes) : padLeft b.length (b.dropWhile (· = 0)) = b := by
  induction b with
  | nil => rfl
  | cons x b ih =>
    by_cases hx : x = 0
    · subst hx
      have hle : (b.dropWhile (· = 0)).length ≤ b.length := List.length_dropWhile_le _ _
      rw [padLeft, zeros] at ih ⊢
      rw [List.dropWhile_cons_of_pos (by simp), List.length_cons, Nat.succ_sub hle,
        List.replicate_succ, List.cons_append, ih]
    · simp [padLeft, zeros, hx]

/-- Zeros that are filled in are dropped again, with those that stood there. -/
theorem dropWhile_padLeft (width : Nat) (b : Bytes) :
    (padLeft width b).dropWhile (· = 0) = b.dropWhile (· = 0) := by
  rw [padLeft, zeros]
  induction width - b.length with
  | zero => rfl
  | succ n ih => rwa [List.replicate_succ, List.cons_append, List.dropWhile_cons_of_pos (by simp)]

/-- What is left of bytes without the zeros in front starts with no zero. -/
theorem head?_dropWhile (b : Bytes) : (b.dropWhile (· = 0)).head? ≠ some 0 := by
  intro h
  have hfirst := List.head?_dropWhile_not (fun x : UInt8 => decide (x = 0)) b
  rw [h] at hfirst
  simp at hfirst

/-- Zeros in front do not count. -/
theorem toNat_dropWhile (b : Bytes) : toNat (b.dropWhile (· = 0)) = toNat b := by
  induction b with
  | nil => rfl
  | cons x b ih =>
    by_cases hx : x = 0
    · have hzero : toNat (x :: b) = toNat b := by simp [hx, toNat_cons]
      rw [List.dropWhile_cons_of_pos (by simpa using hx), ih, hzero]
    · rw [List.dropWhile_cons_of_neg (by simpa using hx)]

/-- **Byte strings spell one number exactly if they are the same without the zeros in front.** -/
theorem toNat_eq_iff {a b : Bytes} :
    toNat a = toNat b ↔ a.dropWhile (· = 0) = b.dropWhile (· = 0) := by
  constructor
  · intro h
    -- what is left are the fewest bytes of the number
    rw [← ofNatTrimmed_toNat (head?_dropWhile a), ← ofNatTrimmed_toNat (head?_dropWhile b),
      toNat_dropWhile, toNat_dropWhile, h]
  · intro h
    rw [← toNat_dropWhile a, h, toNat_dropWhile]

end Bytes

end ChainKit
