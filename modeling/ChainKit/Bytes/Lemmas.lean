import ChainKit.Bytes
import Mathlib

/-!
# Bytes — the numbers that byte strings spell, and their pieces

A concatenation spells the first number shifted past the second, so what
is written in a width spells the number again, up to the bytes that fit.
Bytes are cut into pieces without loss, and pieces of one size that stand
side by side are found again.
-/

namespace ChainKit

namespace Bytes

/-- Reading a concatenation shifts the first part past the second. -/
theorem toNat_append (a b : Bytes) : toNat (a ++ b) = toNat a * 256 ^ b.length + toNat b := by
  have shift : ∀ (l : Bytes) (n : Nat),
      l.foldl (fun n (x : UInt8) => n * 256 + x.toNat) n = n * 256 ^ l.length + toNat l := by
    intro l
    induction l with
    | nil => simp [toNat]
    | cons x l ih =>
      intro n
      have hx : toNat (x :: l) = x.toNat * 256 ^ l.length + toNat l := by
        rw [toNat, List.foldl_cons, ih]; simp
      rw [List.foldl_cons, ih, hx, List.length_cons, Nat.pow_succ, Nat.add_mul, Nat.mul_assoc,
        Nat.mul_comm 256 (256 ^ l.length), Nat.add_assoc]
  rw [toNat, List.foldl_append, shift b]
  rfl

theorem toNat_singleton (x : UInt8) : toNat [x] = x.toNat := by simp [toNat]

/-- A byte in front counts the power of 256 with the number of bytes behind it. -/
theorem toNat_cons (x : UInt8) (b : Bytes) :
    toNat (x :: b) = x.toNat * 256 ^ b.length + toNat b := by
  rw [← List.singleton_append, toNat_append, toNat_singleton]

/-- A byte at the end counts ones. -/
theorem toNat_concat (b : Bytes) (x : UInt8) : toNat (b ++ [x]) = toNat b * 256 + x.toNat := by
  rw [toNat_append, toNat_singleton, List.length_singleton, Nat.pow_one]

/-- The last byte is what is left of the number, and the others spell its quotient. -/
theorem last_place (n : Nat) (x : UInt8) :
    (n * 256 + x.toNat) / 256 = n ∧ UInt8.ofNat (n * 256 + x.toNat) = x := by
  have hlt := x.toNat_lt
  constructor
  · omega
  · rw [← UInt8.toNat_inj, UInt8.toNat_ofNat']
    omega

/-- The bytes of a length spell numbers below a bound. -/
theorem toNat_lt (b : Bytes) : toNat b < 256 ^ b.length := by
  induction b using List.reverseRecOn with
  | nil => decide
  | append_singleton b x ih =>
    have hlt := x.toNat_lt
    rw [toNat_concat, List.length_append, List.length_singleton, Nat.pow_succ]
    omega

/-- Bytes are written again from the number that they spell. -/
theorem ofNat_toNat (b : Bytes) : ofNat b.length (toNat b) = b := by
  induction b using List.reverseRecOn with
  | nil => rfl
  | append_singleton b x ih =>
    obtain ⟨hfront, hlast⟩ := last_place (toNat b) x
    rw [toNat_concat, List.length_append, List.length_singleton, ofNat, hfront, ih, hlast]

/-- What is written in a width is read back, up to the bytes that fit. -/
theorem toNat_ofNat (width n : Nat) : toNat (ofNat width n) = n % 256 ^ width := by
  induction width generalizing n with
  | zero => simp [ofNat, toNat, Nat.mod_one]
  | succ width ih =>
    rw [ofNat, toNat_concat, ih, Nat.pow_succ, Nat.mul_comm (256 ^ width) 256, Nat.mod_mul,
      UInt8.toNat_ofNat']
    omega

/-- A number that fits in a width is read back. -/
theorem toNat_ofNat_of_lt {width n : Nat} (h : n < 256 ^ width) : toNat (ofNat width n) = n := by
  rw [toNat_ofNat, Nat.mod_eq_of_lt h]

/-! ## Pieces -/

section Pieces

variable {size : Nat} {b : Bytes}

theorem chunks_nil (size : Nat) : chunks size [] = [] := by
  rw [chunks, dif_neg (by simp)]

/-- Pieces of one size are found again side by side. -/
theorem chunks_flatten {pieces : List Bytes} (hsize : 0 < size)
    (h : ∀ piece ∈ pieces, piece.length = size) : chunks size pieces.flatten = pieces := by
  induction pieces with
  | nil => exact chunks_nil size
  | cons piece pieces ih =>
    obtain ⟨hpiece, hpieces⟩ := List.forall_mem_cons.1 h
    have hpos : 0 < (piece ++ pieces.flatten).length := by
      rw [List.length_append]
      omega
    rw [List.flatten_cons, chunks, dif_pos ⟨hsize, hpos⟩, List.take_left' hpiece,
      List.drop_left' hpiece, ih hpieces]

/-- The pieces side by side are the bytes. -/
theorem flatten_chunks (hsize : 0 < size) (b : Bytes) : (chunks size b).flatten = b := by
  induction b using chunks.induct size with
  | case1 b hmore ih => rw [chunks, dif_pos hmore, List.flatten_cons, ih, List.take_append_drop]
  | case2 b hnone =>
    have hnil : b = [] := List.length_eq_zero_iff.1 (by omega)
    rw [hnil, chunks_nil, List.flatten_nil]

/-- Each piece has the size, if the length is a multiple of it. -/
theorem length_of_mem_chunks (hsize : 0 < size) (hb : size ∣ b.length) :
    ∀ piece ∈ chunks size b, piece.length = size := by
  induction b using chunks.induct size with
  | case1 b hmore ih =>
    have hle : size ≤ b.length := Nat.le_of_dvd hmore.2 hb
    have hrest : size ∣ (b.drop size).length := by
      rw [List.length_drop]
      exact Nat.dvd_sub hb (Nat.dvd_refl size)
    rw [chunks, dif_pos hmore, List.forall_mem_cons, List.length_take]
    exact ⟨by omega, ih hrest⟩
  | case2 b hnone =>
    have hnil : b = [] := List.length_eq_zero_iff.1 (by omega)
    rw [hnil, chunks_nil]
    exact fun piece hpiece => absurd hpiece List.not_mem_nil

end Pieces

end Bytes

end ChainKit
