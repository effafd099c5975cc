/-!
# Bytes — byte strings and the numbers they spell

A byte string is a list of bytes, read as a number with the most
significant byte first. `Bytes.ofNat` writes a number in a fixed width
and `Bytes.ofNatTrimmed` in the fewest bytes; `Bytes.toNat` reads both.
-/

namespace ChainKit

/-- A string of bytes. -/
abbrev Bytes := List UInt8

namespace Bytes

/-- The low `width` bytes of `n`, the most significant first. -/
def ofNat : (width : Nat) → (n : Nat) → Bytes
  | 0, _ => []
  | width + 1, n => ofNat width (n / 256) ++ [UInt8.ofNat n]

/-- The low `width` bytes of `n`, the least significant first. -/
def ofNatLow : (width : Nat) → (n : Nat) → Bytes
  | 0, _ => []
  | width + 1, n => UInt8.ofNat n :: ofNatLow width (n / 256)

/-- The fewest bytes that spell `n`, the most significant first; none for
zero. -/
def ofNatTrimmed (n : Nat) : Bytes :=
  if n = 0 then [] else ofNatTrimmed (n / 256) ++ [UInt8.ofNat n]
termination_by n
decreasing_by omega

/-- The number that bytes spell, the most significant first. -/
def toNat (b : Bytes) : Nat :=
  b.foldl (fun n x => n * 256 + x.toNat) 0

/-- The number that bytes spell, the least significant first. -/
def toNatLow : Bytes → Nat
  | [] => 0
  | x :: rest => x.toNat + 256 * toNatLow rest

/-- `count` zero bytes. -/
def zeros (count : Nat) : Bytes := List.replicate count 0

/-- The bytes padded on the left with zeros up to `width`. -/
def padLeft (width : Nat) (b : Bytes) : Bytes := zeros (width - b.length) ++ b

/-- The bytes cut into pieces of `size`, the last one shorter where the
length is no multiple; no piece at all for `size = 0`. -/
def chunks (size : Nat) (b : Bytes) : List Bytes :=
  if _h : 0 < size ∧ 0 < b.length then b.take size :: chunks size (b.drop size) else []
termination_by b.length
decreasing_by
  simp only [List.length_drop]
  omega

/-- The first `count` bytes and the rest, if there are that many. -/
def split? (count : Nat) (b : Bytes) : Option (Bytes × Bytes) :=
  if count ≤ b.length then some (b.take count, b.drop count) else none

/-- The part split off and the rest are the whole. -/
theorem append_of_split? {count : Nat} {b front rest : Bytes}
    (h : split? count b = some (front, rest)) : front ++ rest = b ∧ front.length = count := by
  unfold split? at h
  split at h
  · cases h
    simp only [List.take_append_drop, List.length_take, true_and]
    omega
  · cases h

@[simp] theorem length_ofNat (width n : Nat) : (ofNat width n).length = width := by
  induction width generalizing n with
  | zero => rfl
  | succ width ih => simp [ofNat, ih]

@[simp] theorem length_ofNatLow (width n : Nat) : (ofNatLow width n).length = width := by
  induction width generalizing n with
  | zero => rfl
  | succ width ih => simp [ofNatLow, ih]

end Bytes

end ChainKit
