import ChainKit.Bytes

/-!
# Varints — numbers in groups of seven bits

The least significant group comes first, and every byte but the last
carries a mark. A number has at most ten bytes, the tenth of them at most
one, so it fits in 64 bits; shorter numbers may be spelled with groups of
zeros.
-/

namespace ChainKit

namespace Wire

namespace Varint

/-- The shortest spelling of a number. -/
def write (n : Nat) : Bytes :=
  if n < 128 then [UInt8.ofNat n] else UInt8.ofNat (n % 128 + 128) :: write (n / 128)
termination_by n
decreasing_by omega

/-- Reads a number of at most `count` bytes, and what follows it. -/
def readWithin : (count : Nat) → Bytes → Option (Nat × Bytes)
  | 0, _ => none
  | _, [] => none
  | count + 1, b :: rest =>
    if b < 128 then (if count = 0 && 1 < b then none else some (b.toNat, rest))
    else (readWithin count rest).map fun (n, rest) => (b.toNat - 128 + 128 * n, rest)

/-- Reads a number of at most ten bytes, and what follows it. -/
def read? (bytes : Bytes) : Option (Nat × Bytes) := readWithin 10 bytes

theorem readWithin_length {count n : Nat} {bytes rest : Bytes}
    (h : readWithin count bytes = some (n, rest)) : rest.length < bytes.length := by
  induction count generalizing bytes n with
  | zero => simp [readWithin] at h
  | succ count ih =>
    cases bytes with
    | nil => simp [readWithin] at h
    | cons b r =>
      rw [readWithin] at h
      split at h
      · split at h
        · cases h
        · cases h; simp
      · obtain ⟨⟨m, q⟩, hm, h⟩ := Option.map_eq_some_iff.1 h
        cases h
        have := ih hm
        simp only [List.length_cons]
        omega

/-- A number takes at least one byte. -/
theorem read?_length {n : Nat} {bytes rest : Bytes} (h : read? bytes = some (n, rest)) :
    rest.length < bytes.length := readWithin_length h

end Varint

end Wire

end ChainKit
