import ChainKit.Proofs.Bns.Field
import ChainKit.Proofs.Bytes
import Mathlib
/-!
# Identifiers are not cut

An identifier is written in eight bytes and read from any number of them,
by the sum of their places. Zeros in front do not matter, and a sum that
does not fit in 64 bits is refused with its value, never cut down to the
last eight bytes (`decode_iff_positional`).
-/

namespace ChainKit

namespace Bns

namespace NumericId

variable {field : String} {b : Bytes} {id : UInt64}

/-- Bytes are refused if there are none, or if what they spell does not fit; the rejection names
the field, and the value as it is. -/
theorem decode_eq_error {e : Rejection Rule Flaw} :
    decode field b = .error e ↔ b = [] ∧ e = .missing field ∨
      UInt64.size ≤ Bytes.toNat b ∧ e = .invalid (.idRange field (Bytes.toNat b)) := by
  by_cases hnil : b = []
  · subst hnil
    have hmissing : decode field [] = .error (.missing field) := rfl
    have hfits : ¬ UInt64.size ≤ Bytes.toNat [] := by decide
    rw [hmissing]
    simp [hfits, eq_comm]
  · rcases Nat.lt_or_ge (Bytes.toNat b) UInt64.size with hfits | hwide
    · have hread : decode field b = .ok (.ofNat (Bytes.toNat b)) :=
        decode_eq_ok.2 ⟨hnil, (UInt64.toNat_ofNat_of_lt hfits).symm⟩
      rw [hread]
      simp [hnil, Nat.not_le.2 hfits]
    · have hrange : decode field b = .error (.invalid (.idRange field (Bytes.toNat b))) := by
        rw [decode, Field.bytes_of_ne hnil, Outcome.ok_bind]
        exact if_neg (Nat.not_lt.2 hwide)
      rw [hrange]
      simp [hnil, hwide, eq_comm]

/-- Of the bytes that an identifier is read from, eight are those that it is written in. -/
theorem encode_eq_iff : encode id = b ↔ decode field b = .ok id ∧ b.length = 8 := by
  constructor
  · rintro rfl
    exact ⟨decode_encode field id, length_encode id⟩
  · rintro ⟨hread, hlength⟩
    rw [encode, ← (decode_eq_ok.1 hread).2, ← hlength, Bytes.ofNat_toNat]

/-- All others are these with zeros in front left out or added. -/
theorem decode_eq_ok_iff_dropWhile : decode field b = .ok id ↔
    b ≠ [] ∧ b.dropWhile (· = 0) = (encode id).dropWhile (· = 0) := by
  rw [decode_eq_ok, ← toNat_encode, Bytes.toNat_eq_iff]

/-- **Identifiers are not cut**, whatever the number of bytes that spell them. Bytes are read as an
identifier exactly if there are any and the sum of their places is the identifier, which fits in 64
bits. They are refused exactly if there are none, as a field that is missing, or if the sum does not
fit, as out of range, with the whole sum. What is written is read back, and eight bytes are written
again as they were read; other bytes are read alike exactly if they differ in the zeros in front. -/
theorem decode_iff_positional (field : String) (b : Bytes) :
    (∀ id, decode field b = .ok id ↔
      b ≠ [] ∧ b.positional = id.toNat ∧ b.positional < 2 ^ 64) ∧
    (∀ e, decode field b = .error e ↔ b = [] ∧ e = .missing field ∨
      2 ^ 64 ≤ b.positional ∧ e = .invalid (.idRange field b.positional)) ∧
    (∀ id, decode field (encode id) = .ok id) ∧
    (∀ id, encode id = b ↔ decode field b = .ok id ∧ b.length = 8) ∧
    ∀ id, decode field b = .ok id ↔
      b ≠ [] ∧ b.dropWhile (· = 0) = (encode id).dropWhile (· = 0) := by
  rw [← Bytes.toNat_eq_positional]
  refine ⟨fun id => ?_, fun e => decode_eq_error, decode_encode field, fun id => encode_eq_iff,
    fun id => decode_eq_ok_iff_dropWhile⟩
  rw [decode_eq_ok]
  constructor
  · rintro ⟨hne, hvalue⟩
    exact ⟨hne, hvalue, hvalue ▸ id.toNat_lt⟩
  · rintro ⟨hne, hvalue, -⟩
    exact ⟨hne, hvalue⟩

/-- Nine bytes are read if the first one is a zero, and refused with their whole value if not. -/
example : decode "id" [0, 0, 0, 0, 0, 0, 0, 0, 9] = .ok 9 ∧
    decode "id" [1, 0, 0, 0, 0, 0, 0, 0, 9] =
      .error (.invalid (.idRange "id" 18446744073709551625)) := by decide

end NumericId

end Bns

end ChainKit
