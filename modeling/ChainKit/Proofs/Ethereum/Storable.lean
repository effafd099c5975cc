import ChainKit.Proofs.Ethereum.Canonical
import Mathlib
/-!
# Every message can be stored

A message is written for every chain whose number on the wire is a word,
and what is written stores it: all its fields, both scalars with their
leading zeros, the chain and the parity (`stores_signed_iff`). Fields and
data are of any size. The format alone sets a limit: a header tells a
length of eight bytes at most, so what is written is read back exactly if
it has less than 2⁶⁴ + 9 bytes.
-/

namespace ChainKit

namespace Ethereum

namespace SignedMessage

variable {b : Bytes} {items : List Bytes} {m : Message} {chain : UInt64} {parts : SignatureParts}

/-- Bytes that are read as a list are a payload whose length is a word behind nine bytes at
most. -/
theorem length_lt_of_strings (h : strings b = .ok items) : b.length < 2 ^ 64 + 9 := by
  obtain ⟨payload, hitem, -, -⟩ := strings_eq_ok.1 h
  have hlength := Rlp.length_of_item hitem
  rw [List.length_nil] at hlength
  omega

/-- **Every message is written, and what is written stores it**, as long as a header can tell its
length. -/
theorem stores_signed_iff (hbit : parts.recovery.toNat ≤ 1)
    (hword : 35 + 2 * chain.toNat + parts.recovery.toNat < 2 ^ 64) :
    ∃ b, m.signed chain parts = .ok b ∧
      (Stores b m chain parts ↔ b.length < 2 ^ 64 + 9) := by
  obtain ⟨v, hv⟩ := exists_signatureV hword
  have hsplit := splitV_signatureV hbit hword hv
  refine ⟨_, by rw [Message.signed, hv]; rfl, ?_⟩
  rw [stores_iff]
  constructor
  · rintro ⟨v', r, s, hstrings, -⟩
    exact length_lt_of_strings hstrings
  · intro hlength
    have hread := strings_list (Rlp.length_list_lt_iff.1 hlength)
    exact ⟨v, _, _, hread, scalar_trim _ _, scalar_trim _ _, hsplit⟩

/-- A payment is stored on the first chain. -/
theorem stores_signed_iff_samplePayment :
    ∃ b, samplePayment.signed 1 samplePaymentParts = .ok b ∧
      Stores b samplePayment 1 samplePaymentParts := by
  have hbit : samplePaymentParts.recovery.toNat ≤ 1 := by decide
  have hword : 35 + 2 * (1 : UInt64).toNat + samplePaymentParts.recovery.toNat < 2 ^ 64 := by
    decide
  obtain ⟨b, hb, hstores⟩ := stores_signed_iff (m := samplePayment) hbit hword
  refine ⟨b, hb, hstores.2 ?_⟩
  cases hb.symm.trans stores_paddedPayment.2
  rw [strings_samplePayment]
  decide

end SignedMessage

end Ethereum

end ChainKit
