import ChainKit.Proofs.Ethereum.Message
import Mathlib
/-!
# Stored messages have one canonical spelling

Reading takes more than writing makes: headers longer than they have to
be, lists in place of strings, bytes behind the ninth string, 35 and 36
for a signature that is good on every chain, and zeros in front of a
scalar. Whatever was read is written again (`signed_of_stores`), and of
all bytes that store it the canonical ones are those that are written
(`signed_eq_iff_canonical`). So a message that came in another spelling is
written as other bytes, and those are the same for all its spellings.
-/

namespace ChainKit

namespace Ethereum

namespace SignedMessage

variable {b c : Bytes} {m : Message} {chain : UInt64} {parts : SignatureParts}

/-- The bytes store this message on this chain with this signature. -/
def Stores (b : Bytes) (m : Message) (chain : UInt64) (parts : SignatureParts) : Prop :=
  ∃ v, ofBytes b = .ok ⟨m, v, parts.r, parts.s⟩ ∧ splitV v = .ok (chain, parts.recovery)

/-- Bytes that are the list of their strings, in which neither 35 nor 36 stands for a signature
good on every chain and no zero stands in front of a scalar. -/
def Canonical (b : Bytes) : Prop :=
  ∃ front v r s, strings b = .ok (front ++ [v, r, s]) ∧ Rlp.list (front ++ [v, r, s]) = b ∧
    v ≠ [35] ∧ v ≠ [36] ∧ r.head? ≠ some 0 ∧ s.head? ≠ some 0

/-! ## Lengths -/

/-- Strings that were read take one word of bytes at most when they are written again. -/
theorem length_of_strings {items : List Bytes} (h : strings b = .ok items) :
    (items.flatMap Rlp.string).length < 2 ^ 64 := by
  obtain ⟨payload, hitem, -, rfl⟩ := strings_eq_ok.1 h
  exact Nat.lt_of_le_of_lt (Rlp.length_flatMap_payloads payload) (Rlp.length_of_item hitem).1

theorem trim_eq_self {r : Bytes} : Message.trim r = r ↔ r.head? ≠ some 0 := by
  constructor
  · intro hself
    rw [← hself]
    exact Bytes.head?_dropWhile r
  · intro hhead
    -- both are the fewest bytes of one number
    rw [Message.trim, ← Bytes.ofNatTrimmed_toNat (Bytes.head?_dropWhile r), Bytes.toNat_dropWhile,
      Bytes.ofNatTrimmed_toNat hhead]

/-- A scalar without the zeros in front of it takes no more bytes. -/
theorem length_string_trim {r : Bytes} (h : r.length ≤ 32) :
    (Rlp.string (Message.trim r)).length ≤ (Rlp.string r).length := by
  by_cases hself : Message.trim r = r
  · rw [hself]
  · -- a zero is gone, and makes room for the header
    have hprefix : (Message.trim r).length < r.length := by
      refine Nat.lt_of_le_of_ne (List.length_dropWhile_le _ _) fun hlength => hself ?_
      exact (List.dropWhile_suffix _).eq_of_length hlength
    have hshort := Rlp.length_string_le (b := Message.trim r) 0 (.inl (by omega))
    have hlong := Rlp.length_le_string r
    omega

/-- Nor does the number that is written for a chain and a parity. -/
theorem length_string_ownNumber (v : UInt64) :
    (Rlp.string (Bytes.ofNatTrimmed (ownNumber v).toNat)).length ≤
      (Rlp.string (Bytes.ofNatTrimmed v.toNat)).length := by
  unfold ownNumber
  split
  · rename_i hevery
    rcases hevery with rfl | rfl <;> simp [Bytes.ofNatTrimmed_of_pos, Rlp.string]
  · exact Nat.le_refl _

/-! ## Writing again -/

/-- The three strings behind the fields, as they are written. -/
def ownStrings (v : UInt64) (r s : Bytes) : List Bytes :=
  [Bytes.ofNatTrimmed (ownNumber v).toNat, Message.trim r, Message.trim s]

/-- They are the strings that were read if those are canonical. -/
theorem ownStrings_eq_iff {v : UInt64} {r s : Bytes} :
    ownStrings v r s = [Bytes.ofNatTrimmed v.toNat, r, s] ↔
      Bytes.ofNatTrimmed v.toNat ≠ [35] ∧ Bytes.ofNatTrimmed v.toNat ≠ [36] ∧
        r.head? ≠ some 0 ∧ s.head? ≠ some 0 := by
  have hnumber : ownNumber v = v ↔
      Bytes.ofNatTrimmed v.toNat ≠ [35] ∧ Bytes.ofNatTrimmed v.toNat ≠ [36] := by
    have h35 : Bytes.ofNatTrimmed (35 : UInt64).toNat = [35] := by
      simp [Bytes.ofNatTrimmed_of_pos]
    have h36 : Bytes.ofNatTrimmed (36 : UInt64).toNat = [36] := by
      simp [Bytes.ofNatTrimmed_of_pos]
    rw [← h35, ← h36, Bytes.ofNatTrimmed_injective.ne_iff, Bytes.ofNatTrimmed_injective.ne_iff,
      ne_eq, ne_eq, UInt64.toNat_inj, UInt64.toNat_inj, ownNumber_eq_self_iff]
  simp only [ownStrings, List.cons.injEq, Bytes.ofNatTrimmed_injective.eq_iff, UInt64.toNat_inj,
    hnumber, trim_eq_self, and_true, and_assoc]

/-- Strings that were read as a message are written again as its own strings, and these are read
back. -/
theorem signed_of_strings {v : UInt64} {r s : Bytes}
    (hstrings : strings b = .ok (m.strings ++ [Bytes.ofNatTrimmed v.toNat, r, s]))
    (hr : scalar "r" r = .ok parts.r) (hs : scalar "s" s = .ok parts.s)
    (hsplit : splitV v = .ok (chain, parts.recovery)) :
    m.signed chain parts = .ok (Rlp.list (m.strings ++ ownStrings v r s)) ∧
      strings (Rlp.list (m.strings ++ ownStrings v r s)) = .ok (m.strings ++ ownStrings v r s) := by
  constructor
  · rw [Message.signed, signatureV_of_splitV hsplit, Outcome.ok_bind, trim_of_scalar hr,
      trim_of_scalar hs]
    rfl
  · refine strings_list (Nat.lt_of_le_of_lt ?_ (length_of_strings hstrings))
    have hlengthV := length_string_ownNumber v
    have hlengthR := length_string_trim (scalar_eq_ok.1 hr).1
    have hlengthS := length_string_trim (scalar_eq_ok.1 hs).1
    simp only [ownStrings, List.flatMap_append, List.flatMap_cons, List.flatMap_nil,
      List.length_append, List.length_nil]
    omega

/-- A message that is stored is told by its strings. -/
theorem stores_iff : Stores b m chain parts ↔ ∃ v r s,
    strings b = .ok (m.strings ++ [Bytes.ofNatTrimmed v.toNat, r, s]) ∧
      scalar "r" r = .ok parts.r ∧ scalar "s" s = .ok parts.s ∧
        splitV v = .ok (chain, parts.recovery) := by
  simp only [Stores, ofBytes_eq_ok]
  constructor
  · rintro ⟨v, ⟨r, s, hstrings, hr, hs⟩, hsplit⟩
    exact ⟨v, r, s, hstrings, hr, hs, hsplit⟩
  · rintro ⟨v, r, s, hstrings, hr, hs, hsplit⟩
    exact ⟨v, ⟨r, s, hstrings, hr, hs⟩, hsplit⟩

/-- What is stored is written again, and read back. -/
theorem signed_of_stores (h : Stores b m chain parts) :
    ∃ c, m.signed chain parts = .ok c ∧ Stores c m chain parts := by
  obtain ⟨v, r, s, hstrings, hr, hs, hsplit⟩ := stores_iff.1 h
  obtain ⟨hsigned, hread⟩ := signed_of_strings hstrings hr hs hsplit
  have hr' := scalar_trim "r" parts.r
  have hs' := scalar_trim "s" parts.s
  rw [trim_of_scalar hr] at hr'
  rw [trim_of_scalar hs] at hs'
  exact ⟨_, hsigned, stores_iff.2 ⟨_, _, _, hread, hr', hs', by rw [splitV_ownNumber, hsplit]⟩⟩

/-- What is written is what was read, if that was canonical. -/
theorem signed_eq_iff_canonical (h : Stores b m chain parts) (hc : m.signed chain parts = .ok c) :
    c = b ↔ Canonical b := by
  obtain ⟨v, r, s, hstrings, hr, hs, hsplit⟩ := stores_iff.1 h
  obtain ⟨hsigned, hread⟩ := signed_of_strings hstrings hr hs hsplit
  cases hsigned.symm.trans hc
  constructor
  · rintro rfl
    -- the same bytes have the same strings
    have hown := List.append_cancel_left (Except.ok.inj (hread.symm.trans hstrings))
    exact ⟨_, _, _, _, hstrings, by rw [hown], ownStrings_eq_iff.1 hown⟩
  · rintro ⟨front, v', r', s', hstrings', hlist, hcanonical⟩
    obtain ⟨rfl, htail⟩ :=
      List.append_inj' (Except.ok.inj (hstrings.symm.trans hstrings')) rfl
    simp only [List.cons.injEq, and_true] at htail
    obtain ⟨rfl, rfl, rfl⟩ := htail
    rw [ownStrings_eq_iff.2 hcanonical, hlist]

/-- **A stored message is written again in its one canonical spelling**: of all bytes that store
it, only the canonical ones are what is written, and these store it. -/
theorem canonical_iff_signed_of_stores (h : Stores b m chain parts) :
    ∃ c, m.signed chain parts = .ok c ∧ Stores c m chain parts ∧
      ∀ b', Stores b' m chain parts → (c = b' ↔ Canonical b') := by
  obtain ⟨c, hc, hstores⟩ := signed_of_stores h
  exact ⟨c, hc, hstores, fun b' hb' => signed_eq_iff_canonical hb' hc⟩

/-! ## A payment with a zero in front of a scalar -/

/-- A payment of five units. -/
def samplePayment : Message where
  recipient := ⟨List.replicate 20 0x11, by simp⟩
  value := 5
  data := []
  nonce := 1
  gasPrice := 2
  gasLimit := 3

/-- A signature of small scalars. -/
def samplePaymentParts : SignatureParts := ⟨.ofNat 6, .ofNat 7, 0⟩

/-- The payment on the first chain, with a zero in front of its first scalar. -/
def paddedPayment : Bytes := Rlp.list (samplePayment.strings ++ [[37], [0, 6], [7]])

theorem strings_samplePayment :
    samplePayment.strings = [[1], [2], [3], List.replicate 20 0x11, [5], []] := by
  simp [Message.strings, samplePayment, Bytes.ofNatTrimmed_of_pos]

/-- The payment is read from the bytes, and written without the zero. -/
theorem stores_paddedPayment : Stores paddedPayment samplePayment 1 samplePaymentParts ∧
    samplePayment.signed 1 samplePaymentParts =
      .ok (Rlp.list (samplePayment.strings ++ [[37], [6], [7]])) := by
  have h37 : Bytes.ofNatTrimmed (37 : UInt64).toNat = [37] := by
    simp [Bytes.ofNatTrimmed_of_pos]
  have hr : scalar "r" [0, 6] = .ok samplePaymentParts.r := by decide
  have hs : scalar "s" [7] = .ok samplePaymentParts.s := by decide
  have hsplit : splitV 37 = .ok (1, samplePaymentParts.recovery) := rfl
  have hread : strings paddedPayment =
      .ok (samplePayment.strings ++ [Bytes.ofNatTrimmed (37 : UInt64).toNat, [0, 6], [7]]) := by
    rw [h37, paddedPayment, strings_samplePayment]
    exact strings_list (by decide)
  have hown : ownStrings 37 [0, 6] [7] = [[37], [6], [7]] := by
    rw [ownStrings, show ownNumber 37 = 37 from rfl, h37]
    rfl
  obtain ⟨hsigned, -⟩ := signed_of_strings hread hr hs hsplit
  rw [hown] at hsigned
  exact ⟨stores_iff.2 ⟨_, _, _, hread, hr, hs, hsplit⟩, hsigned⟩

/-- The payment is written as other bytes than it was read from. -/
theorem signed_ne_paddedPayment : Stores paddedPayment samplePayment 1 samplePaymentParts ∧
    ∃ c, samplePayment.signed 1 samplePaymentParts = .ok c ∧
      Stores c samplePayment 1 samplePaymentParts ∧ c ≠ paddedPayment := by
  obtain ⟨hpadded, hsigned⟩ := stores_paddedPayment
  obtain ⟨c, hc, hstores⟩ := signed_of_stores hpadded
  refine ⟨hpadded, c, hc, hstores, ?_⟩
  cases hsigned.symm.trans hc
  rw [paddedPayment, strings_samplePayment]
  decide

/-- What it is written as is canonical. -/
theorem canonical_iff_signed_of_stores_samplePayment :
    Stores paddedPayment samplePayment 1 samplePaymentParts ∧
      ∃ c, samplePayment.signed 1 samplePaymentParts = .ok c ∧ Canonical c := by
  obtain ⟨hpadded, -⟩ := stores_paddedPayment
  obtain ⟨c, hc, hstores, honly⟩ := canonical_iff_signed_of_stores hpadded
  exact ⟨hpadded, c, hc, (honly c hstores).1 rfl⟩

end SignedMessage

end Ethereum

end ChainKit
