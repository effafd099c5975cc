import ChainKit.Ethereum.Message
import ChainKit.Proofs.Outcome
import ChainKit.Proofs.Rlp
import Mathlib
/-!
# Messages are told by what is signed and by what is stored

Every field of a message survives: numbers in the fewest bytes, scalars
without their leading zeros, and the chain with the parity in one number
(`splitV_signatureV`), as long as that number is a word. Two spare numbers
are split as well, but never made (`splitV_inverse_iff`). So what is signed
belongs to one message on one chain (`eq_of_unsigned_eq`), and the message
that was stored is read back whole (`ofBytes_signed`).
-/

namespace ChainKit

namespace Ethereum

/-! ## Signatures -/

/-- A signature read from bytes is spelled by them, and its parity is one bit. -/
theorem SignatureParts.toBytes_of_ofBytes {b : Bytes} {parts : SignatureParts}
    (h : ofBytes b = .ok parts) : parts.toBytes = b ∧ parts.recovery.toNat ≤ 1 := by
  unfold ofBytes at h
  split at h
  · rename_i hlength
    obtain ⟨hbit, h⟩ := Outcome.ite_error_eq_ok.1 h
    cases h
    refine ⟨?_, ?_⟩
    · -- the three parts are cut from the front, the middle and the end
      have hlast : b.drop 64 = [b[64]] := by
        rw [List.drop_eq_getElem_cons (by omega), List.drop_eq_nil_of_le (by omega)]
      have hmiddle : b.drop 32 = (b.drop 32).take 32 ++ b.drop 64 := by
        conv_lhs => rw [← List.take_append_drop 32 (b.drop 32), List.drop_drop]
      rw [toBytes, ← hlast, List.append_assoc, ← hmiddle, List.take_append_drop]
    · rw [UInt8.lt_iff_toNat_lt] at hbit
      simp only [UInt8.reduceToNat] at hbit
      dsimp only
      omega
  · cases h

/-- A signature is read back from its bytes. -/
theorem SignatureParts.ofBytes_toBytes {parts : SignatureParts} (h : ¬ 1 < parts.recovery) :
    ofBytes parts.toBytes = .ok parts := by
  have hr := parts.r.length_data
  have hs := parts.s.length_data
  have hlength : parts.toBytes.length = 65 := by simp [toBytes, hr, hs]
  have hfront : parts.toBytes.take 32 = parts.r.data := by
    rw [toBytes, List.append_assoc, List.take_left' hr]
  have hmiddle : (parts.toBytes.drop 32).take 32 = parts.s.data := by
    rw [toBytes, List.append_assoc, List.drop_left' hr, List.take_left' hs]
  have hlast : parts.toBytes[64] = parts.recovery := by
    simp [toBytes, List.getElem_append_right, hr, hs]
  rw [ofBytes, dif_pos hlength]
  simp only [hfront, hmiddle, hlast]
  exact if_neg h

/-- A number of at least 35 is split into the chain and the parity that it was made of. -/
theorem splitV_of_toNat {chain v : UInt64} {recovery : UInt8} (hbit : recovery.toNat ≤ 1)
    (hv : v.toNat = 2 * chain.toNat + 35 + recovery.toNat) : splitV v = .ok (chain, recovery) := by
  have hnot : ¬ (v = 27 ∨ v = 28) := by
    rintro (rfl | rfl) <;> simp at hv <;> omega
  have hle : (35 : UInt64) ≤ v := by
    rw [UInt64.le_iff_toNat_le, hv]
    simp
    omega
  have hsub : (v - 35).toNat = 2 * chain.toNat + recovery.toNat := by
    rw [UInt64.toNat_sub_of_le _ _ hle, hv]
    simp
    omega
  rw [splitV, if_neg hnot, if_pos hle]
  -- half of what is left is the chain, and its parity is the recovery
  congr 2
  · apply UInt64.toNat_inj.1
    rw [UInt64.toNat_div, hsub]
    simp
    omega
  · apply UInt8.toNat_inj.1
    rw [UInt64.toNat_toUInt8, UInt64.toNat_mod, hsub]
    simp
    omega

/-- **The chain and the parity are read back from their number**, if it fits in a word. -/
theorem splitV_signatureV {chain v : UInt64} {recovery : UInt8} (hbit : recovery.toNat ≤ 1)
    (hword : 35 + 2 * chain.toNat + recovery.toNat < 2 ^ 64)
    (h : signatureV chain recovery = .ok v) : splitV v = .ok (chain, recovery) := by
  unfold signatureV at h
  split at h
  · -- good on every chain: 27 or 28
    rename_i hzero
    cases h
    have hcases : recovery = 0 ∨ recovery = 1 := by
      rcases Nat.le_one_iff_eq_zero_or_eq_one.1 hbit with h0 | h1
      · exact .inl (UInt8.toNat_inj.1 h0)
      · exact .inr (UInt8.toNat_inj.1 h1)
    rw [hzero]
    rcases hcases with rfl | rfl <;> rfl
  · split at h
    · cases h
      refine splitV_of_toNat hbit ?_
      rw [UInt64.toNat_ofNat']
      omega
    · cases h

/-- There is a number for a chain and a parity, if it fits in a word. -/
theorem exists_signatureV {chain : UInt64} {recovery : UInt8}
    (hword : 35 + 2 * chain.toNat + recovery.toNat < 2 ^ 64) :
    ∃ v, signatureV chain recovery = .ok v := by
  unfold signatureV
  split
  · exact ⟨_, rfl⟩
  · rw [if_pos (by rw [UInt64.size]; omega)]
    exact ⟨_, rfl⟩

/-- The number that is written for the chain and the parity of a number: 27 and 28, never 35 and
36, if the signature is good on every chain. -/
def ownNumber (v : UInt64) : UInt64 := if v = 35 ∨ v = 36 then v - 8 else v

/-- The chain and the parity are the same. -/
theorem splitV_ownNumber (v : UInt64) : splitV (ownNumber v) = splitV v := by
  unfold ownNumber
  split
  · rename_i hevery
    rcases hevery with rfl | rfl <;> rfl
  · rfl

/-- A number that is split is 27 or 28, or made of the chain and the parity. -/
theorem splitV_cases {chain v : UInt64} {recovery : UInt8} (h : splitV v = .ok (chain, recovery)) :
    (v = 27 ∧ chain = 0 ∧ recovery = 0 ∨ v = 28 ∧ chain = 0 ∧ recovery = 1) ∨
      v.toNat = 2 * chain.toNat + 35 + recovery.toNat ∧ recovery.toNat ≤ 1 := by
  unfold splitV at h
  split at h
  · rename_i hevery
    cases h
    rcases hevery with rfl | rfl
    · exact .inl (.inl ⟨rfl, rfl, rfl⟩)
    · exact .inl (.inr ⟨rfl, rfl, rfl⟩)
  · split at h
    · rename_i hle
      cases h
      have hge : 35 ≤ v.toNat := UInt64.le_iff_toNat_le.1 hle
      have hsub : (v - 35).toNat = v.toNat - 35 := UInt64.toNat_sub_of_le _ _ hle
      right
      rw [UInt64.toNat_toUInt8, UInt64.toNat_mod, UInt64.toNat_div, hsub]
      simp only [UInt64.reduceToNat]
      omega
    · cases h

/-- What a number was split into is written as its own number. -/
theorem signatureV_of_splitV {chain v : UInt64} {recovery : UInt8}
    (h : splitV v = .ok (chain, recovery)) : signatureV chain recovery = .ok (ownNumber v) := by
  rcases splitV_cases h with (⟨rfl, rfl, rfl⟩ | ⟨rfl, rfl, rfl⟩) | ⟨hv, hbit⟩
  · rfl
  · rfl
  by_cases hchain : chain = 0
  · -- 35 and 36 carry no chain
    subst hchain
    rcases Nat.le_one_iff_eq_zero_or_eq_one.1 hbit with hzero | hone
    · rw [hzero] at hv
      have hrecovery : recovery = 0 := UInt8.toNat_inj.1 hzero
      have hnumber : v = 35 := UInt64.toNat_inj.1 hv
      rw [hrecovery, hnumber]
      rfl
    · rw [hone] at hv
      have hrecovery : recovery = 1 := UInt8.toNat_inj.1 hone
      have hnumber : v = 36 := UInt64.toNat_inj.1 hv
      rw [hrecovery, hnumber]
      rfl
  · have hlt := v.toNat_lt
    have hpos : chain.toNat ≠ 0 := fun hzero => hchain (UInt64.toNat_inj.1 hzero)
    have hother : ¬ (v = 35 ∨ v = 36) := by
      rintro (rfl | rfl) <;> simp only [UInt64.reduceToNat] at hv <;> omega
    rw [signatureV, if_neg hchain, if_pos (by rw [UInt64.size]; omega), ← hv, UInt64.ofNat_toNat,
      ownNumber, if_neg hother]

/-- Only 35 and 36 are not their own numbers. -/
theorem ownNumber_eq_self_iff {v : UInt64} : ownNumber v = v ↔ v ≠ 35 ∧ v ≠ 36 := by
  rw [← not_or]
  unfold ownNumber
  split
  · rename_i hspare
    refine iff_of_false ?_ (not_not_intro hspare)
    rcases hspare with rfl | rfl <;> decide
  · rename_i hother
    exact iff_of_true rfl hother

/-- A number that is split carries one bit and a chain, and its formula fits in a word. -/
theorem word_of_splitV {chain v : UInt64} {recovery : UInt8}
    (h : splitV v = .ok (chain, recovery)) :
    recovery.toNat ≤ 1 ∧ 35 + 2 * chain.toNat + recovery.toNat < 2 ^ 64 := by
  rcases splitV_cases h with (⟨rfl, rfl, rfl⟩ | ⟨rfl, rfl, rfl⟩) | ⟨hv, hbit⟩
  · decide
  · decide
  · have hlt := v.toNat_lt
    omega

/-- **Splitting is the inverse of making a number**, for every chain and parity whose number is a
word, up to two spare numbers: 35 and 36 are split like 27 and 28, and no other two numbers are
split alike. -/
theorem splitV_inverse_iff (chain v : UInt64) (recovery : UInt8) :
    (recovery.toNat ≤ 1 ∧ 35 + 2 * chain.toNat + recovery.toNat < 2 ^ 64 ↔
      ∃ n, signatureV chain recovery = .ok n ∧ splitV n = .ok (chain, recovery)) ∧
    (splitV v = .ok (chain, recovery) →
      (signatureV chain recovery = .ok v ↔ v ≠ 35 ∧ v ≠ 36) ∧
        ∀ w, splitV w = .ok (chain, recovery) ↔ ownNumber w = ownNumber v) := by
  refine ⟨⟨?_, ?_⟩, fun h => ⟨?_, fun w => ⟨?_, ?_⟩⟩⟩
  · rintro ⟨hbit, hword⟩
    obtain ⟨n, hn⟩ := exists_signatureV hword
    exact ⟨n, hn, splitV_signatureV hbit hword hn⟩
  · rintro ⟨n, -, hsplit⟩
    exact word_of_splitV hsplit
  · rw [signatureV_of_splitV h, Except.ok.injEq, ownNumber_eq_self_iff]
  · -- both are written as the number of this chain and this parity
    intro hw
    have hown := (signatureV_of_splitV hw).symm.trans (signatureV_of_splitV h)
    exact Except.ok.inj hown
  · intro hown
    rw [← splitV_ownNumber, hown, splitV_ownNumber, h]

/-- The number 11590 carries the chain 5777 and an odd parity. -/
theorem splitV_inverse_iff_chain5777 : splitV 11590 = .ok (5777, 1) ∧
    signatureV 5777 1 = .ok 11590 ∧ ∀ w, splitV w = .ok (5777, 1) ↔ ownNumber w = 11590 := by
  have hsplit : splitV 11590 = .ok (5777, 1) := rfl
  obtain ⟨hmade, hunique⟩ := (splitV_inverse_iff 5777 11590 1).2 hsplit
  exact ⟨hsplit, hmade.2 (by decide), hunique⟩

/-- The spare number 35 is split like 27, and only 27 is made of what they are split into. -/
theorem splitV_spareNumber : splitV 35 = .ok (0, 0) ∧ splitV 27 = .ok (0, 0) ∧
    signatureV 0 0 = .ok 27 :=
  ⟨rfl, rfl, rfl⟩

/-! ## What is signed -/

namespace Message

variable {m n : Message} {chain chain' : UInt64}

/-- The fields of a message are told by their strings. -/
theorem strings_injective : Function.Injective strings := by
  intro m n h
  obtain ⟨⟨⟨recipient, hr⟩, value, data⟩, nonce, gasPrice, gasLimit⟩ := m
  obtain ⟨⟨⟨recipient', hr'⟩, value', data'⟩, nonce', gasPrice', gasLimit'⟩ := n
  simp only [strings, List.cons.injEq, Bytes.ofNatTrimmed_injective.eq_iff, UInt64.toNat_inj,
    and_true] at h
  obtain ⟨rfl, rfl, rfl, rfl, rfl, rfl⟩ := h
  rfl

/-- What is signed is a list: the fields, and the chain if there is one. -/
theorem unsigned_eq_list (m : Message) (chain : UInt64) :
    m.unsigned chain = Rlp.list (m.strings ++
      if chain = 0 then [] else [Bytes.ofNatTrimmed chain.toNat, [], []]) := by
  unfold unsigned
  split
  · rw [List.append_nil]
  · rfl

/-- **What is signed tells the message and the chain**, if its length is a word. What is signed for
one chain is never what is signed for all. -/
theorem eq_of_unsigned_eq (h : m.unsigned chain = n.unsigned chain')
    (hlength : (m.unsigned chain).length < 2 ^ 64) : m = n ∧ chain = chain' := by
  rw [unsigned_eq_list] at h hlength
  rw [unsigned_eq_list] at h
  -- six fields stand in front of the chain
  obtain ⟨hstrings, htail⟩ := List.append_inj (Rlp.eq_of_list_eq h hlength) rfl
  refine ⟨strings_injective hstrings, ?_⟩
  split at htail <;> split at htail
  · simp [*]
  · cases htail
  · cases htail
  · exact UInt64.toNat_inj.1 (Bytes.ofNatTrimmed_injective (List.cons.inj htail).1)

end Message

/-! ## Messages -/

namespace SignedMessage

variable {b : Bytes} {items : List Bytes} {field : String}

/-- A number is read back from its fewest bytes. -/
theorem number_ofNatTrimmed (field : String) (n : Nat) :
    number field (Bytes.ofNatTrimmed n) = .ok n := by
  rw [number, if_neg (Bytes.head?_ofNatTrimmed n), Bytes.toNat_ofNatTrimmed]

/-- A number is read from no other bytes. -/
theorem number_eq_ok {n : Nat} : number field b = .ok n ↔ b = Bytes.ofNatTrimmed n := by
  constructor
  · intro h
    obtain ⟨hhead, h⟩ := Outcome.ite_error_eq_ok.1 h
    rw [← Except.ok.inj h, Bytes.ofNatTrimmed_toNat hhead]
  · rintro rfl
    exact number_ofNatTrimmed field n

/-- A number of 64 bits is read back from its fewest bytes. -/
theorem uint64_ofNatTrimmed (field : String) (n : UInt64) :
    uint64 field (Bytes.ofNatTrimmed n.toNat) = .ok n := by
  rw [uint64, number_ofNatTrimmed, Outcome.ok_bind, if_pos n.toNat_lt, UInt64.ofNat_toNat]
  rfl

/-- A number of 64 bits is read from no other bytes. -/
theorem uint64_eq_ok {n : UInt64} : uint64 field b = .ok n ↔ b = Bytes.ofNatTrimmed n.toNat := by
  constructor
  · intro h
    obtain ⟨m, hm, h⟩ := Outcome.bind_eq_ok.1 h
    split at h
    · rename_i hlt
      rw [← Outcome.pure_eq_ok.1 h, UInt64.toNat_ofNat_of_lt' hlt, number_eq_ok.1 hm]
    · cases h
  · rintro rfl
    exact uint64_ofNatTrimmed field n

/-- A scalar is read from up to 32 bytes, zeros in front of it or not. -/
theorem scalar_eq_ok {w : Word} :
    scalar field b = .ok w ↔ b.length ≤ 32 ∧ b.padLeft 32 = w.data := by
  unfold scalar
  split
  · rename_i hle
    obtain ⟨data, hdata⟩ := w
    simp [hle]
  · rename_i hlong
    simp [hlong]

/-- A scalar is read back without its leading zeros. -/
theorem scalar_trim (field : String) (w : Word) : scalar field (Message.trim w.data) = .ok w := by
  have hpad := Bytes.padLeft_dropWhile w.data
  rw [w.length_data] at hpad
  refine scalar_eq_ok.2 ⟨?_, hpad⟩
  rw [← w.length_data]
  exact List.length_dropWhile_le _ _

/-- Whatever a scalar is read from, it is written without the zeros in front. -/
theorem trim_of_scalar {w : Word} (h : scalar field b = .ok w) :
    Message.trim w.data = Message.trim b := by
  rw [← (scalar_eq_ok.1 h).2]
  exact Bytes.dropWhile_padLeft 32 b

/-- An account is read back. -/
theorem recipient_data (a : Account) : recipient a.data = .ok a := by
  have hne : a.data ≠ [] := by
    intro hnil
    have := a.length_data
    simp [hnil] at this
  rw [recipient, if_neg hne, Account.ofBytes?, dif_pos a.length_data]

/-- An account is read from its own bytes only. -/
theorem recipient_eq_ok {a : Account} : recipient b = .ok a ↔ b = a.data := by
  constructor
  · intro h
    obtain ⟨-, h⟩ := Outcome.ite_error_eq_ok.1 h
    unfold Account.ofBytes? at h
    split at h
    · rename_i c hc
      cases h
      split at hc
      · cases hc
        rfl
      · cases hc
    · cases h
  · rintro rfl
    exact recipient_data a

/-- Strings are read from one item, a list, with nothing behind it. -/
theorem strings_eq_ok : strings b = .ok items ↔
    ∃ payload, Rlp.item b = .ok (payload, []) ∧ Rlp.isList b = true ∧
      Rlp.payloads payload = items := by
  unfold strings
  split
  · rename_i e herror
    simp [herror]
  · rename_i payload rest hitem
    simp only [Outcome.ite_error_eq_ok, Except.ok.injEq, ne_eq, not_not, Bool.not_eq_true',
      Bool.not_eq_false, hitem, Prod.mk.injEq]
    constructor
    · rintro ⟨rfl, hlist, rfl⟩
      exact ⟨_, ⟨rfl, rfl⟩, hlist, rfl⟩
    · rintro ⟨_, ⟨rfl, rfl⟩, hlist, rfl⟩
      exact ⟨rfl, hlist, rfl⟩

/-- The strings of a list are read back, if the length of its payload is a word. -/
theorem strings_list (h : (items.flatMap Rlp.string).length < 2 ^ 64) :
    strings (Rlp.list items) = .ok items :=
  strings_eq_ok.2 ⟨_, Rlp.read_list h⟩

/-- A message is read from nine strings: its fields, a number and two scalars. -/
theorem ofBytes_eq_ok {d : SignedMessage} : ofBytes b = .ok d ↔ ∃ r s,
    strings b = .ok (d.message.strings ++ [Bytes.ofNatTrimmed d.v.toNat, r, s]) ∧
      scalar "r" r = .ok d.r ∧ scalar "s" s = .ok d.s := by
  rw [ofBytes, Outcome.bind_eq_ok]
  constructor
  · rintro ⟨items, hitems, h⟩
    split at h
    · simp only [Outcome.bind_eq_ok, number_eq_ok, uint64_eq_ok, recipient_eq_ok] at h
      obtain ⟨_, rfl, _, rfl, _, rfl, _, rfl, _, rfl, _, rfl, _, hr, _, hs, h⟩ := h
      cases Outcome.pure_eq_ok.1 h
      exact ⟨_, _, hitems, hr, hs⟩
    · cases h
  · rintro ⟨r, s, hitems, hr, hs⟩
    refine ⟨_, hitems, ?_⟩
    simp only [Message.strings, List.cons_append, List.nil_append, Outcome.ok_bind,
      recipient_data, uint64_ofNatTrimmed, number_ofNatTrimmed, hr, hs]
    rfl

/-- **A message is read back from what is stored**, with its signature, if the length of what is
stored is a word. -/
theorem ofBytes_signed {m : Message} {chain : UInt64} {parts : SignatureParts}
    (h : m.signed chain parts = .ok b) (hlength : b.length < 2 ^ 64) :
    ∃ v, signatureV chain parts.recovery = .ok v ∧ ofBytes b = .ok ⟨m, v, parts.r, parts.s⟩ := by
  obtain ⟨v, hv, h⟩ := Outcome.bind_eq_ok.1 h
  cases Outcome.pure_eq_ok.1 h
  have hread := strings_list (Nat.lt_of_le_of_lt (Rlp.length_le_list _) hlength)
  exact ⟨v, hv, ofBytes_eq_ok.2 ⟨_, _, hread, scalar_trim _ _, scalar_trim _ _⟩⟩

end SignedMessage

end Ethereum

end ChainKit
