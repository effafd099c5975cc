import ChainKit.Proofs.Ethereum.Address
import ChainKit.Proofs.Ethereum.Call
import Mathlib
/-!
# Contract calls in plain terms

A call is asked for in plain terms: the recipient is a text, a field is
bytes of any length, and a quantity is any number. It has data exactly if
the text is an address, each field fills a word and the quantity fits in
one (`exists_encode_iff`). Reading gives a call in plain terms as well, the
recipient in its checksummed spelling, and undoes writing
(`decode_of_encode`); writing undoes reading to the last byte
(`decode_eq_some_iff`).
-/

namespace ChainKit

namespace Ethereum

/-- The checksummed spelling of an address; any other text as it is. -/
def Account.checksummed (address : Address) : Address :=
  ((ofAddress? address).map Account.address).getD address

theorem Account.checksummed_of_ofAddress {a : Account} {address : Address}
    (h : ofAddress address = .ok a) : checksummed address = a.address := by
  rw [checksummed, ofAddress_eq_ok.1 h, Option.map_some, Option.getD_some]

@[simp] theorem Account.checksummed_address (a : Account) : checksummed a.address = a.address :=
  checksummed_of_ofAddress (ofAddress_address a)

/-- The contracts whose calls are known. -/
inductive Contract where
  /-- The contract of a token. -/
  | token
  /-- The contract for swaps of ether. -/
  | swap
  deriving DecidableEq

/-- A call in plain terms. -/
inductive ContractCall where
  /-- Transfers tokens. -/
  | transfer (recipient : Address) (quantity : Nat)
  /-- Opens a swap. -/
  | offer (id : SwapId) (recipient : Address) (hash : Bytes) (height : UInt64)
  /-- Claims a swap. -/
  | claim (id : SwapId) (preimage : Bytes)
  /-- Takes a swap back. -/
  | abort (id : SwapId)
  deriving DecidableEq

/-- A transfer in plain terms. -/
def TokenTransfer.plain (t : TokenTransfer) : ContractCall :=
  .transfer t.recipient.address t.quantity.toNat

/-- A call of the contract for swaps in plain terms. -/
def SwapCall.plain : SwapCall → ContractCall
  | offer id recipient hash height => .offer id.data recipient.address hash.data height
  | claim id preimage => .claim id.data preimage.data
  | abort id => .abort id.data

/-- The call of a contract that data spells, in plain terms; none if another method is called. -/
def Contract.decode (data : Bytes) : Contract → Except AbiError (Option ContractCall)
  | token => (TokenTransfer.decode data).map (·.map TokenTransfer.plain)
  | swap => (SwapCall.decode data).map (·.map SwapCall.plain)

namespace ContractCall

variable {b : Bytes} {c : ContractCall} {k : Contract}

/-- The contract that is called. -/
def contract : ContractCall → Contract
  | transfer .. => .token
  | offer .. => .swap
  | claim .. => .swap
  | abort .. => .swap

/-- The recipient is an address, each field fills a word and a quantity fits in one. -/
def WellFormed : ContractCall → Prop
  | transfer recipient quantity => Account.isAddress recipient = true ∧ quantity < 2 ^ 256
  | offer id recipient hash _ =>
    id.length = 32 ∧ Account.isAddress recipient = true ∧ hash.length = 32
  | claim id preimage => id.length = 32 ∧ preimage.length = 32
  | abort id => id.length = 32

/-- The call with its recipient in the checksummed spelling. -/
def checksummed : ContractCall → ContractCall
  | transfer recipient quantity => transfer (Account.checksummed recipient) quantity
  | offer id recipient hash height => offer id (Account.checksummed recipient) hash height
  | claim id preimage => claim id preimage
  | abort id => abort id

/-- The data of the call. -/
def encode : ContractCall → Except AbiError Bytes
  | transfer recipient quantity =>
    (TokenTransfer.ofAddress recipient quantity).map TokenTransfer.encode
  | offer id recipient hash height =>
    (SwapCall.ofOffer id recipient hash height).map SwapCall.encode
  | claim id preimage => (SwapCall.ofClaim id preimage).map SwapCall.encode
  | abort id => (SwapCall.ofAbort id).map SwapCall.encode

/-! ## Writing -/

/-- The data is that of the account and the words that the arguments of the call name. -/
def WrittenAs (b : Bytes) : ContractCall → Prop
  | transfer recipient quantity =>
    ∃ a w, Account.ofAddress recipient = .ok a ∧ w.toNat = quantity ∧
      TokenTransfer.encode ⟨a, w⟩ = b
  | offer id recipient hash height =>
    ∃ v a w, v.data = id ∧ Account.ofAddress recipient = .ok a ∧ w.data = hash ∧
      (SwapCall.offer v a w height).encode = b
  | claim id preimage => ∃ v w, v.data = id ∧ w.data = preimage ∧ (SwapCall.claim v w).encode = b
  | abort id => ∃ v, v.data = id ∧ (SwapCall.abort v).encode = b

/-- Nothing else is written for a call. -/
theorem encode_eq_ok : c.encode = .ok b ↔ c.WrittenAs b := by
  cases c with
  | transfer recipient quantity =>
    simp only [encode, WrittenAs, TokenTransfer.ofAddress, Outcome.map_eq_ok, Outcome.bind_eq_ok,
      Outcome.pure_eq_ok, Word.ofUint256_eq_ok]
    constructor
    · rintro ⟨_, ⟨a, ha, w, hw, rfl⟩, hb⟩
      exact ⟨a, w, ha, hw, hb⟩
    · rintro ⟨a, w, ha, hw, hb⟩
      exact ⟨_, ⟨a, ha, w, hw, rfl⟩, hb⟩
  | offer id recipient hash height =>
    simp only [encode, WrittenAs, SwapCall.ofOffer, Outcome.map_eq_ok, Outcome.bind_eq_ok,
      Outcome.pure_eq_ok, Word.ofField_eq_ok]
    constructor
    · rintro ⟨_, ⟨v, hv, a, ha, w, hw, rfl⟩, hb⟩
      exact ⟨v, a, w, hv, ha, hw, hb⟩
    · rintro ⟨v, a, w, hv, ha, hw, hb⟩
      exact ⟨_, ⟨v, hv, a, ha, w, hw, rfl⟩, hb⟩
  | claim id preimage =>
    simp only [encode, WrittenAs, SwapCall.ofClaim, Outcome.map_eq_ok, Outcome.bind_eq_ok,
      Outcome.pure_eq_ok, Word.ofField_eq_ok]
    constructor
    · rintro ⟨_, ⟨v, hv, w, hw, rfl⟩, hb⟩
      exact ⟨v, w, hv, hw, hb⟩
    · rintro ⟨v, w, hv, hw, hb⟩
      exact ⟨_, ⟨v, hv, w, hw, rfl⟩, hb⟩
  | abort id =>
    simp only [encode, WrittenAs, SwapCall.ofAbort, Outcome.map_eq_ok, Outcome.bind_eq_ok,
      Outcome.pure_eq_ok, Word.ofField_eq_ok]
    constructor
    · rintro ⟨_, ⟨v, hv, rfl⟩, hb⟩
      exact ⟨v, hv, hb⟩
    · rintro ⟨v, hv, hb⟩
      exact ⟨_, ⟨v, hv, rfl⟩, hb⟩

/-- **A call has data exactly if it is well formed.** -/
theorem exists_encode_iff : (∃ b, c.encode = .ok b) ↔ c.WellFormed := by
  simp only [encode_eq_ok]
  cases c with
  | transfer recipient quantity =>
    rw [WellFormed, ← Account.exists_ofAddress_iff, ← Word.exists_toNat_iff]
    constructor
    · rintro ⟨_, a, w, ha, hw, -⟩
      exact ⟨⟨a, ha⟩, w, hw⟩
    · rintro ⟨⟨a, ha⟩, w, hw⟩
      exact ⟨_, a, w, ha, hw, rfl⟩
  | offer id recipient hash height =>
    rw [WellFormed, ← Account.exists_ofAddress_iff, ← Word.exists_data_iff (b := id),
      ← Word.exists_data_iff (b := hash)]
    constructor
    · rintro ⟨_, v, a, w, hv, ha, hw, -⟩
      exact ⟨⟨v, hv⟩, ⟨a, ha⟩, w, hw⟩
    · rintro ⟨⟨v, hv⟩, ⟨a, ha⟩, w, hw⟩
      exact ⟨_, v, a, w, hv, ha, hw, rfl⟩
  | claim id preimage =>
    rw [WellFormed, ← Word.exists_data_iff (b := id), ← Word.exists_data_iff (b := preimage)]
    constructor
    · rintro ⟨_, v, w, hv, hw, -⟩
      exact ⟨⟨v, hv⟩, w, hw⟩
    · rintro ⟨⟨v, hv⟩, w, hw⟩
      exact ⟨_, v, w, hv, hw, rfl⟩
  | abort id =>
    rw [WellFormed, ← Word.exists_data_iff]
    constructor
    · rintro ⟨_, v, hv, -⟩
      exact ⟨v, hv⟩
    · rintro ⟨v, hv⟩
      exact ⟨_, v, hv, rfl⟩

/-! ## Reading -/

/-- **A call is read back, its recipient in the checksummed spelling.** -/
theorem decode_of_encode (h : c.encode = .ok b) :
    c.contract.decode b = .ok (some c.checksummed) := by
  rw [encode_eq_ok] at h
  cases c with
  | transfer recipient quantity =>
    obtain ⟨a, w, ha, rfl, rfl⟩ := h
    rw [contract, Contract.decode, TokenTransfer.decode_encode, checksummed,
      Account.checksummed_of_ofAddress ha]
    rfl
  | offer id recipient hash height =>
    obtain ⟨v, a, w, rfl, ha, rfl, rfl⟩ := h
    rw [contract, Contract.decode, SwapCall.decode_encode, checksummed,
      Account.checksummed_of_ofAddress ha]
    rfl
  | claim id preimage =>
    obtain ⟨v, w, rfl, rfl, rfl⟩ := h
    rw [contract, Contract.decode, SwapCall.decode_encode]
    rfl
  | abort id =>
    obtain ⟨v, rfl, rfl⟩ := h
    rw [contract, Contract.decode, SwapCall.decode_encode]
    rfl

/-- A transfer in plain terms is a call of tokens, in its checksummed spelling. -/
theorem encode_transfer (t : TokenTransfer) :
    t.plain.encode = .ok t.encode ∧ t.plain.contract = .token ∧
      t.plain.checksummed = t.plain := by
  refine ⟨encode_eq_ok.2 ?_, rfl, ?_⟩
  · exact ⟨t.recipient, t.quantity, Account.ofAddress_address _, rfl, rfl⟩
  · rw [TokenTransfer.plain, checksummed, Account.checksummed_address]

theorem encode_swap (call : SwapCall) :
    call.plain.encode = .ok call.encode ∧ call.plain.contract = .swap ∧
      call.plain.checksummed = call.plain := by
  rw [encode_eq_ok]
  cases call with
  | offer id recipient hash height =>
    refine ⟨⟨id, recipient, hash, rfl, Account.ofAddress_address _, rfl, rfl⟩, rfl, ?_⟩
    rw [SwapCall.plain, checksummed, Account.checksummed_address]
  | claim id preimage => exact ⟨⟨id, preimage, rfl, rfl, rfl⟩, rfl, rfl⟩
  | abort id => exact ⟨⟨id, rfl, rfl⟩, rfl, rfl⟩

/-- **Data is read as the call of the contract in its checksummed spelling that it is written
for, and as no other.** -/
theorem decode_eq_some_iff :
    k.decode b = .ok (some c) ↔ c.encode = .ok b ∧ c.contract = k ∧ c.checksummed = c := by
  constructor
  · intro h
    cases k with
    | token =>
      obtain ⟨read, hread, hc⟩ := Outcome.map_eq_ok.1 h
      obtain ⟨t, rfl, rfl⟩ := Option.map_eq_some_iff.1 hc
      rw [← TokenTransfer.encode_of_decode hread]
      exact encode_transfer t
    | swap =>
      obtain ⟨read, hread, hc⟩ := Outcome.map_eq_ok.1 h
      obtain ⟨call, rfl, rfl⟩ := Option.map_eq_some_iff.1 hc
      rw [← SwapCall.encode_of_decode hread]
      exact encode_swap call
  · rintro ⟨hb, rfl, hc⟩
    rw [decode_of_encode hb, hc]

/-- **Writing and reading of calls are inverse.** -/
theorem encode_decode_inverse :
    (∀ c : ContractCall, (∃ b, c.encode = .ok b) ↔ c.WellFormed) ∧
      (∀ c b, encode c = .ok b → c.contract.decode b = .ok (some c.checksummed)) ∧
      (∀ (k : Contract) b c, k.decode b = .ok (some c) ↔
        c.encode = .ok b ∧ c.contract = k ∧ c.checksummed = c) ∧
      ∀ n, (∃ e, Word.ofUint256 n = .error e) ↔ 2 ^ 256 ≤ n :=
  ⟨fun _ => exists_encode_iff, fun _ _ => decode_of_encode, fun _ _ _ => decode_eq_some_iff,
    fun _ => Word.exists_ofUint256_eq_error⟩

/-- A transfer to an address in lowercase. -/
def sampleLowercase : ContractCall :=
  .transfer "0xe1c9ea25a621cf5c934a7e112ecab640ec7d8d18" 300

theorem encode_decode_inverse_sampleLowercase :
    ∃ b, sampleLowercase.encode = .ok b ∧
      Contract.token.decode b = .ok (some sampleLowercase.checksummed) ∧
      sampleLowercase.checksummed.encode = .ok b := by
  obtain ⟨hdata, hread, hwrite, -⟩ := encode_decode_inverse
  obtain ⟨b, hb⟩ := (hdata sampleLowercase).2 ⟨by decide +kernel, by decide⟩
  exact ⟨b, hb, hread _ _ hb, ((hwrite _ _ _).1 (hread _ _ hb)).1⟩

end ContractCall

end Ethereum

end ChainKit
