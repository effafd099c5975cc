import ChainKit.Bns.Transfer
import ChainKit.Proofs.Bns.Field
import ChainKit.Proofs.Bns.Coin
import Mathlib
/-!
# Transfers are read back

Each request that moves tokens has a canonical form, which says what its
message cannot keep otherwise: addresses spelled as the chain spells them,
canonical quantities, no empty text for an absent one. In that form the
request is read back from the message that it was written as.
-/

namespace ChainKit

namespace Bns

variable {network : Network} {creator : Identity}

/-- A send that its message keeps. -/
structure CanonicalSend (network : Network) (s : Send) : Prop where
  sender : network.Owns s.sender
  recipient : network.Owns s.recipient
  amount : s.amount.Canonical
  memo : s.memo ≠ some ""

/-- An offer that its message keeps; the chain has given it no identifier yet. -/
structure CanonicalOffer (network : Network) (o : SwapOffer) : Prop where
  swapId : o.swapId = none
  recipient : network.Owns o.recipient
  amounts : ∀ a ∈ o.amounts, a.Canonical
  timeout : o.timeout ≠ .timestamp 0
  memo : o.memo ≠ some ""

/-- An escrow that its message keeps. -/
structure CanonicalEscrow (network : Network) (e : Escrow) : Prop where
  sender : network.Owns e.sender
  arbiter : network.Owns e.arbiter
  recipient : network.Owns e.recipient
  amounts : ∀ a ∈ e.amounts, a.Canonical
  nonempty : e.amounts ≠ []
  timeout : e.timeout ≠ .timestamp 0
  memo : e.memo ≠ some ""

/-- Parties that a message keeps. -/
structure CanonicalParties (network : Network) (p : EscrowParties) : Prop where
  sender : ∀ a ∈ p.sender, network.Owns a
  arbiter : ∀ a ∈ p.arbiter, network.Owns a
  recipient : ∀ a ∈ p.recipient, network.Owns a

/-- The addresses that replace parties. -/
def replacedParties (p : EscrowParties) : List Address :=
  [p.sender, p.arbiter, p.recipient].reduceOption

namespace Schema

/-! ## Amounts and deadlines -/

/-- Canonical amounts are read back in order. -/
theorem amounts_of_coins {as : List Amount} {cs : List Coin} (hcanonical : ∀ a ∈ as, a.Canonical)
    (h : coins as = .ok cs) : amounts cs = .ok as :=
  Outcome.mapM_inverse h fun a ha _ hcoin => Coin.toAmount_ofAmount (hcanonical a ha) hcoin

/-- A deadline that can be written is a time of the clock. -/
theorem eq_timestamp_of_deadline {t : Timeout} {n : Int64} (hne : t ≠ .timestamp 0)
    (h : deadline t = .ok n) : t = .timestamp n ∧ n ≠ 0 := by
  cases t with
  | timestamp seconds =>
    cases h
    refine ⟨rfl, ?_⟩
    rintro rfl
    exact hne rfl
  | height count => cases h

/-! ## Sends -/

/-- The address of the creator is the one that it is sent from. -/
theorem addressOfIdentity_of_onChain {a : Address} {account : Account}
    (hown : (Network.ofChain creator.chainId).Owns a)
    (hread : Account.onChain a creator.chainId = .ok account)
    (hcreator : Account.ofIdentity creator = .ok account) :
    Account.addressOfIdentity creator = .ok a := by
  have haddress := Account.address_of_bytesOfAddress hown (Account.bytesOfAddress_of_onChain hread)
  obtain ⟨-, haccount⟩ := Outcome.ite_error_eq_ok.1 hcreator
  cases haccount
  rw [Account.addressOfIdentity, hcreator, Outcome.ok_bind, haddress]

/-- **A canonical send is read back.** -/
theorem CashSend.toSend_ofSend {s : Send} {m : CashSend}
    (hcanonical : CanonicalSend (.ofChain creator.chainId) s) (h : ofSend creator s = .ok m) :
    m.toSend creator = .ok s := by
  simp only [ofSend, Outcome.bind_eq_ok, Outcome.ite_error_eq_ok, not_not] at h
  obtain ⟨source, hsource, sender, hsender, rfl, recipient, hrecipient, amount, hamount, h⟩ := h
  cases Outcome.pure_eq_ok.1 h
  have hfrom := addressOfIdentity_of_onChain hcanonical.sender hsender hsource
  have hto := Field.address_of_bytesOfAddress "destination" hcanonical.recipient
    (Account.bytesOfAddress_of_onChain hrecipient)
  have hcoin := Coin.toAmount_ofAmount hcanonical.amount hamount
  have hmemo := Field.optionalText_getD hcanonical.memo
  simp only [toSend, hfrom, hto, Field.present, hcoin, hmemo, Outcome.ok_bind]
  rfl

/-! ## Swaps -/

/-- **A canonical offer is read back.** -/
theorem SwapCreate.toOffer_ofOffer {o : SwapOffer} {m : SwapCreate}
    (hcanonical : CanonicalOffer (.ofChain creator.chainId) o) (h : ofOffer creator o = .ok m) :
    m.toOffer (.ofChain creator.chainId) = .ok o := by
  simp only [ofOffer, Outcome.bind_eq_ok, Outcome.ite_error_eq_ok, not_not] at h
  obtain ⟨hhash, source, hsource, recipient, hrecipient, amount, hamount, timeout, htimeout, h⟩ := h
  cases Outcome.pure_eq_ok.1 h
  -- a digest of 32 bytes is not empty, so it is not left out
  have hne : o.hash ≠ [] := by
    intro hnil
    simp [hnil, hashSize] at hhash
  have hto := Field.address_of_bytesOfAddress "destination" hcanonical.recipient
    (Account.bytesOfAddress_of_onChain hrecipient)
  have hamounts := amounts_of_coins hcanonical.amounts hamount
  obtain ⟨hclock, htime⟩ := eq_timestamp_of_deadline hcanonical.timeout htimeout
  have hmemo := Field.optionalText_getD hcanonical.memo
  simp only [toOffer, Field.bytes_of_ne hne, Outcome.ok_bind, hhash, ne_eq, not_true_eq_false,
    if_false, htime, hto, hamounts, hmemo, ← hclock]
  rw [← hcanonical.swapId]
  rfl

/-- A claim is read back. -/
theorem SwapRelease.toClaim_ofClaim {id : SwapId} {preimage : Bytes} {m : SwapRelease}
    (h : ofClaim id preimage = .ok m) : m.toClaim = .ok (id, preimage) := by
  simp only [ofClaim, Field.bytes, Outcome.bind_eq_ok, Outcome.ite_error_eq_ok] at h
  obtain ⟨swapId, ⟨hid, hswap⟩, secret, ⟨hpreimage, hsecret⟩, h⟩ := h
  cases hswap
  cases hsecret
  cases Outcome.pure_eq_ok.1 h
  simp only [toClaim, Field.bytes_of_ne hid, Field.bytes_of_ne hpreimage, Outcome.ok_bind]
  rfl

/-- An abort is read back. -/
theorem SwapReturn.toAbort_ofAbort {id : SwapId} {m : SwapReturn} (h : ofAbort id = .ok m) :
    m.toAbort = .ok id := by
  simp only [ofAbort, Field.bytes, Outcome.bind_eq_ok, Outcome.ite_error_eq_ok] at h
  obtain ⟨swapId, ⟨hid, hswap⟩, h⟩ := h
  cases hswap
  cases Outcome.pure_eq_ok.1 h
  exact Field.bytes_of_ne hid

/-! ## Escrows -/

/-- **A canonical escrow is read back.** -/
theorem EscrowCreate.toEscrow_ofEscrow {e : Escrow} {m : EscrowCreate}
    (hcanonical : CanonicalEscrow network e) (h : ofEscrow e = .ok m) :
    m.toEscrow network = .ok e := by
  simp only [ofEscrow, Outcome.bind_eq_ok] at h
  obtain ⟨source, hsource, arbiter, harbiter, destination, hdestination, amount, hamount, timeout,
    htimeout, h⟩ := h
  cases Outcome.pure_eq_ok.1 h
  have hfrom := Field.address_of_bytesOfAddress "source" hcanonical.sender hsource
  have hvia := Field.address_of_bytesOfAddress "arbiter" hcanonical.arbiter harbiter
  have hto := Field.address_of_bytesOfAddress "destination" hcanonical.recipient hdestination
  have hamounts := amounts_of_coins hcanonical.amounts hamount
  have hne : amount ≠ [] := by
    rintro rfl
    exact hcanonical.nonempty (Outcome.mapM_eq_nil hamount)
  obtain ⟨hclock, htime⟩ := eq_timestamp_of_deadline hcanonical.timeout htimeout
  have hmemo := Field.optionalText_getD hcanonical.memo
  simp only [toEscrow, hne, htime, if_false, hfrom, hvia, hto, hamounts, hmemo, ← hclock,
    Outcome.ok_bind]
  rfl

/-- A payment of canonical amounts is read back. -/
theorem EscrowRelease.toRelease_ofRelease {id : UInt64} {as : List Amount} {m : EscrowRelease}
    (hcanonical : ∀ a ∈ as, a.Canonical) (h : ofRelease id as = .ok m) :
    m.toRelease = .ok (id, as) := by
  simp only [ofRelease, Outcome.bind_eq_ok] at h
  obtain ⟨amount, hamount, h⟩ := h
  cases Outcome.pure_eq_ok.1 h
  simp only [toRelease, NumericId.decode_encode, amounts_of_coins hcanonical hamount,
    Outcome.ok_bind]
  rfl

/-- A party is read back, or its absence. -/
theorem EscrowUpdateParties.party_partyBytes {p : Option Address} {b : Bytes}
    (hcanonical : ∀ a ∈ p, network.Owns a) (h : partyBytes p = .ok b) :
    party network b = .ok p := by
  cases p with
  | none =>
    cases h
    rfl
  | some a =>
    have haddress := Account.address_of_bytesOfAddress (hcanonical a rfl) h
    have hne : b ≠ [] := by
      rintro rfl
      simp [Account.address_eq_ok] at haddress
    rw [party, if_neg hne, haddress, Outcome.map_ok]

/-- **The replacement of a canonical party is read back.** -/
theorem EscrowUpdateParties.toParties_ofParties {id : UInt64} {p : EscrowParties}
    {m : EscrowUpdateParties} (hcanonical : CanonicalParties network p)
    (h : ofParties id p = .ok m) : m.toParties network = .ok (id, p) := by
  simp only [ofParties, Outcome.bind_eq_ok, Outcome.ite_error_eq_ok] at h
  obtain ⟨-, source, hsource, arbiter, harbiter, destination, hdestination, h⟩ := h
  cases Outcome.pure_eq_ok.1 h
  simp only [toParties, NumericId.decode_encode, party_partyBytes hcanonical.sender hsource,
    party_partyBytes hcanonical.arbiter harbiter,
    party_partyBytes hcanonical.recipient hdestination, Outcome.ok_bind]
  rfl

end Schema

end Bns

end ChainKit
