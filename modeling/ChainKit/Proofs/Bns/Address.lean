import ChainKit.Bns.Address
import ChainKit.Proofs.Outcome
import ChainKit.Proofs.Text.Bech32.Spelling
import Mathlib
/-!
# Addresses name their accounts

The address of 20 bytes on a network is read as just these bytes on that
network (`ofAddress_address`). `Network.Owns` names the addresses spelled
so: the bytes that such an address is read as are written as it again,
which fails for the same account in uppercase.
-/

namespace ChainKit

open Text

namespace Bns

namespace Network

theorem ofHrp?_hrp (network : Network) : ofHrp? network.hrp = some network := by
  cases network <;> decide

theorem ofHrp?_eq_some {s : String} {network : Network} :
    ofHrp? s = some network ↔ s = network.hrp := by
  constructor
  · intro h
    unfold ofHrp? at h
    split at h
    · rename_i hs
      cases h
      exact hs
    · split at h
      · rename_i hs
        cases h
        exact hs
      · cases h
  · rintro rfl
    exact ofHrp?_hrp network

/-- A prefix is allowed, short and in lowercase. -/
theorem hrp_plain (network : Network) : Bech32.isPrefix network.hrp.toList = true ∧
    network.hrp.toList.length ≤ 4 ∧ ∀ c ∈ network.hrp.toList, c.isUpper = false := by
  cases network <;> simp [hrp, Bech32.isPrefix]

/-- The address is spelled as the network spells 20 bytes. -/
def Owns (network : Network) (a : Address) : Prop := ∃ data, Account.address network data = .ok a

end Network

namespace Account

variable {network : Network} {data : Bytes} {a : Address}

theorem address_eq_ok : address network data = .ok a ↔
    data.length = 20 ∧ Bech32.encode network.hrp data = a := by
  rw [address, Outcome.ite_error_eq_ok]
  simp [size]

/-- What is read is the prefix of a network and 20 bytes. -/
theorem ofAddress_eq_ok {account : Account} : ofAddress a = .ok account ↔
    account.data.length = 20 ∧ Bech32.decode a = .ok (account.network.hrp, account.data) := by
  constructor
  · intro h
    unfold ofAddress at h
    split at h
    · cases h
    · rename_i hrp data hdecode
      split at h
      · cases h
      · rename_i network hnetwork
        obtain ⟨hlength, h⟩ := Outcome.ite_error_eq_ok.1 h
        cases h
        rw [hdecode, Network.ofHrp?_eq_some.1 hnetwork]
        exact ⟨Decidable.not_not.1 hlength, rfl⟩
  · rintro ⟨hlength, hdecode⟩
    simp [ofAddress, hdecode, Network.ofHrp?_hrp, size, hlength]

/-- Every address has 20 bytes. -/
theorem length_of_ofAddress {account : Account} (h : ofAddress a = .ok account) :
    account.data.length = 20 := (ofAddress_eq_ok.1 h).1

theorem length_of_bytesOfAddress (h : bytesOfAddress a = .ok data) : data.length = 20 := by
  obtain ⟨account, hread, rfl⟩ := Outcome.map_eq_ok.1 h
  exact length_of_ofAddress hread

/-- **An address is read as the account that it was written for.** -/
theorem ofAddress_address (h : address network data = .ok a) :
    ofAddress a = .ok ⟨network, data⟩ := by
  obtain ⟨hlength, rfl⟩ := address_eq_ok.1 h
  obtain ⟨hallowed, hshort, hcase⟩ := network.hrp_plain
  -- 20 bytes take 32 symbols, well below the limit
  have hlimit : network.hrp.toList.length + 7 + (8 * data.length + 4) / 5 ≤ Bech32.maxLength := by
    rw [hlength, Bech32.maxLength]
    omega
  exact ofAddress_eq_ok.2 ⟨hlength, Bech32.decode_encode hallowed hcase hlimit⟩

/-- An address is read as the bytes that it was written for. -/
theorem bytesOfAddress_address (h : address network data = .ok a) :
    bytesOfAddress a = .ok data := by
  rw [bytesOfAddress, ofAddress_address h, Outcome.map_ok]

instance (network : Network) (a : Address) : Decidable (network.Owns a) :=
  decidable_of_iff ((bytesOfAddress a).bind (address network) = .ok a) (by
    constructor
    · intro h
      obtain ⟨data, -, h⟩ := Outcome.bind_eq_ok.1 h
      exact ⟨data, h⟩
    · -- only the bytes that are read can be those of the address
      rintro ⟨data, h⟩
      rw [bytesOfAddress_address h]
      exact h)

/-- An address that a network owns is written for the bytes that are read from it. -/
theorem address_of_bytesOfAddress (hown : network.Owns a) (h : bytesOfAddress a = .ok data) :
    address network data = .ok a := by
  obtain ⟨raw, hraw⟩ := hown
  cases (bytesOfAddress_address hraw).symm.trans h
  exact hraw

/-- An account on a chain is the one of its address, on the network of the chain. -/
theorem onChain_eq_ok {chainId : ChainId} {account : Account} :
    onChain a chainId = .ok account ↔
      ofAddress a = .ok account ∧ account.network = .ofChain chainId := by
  simp only [onChain, Outcome.bind_eq_ok, Outcome.ite_error_eq_ok, not_not]
  constructor
  · rintro ⟨read, hread, hnetwork, h⟩
    cases Outcome.pure_eq_ok.1 h
    exact ⟨hread, hnetwork⟩
  · rintro ⟨hread, hnetwork⟩
    exact ⟨account, hread, hnetwork, rfl⟩

/-- An account on a chain has the bytes of its address. -/
theorem bytesOfAddress_of_onChain {chainId : ChainId} {account : Account}
    (h : onChain a chainId = .ok account) : bytesOfAddress a = .ok account.data := by
  rw [bytesOfAddress, (onChain_eq_ok.1 h).1, Outcome.map_ok]

/-- An address of a chain's network is the account of its bytes there. -/
theorem onChain_address {chainId : ChainId} (h : address (.ofChain chainId) data = .ok a) :
    onChain a chainId = .ok ⟨.ofChain chainId, data⟩ :=
  onChain_eq_ok.2 ⟨ofAddress_address h, rfl⟩

theorem exists_address (network : Network) (h : data.length = 20) :
    ∃ a, address network data = .ok a :=
  ⟨_, address_eq_ok.2 ⟨h, rfl⟩⟩

/-- The account of an identity is the one of its key, which has to be an ed25519 key. -/
theorem ofIdentity_eq_ok {i : Identity} {account : Account} : ofIdentity i = .ok account ↔
    i.publicKey.algorithm = .ed25519 ∧
      account = ⟨.ofChain i.chainId, bytesOfKey i.publicKey.data⟩ := by
  rw [ofIdentity, Outcome.ite_error_eq_ok, not_not, Except.ok.injEq, eq_comm (b := account)]

theorem data_of_ofIdentity {i : Identity} {account : Account} (h : ofIdentity i = .ok account) :
    account.data = bytesOfKey i.publicKey.data := by
  rw [(ofIdentity_eq_ok.1 h).2]

/-- Different bytes have different addresses. -/
theorem address_injective {data' : Bytes} (h : address network data = .ok a)
    (h' : address network data' = .ok a) : data = data' :=
  congrArg Account.data (Except.ok.inj ((ofAddress_address h).symm.trans (ofAddress_address h')))

end Account

end Bns

end ChainKit
