import ChainKit.Proofs.Bns.Unambiguous
import Mathlib
/-!
# Whose network an address belongs to

An address spells its network in front. Every address of a request has to
be one of some network to be signed; only sends and offers compare it with
the chain of their creator. All other requests are written without a look
at the chain, so that what one chain's creator can sign every other can
(`network_of_bytesToSign`), with addresses of the main network on any of
them (`bytesToSign_strayContract`).
-/

namespace ChainKit

open Text

namespace Bns

/-- The address is one of the network, in whatever spelling. -/
def Network.Reads (network : Network) (a : Address) : Prop :=
  ∃ data, Account.ofAddress a = .ok ⟨network, data⟩

/-- The electors that a proposal names. -/
def electorsOf : ProposalAction → List Address
  | .electorate _ electors => electors.entries.map Prod.fst
  | .text _ => []
  | .validators _ => []

/-- The addresses of the name service that a request names. -/
def addressesOf : Request → List Address
  | .send s => [s.sender, s.recipient]
  | .offerSwap o => [o.recipient]
  | .createContract c => c.participants.map (·.address)
  | .updateContract _ c => c.participants.map (·.address)
  | .createEscrow e => [e.sender, e.arbiter, e.recipient]
  | .updateEscrowParties _ p => replacedParties p
  | .createProposal d => d.author :: electorsOf d.action
  | _ => []

/-- A request whose addresses are compared with the chain. -/
def ChecksNetwork : Request → Prop
  | .send _ => True
  | .offerSwap _ => True
  | _ => False

variable {creator : Identity}

namespace Account

variable {a : Address} {chainId : ChainId} {account : Account} {data : Bytes}

/-- An address is one of some network if it has bytes. -/
theorem exists_reads_of_bytesOfAddress (h : bytesOfAddress a = .ok data) :
    ∃ network : Network, network.Reads a := by
  obtain ⟨⟨network, raw⟩, hread, -⟩ := Outcome.map_eq_ok.1 h
  exact ⟨network, raw, hread⟩

/-- An account on a chain is one of the chain's network. -/
theorem reads_of_onChain (h : onChain a chainId = .ok account) :
    (Network.ofChain chainId).Reads a := by
  obtain ⟨hread, hnetwork⟩ := onChain_eq_ok.1 h
  exact ⟨account.data, by rw [hread, ← hnetwork]⟩

end Account

namespace Schema

/-! ## What is compared -/

/-- The addresses of a send are the chain's. -/
theorem CashSend.reads_of_ofSend {s : Send} {m : CashSend} (h : ofSend creator s = .ok m) :
    ∀ a ∈ [s.sender, s.recipient], (Network.ofChain creator.chainId).Reads a := by
  simp only [ofSend, Outcome.bind_eq_ok, Outcome.ite_error_eq_ok] at h
  obtain ⟨source, -, sender, hsender, -, recipient, hrecipient, -⟩ := h
  exact List.forall_mem_cons.2 ⟨Account.reads_of_onChain hsender,
    List.forall_mem_singleton.2 (Account.reads_of_onChain hrecipient)⟩

/-- The recipient of an offer is the chain's. -/
theorem SwapCreate.reads_of_ofOffer {o : SwapOffer} {m : SwapCreate}
    (h : ofOffer creator o = .ok m) : (Network.ofChain creator.chainId).Reads o.recipient := by
  simp only [ofOffer, Outcome.bind_eq_ok, Outcome.ite_error_eq_ok] at h
  obtain ⟨-, source, -, recipient, hrecipient, -⟩ := h
  exact Account.reads_of_onChain hrecipient

/-- The addresses of a request that is compared are the chain's. -/
theorem Action.reads_of_ofRequest {r : Request} {action : Action} (hchecks : ChecksNetwork r)
    (h : ofRequest creator r = .ok action) :
    ∀ a ∈ addressesOf r, (Network.ofChain creator.chainId).Reads a := by
  cases r <;> simp only [ChecksNetwork] at hchecks
  case send s =>
    obtain ⟨m, hm, -⟩ := Outcome.map_eq_ok.1 h
    exact CashSend.reads_of_ofSend hm
  case offerSwap o =>
    obtain ⟨m, hm, -⟩ := Outcome.map_eq_ok.1 h
    exact List.forall_mem_singleton.2 (SwapCreate.reads_of_ofOffer hm)

/-! ## What is only read -/

/-- The participants of a contract are of some network each. -/
theorem reads_of_ofParticipants {ps : List Participant} {ms : List MultisigParticipant}
    (h : ofParticipants ps = .ok ms) :
    ∀ a ∈ ps.map (·.address), ∃ network : Network, network.Reads a := by
  rw [List.forall_mem_map]
  intro p hp
  obtain ⟨m, hm⟩ := Outcome.exists_mapM_eq_ok.1 ⟨ms, h⟩ p hp
  obtain ⟨signature, hsignature, -⟩ := Outcome.bind_eq_ok.1 hm
  exact Account.exists_reads_of_bytesOfAddress hsignature

/-- The parties of an escrow are of some network each. -/
theorem EscrowCreate.reads_of_ofEscrow {e : Escrow} {m : EscrowCreate} (h : ofEscrow e = .ok m) :
    ∀ a ∈ [e.sender, e.arbiter, e.recipient], ∃ network : Network, network.Reads a := by
  simp only [ofEscrow, Outcome.bind_eq_ok] at h
  obtain ⟨source, hsource, arbiter, harbiter, destination, hdestination, -⟩ := h
  exact List.forall_mem_cons.2 ⟨Account.exists_reads_of_bytesOfAddress hsource,
    List.forall_mem_cons.2 ⟨Account.exists_reads_of_bytesOfAddress harbiter,
      List.forall_mem_singleton.2 (Account.exists_reads_of_bytesOfAddress hdestination)⟩⟩

/-- The parties that are replaced are of some network each. -/
theorem EscrowUpdateParties.reads_of_ofParties {id : UInt64} {p : EscrowParties}
    {m : EscrowUpdateParties} (h : ofParties id p = .ok m) :
    ∀ a ∈ replacedParties p, ∃ network : Network, network.Reads a := by
  simp only [ofParties, Outcome.bind_eq_ok, Outcome.ite_error_eq_ok] at h
  obtain ⟨-, source, hsource, arbiter, harbiter, destination, hdestination, -⟩ := h
  have hparty (o : Option Address) (b : Bytes) (hb : partyBytes o = .ok b) (a : Address)
      (ha : o = some a) : ∃ network : Network, network.Reads a := by
    cases ha
    exact Account.exists_reads_of_bytesOfAddress hb
  intro a ha
  simp only [replacedParties, List.reduceOption_mem_iff, List.mem_cons, List.not_mem_nil, or_false]
    at ha
  rcases ha with ha | ha | ha
  · exact hparty _ _ hsource a ha.symm
  · exact hparty _ _ harbiter a ha.symm
  · exact hparty _ _ hdestination a ha.symm

/-- The electors of a proposal are of some network each. -/
theorem ProposalOptions.reads_of_ofAction {action : ProposalAction} {o : ProposalOptions}
    (h : ofAction action = .ok o) :
    ∀ a ∈ electorsOf action, ∃ network : Network, network.Reads a := by
  cases action with
  | text resolution => exact List.forall_mem_nil _
  | validators updates => exact List.forall_mem_nil _
  | electorate id electors =>
    obtain ⟨es, hes, -⟩ := Outcome.bind_eq_ok.1 h
    rw [electorsOf, List.forall_mem_map]
    intro e he
    obtain ⟨elector, helector⟩ := Outcome.exists_mapM_eq_ok.1 ⟨es, hes⟩ e he
    obtain ⟨raw, hraw, -⟩ := Outcome.bind_eq_ok.1 helector
    exact Account.exists_reads_of_bytesOfAddress hraw

/-- **Every address that is written is one of some network.** -/
theorem Action.exists_reads_of_ofRequest {r : Request} {action : Action}
    (h : ofRequest creator r = .ok action) :
    ∀ a ∈ addressesOf r, ∃ network : Network, network.Reads a := by
  cases r <;> simp only [ofRequest, Outcome.map_eq_ok] at h
  case send s =>
    obtain ⟨m, hm, -⟩ := h
    exact fun a ha => ⟨_, CashSend.reads_of_ofSend hm a ha⟩
  case offerSwap o =>
    obtain ⟨m, hm, -⟩ := h
    exact List.forall_mem_singleton.2 ⟨_, SwapCreate.reads_of_ofOffer hm⟩
  case createContract c =>
    obtain ⟨m, hm, -⟩ := h
    obtain ⟨ms, hms, -⟩ := Outcome.bind_eq_ok.1 hm
    exact reads_of_ofParticipants hms
  case updateContract id c =>
    obtain ⟨m, hm, -⟩ := h
    obtain ⟨ms, hms, -⟩ := Outcome.bind_eq_ok.1 hm
    exact reads_of_ofParticipants hms
  case createEscrow e =>
    obtain ⟨m, hm, -⟩ := h
    exact EscrowCreate.reads_of_ofEscrow hm
  case updateEscrowParties id p =>
    obtain ⟨m, hm, -⟩ := h
    exact EscrowUpdateParties.reads_of_ofParties hm
  case createProposal d =>
    obtain ⟨m, hm, -⟩ := h
    simp only [ProposalCreate.ofDraft, Outcome.bind_eq_ok] at hm
    obtain ⟨o, ho, author, hauthor, -⟩ := hm
    exact List.forall_mem_cons.2 ⟨Account.exists_reads_of_bytesOfAddress hauthor,
      ProposalOptions.reads_of_ofAction ho⟩
  -- the other requests name no account
  all_goals exact List.forall_mem_nil _

/-! ## What does not depend on the chain -/

/-- A request that is not compared is written alike for all creators. -/
theorem Action.ofRequest_congr {r : Request} (hchecks : ¬ChecksNetwork r) (c d : Identity) :
    ofRequest c r = ofRequest d r := by
  cases r
  case send | offerSwap => exact absurd trivial hchecks
  all_goals rfl

/-- A fee is written alike on all chains, since the payer's bytes do not tell the network. -/
theorem Tx.feeOf_congr (c d : ChainId) (key : PublicKey) (fee : Option Fee) :
    feeOf ⟨c, key⟩ fee = feeOf ⟨d, key⟩ fee := by
  unfold feeOf
  split
  · by_cases hkey : key.algorithm = .ed25519
    · simp [Account.ofIdentity, hkey]
    · simp [Account.ofIdentity, hkey]
  · rfl

/-- **A request that is not compared is written alike on all chains.** -/
theorem Tx.ofTransaction_congr {t : Transaction} (hchecks : ¬ChecksNetwork t.request)
    (chainId : ChainId) :
    ofTransaction { t with creator := ⟨chainId, t.creator.publicKey⟩ } = ofTransaction t := by
  simp only [ofTransaction, Action.ofRequest_congr hchecks _ t.creator,
    feeOf_congr chainId t.creator.chainId]

end Schema

namespace Codec

/-- **What is signed names accounts of networks**, those of the chain in a send or an offer. Any
other request that one chain's creator can sign can be signed on every chain, whatever network its
addresses are of. -/
theorem network_of_bytesToSign {t : Transaction} {nonce : Nonce} {job : SigningJob}
    (h : bytesToSign t nonce = .ok job) :
    (∀ a ∈ addressesOf t.request, ∃ network : Network, network.Reads a) ∧
    (ChecksNetwork t.request →
      ∀ a ∈ addressesOf t.request, (Network.ofChain t.creator.chainId).Reads a) ∧
    (¬ChecksNetwork t.request → ∀ chainId : ChainId, (Utf8.encode chainId).length < 256 →
      ∃ job', bytesToSign { t with creator := ⟨chainId, t.creator.publicKey⟩ } nonce =
        .ok job') := by
  obtain ⟨tx, bytes, htx, -, -⟩ := bytesToSign_eq_ok.1 h
  obtain ⟨action, haction, -⟩ := Schema.Tx.ofTransaction_eq_ok htx
  refine ⟨Schema.Action.exists_reads_of_ofRequest haction,
    fun hchecks => Schema.Action.reads_of_ofRequest hchecks haction,
    fun hchecks chainId hname => ?_⟩
  have hsame := (Schema.Tx.ofTransaction_congr hchecks chainId).trans htx
  exact ⟨_, bytesToSign_eq_ok.2 ⟨tx, _, hsame, if_neg (Nat.not_le.2 hname), rfl⟩⟩

/-- What the account of a key asks for on a chain of the test network, without a fee. -/
def asked (request : Request) : Transaction := ⟨⟨"iov-lovenet", .ed25519, [7, 7, 7]⟩, none, request⟩

/-- An offer to an account of a network. -/
def offerOn (network : Network) : Request :=
  .offerSwap
    { swapId := none
      recipient := Bech32.encode network.hrp (List.replicate 20 1)
      amounts := [⟨"5000000000", 9, "IOV"⟩]
      hash := List.replicate 32 9
      timeout := .timestamp 1700000000
      memo := none }

/-- A contract with one participant, of a network. -/
def contractOn (network : Network) : Request :=
  .createContract ⟨[⟨Bech32.encode network.hrp (List.replicate 20 1), 1⟩], 1, 1⟩

/-- An offer on the chain's network is signed; a contract there is signed on the main network as
well. -/
theorem network_of_bytesToSign_samples :
    (∃ job, bytesToSign (asked (offerOn .test)) 11 = .ok job ∧
      ∀ a ∈ addressesOf (offerOn .test), Network.test.Reads a) ∧
    ∃ job, bytesToSign (asked (contractOn .test)) 11 = .ok job ∧
      (∀ a ∈ addressesOf (contractOn .test), ∃ network : Network, network.Reads a) ∧
      ∃ job', bytesToSign
        { asked (contractOn .test) with creator := ⟨"iov-mainnet", .ed25519, [7, 7, 7]⟩ } 11 =
          .ok job' := by
  have hoffer : (bytesToSign (asked (offerOn .test)) 11).map (·.bytes.length) = .ok 124 := by
    decide +kernel
  have hcontract : (bytesToSign (asked (contractOn .test)) 11).map (·.bytes.length) = .ok 61 := by
    decide +kernel
  obtain ⟨job, hjob, -⟩ := Outcome.map_eq_ok.1 hoffer
  obtain ⟨job', hjob', -⟩ := Outcome.map_eq_ok.1 hcontract
  obtain ⟨-, hchain, -⟩ := network_of_bytesToSign hjob
  obtain ⟨hsome, -, hevery⟩ := network_of_bytesToSign hjob'
  exact ⟨⟨job, hjob, hchain trivial⟩, job', hjob', hsome,
    hevery not_false "iov-mainnet" (by decide +kernel)⟩

/-- An offer to an account of the main network is not signed on a chain of the test network, but a
contract with that account is. -/
theorem bytesToSign_strayContract :
    Network.ofChain (asked (contractOn .main)).creator.chainId = .test ∧
      (∃ job, bytesToSign (asked (contractOn .main)) 11 = .ok job) ∧
      (∃ a ∈ addressesOf (contractOn .main), ¬Network.test.Reads a) ∧
      ∀ job, bytesToSign (asked (offerOn .main)) 11 ≠ .ok job := by
  have hcontract : (bytesToSign (asked (contractOn .main)) 11).map (·.bytes.length) = .ok 61 := by
    decide +kernel
  have hoffer : (bytesToSign (asked (offerOn .main)) 11).isOk = false := by decide +kernel
  obtain ⟨job, hjob, -⟩ := Outcome.map_eq_ok.1 hcontract
  refine ⟨by decide +kernel, ⟨job, hjob⟩, ⟨_, List.mem_cons_self, ?_⟩, fun job hjob => ?_⟩
  · rintro ⟨data, hread⟩
    have hmain : Account.address .main (List.replicate 20 1) =
        .ok (Bech32.encode Network.main.hrp (List.replicate 20 1)) := rfl
    have hother := (Account.ofAddress_address hmain).symm.trans hread
    cases hother
  · rw [hjob] at hoffer
    cases hoffer

end Codec

end Bns

end ChainKit
