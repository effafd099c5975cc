import ChainKit.Bns.Codec
import ChainKit.Proofs.Bns.Accounts
import ChainKit.Proofs.Bns.Governance
import ChainKit.Proofs.Bns.Transfer
import Mathlib
/-!
# Posted transactions are read back

What is posted is a message that loses nothing (`decode?_bytesToPost`). Of
the transaction it keeps what is canonical: the creator is read from the
first signature, a fee only if tokens are paid, and a request as its own
message keeps it. For canonical transactions reading undoes writing, for
every kind of request (`parse_bytesToPost`).
-/

namespace ChainKit

namespace Bns

/-- A request that its message keeps, on a network. -/
def CanonicalRequest (network : Network) : Request → Prop
  | .send s => CanonicalSend network s
  | .offerSwap o => CanonicalOffer network o
  | .claimSwap _ _ => True
  | .abortSwap _ => True
  | .registerUsername _ targets => ∀ t ∈ targets, CanonicalTarget t
  | .updateUsernameTargets name targets => name ≠ "" ∧ ∀ t ∈ targets, CanonicalTarget t
  | .createContract c => CanonicalContract network c
  | .updateContract id c => id ≠ [] ∧ CanonicalContract network c
  | .createEscrow e => CanonicalEscrow network e
  | .releaseEscrow _ amounts => ∀ a ∈ amounts, a.Canonical
  | .returnEscrow _ => True
  | .updateEscrowParties _ parties => CanonicalParties network parties
  | .createProposal d => CanonicalDraft network d
  | .vote _ _ => True
  | .tally _ => True

/-- A signed transaction that its message keeps. -/
structure CanonicalTransaction (t : SignedTransaction) : Prop where
  /-- The creator signs first. -/
  signer : t.primary.publicKey = t.transaction.creator.publicKey
  /-- No fee, or a canonical one in tokens. -/
  fee : t.transaction.fee = none ∨
    ∃ a : Amount, a.Canonical ∧ t.transaction.fee = some (.ofTokens a)
  request : CanonicalRequest (.ofChain t.transaction.creator.chainId) t.transaction.request

namespace Schema

/-! ## Signatures -/

/-- A signature is read back. -/
theorem StdSignature.toSignature_ofSignature {s : Signature} {w : StdSignature}
    (h : ofSignature s = .ok w) : w.toSignature = .ok s := by
  obtain ⟨nonce, ⟨algorithm, key⟩, data⟩ := s
  cases algorithm with
  | ed25519 =>
    cases h
    rfl
  | secp256k1 => cases h

/-- Signatures are read back in order. -/
theorem StdSignature.mapM_toSignature {signatures : List Signature} {ss : List StdSignature}
    (h : signatures.mapM ofSignature = .ok ss) : ss.mapM toSignature = .ok signatures :=
  Outcome.mapM_inverse h fun _ _ _ hw => toSignature_ofSignature hw

/-! ## Requests -/

/-- **A canonical request is read back from its action**, if the length of the action is a
word. -/
theorem Action.toRequest_ofRequest {creator : Identity} {r : Request} {action : Action}
    (hcanonical : CanonicalRequest (.ofChain creator.chainId) r)
    (h : ofRequest creator r = .ok action)
    (hlength : ∀ m, action = proposalCreate m → m.rawOption.length < Wire.wordSize) :
    action.toRequest creator = .ok r := by
  cases r <;> simp only [ofRequest, Outcome.map_eq_ok] at h
  case send s =>
    obtain ⟨m, hm, rfl⟩ := h
    simp only [toRequest, CashSend.toSend_ofSend hcanonical hm, Outcome.map_ok]
  case offerSwap o =>
    obtain ⟨m, hm, rfl⟩ := h
    simp only [toRequest, SwapCreate.toOffer_ofOffer hcanonical hm, Outcome.map_ok]
  case claimSwap id preimage =>
    obtain ⟨m, hm, rfl⟩ := h
    simp only [toRequest, SwapRelease.toClaim_ofClaim hm, Outcome.map_ok]
  case abortSwap id =>
    obtain ⟨m, hm, rfl⟩ := h
    simp only [toRequest, SwapReturn.toAbort_ofAbort hm, Outcome.map_ok]
  case registerUsername name targets =>
    obtain ⟨m, hm, rfl⟩ := h
    simp only [toRequest, UsernameRegister.toRegistration_ofRegistration hcanonical hm,
      Outcome.map_ok]
  case updateUsernameTargets name targets =>
    cases h
    simp only [toRequest, UsernameChangeTargets.toTargets_ofTargets hcanonical.1 hcanonical.2,
      Outcome.map_ok]
  case createContract c =>
    obtain ⟨m, hm, rfl⟩ := h
    simp only [toRequest, MultisigCreate.toContract_ofContract hcanonical hm, Outcome.map_ok]
  case updateContract id c =>
    obtain ⟨m, hm, rfl⟩ := h
    simp only [toRequest, MultisigUpdate.toContract_ofContract hcanonical.1 hcanonical.2 hm,
      Outcome.map_ok]
  case createEscrow e =>
    obtain ⟨m, hm, rfl⟩ := h
    simp only [toRequest, EscrowCreate.toEscrow_ofEscrow hcanonical hm, Outcome.map_ok]
  case releaseEscrow id amounts =>
    obtain ⟨m, hm, rfl⟩ := h
    simp only [toRequest, EscrowRelease.toRelease_ofRelease hcanonical hm, Outcome.map_ok]
  case returnEscrow id =>
    cases h
    simp only [toRequest, NumericId.decode_encode, Outcome.map_ok]
  case updateEscrowParties id parties =>
    obtain ⟨m, hm, rfl⟩ := h
    simp only [toRequest, EscrowUpdateParties.toParties_ofParties hcanonical hm, Outcome.map_ok]
  case createProposal d =>
    obtain ⟨m, hm, rfl⟩ := h
    simp only [toRequest, ProposalCreate.toDraft_ofDraft hcanonical hm (hlength m rfl),
      Outcome.map_ok]
  case vote id v =>
    cases h
    simp only [toRequest, ProposalVote.toVote_ofVote, Outcome.map_ok]
  case tally id =>
    cases h
    simp only [toRequest, ProposalTally.toId_ofId, Outcome.map_ok]

namespace Tx

theorem theAction_eq_ok {tx : Tx} {action : Action} :
    tx.theAction = .ok action ↔ tx.actions = [action] := by
  unfold theAction
  split <;> simp_all

/-- The one action of a message is found, whatever else the message holds. -/
theorem theAction_ofAction (action : Action) (fees : Option FeeInfo) (ss : List StdSignature) :
    theAction { ofAction action with fees, signatures := ss } = .ok action := by
  cases action <;> rfl

/-- The bytes of what a proposal does are fewer than those of the transaction. -/
theorem length_rawOption_le {tx : Tx} {m : ProposalCreate} (h : tx.proposalCreate = some m) :
    m.rawOption.length ≤ (Wire.Message.encode tx).length := by
  have houter : (Wire.Message.encode m).length ≤ (Wire.Message.encode tx).length := by
    have hmem : ⟨73, .bytes (Wire.Message.encode m)⟩ ∈ Wire.Message.records tx := by
      simp [Wire.Message.records, h, Wire.message, Wire.optionalBytes]
    exact Wire.Record.length_le_writeAll hmem
  refine Nat.le_trans ?_ houter
  rcases eq_or_ne m.rawOption [] with hnil | hne
  · simp [hnil]
  · have hmem : ⟨3, .bytes m.rawOption⟩ ∈ Wire.Message.records m := by
      simp [Wire.Message.records, Wire.bytes, hne]
    exact Wire.Record.length_le_writeAll hmem

/-- A fee in tokens is read back. -/
theorem toFee_of_feeOf {creator : Identity} {fee : Option Fee} {fees : Option FeeInfo} {tx : Tx}
    (hcanonical : fee = none ∨ ∃ a : Amount, a.Canonical ∧ fee = some (.ofTokens a))
    (h : feeOf creator fee = .ok fees) (htx : tx.fees = fees) : tx.toFee = .ok fee := by
  rcases hcanonical with rfl | ⟨a, ha, rfl⟩
  · cases h
    simp only [toFee, htx]
  · simp only [feeOf, Fee.ofTokens, Outcome.bind_eq_ok] at h
    obtain ⟨payer, -, coin, hcoin, h⟩ := h
    cases Outcome.pure_eq_ok.1 h
    simp only [toFee, htx, Coin.toAmount_ofAmount ha hcoin, Outcome.map_ok]

/-- A signed transaction is written as its action, its fee and its signatures. -/
theorem ofSigned_eq_ok {t : SignedTransaction} {tx : Tx} (h : ofSigned t = .ok tx) :
    ∃ action fees ss, Action.ofRequest t.transaction.creator t.transaction.request = .ok action ∧
      feeOf t.transaction.creator t.transaction.fee = .ok fees ∧
      t.signatures.mapM StdSignature.ofSignature = .ok ss ∧
      tx = { ofAction action with fees, signatures := ss } := by
  simp only [ofSigned, ofTransaction, Outcome.bind_eq_ok] at h
  obtain ⟨bare, ⟨action, haction, fees, hfees, hbare⟩, ss, hss, h⟩ := h
  cases Outcome.pure_eq_ok.1 hbare
  cases Outcome.pure_eq_ok.1 h
  exact ⟨action, fees, ss, haction, hfees, hss, rfl⟩

/-- A transaction is read from signatures, of which the first names the creator, from the one
action and from the fee. -/
theorem toSigned_eq_ok {tx : Tx} {chainId : ChainId} {t : SignedTransaction} :
    tx.toSigned chainId = .ok t ↔
      tx.signatures.mapM StdSignature.toSignature = .ok t.signatures ∧
      t.transaction.creator = ⟨chainId, t.primary.publicKey⟩ ∧
      (∃ action, tx.theAction = .ok action ∧
        action.toRequest t.transaction.creator = .ok t.transaction.request) ∧
      tx.toFee = .ok t.transaction.fee := by
  simp only [toSigned, Outcome.bind_eq_ok, SignedTransaction.signatures]
  constructor
  · rintro ⟨signatures, hsignatures, h⟩
    cases signatures with
    | nil => cases h
    | cons primary others =>
      simp only [Outcome.bind_eq_ok] at h
      obtain ⟨action, haction, request, hrequest, fee, hfee, h⟩ := h
      cases Outcome.pure_eq_ok.1 h
      exact ⟨hsignatures, rfl, ⟨action, haction, hrequest⟩, hfee⟩
  · rintro ⟨hsignatures, hcreator, ⟨action, haction, hrequest⟩, hfee⟩
    refine ⟨_, hsignatures, ?_⟩
    simp only [Outcome.bind_eq_ok, ← hcreator]
    exact ⟨action, haction, _, hrequest, _, hfee, rfl⟩

/-- A transaction that is read from what was written has the signatures that were written, and who
signed first for its creator. -/
theorem signatures_of_toSigned {t u : SignedTransaction} {tx : Tx} {chainId : ChainId}
    (h : ofSigned t = .ok tx) (hu : tx.toSigned chainId = .ok u) :
    u.signatures = t.signatures ∧ u.transaction.creator = ⟨chainId, t.primary.publicKey⟩ := by
  obtain ⟨action, fees, ss, -, -, hss, rfl⟩ := ofSigned_eq_ok h
  obtain ⟨hsignatures, hcreator, -, -⟩ := toSigned_eq_ok.1 hu
  have hsame : u.signatures = t.signatures :=
    Except.ok.inj (hsignatures.symm.trans (StdSignature.mapM_toSignature hss))
  have hprimary : u.primary = t.primary := (List.cons.inj hsame).1
  exact ⟨hsame, by rw [hcreator, hprimary]⟩

/-- **A canonical transaction is read back from its message**, if the length of the message is a
word. -/
theorem toSigned_ofSigned {t : SignedTransaction} {tx : Tx} (hcanonical : CanonicalTransaction t)
    (h : ofSigned t = .ok tx) (hlength : (Wire.Message.encode tx).length < Wire.wordSize) :
    tx.toSigned t.transaction.creator.chainId = .ok t := by
  obtain ⟨action, fees, ss, haction, hfees, hss, rfl⟩ := ofSigned_eq_ok h
  have hsignatures := StdSignature.mapM_toSignature hss
  -- the creator is not written, but signs first
  have hcreator : (⟨t.transaction.creator.chainId, t.primary.publicKey⟩ : Identity) =
      t.transaction.creator := by
    rw [hcanonical.signer]
  have hrequest : action.toRequest t.transaction.creator = .ok t.transaction.request := by
    refine Action.toRequest_ofRequest hcanonical.request haction ?_
    rintro m rfl
    exact Nat.lt_of_le_of_lt (length_rawOption_le rfl) hlength
  have hfee : toFee { ofAction action with fees, signatures := ss } = .ok t.transaction.fee :=
    toFee_of_feeOf hcanonical.fee hfees rfl
  exact toSigned_eq_ok.2 ⟨hsignatures, hcreator.symm,
    ⟨action, theAction_ofAction action fees ss, hrequest⟩, hfee⟩

end Tx

end Schema

namespace Codec

/-- What is posted is a message that is read back whole, if its length is a word. -/
theorem decode?_bytesToPost {t : SignedTransaction} {b : Bytes} (h : bytesToPost t = .ok b)
    (hlength : b.length < Wire.wordSize) : ∃ tx, Schema.Tx.ofSigned t = .ok tx ∧
      Wire.Message.encode tx = b ∧ Wire.Message.decode? b = some tx := by
  obtain ⟨tx, htx, rfl⟩ := Outcome.map_eq_ok.1 h
  exact ⟨tx, htx, rfl, Wire.decode?_encode (by decide) hlength⟩

theorem parse_eq_ok {b : Bytes} {chainId : ChainId} {t : SignedTransaction} :
    parse b chainId = .ok t ↔
      ∃ tx : Schema.Tx, Wire.Message.decode? b = some tx ∧ tx.toSigned chainId = .ok t := by
  rw [parse]
  cases Wire.Message.decode? (α := Schema.Tx) b <;> simp

/-- **A canonical transaction is read back from what is posted**, of any kind and field for
field, with the signatures of others as they were. The bytes are counted in a word of 64 bits. -/
theorem parse_bytesToPost {t : SignedTransaction} {b : Bytes} (hcanonical : CanonicalTransaction t)
    (hpost : bytesToPost t = .ok b) (hlength : b.length < Wire.wordSize) :
    parse b t.transaction.creator.chainId = .ok t := by
  obtain ⟨tx, htx, hbytes, hread⟩ := decode?_bytesToPost hpost hlength
  simp only [parse, hread]
  exact Schema.Tx.toSigned_ofSigned hcanonical htx (by rwa [hbytes])

/-- The address of an elector with the same byte throughout. -/
def sampleElector (n : UInt8) : Address := Text.Bech32.encode "tiov" (List.replicate 20 n)

/-- A proposal about two electors, with a fee and a second signature. -/
def sampleProposal : SignedTransaction where
  transaction :=
    { creator := ⟨"iov-lovenet", .ed25519, [7, 7, 7]⟩
      fee := some (.ofTokens ⟨"1500000000", 9, "IOV"⟩)
      request := .createProposal
        { title := "Two electors"
          action := .electorate 5 (.ofList [(sampleElector 2, ⟨1⟩), (sampleElector 1, ⟨2⟩)])
          description := ""
          electionRuleId := 3
          startTime := 1700000000
          author := sampleElector 1 } }
  primary := ⟨11, ⟨.ed25519, [7, 7, 7]⟩, [1, 2]⟩
  others := [⟨-1, ⟨.ed25519, [8]⟩, []⟩]

/-- The proposal is canonical. -/
theorem canonical_sampleProposal : CanonicalTransaction sampleProposal where
  signer := by decide
  fee := .inr ⟨_, by decide +kernel, rfl⟩
  request :=
    { action := by
        unfold CanonicalAction
        decide +kernel
      author := by decide +kernel }

/-- The proposal is posted in 208 bytes. -/
theorem bytesToPost_sampleProposal :
    ∃ b, bytesToPost sampleProposal = .ok b ∧ b.length = 208 := by
  have hlength : (bytesToPost sampleProposal).map List.length = .ok 208 := by decide +kernel
  exact Outcome.map_eq_ok.1 hlength

/-- The proposal is canonical and posted, and read back. -/
theorem parse_bytesToPost_sampleProposal :
    CanonicalTransaction sampleProposal ∧ ∃ b, bytesToPost sampleProposal = .ok b ∧
      b.length = 208 ∧
      parse b sampleProposal.transaction.creator.chainId = .ok sampleProposal := by
  obtain ⟨b, hpost, h208⟩ := bytesToPost_sampleProposal
  exact ⟨canonical_sampleProposal, b, hpost, h208,
    parse_bytesToPost canonical_sampleProposal hpost (by rw [h208]; decide)⟩

end Codec

end Bns

end ChainKit
