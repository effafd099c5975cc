import ChainKit.Bns.Contract
import ChainKit.Bns.Credential
import ChainKit.Bns.Governance
import ChainKit.Bns.Schema.Tx
import ChainKit.Bns.Transfer
import ChainKit.Bns.Username
import ChainKit.Codec

/-!
# The BNS codec — transactions as the chain signs and stores them

A transaction is written as a message with one action. What is signed is
that message without signatures, behind the chain's name and the nonce;
what is posted is the message with the signatures, the creator's first.
Reading takes the creator from the first signature, since the message does
not name it.
-/

namespace ChainKit

open Text

namespace Bns

namespace Schema

/-- Writes what a transaction asks for. -/
def Action.ofRequest (creator : Identity) : Request → Result Action
  | .send s => (CashSend.ofSend creator s).map cashSend
  | .offerSwap o => (SwapCreate.ofOffer creator o).map swapCreate
  | .claimSwap id preimage => (SwapRelease.ofClaim id preimage).map swapRelease
  | .abortSwap id => (SwapReturn.ofAbort id).map swapReturn
  | .registerUsername name targets =>
    (UsernameRegister.ofRegistration name targets).map usernameRegister
  | .updateUsernameTargets name targets =>
    .ok (usernameChangeTargets (UsernameChangeTargets.ofTargets name targets))
  | .createContract c => (MultisigCreate.ofContract c).map multisigCreate
  | .updateContract id c => (MultisigUpdate.ofContract id c).map multisigUpdate
  | .createEscrow e => (EscrowCreate.ofEscrow e).map escrowCreate
  | .releaseEscrow id amounts => (EscrowRelease.ofRelease id amounts).map escrowRelease
  | .returnEscrow id =>
    .ok (escrowReturn { metadata := Metadata.current, escrowId := NumericId.encode id })
  | .updateEscrowParties id parties =>
    (EscrowUpdateParties.ofParties id parties).map escrowUpdateParties
  | .createProposal d => (ProposalCreate.ofDraft d).map proposalCreate
  | .vote id v => .ok (proposalVote (ProposalVote.ofVote id v))
  | .tally id => .ok (proposalTally (ProposalTally.ofId id))

/-- Reads what a transaction of the creator asks for. -/
def Action.toRequest (creator : Identity) (action : Action) : Result Request :=
  let network := Network.ofChain creator.chainId
  match action with
  | cashSend m => (m.toSend creator).map .send
  | swapCreate m => (m.toOffer network).map .offerSwap
  | swapRelease m => m.toClaim.map fun (id, preimage) => .claimSwap id preimage
  | swapReturn m => m.toAbort.map .abortSwap
  | usernameRegister m => m.toRegistration.map fun (name, targets) => .registerUsername name targets
  | usernameChangeTargets m => m.toTargets.map fun (name, targets) =>
    .updateUsernameTargets name targets
  | multisigCreate m => (m.toContract network).map .createContract
  | multisigUpdate m => (m.toContract network).map fun (id, c) => .updateContract id c
  | escrowCreate m => (m.toEscrow network).map .createEscrow
  | escrowRelease m => m.toRelease.map fun (id, amounts) => .releaseEscrow id amounts
  | escrowReturn m => (NumericId.decode "escrowId" m.escrowId).map .returnEscrow
  | escrowUpdateParties m => (m.toParties network).map fun (id, parties) =>
    .updateEscrowParties id parties
  | proposalCreate m => (m.toDraft network).map .createProposal
  | proposalVote m => m.toVote.map fun (id, v) => .vote id v
  | proposalTally m => m.toId.map .tally

namespace Tx

/-- The one action of a message. -/
def theAction (tx : Tx) : Result Action :=
  match tx.actions with
  | [] => .error .unknownAction
  | [action] => .ok action
  | actions => .error (.invalid (.messageCount actions.length))

/-- Writes a fee in tokens, which the creator pays. -/
def feeOf (creator : Identity) : Option Fee → Result (Option FeeInfo)
  | some { tokens := some amount, .. } => do
    let payer ← Account.ofIdentity creator
    let fees ← Coin.ofAmount amount
    return some { payer := payer.data, fees := some fees }
  | _ => .ok none

/-- Writes a transaction without signatures. -/
def ofTransaction (t : Transaction) : Result Tx := do
  let action ← Action.ofRequest t.creator t.request
  let fees ← feeOf t.creator t.fee
  return { ofAction action with fees }

/-- Writes a transaction with its signatures. -/
def ofSigned (t : SignedTransaction) : Result Tx := do
  let tx ← ofTransaction t.transaction
  let signatures ← t.signatures.mapM StdSignature.ofSignature
  return { tx with signatures }

/-- Reads the fee, if tokens are paid. -/
def toFee (tx : Tx) : Result (Option Fee) :=
  match tx.fees with
  | some { fees := some coin, .. } => coin.toAmount.map fun amount => some (.ofTokens amount)
  | _ => .ok none

/-- Reads a transaction of a chain. -/
def toSigned (tx : Tx) (chainId : ChainId) : Result SignedTransaction := do
  let signatures ← tx.signatures.mapM StdSignature.toSignature
  match signatures with
  | [] => .error (.missing "first signature")
  | primary :: others =>
    let creator : Identity := ⟨chainId, primary.publicKey⟩
    let request ← (← tx.theAction).toRequest creator
    let fee ← tx.toFee
    return { transaction := { creator, fee, request }, primary, others }

end Tx

end Schema

namespace Codec

/-- What stands in front of everything that is signed. -/
def signVersion : Bytes := [0x00, 0xCA, 0xFE, 0x00]

/-- The bytes to sign for a message: the version, the chain's name behind
its length, the nonce in eight bytes, and the message. -/
def signBytes (message : Bytes) (chainId : ChainId) (nonce : Nonce) : Result Bytes :=
  let chain := Utf8.encode chainId
  if 256 ≤ chain.length then .error (.invalid (.chainIdLength chain.length))
  else .ok (signVersion ++ UInt8.ofNat chain.length :: chain ++
    Bytes.ofNat 8 nonce.toUInt64.toNat ++ message)

/-- What the creator signs. -/
def bytesToSign (t : Transaction) (nonce : Nonce) : Result SigningJob := do
  let tx ← Schema.Tx.ofTransaction t
  let bytes ← signBytes (Wire.Message.encode tx) t.creator.chainId nonce
  return { bytes, prehash := .sha512 }

/-- What is posted to the chain. -/
def bytesToPost (t : SignedTransaction) : Result Bytes :=
  (Schema.Tx.ofSigned t).map Wire.Message.encode

/-- The identifier of a transaction: the digest of what is posted, in
uppercase hexadecimal. -/
def identifier (t : SignedTransaction) : Result String := do
  let bytes ← bytesToPost t
  return String.ofList ((Hex.digits (Sha256.digest bytes)).map Char.toUpper)

/-- Reads what was posted to a chain. -/
def parse (bytes : Bytes) (chainId : ChainId) : Result SignedTransaction :=
  match Wire.Message.decode? (α := Schema.Tx) bytes with
  | some tx => tx.toSigned chainId
  | none => .error (.unreadable .malformed)

end Codec

/-- The codec of the name service. -/
def codec : ChainKit.Codec Rule Flaw where
  message := Rejection.message Rule.message Flaw.message
  bytesToSign := Codec.bytesToSign
  bytesToPost := Codec.bytesToPost
  identifier := Codec.identifier
  parse := Codec.parse
  addressOf := Account.addressOfIdentity
  isAddress := Account.isAddress

end Bns

end ChainKit
