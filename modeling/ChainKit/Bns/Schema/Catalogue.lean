import ChainKit.Bns.Schema.Tx

/-!
# The catalogue of messages

Every message of the schema under its name there. A message is normalised
by reading it and writing it again: unknown fields are lost, and the known
ones come in order.
-/

namespace ChainKit

namespace Bns

namespace Schema

open Wire

/-- A message type under its name. -/
structure Entry where
  name : String
  carrier : Type
  [message : Message carrier]

attribute [instance] Entry.message

/-- The message types of the schema. -/
def entries : List Entry := [
  ⟨"Metadata", Metadata⟩,
  ⟨"coin.Coin", Coin⟩,
  ⟨"crypto.PublicKey", KeyData⟩,
  ⟨"crypto.Signature", SignatureData⟩,
  ⟨"sigs.StdSignature", StdSignature⟩,
  ⟨"cash.SendMsg", CashSend⟩,
  ⟨"cash.FeeInfo", FeeInfo⟩,
  ⟨"aswap.CreateMsg", SwapCreate⟩,
  ⟨"aswap.ReleaseMsg", SwapRelease⟩,
  ⟨"aswap.ReturnMsg", SwapReturn⟩,
  ⟨"escrow.CreateMsg", EscrowCreate⟩,
  ⟨"escrow.ReleaseMsg", EscrowRelease⟩,
  ⟨"escrow.ReturnMsg", EscrowReturn⟩,
  ⟨"escrow.UpdatePartiesMsg", EscrowUpdateParties⟩,
  ⟨"multisig.Participant", MultisigParticipant⟩,
  ⟨"multisig.CreateMsg", MultisigCreate⟩,
  ⟨"multisig.UpdateMsg", MultisigUpdate⟩,
  ⟨"username.BlockchainAddress", UsernameTarget⟩,
  ⟨"username.Token", UsernameToken⟩,
  ⟨"username.RegisterTokenMsg", UsernameRegister⟩,
  ⟨"username.ChangeTokenTargetsMsg", UsernameChangeTargets⟩,
  ⟨"validators.PubKey", ValidatorKey⟩,
  ⟨"validators.ValidatorUpdate", ValidatorUpdate⟩,
  ⟨"validators.ApplyDiffMsg", ValidatorsApplyDiff⟩,
  ⟨"gov.Elector", Elector⟩,
  ⟨"gov.Electorate", Electorate⟩,
  ⟨"gov.VersionedIdRef", VersionedRef⟩,
  ⟨"gov.Fraction", FractionData⟩,
  ⟨"gov.TallyResult", TallyState⟩,
  ⟨"gov.Proposal", ProposalState⟩,
  ⟨"gov.CreateProposalMsg", ProposalCreate⟩,
  ⟨"gov.VoteMsg", ProposalVote⟩,
  ⟨"gov.TallyMsg", ProposalTally⟩,
  ⟨"gov.TextResolutionMsg", TextResolution⟩,
  ⟨"gov.UpdateElectorateMsg", ElectorateUpdate⟩,
  ⟨"bnsd.Tx", Tx⟩,
  ⟨"bnsd.ProposalOptions", ProposalOptions⟩]

/-- The bytes of a message, read and written again. -/
def normalize (α : Type) [Message α] (b : Bytes) : Option Bytes :=
  (Message.decode? b : Option α).map Message.encode

/-- How messages are normalised, by their names. -/
def catalogue : List (String × (Bytes → Option Bytes)) :=
  entries.map fun e => (e.name, normalize e.carrier)

end Schema

end Bns

end ChainKit
