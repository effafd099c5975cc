import ChainKit.Bns.Schema.Tx
import ChainKit.Proofs.Wire.Message
import Mathlib
/-!
# The schema loses nothing

Every message type of the schema is `Lossless`: its fields have distinct
numbers, so each reader finds the records of its own field and passes over
the others. The depth counts the messages inside each other; a transaction
has two levels below it, the options of a proposal three.
-/

namespace ChainKit

namespace Bns

namespace Schema

open Wire

/-! ## Coins, keys and signatures -/

instance : Lossless Metadata 0 where

instance : Lossless Coin 0 where

instance : Lossless KeyData 0 where

instance : Lossless SignatureData 0 where

instance : Lossless StdSignature 1 where

/-! ## Sends, fees, swaps and escrows -/

instance : Lossless CashSend 1 where

instance : Lossless FeeInfo 1 where

instance : Lossless SwapCreate 1 where

instance : Lossless SwapRelease 1 where

instance : Lossless SwapReturn 1 where

instance : Lossless EscrowCreate 1 where

instance : Lossless EscrowRelease 1 where

instance : Lossless EscrowReturn 1 where

instance : Lossless EscrowUpdateParties 1 where

/-! ## Contracts and usernames -/

instance : Lossless MultisigParticipant 0 where

instance : Lossless MultisigCreate 1 where

instance : Lossless MultisigUpdate 1 where

instance : Lossless UsernameTarget 0 where

instance : Lossless UsernameToken 1 where

instance : Lossless UsernameRegister 1 where

instance : Lossless UsernameChangeTargets 1 where

/-! ## Proposals -/

instance : Lossless ValidatorKey 0 where

instance : Lossless ValidatorUpdate 1 where

instance : Lossless ValidatorsApplyDiff 2 where

instance : Lossless Elector 0 where

instance : Lossless Electorate 1 where

instance : Lossless VersionedRef 0 where

instance : Lossless FractionData 0 where

instance : Lossless TallyState 1 where

instance : Lossless ProposalState 2 where

instance : Lossless ProposalCreate 1 where

instance : Lossless ProposalVote 1 where

instance : Lossless ProposalTally 1 where

instance : Lossless TextResolution 1 where

instance : Lossless ElectorateUpdate 1 where

instance : Lossless ProposalOptions 3 where

/-! ## Transactions -/

instance : Lossless Tx 2 where

end Schema

end Bns

end ChainKit
