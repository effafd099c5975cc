import ChainKit.Bns.Schema.Accounts
import ChainKit.Bns.Schema.Governance
import ChainKit.Bns.Schema.Tokens

/-!
# The wire schema — transactions

A transaction carries its fee, its signatures and one action. The wire has
a field for each kind of action, so it can also carry none or several.
-/

namespace ChainKit

namespace Bns

namespace Schema

open Wire

/-- A transaction. -/
structure Tx where
  fees : Option FeeInfo := none
  signatures : List StdSignature := []
  cashSend : Option CashSend := none
  escrowCreate : Option EscrowCreate := none
  escrowRelease : Option EscrowRelease := none
  escrowReturn : Option EscrowReturn := none
  escrowUpdateParties : Option EscrowUpdateParties := none
  multisigCreate : Option MultisigCreate := none
  multisigUpdate : Option MultisigUpdate := none
  usernameRegister : Option UsernameRegister := none
  usernameChangeTargets : Option UsernameChangeTargets := none
  swapCreate : Option SwapCreate := none
  swapRelease : Option SwapRelease := none
  swapReturn : Option SwapReturn := none
  proposalCreate : Option ProposalCreate := none
  proposalVote : Option ProposalVote := none
  proposalTally : Option ProposalTally := none
  deriving DecidableEq

instance : Message Tx where
  records m := message 1 m.fees ++ messages 2 m.signatures ++ message 51 m.cashSend ++
    message 52 m.escrowCreate ++ message 53 m.escrowRelease ++ message 54 m.escrowReturn ++
    message 55 m.escrowUpdateParties ++ message 56 m.multisigCreate ++
    message 57 m.multisigUpdate ++ message 61 m.usernameRegister ++
    message 63 m.usernameChangeTargets ++ message 70 m.swapCreate ++ message 71 m.swapRelease ++
    message 72 m.swapReturn ++ message 73 m.proposalCreate ++ message 75 m.proposalVote ++
    message 76 m.proposalTally
  ofFields? f := do
    return {
      fees := ← f.message? 1
      signatures := ← f.messages? 2
      cashSend := ← f.message? 51
      escrowCreate := ← f.message? 52
      escrowRelease := ← f.message? 53
      escrowReturn := ← f.message? 54
      escrowUpdateParties := ← f.message? 55
      multisigCreate := ← f.message? 56
      multisigUpdate := ← f.message? 57
      usernameRegister := ← f.message? 61
      usernameChangeTargets := ← f.message? 63
      swapCreate := ← f.message? 70
      swapRelease := ← f.message? 71
      swapReturn := ← f.message? 72
      proposalCreate := ← f.message? 73
      proposalVote := ← f.message? 75
      proposalTally := ← f.message? 76 }

/-- What a transaction may ask for. -/
inductive Action where
  | cashSend (msg : CashSend)
  | escrowCreate (msg : EscrowCreate)
  | escrowRelease (msg : EscrowRelease)
  | escrowReturn (msg : EscrowReturn)
  | escrowUpdateParties (msg : EscrowUpdateParties)
  | multisigCreate (msg : MultisigCreate)
  | multisigUpdate (msg : MultisigUpdate)
  | usernameRegister (msg : UsernameRegister)
  | usernameChangeTargets (msg : UsernameChangeTargets)
  | swapCreate (msg : SwapCreate)
  | swapRelease (msg : SwapRelease)
  | swapReturn (msg : SwapReturn)
  | proposalCreate (msg : ProposalCreate)
  | proposalVote (msg : ProposalVote)
  | proposalTally (msg : ProposalTally)
  deriving DecidableEq

/-- The actions that a transaction holds, in the order of its fields. -/
def Tx.actions (tx : Tx) : List Action :=
  [tx.cashSend.map .cashSend,
    tx.escrowCreate.map .escrowCreate,
    tx.escrowRelease.map .escrowRelease,
    tx.escrowReturn.map .escrowReturn,
    tx.escrowUpdateParties.map .escrowUpdateParties,
    tx.multisigCreate.map .multisigCreate,
    tx.multisigUpdate.map .multisigUpdate,
    tx.usernameRegister.map .usernameRegister,
    tx.usernameChangeTargets.map .usernameChangeTargets,
    tx.swapCreate.map .swapCreate,
    tx.swapRelease.map .swapRelease,
    tx.swapReturn.map .swapReturn,
    tx.proposalCreate.map .proposalCreate,
    tx.proposalVote.map .proposalVote,
    tx.proposalTally.map .proposalTally].filterMap id

/-- A transaction that holds one action and nothing else. -/
def Tx.ofAction : Action → Tx
  | .cashSend msg => { cashSend := some msg }
  | .escrowCreate msg => { escrowCreate := some msg }
  | .escrowRelease msg => { escrowRelease := some msg }
  | .escrowReturn msg => { escrowReturn := some msg }
  | .escrowUpdateParties msg => { escrowUpdateParties := some msg }
  | .multisigCreate msg => { multisigCreate := some msg }
  | .multisigUpdate msg => { multisigUpdate := some msg }
  | .usernameRegister msg => { usernameRegister := some msg }
  | .usernameChangeTargets msg => { usernameChangeTargets := some msg }
  | .swapCreate msg => { swapCreate := some msg }
  | .swapRelease msg => { swapRelease := some msg }
  | .swapReturn msg => { swapReturn := some msg }
  | .proposalCreate msg => { proposalCreate := some msg }
  | .proposalVote msg => { proposalVote := some msg }
  | .proposalTally msg => { proposalTally := some msg }

end Schema

end Bns

end ChainKit
