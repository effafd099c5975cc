import ChainKit.Swap.Basic

/-!
# Transactions — what accounts ask their chains to do

A transaction is one request of its creator, independent of any wire
format. Every chain's codec covers the same kinds of requests or says that
it does not support one.
-/

namespace ChainKit

/-- Moves tokens. -/
structure Send where
  sender : Address
  recipient : Address
  amount : Amount
  memo : Option String
  deriving DecidableEq, Repr

/-- An account on some chain. -/
structure ChainAddress where
  chainId : ChainId
  address : Address
  deriving DecidableEq, Repr

namespace ChainAddress

def toJson (a : ChainAddress) : Json :=
  .record [("chainId", .str a.chainId), ("address", .str a.address)]

def ofJson? (j : Json) : Option ChainAddress := do
  let f ← j.fields? 2
  return {
    chainId := ← f.required 0 "chainId" Json.text?
    address := ← f.required 1 "address" Json.text? }

end ChainAddress

/-- A party to a multisignature contract and the weight of its signature. -/
structure Participant where
  address : Address
  weight : UInt32
  deriving DecidableEq, Repr

/-- Who may act for a multisignature contract: weights that add up to a
threshold activate it, or administer it. -/
structure Contract where
  participants : List Participant
  activationThreshold : UInt32
  adminThreshold : UInt32
  deriving DecidableEq, Repr

/-- Puts tokens under an arbiter's control until a deadline. -/
structure Escrow where
  sender : Address
  arbiter : Address
  recipient : Address
  amounts : List Amount
  timeout : Timeout
  memo : Option String
  deriving DecidableEq, Repr

/-- The parties of an escrow that are to be replaced. -/
structure EscrowParties where
  sender : Option Address
  arbiter : Option Address
  recipient : Option Address
  deriving DecidableEq, Repr

/-- A choice on a proposal. -/
inductive Vote where
  | yes
  | no
  | abstain
  deriving DecidableEq, Repr

namespace Vote

/-- The choice's name. -/
def name : Vote → String
  | yes => "yes"
  | no => "no"
  | abstain => "abstain"

def toJson (v : Vote) : Json := .str v.name

def ofJson? : Json → Option Vote := Json.choice? name [yes, no, abstain]

end Vote

/-- What a validator's entry says. -/
structure ValidatorPower where
  power : Int64
  deriving DecidableEq, Repr

namespace ValidatorPower

def toJson (p : ValidatorPower) : Json := .record [("power", .integer p.power.toInt)]

def ofJson? (j : Json) : Option ValidatorPower := do
  let f ← j.fields? 1
  return { power := ← f.required 0 "power" Json.int64? }

end ValidatorPower

/-- What an elector's entry says. -/
structure ElectorWeight where
  weight : UInt32
  deriving DecidableEq, Repr

namespace ElectorWeight

def toJson (w : ElectorWeight) : Json := .record [("weight", .integer w.weight.toNat)]

def ofJson? (j : Json) : Option ElectorWeight := do
  let f ← j.fields? 1
  return { weight := ← f.required 0 "weight" Json.uint32? }

end ElectorWeight

/-- What a proposal does once it is accepted. -/
inductive ProposalAction where
  /-- Records a resolution. -/
  | text (resolution : String)
  /-- Sets the power of validators, named `ed25519_` and their key in
  hexadecimal. -/
  | validators (updates : TextMap ValidatorPower)
  /-- Sets the weight of electors, named by their addresses. -/
  | electorate (electorateId : UInt64) (electors : TextMap ElectorWeight)
  deriving DecidableEq

/-- A proposal put to an electorate. -/
structure ProposalDraft where
  title : String
  action : ProposalAction
  description : String
  electionRuleId : UInt64
  /-- Seconds of the Unix clock. -/
  startTime : Int64
  author : Address
  deriving DecidableEq

/-- What a transaction asks for. -/
inductive Request where
  | send (send : Send)
  | offerSwap (offer : SwapOffer)
  | claimSwap (swapId : SwapId) (preimage : Bytes)
  | abortSwap (swapId : SwapId)
  | registerUsername (username : String) (targets : List ChainAddress)
  | updateUsernameTargets (username : String) (targets : List ChainAddress)
  | createContract (contract : Contract)
  | updateContract (contractId : Bytes) (contract : Contract)
  | createEscrow (escrow : Escrow)
  | releaseEscrow (escrowId : UInt64) (amounts : List Amount)
  | returnEscrow (escrowId : UInt64)
  | updateEscrowParties (escrowId : UInt64) (parties : EscrowParties)
  | createProposal (draft : ProposalDraft)
  | vote (proposalId : UInt64) (selection : Vote)
  | tally (proposalId : UInt64)
  deriving DecidableEq

/-- The name of a request's kind. -/
def Request.name : Request → String
  | .send .. => "bcp/send"
  | .offerSwap .. => "bcp/swap_offer"
  | .claimSwap .. => "bcp/swap_claim"
  | .abortSwap .. => "bcp/swap_abort"
  | .registerUsername .. => "bns/register_username"
  | .updateUsernameTargets .. => "bns/update_targets_of_username"
  | .createContract .. => "bns/create_multisignature_contract"
  | .updateContract .. => "bns/update_multisignature_contract"
  | .createEscrow .. => "bns/create_escrow"
  | .releaseEscrow .. => "bns/release_escrow"
  | .returnEscrow .. => "bns/return_escrow"
  | .updateEscrowParties .. => "bns/update_escrow_parties"
  | .createProposal .. => "bns/create_proposal"
  | .vote .. => "bns/vote"
  | .tally .. => "bns/tally"

/-- A request, who makes it and what it pays. -/
structure Transaction where
  creator : Identity
  fee : Option Fee
  request : Request
  deriving DecidableEq

/-- A transaction with its creator's signature and those of others. -/
structure SignedTransaction where
  transaction : Transaction
  primary : Signature
  others : List Signature
  deriving DecidableEq

/-- All signatures, the creator's first. -/
def SignedTransaction.signatures (t : SignedTransaction) : List Signature := t.primary :: t.others

end ChainKit
