import ChainKit.Bns.Governance
import ChainKit.Bns.Schema.Accounts

/-!
# Stored objects — what queries to the chain return

Usernames, electorates and proposals as the chain keeps them, read into
the terms of the model.
-/

namespace ChainKit

open Text

namespace Bns

/-- A registered username. -/
structure Username where
  id : String
  owner : Address
  targets : List ChainAddress
  deriving DecidableEq

namespace Username

/-- Reads one target, the one at `i`. -/
def target (i : Nat) (t : Schema.UsernameTarget) : Result ChainAddress := do
  let chainId ← Field.text s!"targets[{i}].blockchainId" t.blockchainId
  return { chainId, address := t.address }

/-- Reads the username stored under `key` on a chain. -/
def ofToken (key : Bytes) (token : Schema.UsernameToken) (chainId : ChainId) : Result Username := do
  let id ← (Utf8.decode key).mapError fun e => .unreadable (.usernameNotText e)
  let owner ← Field.bytes "owner" token.owner
  let targets ← mapIndexed target 0 token.targets
  let owner ← Account.address (.ofChain chainId) owner
  return { id, owner, targets }

end Username

/-- Who may vote, and with what weight. -/
structure Electorate where
  id : UInt64
  version : UInt32
  admin : Address
  title : String
  electors : TextMap ElectorWeight
  totalWeight : UInt64
  deriving DecidableEq

/-- Reads an electorate. -/
def Electorate.ofState (network : Network) (id : UInt64) (e : Schema.Electorate) :
    Result Electorate := do
  let admin ← Field.address network "admin" e.admin
  let electors ← Schema.toElectors network e.electors
  return {
    id
    version := e.version
    admin
    title := e.title
    electors
    totalWeight := e.totalWeight }

/-- Where a proposal stands. -/
inductive ProposalStatus where
  | submitted
  | closed
  | withdrawn
  deriving DecidableEq, Repr

/-- What the electorate decided. -/
inductive ProposalResult where
  | undecided
  | accepted
  | rejected
  deriving DecidableEq, Repr

/-- What became of an accepted proposal. -/
inductive ExecutorResult where
  | notRun
  | succeeded
  | failed
  deriving DecidableEq, Repr

/-- The member of an enumeration that a number stands for: the members are
counted from one, and zero stands for none of them. -/
def member {α : Type} (what reserved : String) (members : List α) (n : Int32) : Result α :=
  if n = 0 then .error (.invalid (.reservedValue reserved))
  else if n < 0 then .error (.invalid (.unknownValue what n))
  else match members[n.toInt.toNat - 1]? with
    | some x => .ok x
    | none => .error (.invalid (.unknownValue what n))

namespace ProposalStatus

/-- The status that a number stands for. -/
def ofNumber : Int32 → Result ProposalStatus :=
  member "proposal status" "PROPOSAL_STATUS_INVALID" [submitted, closed, withdrawn]

/-- The status in messages. -/
def inspect : ProposalStatus → String
  | submitted => "Submitted"
  | closed => "Closed"
  | withdrawn => "Withdrawn"

end ProposalStatus

namespace ProposalResult

/-- The result that a number stands for. -/
def ofNumber : Int32 → Result ProposalResult :=
  member "proposal result" "PROPOSAL_RESULT_INVALID" [undecided, accepted, rejected]

/-- The result in messages. -/
def inspect : ProposalResult → String
  | undecided => "Undefined"
  | accepted => "Accepted"
  | rejected => "Rejected"

end ProposalResult

namespace ExecutorResult

/-- The result that a number stands for. -/
def ofNumber : Int32 → Result ExecutorResult :=
  member "executor result" "EXECUTOR_RESULT_INVALID" [notRun, succeeded, failed]

/-- The result in messages. -/
def inspect : ExecutorResult → String
  | notRun => "NotRun"
  | succeeded => "Succeeded"
  | failed => "Failed"

end ExecutorResult

/-- A fraction. -/
structure Fraction where
  numerator : UInt32
  denominator : UInt32
  deriving DecidableEq, Repr

/-- A fraction of the wire. -/
def Fraction.ofState (f : Schema.FractionData) : Fraction := ⟨f.numerator, f.denominator⟩

/-- An object of the chain at one of its versions. -/
structure VersionedId where
  id : UInt64
  version : UInt32
  deriving DecidableEq, Repr

/-- Reads the reference in a field that has to be there. -/
def VersionedId.ofState (field : String) (r : Option Schema.VersionedRef) : Result VersionedId := do
  let r ← Field.present field r
  let id ← NumericId.decode (field ++ ".id") r.id
  return { id, version := r.version }

/-- The votes counted so far and the rules they are counted by. -/
structure Tally where
  yes : UInt64
  no : UInt64
  abstain : UInt64
  electorateWeight : UInt64
  quorum : Option Fraction
  threshold : Fraction
  deriving DecidableEq, Repr

/-- Reads a tally. -/
def Tally.ofState (t : Schema.TallyState) : Result Tally := do
  let threshold ← Field.present "voteState.threshold" t.threshold
  return {
    yes := t.yes
    no := t.no
    abstain := t.abstain
    electorateWeight := t.electorateWeight
    quorum := t.quorum.map .ofState
    threshold := .ofState threshold }

/-- A proposal and how far it has come. -/
structure Proposal where
  id : UInt64
  title : String
  action : ProposalAction
  description : String
  electionRule : VersionedId
  electorate : VersionedId
  votingStart : Int64
  votingEnd : Int64
  submitted : Int64
  author : Address
  tally : Tally
  status : ProposalStatus
  result : ProposalResult
  executorResult : ExecutorResult
  deriving DecidableEq

/-- Reads a proposal. -/
def Proposal.ofState (network : Network) (id : UInt64) (p : Schema.ProposalState) :
    Result Proposal := do
  let action ← Schema.ProposalOptions.actionOfField network p.rawOption
  let author ← Field.bytes "author" p.author
  let electionRule ← VersionedId.ofState "electionRuleRef" p.electionRule
  let electorate ← VersionedId.ofState "electorateRef" p.electorate
  let author ← Account.address network author
  let tally ← Tally.ofState (← Field.present "voteState" p.tally)
  let status ← ProposalStatus.ofNumber p.status
  let result ← ProposalResult.ofNumber p.result
  let executorResult ← ExecutorResult.ofNumber p.executorResult
  return {
    id
    title := p.title
    action
    description := p.description
    electionRule
    electorate
    votingStart := p.votingStart
    votingEnd := p.votingEnd
    submitted := p.submitted
    author
    tally
    status
    result
    executorResult }

end Bns

end ChainKit
