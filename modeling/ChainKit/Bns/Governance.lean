import ChainKit.Bns.Field
import ChainKit.Bns.Schema.Governance
import ChainKit.Transaction

/-!
# Governance on the wire — votes and proposals

A proposal carries what it does as bytes inside it. Validators are named
by their key, electors by their address; a list that names an elector
twice is refused.
-/

namespace ChainKit

open Text

namespace Bns

namespace Schema

/-! ## Votes -/

/-- The number of a choice. -/
def voteNumber : Vote → Int32
  | .yes => 1
  | .no => 2
  | .abstain => 3

/-- The choice of a number. -/
def vote (n : Int32) : Result Vote :=
  if n = 1 then .ok .yes
  else if n = 2 then .ok .no
  else if n = 3 then .ok .abstain
  else if n = 0 then .error (.invalid (.reservedValue "VOTE_OPTION_INVALID"))
  else .error (.invalid (.unknownValue "vote option" n))

/-! ## Electors -/

/-- Writes the electors of a map. -/
def ofElectors (electors : TextMap ElectorWeight) : Result (List Elector) :=
  electors.entries.mapM fun (address, weight) => do
    return { address := ← Account.bytesOfAddress address, weight := weight.weight }

/-- Adds the electors of a list to a map; the first of them stands at `i`. -/
def addElectors (network : Network) (i : Nat) (map : TextMap ElectorWeight) :
    List Elector → Result (TextMap ElectorWeight)
  | [] => .ok map
  | e :: rest => do
    let address ← Field.address network s!"electors.${i}.address" e.address
    let weight ← Field.uint32 s!"electors.${i}.weight" e.weight
    if map.contains address then .error (.invalid (.duplicateElector address i))
    else addElectors network (i + 1) (map.insert address ⟨weight⟩) rest

/-- Reads electors that differ. -/
def toElectors (network : Network) (electors : List Elector) : Result (TextMap ElectorWeight) :=
  addElectors network 0 .empty electors

/-! ## Validators -/

/-- What stands in front of the key in a validator's name. -/
def validatorScheme : List Char := ['e', 'd', '2', '5', '5', '1', '9', '_']

/-- The key in a validator's name: the scheme and 64 hexadecimal digits. -/
def validatorKey (name : String) : Result Bytes :=
  let cs := name.toList
  let digits := cs.drop validatorScheme.length
  let key := if validatorScheme.isPrefixOf cs ∧ digits.length = 64
    then (Hex.decode (String.ofList digits)).toOption else none
  match key with
  | some key => .ok key
  | none => .error (.invalid (.validatorKey name))

/-- The name of a validator. -/
def validatorName (key : Bytes) : String := "ed25519_" ++ Hex.encode key

/-- Writes the validators of a map. -/
def ofValidators (updates : TextMap ValidatorPower) : Result (List ValidatorUpdate) :=
  updates.entries.mapM fun (name, power) => do
    let data ← validatorKey name
    return { publicKey := some { kind := "ed25519", data }, power := power.power }

/-- Reads one validator, the one at `i`: its name and its power. -/
def toValidator (i : Nat) (u : ValidatorUpdate) : Result (String × ValidatorPower) := do
  let key ← Field.present s!"validatorUpdates.${i}.pubKey" u.publicKey
  let data ← Field.bytes s!"validatorUpdates.${i}.pubKey.data" key.data
  return (validatorName data, ⟨u.power⟩)

/-- Reads validators; of those with one name the last counts. -/
def toValidators (updates : List ValidatorUpdate) : Result (TextMap ValidatorPower) := do
  let entries ← mapIndexed toValidator 0 updates
  return TextMap.ofList entries

/-! ## What a proposal does -/

namespace ProposalOptions

/-- Writes what a proposal does. -/
def ofAction : ProposalAction → Result ProposalOptions
  | .text resolution => .ok { text := some { metadata := Metadata.current, resolution } }
  | .validators updates => do
    let updates ← ofValidators updates
    return { validators := some { metadata := Metadata.current, updates } }
  | .electorate id electors => do
    let electors ← ofElectors electors
    return { electorate := some {
      metadata := Metadata.current
      electorateId := NumericId.encode id
      electors } }

/-- Reads what a proposal does, which is one thing. -/
def toAction (network : Network) (o : ProposalOptions) : Result ProposalAction :=
  match o.validators, o.electorate, o.text with
  | none, none, some m => .ok (.text m.resolution)
  | some m, none, none => (toValidators m.updates).map .validators
  | none, some m, none => do
    let id ← NumericId.decode "electorateId" m.electorateId
    let electors ← toElectors network m.electors
    return .electorate id electors
  | none, none, none => .error (.invalid .unsupportedOption)
  | _, _, _ => .error (.invalid .multipleOptions)

/-- Reads what a proposal does from the bytes inside it. -/
def actionOfBytes (network : Network) (raw : Bytes) : Result ProposalAction :=
  match Wire.Message.decode? (α := ProposalOptions) raw with
  | some o => o.toAction network
  | none => .error (.unreadable .malformed)

/-- Reads what a proposal does from a field that has to be there. -/
def actionOfField (network : Network) (raw : Bytes) : Result ProposalAction := do
  let raw ← Field.bytes "rawOption" raw
  (actionOfBytes network raw).mapError (.within "rawOption")

end ProposalOptions

/-! ## Messages -/

/-- Writes a proposal. -/
def ProposalCreate.ofDraft (d : ProposalDraft) : Result ProposalCreate := do
  let options ← ProposalOptions.ofAction d.action
  let author ← Account.bytesOfAddress d.author
  return {
    metadata := Metadata.current
    title := d.title
    rawOption := Wire.Message.encode options
    description := d.description
    electionRuleId := NumericId.encode d.electionRuleId
    startTime := d.startTime
    author }

/-- Reads a proposal. -/
def ProposalCreate.toDraft (network : Network) (m : ProposalCreate) : Result ProposalDraft := do
  let action ← ProposalOptions.actionOfField network m.rawOption
  let electionRuleId ← NumericId.decode "electionRuleId" m.electionRuleId
  let author ← Field.address network "author" m.author
  return {
    title := m.title
    action
    description := m.description
    electionRuleId
    startTime := m.startTime
    author }

/-- Writes a vote of the signer. -/
def ProposalVote.ofVote (id : UInt64) (v : Vote) : ProposalVote :=
  { metadata := Metadata.current, proposalId := NumericId.encode id, selected := voteNumber v }

/-- Reads a vote: the proposal and the choice. -/
def ProposalVote.toVote (m : ProposalVote) : Result (UInt64 × Vote) := do
  let id ← NumericId.decode "proposalId" m.proposalId
  let v ← vote m.selected
  return (id, v)

/-- Writes a request to count votes. -/
def ProposalTally.ofId (id : UInt64) : ProposalTally :=
  { metadata := Metadata.current, proposalId := NumericId.encode id }

/-- Reads a request to count votes: the proposal. -/
def ProposalTally.toId (m : ProposalTally) : Result UInt64 :=
  NumericId.decode "proposalId" m.proposalId

end Schema

end Bns

end ChainKit
