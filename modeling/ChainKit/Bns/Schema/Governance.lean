import ChainKit.Bns.Schema.Basic

/-!
# The wire schema — proposals and what they decide

The messages of governance, the objects that a chain stores for it, and
the options that a proposal carries as bytes inside it.
-/

namespace ChainKit

namespace Bns

namespace Schema

open Wire

/-- A validator's key and the name of its scheme. -/
structure ValidatorKey where
  kind : String := ""
  data : Bytes := []
  deriving DecidableEq

instance : Message ValidatorKey where
  records m := text 1 m.kind ++ bytes 2 m.data
  ofFields? f := do
    return {
      kind := ← f.text? 1
      data := ← f.bytes? 2 }

/-- The power of a validator. -/
structure ValidatorUpdate where
  publicKey : Option ValidatorKey := none
  power : Int64 := 0
  deriving DecidableEq

instance : Message ValidatorUpdate where
  records m := message 1 m.publicKey ++ int64 2 m.power
  ofFields? f := do
    return {
      publicKey := ← f.message? 1
      power := ← f.int64? 2 }

/-- Sets the power of validators. -/
structure ValidatorsApplyDiff where
  metadata : Option Metadata := none
  updates : List ValidatorUpdate := []
  deriving DecidableEq

instance : Message ValidatorsApplyDiff where
  records m := message 1 m.metadata ++ messages 2 m.updates
  ofFields? f := do
    return {
      metadata := ← f.message? 1
      updates := ← f.messages? 2 }

/-- The weight of an elector. -/
structure Elector where
  address : Bytes := []
  weight : UInt32 := 0
  deriving DecidableEq

instance : Message Elector where
  records m := bytes 1 m.address ++ uint32 2 m.weight
  ofFields? f := do
    return {
      address := ← f.bytes? 1
      weight := ← f.uint32? 2 }

/-- An electorate as the chain stores it. -/
structure Electorate where
  metadata : Option Metadata := none
  admin : Bytes := []
  title : String := ""
  electors : List Elector := []
  totalWeight : UInt64 := 0
  version : UInt32 := 0
  deriving DecidableEq

instance : Message Electorate where
  records m := message 1 m.metadata ++ bytes 2 m.admin ++ text 3 m.title ++
    messages 4 m.electors ++ number 5 m.totalWeight ++ uint32 6 m.version
  ofFields? f := do
    return {
      metadata := ← f.message? 1
      admin := ← f.bytes? 2
      title := ← f.text? 3
      electors := ← f.messages? 4
      totalWeight := ← f.uint64? 5
      version := ← f.uint32? 6 }

/-- An object of the chain at one of its versions. -/
structure VersionedRef where
  id : Bytes := []
  version : UInt32 := 0
  deriving DecidableEq

instance : Message VersionedRef where
  records m := bytes 1 m.id ++ uint32 2 m.version
  ofFields? f := do
    return {
      id := ← f.bytes? 1
      version := ← f.uint32? 2 }

/-- A fraction. -/
structure FractionData where
  numerator : UInt32 := 0
  denominator : UInt32 := 0
  deriving DecidableEq

instance : Message FractionData where
  records m := uint32 1 m.numerator ++ uint32 2 m.denominator
  ofFields? f := do
    return {
      numerator := ← f.uint32? 1
      denominator := ← f.uint32? 2 }

/-- The votes counted so far and the rules they are counted by. -/
structure TallyState where
  yes : UInt64 := 0
  no : UInt64 := 0
  abstain : UInt64 := 0
  electorateWeight : UInt64 := 0
  quorum : Option FractionData := none
  threshold : Option FractionData := none
  deriving DecidableEq

instance : Message TallyState where
  records m := number 1 m.yes ++ number 2 m.no ++ number 3 m.abstain ++
    number 4 m.electorateWeight ++ message 5 m.quorum ++ message 6 m.threshold
  ofFields? f := do
    return {
      yes := ← f.uint64? 1
      no := ← f.uint64? 2
      abstain := ← f.uint64? 3
      electorateWeight := ← f.uint64? 4
      quorum := ← f.message? 5
      threshold := ← f.message? 6 }

/-- A proposal as the chain stores it. -/
structure ProposalState where
  metadata : Option Metadata := none
  title : String := ""
  rawOption : Bytes := []
  description : String := ""
  electionRule : Option VersionedRef := none
  electorate : Option VersionedRef := none
  votingStart : Int64 := 0
  votingEnd : Int64 := 0
  submitted : Int64 := 0
  author : Bytes := []
  tally : Option TallyState := none
  status : Int32 := 0
  result : Int32 := 0
  executorResult : Int32 := 0
  deriving DecidableEq

instance : Message ProposalState where
  records m := message 1 m.metadata ++ text 2 m.title ++ bytes 3 m.rawOption ++
    text 4 m.description ++ message 5 m.electionRule ++ message 6 m.electorate ++
    int64 7 m.votingStart ++ int64 8 m.votingEnd ++ int64 9 m.submitted ++ bytes 10 m.author ++
    message 11 m.tally ++ int32 12 m.status ++ int32 13 m.result ++ int32 14 m.executorResult
  ofFields? f := do
    return {
      metadata := ← f.message? 1
      title := ← f.text? 2
      rawOption := ← f.bytes? 3
      description := ← f.text? 4
      electionRule := ← f.message? 5
      electorate := ← f.message? 6
      votingStart := ← f.int64? 7
      votingEnd := ← f.int64? 8
      submitted := ← f.int64? 9
      author := ← f.bytes? 10
      tally := ← f.message? 11
      status := ← f.int32? 12
      result := ← f.int32? 13
      executorResult := ← f.int32? 14 }

/-- Puts a proposal to its electorate. -/
structure ProposalCreate where
  metadata : Option Metadata := none
  title : String := ""
  rawOption : Bytes := []
  description : String := ""
  electionRuleId : Bytes := []
  startTime : Int64 := 0
  author : Bytes := []
  deriving DecidableEq

instance : Message ProposalCreate where
  records m := message 1 m.metadata ++ text 2 m.title ++ bytes 3 m.rawOption ++
    text 4 m.description ++ bytes 5 m.electionRuleId ++ int64 6 m.startTime ++ bytes 7 m.author
  ofFields? f := do
    return {
      metadata := ← f.message? 1
      title := ← f.text? 2
      rawOption := ← f.bytes? 3
      description := ← f.text? 4
      electionRuleId := ← f.bytes? 5
      startTime := ← f.int64? 6
      author := ← f.bytes? 7 }

/-- Votes on a proposal. -/
structure ProposalVote where
  metadata : Option Metadata := none
  proposalId : Bytes := []
  voter : Bytes := []
  selected : Int32 := 0
  deriving DecidableEq

instance : Message ProposalVote where
  records m := message 1 m.metadata ++ bytes 2 m.proposalId ++ bytes 3 m.voter ++
    int32 4 m.selected
  ofFields? f := do
    return {
      metadata := ← f.message? 1
      proposalId := ← f.bytes? 2
      voter := ← f.bytes? 3
      selected := ← f.int32? 4 }

/-- Asks for the votes on a proposal to be counted. -/
structure ProposalTally where
  metadata : Option Metadata := none
  proposalId : Bytes := []
  deriving DecidableEq

instance : Message ProposalTally where
  records m := message 1 m.metadata ++ bytes 2 m.proposalId
  ofFields? f := do
    return {
      metadata := ← f.message? 1
      proposalId := ← f.bytes? 2 }

/-- Records a resolution. -/
structure TextResolution where
  metadata : Option Metadata := none
  resolution : String := ""
  deriving DecidableEq

instance : Message TextResolution where
  records m := message 1 m.metadata ++ text 2 m.resolution
  ofFields? f := do
    return {
      metadata := ← f.message? 1
      resolution := ← f.text? 2 }

/-- Sets the weight of electors. -/
structure ElectorateUpdate where
  metadata : Option Metadata := none
  electorateId : Bytes := []
  electors : List Elector := []
  deriving DecidableEq

instance : Message ElectorateUpdate where
  records m := message 1 m.metadata ++ bytes 2 m.electorateId ++ messages 3 m.electors
  ofFields? f := do
    return {
      metadata := ← f.message? 1
      electorateId := ← f.bytes? 2
      electors := ← f.messages? 3 }

/-- What a proposal does once it is accepted, in one of three fields. -/
structure ProposalOptions where
  validators : Option ValidatorsApplyDiff := none
  electorate : Option ElectorateUpdate := none
  text : Option TextResolution := none
  deriving DecidableEq

instance : Message ProposalOptions where
  records m := message 58 m.validators ++ message 77 m.electorate ++ message 79 m.text
  ofFields? f := do
    return {
      validators := ← f.message? 58
      electorate := ← f.message? 77
      text := ← f.message? 79 }

end Schema

end Bns

end ChainKit
