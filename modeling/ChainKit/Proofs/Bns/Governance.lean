import ChainKit.Bns.Governance
import ChainKit.Proofs.Bns.Field
import ChainKit.Proofs.Bns.Schema
import ChainKit.Proofs.Text.Hex
import ChainKit.Proofs.TextMap
import Mathlib
/-!
# Votes and proposals are read back

Maps travel as lists in the order of their names. Canonical electors come
back under distinct names in that order, so none is refused and the same
map grows again; validators come back under the names they had, if these
are in lowercase. What a proposal does is a message of its own inside the
proposal, whose length has to be a word like that of any other.
-/

namespace ChainKit

open Text

namespace Bns

variable {network : Network}

/-- What a proposal does, in a form that its message keeps. -/
def CanonicalAction (network : Network) : ProposalAction → Prop
  | .text _ => True
  | .validators updates => ∀ e ∈ updates.entries, ∀ c ∈ e.1.toList, c.isUpper = false
  | .electorate _ electors => ∀ e ∈ electors.entries, network.Owns e.1 ∧ e.2.weight ≠ 0

/-- A proposal that its message keeps. -/
structure CanonicalDraft (network : Network) (d : ProposalDraft) : Prop where
  action : CanonicalAction network d.action
  author : network.Owns d.author

namespace Schema

/-! ## Votes -/

/-- A choice is read back from its number. -/
theorem vote_voteNumber (v : Vote) : vote (voteNumber v) = .ok v := by
  cases v <;> rfl

/-- A vote is read back. -/
theorem ProposalVote.toVote_ofVote (id : UInt64) (v : Vote) :
    (ofVote id v).toVote = .ok (id, v) := by
  simp only [toVote, ofVote, NumericId.decode_encode, vote_voteNumber, Outcome.ok_bind]
  rfl

/-- A request to count votes is read back. -/
theorem ProposalTally.toId_ofId (id : UInt64) : (ofId id).toId = .ok id :=
  NumericId.decode_encode "proposalId" id

/-! ## Electors -/

/-- Electors above those of a map are added to it. -/
theorem addElectors_of_mapM (map : TextMap ElectorWeight) {rest : List (String × ElectorWeight)}
    {es : List Elector} (hcanonical : ∀ e ∈ rest, network.Owns e.1 ∧ e.2.weight ≠ 0)
    (hsorted : (map.entries ++ rest).Pairwise fun a b => a.1 < b.1)
    (h : (rest.mapM fun ((address, weight) : String × ElectorWeight) => do
      return ({ address := ← Account.bytesOfAddress address, weight := weight.weight } : Elector)) =
      .ok es)
    (i : Nat) : addElectors network i map es =
      .ok (rest.foldl (fun m (name, value) => m.insert name value) map) := by
  induction rest generalizing map es i with
  | nil =>
    cases h
    rfl
  | cons e rest ih =>
    obtain ⟨w, ws, hw, hws, rfl⟩ := Outcome.mapM_cons_eq_ok.1 h
    obtain ⟨raw, hraw, hw⟩ := Outcome.bind_eq_ok.1 hw
    cases Outcome.pure_eq_ok.1 hw
    obtain ⟨hown, hweight⟩ := hcanonical e List.mem_cons_self
    -- the next elector stands behind all that are in the map
    have hbelow : ∀ d ∈ map.entries, d.1 < e.1 := fun d hd =>
      (List.pairwise_append.1 hsorted).2.2 d hd e List.mem_cons_self
    have hinsert : (map.insert e.1 e.2).entries = map.entries ++ [e] := TextMap.place_of_lt hbelow
    have hrest := ih (map.insert e.1 e.2)
      (fun d hd => hcanonical d (List.mem_cons_of_mem _ hd))
      (by rwa [hinsert, List.append_assoc]) hws (i + 1)
    simp only [addElectors, Field.address_of_bytesOfAddress _ hown hraw,
      Field.uint32_of_ne hweight, Outcome.ok_bind, TextMap.contains_of_lt hbelow,
      Bool.false_eq_true, if_false]
    exact hrest

/-- **Canonical electors are read back.** -/
theorem toElectors_ofElectors {electors : TextMap ElectorWeight} {es : List Elector}
    (hcanonical : ∀ e ∈ electors.entries, network.Owns e.1 ∧ e.2.weight ≠ 0)
    (h : ofElectors electors = .ok es) : toElectors network es = .ok electors := by
  rw [toElectors, addElectors_of_mapM .empty hcanonical electors.sorted h 0]
  exact congrArg Except.ok electors.ofList_entries

/-- The entry of an elector: its address on the network, and its weight. -/
def electorEntry (network : Network) (e : Elector) : String × ElectorWeight :=
  (Bech32.encode network.hrp e.address, ⟨e.weight⟩)

/-- Electors of 20 bytes have one name only if they are the same account. -/
theorem electorEntry_inj {d e : Elector} (hd : d.address.length = 20) (he : e.address.length = 20) :
    (electorEntry network d).1 = (electorEntry network e).1 ↔ d.address = e.address :=
  ⟨fun h => Account.address_injective (Account.address_eq_ok.2 ⟨hd, h⟩)
    (Account.address_eq_ok.2 ⟨he, rfl⟩), fun h => by rw [electorEntry, electorEntry, h]⟩

/-- One elector is added if it has 20 bytes and a weight, and is not in the map. -/
theorem addElectors_cons_eq_ok {map m : TextMap ElectorWeight} {e : Elector} {es : List Elector}
    (i : Nat) : addElectors network i map (e :: es) = .ok m ↔
      (e.address.length = 20 ∧ e.weight ≠ 0 ∧ map.contains (electorEntry network e).1 = false) ∧
        addElectors network (i + 1) (map.insert (electorEntry network e).1 ⟨e.weight⟩) es =
          .ok m := by
  simp only [addElectors, Outcome.bind_eq_ok, Field.address_eq_ok, Account.address_eq_ok,
    Field.uint32_eq_ok, Outcome.ite_error_eq_ok, Bool.not_eq_true]
  constructor
  · rintro ⟨_, ⟨hlength, rfl⟩, _, ⟨hweight, rfl⟩, hnew, h⟩
    exact ⟨⟨hlength, hweight, hnew⟩, h⟩
  · rintro ⟨⟨hlength, hweight, hnew⟩, h⟩
    exact ⟨_, ⟨hlength, rfl⟩, _, ⟨hweight, rfl⟩, hnew, h⟩

/-- **Electors are added exactly if each has 20 bytes and a weight, and none stands twice** or in
the map before. -/
theorem addElectors_eq_ok {map m : TextMap ElectorWeight} {es : List Elector} (i : Nat) :
    addElectors network i map es = .ok m ↔
      (∀ e ∈ es, e.address.length = 20 ∧ e.weight ≠ 0 ∧
        map.contains (electorEntry network e).1 = false) ∧
      (es.map (·.address)).Nodup ∧
      m = (es.map (electorEntry network)).foldl
        (fun m (name, value) => m.insert name value) map := by
  induction es generalizing map i with
  | nil =>
    simp only [addElectors, Except.ok.injEq, List.map_nil, List.foldl_nil]
    exact ⟨fun h => ⟨by simp, by simp, h.symm⟩, fun h => h.2.2.symm⟩
  | cons e es ih =>
    -- behind an elector stands none of those in the map, nor the one that was added
    have hbehind (hlength : e.address.length = 20) (d : Elector) (hd : d.address.length = 20) :
        (map.insert (electorEntry network e).1 ⟨e.weight⟩).contains (electorEntry network d).1 =
          false ↔ d.address ≠ e.address ∧ map.contains (electorEntry network d).1 = false := by
      rw [← Bool.not_eq_true, TextMap.contains_insert, electorEntry_inj hd hlength, not_or,
        Bool.not_eq_true]
    rw [addElectors_cons_eq_ok, ih, List.forall_mem_cons, List.map_cons, List.nodup_cons,
      List.map_cons, List.foldl_cons, List.mem_map]
    constructor
    · rintro ⟨⟨hlength, hfirst⟩, hrest, hnodup, hm⟩
      refine ⟨⟨⟨hlength, hfirst⟩, fun d hd => ?_⟩, ⟨?_, hnodup⟩, hm⟩
      · obtain ⟨hd20, hweight, hnew⟩ := hrest d hd
        exact ⟨hd20, hweight, ((hbehind hlength d hd20).1 hnew).2⟩
      · rintro ⟨d, hd, heq⟩
        obtain ⟨hd20, -, hnew⟩ := hrest d hd
        exact ((hbehind hlength d hd20).1 hnew).1 heq
    · rintro ⟨⟨⟨hlength, hfirst⟩, hrest⟩, ⟨hnot, hnodup⟩, hm⟩
      refine ⟨⟨hlength, hfirst⟩, fun d hd => ?_, hnodup, hm⟩
      obtain ⟨hd20, hweight, hnew⟩ := hrest d hd
      exact ⟨hd20, hweight, (hbehind hlength d hd20).2 ⟨fun heq => hnot ⟨d, hd, heq⟩, hnew⟩⟩

/-- **Electors are read exactly if each has 20 bytes and a weight, and none stands twice**; the map
holds one entry for each. -/
theorem toElectors_eq_ok {m : TextMap ElectorWeight} {es : List Elector} :
    toElectors network es = .ok m ↔ (∀ e ∈ es, e.address.length = 20 ∧ e.weight ≠ 0) ∧
      (es.map (·.address)).Nodup ∧ m = .ofList (es.map (electorEntry network)) := by
  have hempty (name : String) : (TextMap.empty : TextMap ElectorWeight).contains name = false := rfl
  simp only [toElectors, addElectors_eq_ok, hempty, and_true]
  rfl

/-! ## Validators -/

/-- A validator is named by the scheme and the digits of a key of 32 bytes. -/
theorem validatorKey_eq_ok {name : String} {key : Bytes} : validatorKey name = .ok key ↔
    key.length = 32 ∧
      ∃ digits, name.toList = validatorScheme ++ digits ∧ Hex.Spells digits key := by
  simp only [validatorKey]
  constructor
  · intro h
    split at h
    · rename_i read hread
      cases h
      split at hread
      · rename_i hname
        obtain ⟨hscheme, hlength⟩ := hname
        obtain ⟨digits, hdigits⟩ := List.isPrefixOf_iff_prefix.1 hscheme
        rw [← hdigits, List.drop_left] at hlength hread
        have hspells := Hex.decode_eq_ok_iff.1 (Outcome.toOption_eq_some.1 hread)
        rw [String.toList_ofList] at hspells
        have htwice := hspells.ascii.2
        exact ⟨by omega, digits, hdigits.symm, hspells⟩
      · cases hread
    · cases h
  · rintro ⟨hlength, digits, hname, hspells⟩
    have htwice := hspells.ascii.2
    have hdecode : Hex.decode (String.ofList digits) = .ok key :=
      Hex.decode_eq_ok_iff.2 (by rwa [String.toList_ofList])
    rw [hname, List.drop_left, hdecode, if_pos ⟨List.isPrefixOf_iff_prefix.2 ⟨_, rfl⟩, by omega⟩]
    rfl

theorem toList_validatorName (key : Bytes) :
    (validatorName key).toList = validatorScheme ++ Hex.digits key := by
  simp [validatorName, validatorScheme, Hex.encode]

/-- A validator's name in lowercase is the one of its key, which is not empty. -/
theorem validatorName_of_validatorKey {name : String} {key : Bytes}
    (hcase : ∀ c ∈ name.toList, c.isUpper = false) (h : validatorKey name = .ok key) :
    validatorName key = name ∧ key ≠ [] := by
  obtain ⟨hlength, digits, hname, hspells⟩ := validatorKey_eq_ok.1 h
  have hdigits := Hex.digits_of_spells hspells fun c hc =>
    hcase c (hname ▸ List.mem_append_right _ hc)
  refine ⟨String.toList_inj.1 ?_, ?_⟩
  · rw [toList_validatorName, hdigits, hname]
  · rintro rfl
    simp at hlength

/-- A validator is read from a key that is not empty. -/
theorem toValidator_eq_ok {i : Nat} {u : ValidatorUpdate} {e : String × ValidatorPower} :
    toValidator i u = .ok e ↔ ∃ key, u.publicKey = some key ∧ key.data ≠ [] ∧
      e = (validatorName key.data, ⟨u.power⟩) := by
  simp only [toValidator, Outcome.bind_eq_ok, Field.present_eq_ok, Field.bytes_eq_ok,
    Outcome.pure_eq_ok]
  constructor
  · rintro ⟨key, hkey, _, ⟨hne, rfl⟩, rfl⟩
    exact ⟨key, hkey, hne, rfl⟩
  · rintro ⟨key, hkey, hne, rfl⟩
    exact ⟨key, hkey, _, ⟨hne, rfl⟩, rfl⟩

/-- Validators are read one by one, and the last of those with one name counts. -/
theorem toValidators_eq_ok {us : List ValidatorUpdate} {m : TextMap ValidatorPower} :
    toValidators us = .ok m ↔ ∃ entries, us.mapM (toValidator 0) = .ok entries ∧
      m = .ofList entries := by
  have hindex (i : Nat) (u : ValidatorUpdate) (e : String × ValidatorPower) :
      toValidator i u = .ok e ↔ toValidator 0 u = .ok e := by
    rw [toValidator_eq_ok, toValidator_eq_ok]
  simp only [toValidators, Outcome.bind_eq_ok, Outcome.pure_eq_ok, eq_comm (b := m),
    mapIndexed_eq_ok hindex]

/-- **Validators are read back**, if their names are in lowercase. -/
theorem toValidators_ofValidators {updates : TextMap ValidatorPower} {us : List ValidatorUpdate}
    (hcase : ∀ e ∈ updates.entries, ∀ c ∈ e.1.toList, c.isUpper = false)
    (h : ofValidators updates = .ok us) : toValidators us = .ok updates := by
  have hentries : mapIndexed toValidator 0 us = .ok updates.entries := by
    refine mapIndexed_inverse h (fun e he i u hu => ?_) 0
    obtain ⟨key, hkey, hu⟩ := Outcome.bind_eq_ok.1 hu
    cases Outcome.pure_eq_ok.1 hu
    obtain ⟨hname, hne⟩ := validatorName_of_validatorKey (hcase e he) hkey
    simp only [toValidator, Field.present, Field.bytes_of_ne hne, hname, Outcome.ok_bind]
    rfl
  rw [toValidators, hentries, Outcome.ok_bind, TextMap.ofList_entries]
  rfl

/-! ## Proposals -/

namespace ProposalOptions

/-- What a proposal does is read back from its message. -/
theorem toAction_ofAction {action : ProposalAction} {o : ProposalOptions}
    (hcanonical : CanonicalAction network action) (h : ofAction action = .ok o) :
    o.toAction network = .ok action := by
  cases action with
  | text resolution =>
    cases h
    rfl
  | validators updates =>
    obtain ⟨us, hus, h⟩ := Outcome.bind_eq_ok.1 h
    cases Outcome.pure_eq_ok.1 h
    simp only [toAction, toValidators_ofValidators hcanonical hus, Outcome.map_ok]
  | electorate id electors =>
    obtain ⟨es, hes, h⟩ := Outcome.bind_eq_ok.1 h
    cases Outcome.pure_eq_ok.1 h
    simp only [toAction, NumericId.decode_encode, toElectors_ofElectors hcanonical hes,
      Outcome.ok_bind]
    rfl

/-- The message of what a proposal does has one record. -/
theorem records_ne_nil_of_ofAction {action : ProposalAction} {o : ProposalOptions}
    (h : ofAction action = .ok o) : Wire.Message.records o ≠ [] := by
  -- the one part that is set is written, be it empty
  cases action with
  | text resolution =>
    cases h
    simp [Wire.Message.records, Wire.message, Wire.optionalBytes]
  | validators updates =>
    obtain ⟨us, -, h⟩ := Outcome.bind_eq_ok.1 h
    cases Outcome.pure_eq_ok.1 h
    simp [Wire.Message.records, Wire.message, Wire.optionalBytes]
  | electorate id electors =>
    obtain ⟨es, -, h⟩ := Outcome.bind_eq_ok.1 h
    cases Outcome.pure_eq_ok.1 h
    simp [Wire.Message.records, Wire.message, Wire.optionalBytes]

/-- The bytes inside a proposal are those of what it does, and nothing else. -/
theorem actionOfField_of_ofAction {action : ProposalAction} {o : ProposalOptions}
    (h : ofAction action = .ok o) (hlength : (Wire.Message.encode o).length < Wire.wordSize) :
    actionOfField network (Wire.Message.encode o) =
      (o.toAction network).mapError (.within "rawOption") := by
  have hne := Wire.encode_ne_nil (records_ne_nil_of_ofAction h)
  have hread : Wire.Message.decode? (Wire.Message.encode o) = some o :=
    Wire.decode?_encode (by decide) hlength
  simp only [actionOfField, Field.bytes_of_ne hne, Outcome.ok_bind, actionOfBytes, hread]

/-- What a proposal does is read back from the bytes inside the proposal. -/
theorem actionOfField_encode {action : ProposalAction} {o : ProposalOptions}
    (hcanonical : CanonicalAction network action) (h : ofAction action = .ok o)
    (hlength : (Wire.Message.encode o).length < Wire.wordSize) :
    actionOfField network (Wire.Message.encode o) = .ok action := by
  rw [actionOfField_of_ofAction h hlength, toAction_ofAction hcanonical h]
  rfl

end ProposalOptions

/-- **A canonical proposal is read back**, if the length of what it does is a word. -/
theorem ProposalCreate.toDraft_ofDraft {d : ProposalDraft} {m : ProposalCreate}
    (hcanonical : CanonicalDraft network d) (h : ofDraft d = .ok m)
    (hlength : m.rawOption.length < Wire.wordSize) : m.toDraft network = .ok d := by
  simp only [ofDraft, Outcome.bind_eq_ok] at h
  obtain ⟨options, hoptions, author, hauthor, h⟩ := h
  cases Outcome.pure_eq_ok.1 h
  simp only [toDraft, ProposalOptions.actionOfField_encode hcanonical.action hoptions hlength,
    NumericId.decode_encode, Field.address_of_bytesOfAddress _ hcanonical.author hauthor,
    Outcome.ok_bind]
  rfl

end Schema

end Bns

end ChainKit
