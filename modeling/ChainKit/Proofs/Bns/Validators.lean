import ChainKit.Proofs.Bns.Electors
import Mathlib
/-!
# Validators are read as a map

The validators of a list are read into a map under the names of their keys.
Unlike electors they are not compared with those in front of them: of the
updates of one key the last counts, and the others are lost
(`LastCounts`). So a proposal that names a validator twice is read, by the
order of the list, where one that names an elector twice is refused
(`ProposalOptions.actionOfBytes_iff_updates`).
-/

namespace ChainKit

open Text

namespace Bns

namespace Schema

variable {network : Network} {us : List ValidatorUpdate} {m : TextMap ValidatorPower}

/-- The key that an update names, or no bytes if it names none. -/
def ValidatorUpdate.key (u : ValidatorUpdate) : Bytes := (u.publicKey.map (·.data)).getD []

/-- The entry of an update: the name of its key, and its power. -/
def validatorEntry (u : ValidatorUpdate) : String × ValidatorPower :=
  (validatorName u.key, ⟨u.power⟩)

/-- What a list of updates comes to in a map. -/
structure LastCounts (us : List ValidatorUpdate) (m : TextMap ValidatorPower) : Prop where
  /-- An entry carries the key and the power of one update. -/
  carried : ∀ e ∈ m.entries, ∃ u ∈ us, e = validatorEntry u
  /-- Under the name of a key stands the power of its last update. -/
  last : ∀ key, m.find? (validatorName key) =
    (us.reverse.find? fun u => u.key = key).map fun u => ⟨u.power⟩
  /-- No update is lost exactly if no key stands twice. -/
  size : m.entries.length = us.length ↔ (us.map (·.key)).Nodup
  /-- Then the entries are those of the updates. -/
  perm : (us.map (·.key)).Nodup → m.entries.Perm (us.map validatorEntry)

/-- Different keys have different names. -/
theorem validatorName_injective : Function.Injective validatorName := by
  intro a b h
  have hdigits : Hex.digits a = Hex.digits b := by
    have hlists := congrArg String.toList h
    rw [toList_validatorName, toList_validatorName] at hlists
    exact List.append_cancel_left hlists
  have hsame : Hex.encode a = Hex.encode b := congrArg String.ofList hdigits
  exact Except.ok.inj ((Hex.decode_encode a).symm.trans (hsame ▸ Hex.decode_encode b))

/-- The names of updates are those of their keys. -/
theorem nodup_validatorEntry :
    ((us.map validatorEntry).map Prod.fst).Nodup ↔ (us.map (·.key)).Nodup := by
  have hnames : (us.map validatorEntry).map Prod.fst = (us.map (·.key)).map validatorName := by
    rw [List.map_map, List.map_map]
    rfl
  rw [hnames, List.nodup_map_iff validatorName_injective]

/-- An update is read if it names a key. -/
theorem toValidator_iff_key {i : Nat} {u : ValidatorUpdate} {e : String × ValidatorPower} :
    toValidator i u = .ok e ↔ u.key ≠ [] ∧ e = validatorEntry u := by
  rw [toValidator_eq_ok]
  cases hkey : u.publicKey with
  | none => simp [ValidatorUpdate.key, hkey]
  | some key => simp [ValidatorUpdate.key, validatorEntry, hkey]

/-- Updates are read exactly if each names a key, and put into the map in their order. -/
theorem toValidators_iff_ofList :
    toValidators us = .ok m ↔ (∀ u ∈ us, u.key ≠ []) ∧ m = .ofList (us.map validatorEntry) := by
  have hentries (entries : List (String × ValidatorPower)) :
      us.mapM (toValidator 0) = .ok entries ↔
        (∀ u ∈ us, u.key ≠ []) ∧ entries = us.map validatorEntry :=
    Outcome.mapM_eq_ok_map fun u e => toValidator_iff_key
  simp only [toValidators_eq_ok, hentries, and_assoc, exists_and_left, exists_eq_left]

/-- The map of updates carries nothing but them. -/
theorem carried_ofList : ∀ e ∈ (TextMap.ofList (us.map validatorEntry)).entries,
    ∃ u ∈ us, e = validatorEntry u := by
  intro e he
  obtain ⟨u, hu, rfl⟩ := List.mem_map.1 (TextMap.mem_of_mem_ofList he)
  exact ⟨u, hu, rfl⟩

/-- **The map of updates is the one in which the last counts**, and no other is. -/
theorem lastCounts_iff : LastCounts us m ↔ m = .ofList (us.map validatorEntry) := by
  have hlast (key : Bytes) : (TextMap.ofList (us.map validatorEntry)).find? (validatorName key) =
      (us.reverse.find? fun u => u.key = key).map fun u => ⟨u.power⟩ := by
    have hname (u : ValidatorUpdate) : (validatorEntry u).1 = validatorName key ↔ u.key = key :=
      validatorName_injective.eq_iff
    rw [TextMap.find?_ofList, ← List.map_reverse, List.find?_map, Option.map_map]
    simp only [Function.comp_def, hname]
    rfl
  constructor
  · intro h
    refine TextMap.ext_find? fun name => ?_
    by_cases hname : ∃ key, name = validatorName key
    · obtain ⟨key, rfl⟩ := hname
      rw [h.last, hlast]
    · -- neither map has an entry under a name that is not one of a key
      have hnone {n : TextMap ValidatorPower}
          (hcarried : ∀ e ∈ n.entries, ∃ u ∈ us, e = validatorEntry u) : n.find? name = none := by
        rw [Option.eq_none_iff_forall_ne_some]
        intro power hfind
        obtain ⟨u, -, he⟩ := hcarried _ (TextMap.mem_of_find? hfind)
        exact hname ⟨u.key, congrArg Prod.fst he⟩
      rw [hnone h.carried, hnone carried_ofList]
  · rintro rfl
    refine ⟨carried_ofList, hlast, ?_, fun hnodup => ?_⟩
    · rw [← nodup_validatorEntry, ← TextMap.length_ofList_iff, List.length_map]
    · exact TextMap.perm_ofList (nodup_validatorEntry.2 hnodup)

namespace ProposalOptions

variable {raw : Bytes} {action : ProposalAction} {o : ProposalOptions} {id : UInt64}
  {electors : TextMap ElectorWeight}

/-- Bytes are read if they hold a message, by what it says. -/
theorem actionOfBytes_eq_ok : actionOfBytes network raw = .ok action ↔
    ∃ o : ProposalOptions, Wire.Message.decode? raw = some o ∧ o.toAction network = .ok action := by
  rw [actionOfBytes]
  cases Wire.Message.decode? (α := ProposalOptions) raw with
  | none => simp
  | some o => simp

/-- What a message does is the one thing that it holds. -/
theorem toAction_cases (h : o.toAction network = .ok action) :
    (∃ d : TextResolution, o = { text := some d } ∧ action = .text d.resolution) ∨
    (∃ (d : ValidatorsApplyDiff) (m : TextMap ValidatorPower), o = { validators := some d } ∧
      toValidators d.updates = .ok m ∧ action = .validators m) ∨
    ∃ (d : ElectorateUpdate) (id : UInt64) (m : TextMap ElectorWeight),
      o = { electorate := some d } ∧ NumericId.decode "electorateId" d.electorateId = .ok id ∧
      toElectors network d.electors = .ok m ∧ action = .electorate id m := by
  obtain ⟨validators, electorate, text⟩ := o
  unfold toAction at h
  split at h <;> rename_i hvalidators helectorate htext
  · cases hvalidators
    cases helectorate
    cases htext
    cases h
    exact .inl ⟨_, rfl, rfl⟩
  · cases hvalidators
    cases helectorate
    cases htext
    obtain ⟨m, hm, rfl⟩ := Outcome.map_eq_ok.1 h
    exact .inr (.inl ⟨_, m, rfl, hm, rfl⟩)
  · cases hvalidators
    cases helectorate
    cases htext
    simp only [Outcome.bind_eq_ok, Outcome.pure_eq_ok] at h
    obtain ⟨id, hid, m, hm, rfl⟩ := h
    exact .inr (.inr ⟨_, id, m, rfl, hid, hm, rfl⟩)
  -- nothing, or more than one thing
  · cases h
  · cases h

/-- Validators are set by a message that holds their updates and nothing else. -/
theorem toAction_eq_validators : o.toAction network = .ok (.validators m) ↔
    ∃ d : ValidatorsApplyDiff, o = { validators := some d } ∧ toValidators d.updates = .ok m := by
  constructor
  · intro h
    obtain ⟨d, rfl, haction⟩ | ⟨d, m', rfl, hm, haction⟩ | ⟨d, id, m', rfl, -, -, haction⟩ :=
      toAction_cases h <;> cases haction
    exact ⟨d, rfl, hm⟩
  · rintro ⟨d, rfl, hm⟩
    exact Outcome.map_eq_ok.2 ⟨m, hm, rfl⟩

/-- An electorate is changed by a message that holds its electors and nothing else. -/
theorem toAction_eq_electorate : o.toAction network = .ok (.electorate id electors) ↔
    ∃ d : ElectorateUpdate, o = { electorate := some d } ∧
      NumericId.decode "electorateId" d.electorateId = .ok id ∧
      toElectors network d.electors = .ok electors := by
  constructor
  · intro h
    obtain ⟨d, rfl, haction⟩ | ⟨d, m', rfl, -, haction⟩ | ⟨d, id', m', rfl, hid, hm, haction⟩ :=
      toAction_cases h <;> cases haction
    exact ⟨d, rfl, hid, hm⟩
  · rintro ⟨d, rfl, hid, hm⟩
    simp only [toAction, hid, hm, Outcome.ok_bind]
    rfl

/-- **Validators are read from every list of updates that name a key, and of the updates of one key
the last counts**: no update is lost exactly if no key stands twice. Electors are read only from a
list in which none stands twice, and none of them is lost. -/
theorem actionOfBytes_iff_updates (network : Network) (raw : Bytes) :
    (∀ m, actionOfBytes network raw = .ok (.validators m) ↔
      ∃ d, Wire.Message.decode? raw = some ({ validators := some d } : ProposalOptions) ∧
        (∀ u ∈ d.updates, u.key ≠ []) ∧ LastCounts d.updates m) ∧
    ∀ id m, actionOfBytes network raw = .ok (.electorate id m) ↔
      ∃ d, Wire.Message.decode? raw = some ({ electorate := some d } : ProposalOptions) ∧
        NumericId.decode "electorateId" d.electorateId = .ok id ∧
        (∀ e ∈ d.electors, e.address.length = 20 ∧ e.weight ≠ 0) ∧
        (d.electors.map (·.address)).Nodup ∧
        m.entries.Perm (d.electors.map (electorEntry network)) := by
  constructor
  · intro m
    simp only [actionOfBytes_eq_ok, toAction_eq_validators, toValidators_iff_ofList,
      lastCounts_iff]
    constructor
    · rintro ⟨_, hread, d, rfl, hupdates⟩
      exact ⟨d, hread, hupdates⟩
    · rintro ⟨d, hread, hupdates⟩
      exact ⟨_, hread, d, rfl, hupdates⟩
  · intro id m
    simp only [actionOfBytes_eq_ok, toAction_eq_electorate, toElectors_iff_perm]
    constructor
    · rintro ⟨_, hread, d, rfl, helectors⟩
      exact ⟨d, hread, helectors⟩
    · rintro ⟨d, hread, helectors⟩
      exact ⟨_, hread, d, rfl, helectors⟩

/-- Sets the power of one validator, by one update for each power. -/
def resetting (powers : List Int64) : ProposalOptions where
  validators := some
    { updates := powers.map fun power => ⟨some ⟨"ed25519", List.replicate 32 17⟩, power⟩ }

/-- Changes the weight of one elector, by one entry for each weight. -/
def reweighting (weights : List UInt32) : ProposalOptions where
  electorate := some
    { electorateId := NumericId.encode 5
      electors := weights.map fun weight => ⟨List.replicate 20 1, weight⟩ }

/-- A validator that stands in a list twice is read with its later power, where an elector that does
so is refused. -/
theorem actionOfBytes_resetting :
    (∃ m, actionOfBytes .test (Wire.Message.encode (resetting [1, 2])) = .ok (.validators m) ∧
      m.entries = [(validatorName (List.replicate 32 17), ⟨2⟩)]) ∧
    (∃ m, actionOfBytes .test (Wire.Message.encode (resetting [2, 1])) = .ok (.validators m) ∧
      m.entries = [(validatorName (List.replicate 32 17), ⟨1⟩)]) ∧
    actionOfBytes .test (Wire.Message.encode (reweighting [2, 3])) =
      .error (.invalid (.duplicateElector (Bech32.encode "tiov" (List.replicate 20 1)) 1)) := by
  have hread (o : ProposalOptions) (hlength : (Wire.Message.encode o).length < Wire.wordSize) :
      actionOfBytes .test (Wire.Message.encode o) = o.toAction .test := by
    have hdecode : Wire.Message.decode? (Wire.Message.encode o) = some o :=
      Wire.decode?_encode (by decide) hlength
    simp only [actionOfBytes, hdecode]
  rw [hread _ (by decide +kernel), hread _ (by decide +kernel), hread _ (by decide +kernel)]
  exact ⟨⟨_, rfl, by decide +kernel⟩, ⟨_, rfl, by decide +kernel⟩, by decide +kernel⟩

end ProposalOptions

end Schema

end Bns

end ChainKit
