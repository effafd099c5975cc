import ChainKit.Proofs.Bns.RoundTrip
import Mathlib
/-!
# Which parsed transactions are posted again

What is read is canonical, whatever bytes it was read from
(`Tx.canonical_of_toSigned`), so it would be read again unchanged. Writing asks
for more than reading does: the namespace of a name that is registered,
one party of an escrow at a time, and validators with keys of 32 bytes.
`WritableRequest` lists these. A parsed transaction is posted again, and
has an identifier, exactly if its request is writable
(`repostable_iff_writable`); one that is not can be parsed all the same
(`parse_bareRegistration`).
-/

namespace ChainKit

open Text

namespace Bns

variable {network : Network} {creator : Identity}

/-- What a proposal does, if its validators are named by keys of 32 bytes. -/
def WritableAction : ProposalAction → Prop
  | .validators updates =>
    ∀ e ∈ updates.entries, ∃ key : Bytes, key.length = 32 ∧ e.1 = Schema.validatorName key
  | .text _ => True
  | .electorate _ _ => True

/-- A request within what is written. -/
def WritableRequest : Request → Prop
  | .registerUsername name _ => Schema.usernameNamespace <:+ name.toList
  | .updateEscrowParties _ parties => (replacedParties parties).length = 1
  | .createProposal d => WritableAction d.action
  | _ => True

namespace Schema

/-! ## Transfers -/

/-- The amounts of coins are canonical, and written as coins again. -/
theorem canonical_of_amounts {cs : List Coin} {as : List Amount} (h : amounts cs = .ok as) :
    (∀ a ∈ as, a.Canonical) ∧ ∃ cs', coins as = .ok cs' := by
  have hread (a : Amount) (ha : a ∈ as) : a.Canonical ∧ ∃ c, Coin.ofAmount a = .ok c := by
    obtain ⟨c, -, hc⟩ := Outcome.mem_of_mapM_eq_ok h a ha
    obtain ⟨hcanonical, hcoin⟩ := Coin.canonical_of_toAmount hc
    exact ⟨hcanonical, c, hcoin⟩
  exact ⟨fun a ha => (hread a ha).1, Outcome.exists_mapM_eq_ok.2 fun a ha => (hread a ha).2⟩

/-- A send that is read is canonical and written again. -/
theorem CashSend.canonical_of_toSend {m : CashSend} {s : Send} (h : m.toSend creator = .ok s) :
    CanonicalSend (.ofChain creator.chainId) s ∧ ∃ m', ofSend creator s = .ok m' := by
  simp only [toSend, Account.addressOfIdentity, Outcome.bind_eq_ok, Field.address_eq_ok] at h
  obtain ⟨sender, ⟨source, hsource, hsender⟩, recipient, hrecipient, coin, -, amount, hcoin,
    h⟩ := h
  cases Outcome.pure_eq_ok.1 h
  obtain ⟨-, rfl⟩ := Account.ofIdentity_eq_ok.1 hsource
  obtain ⟨hcanonical, hcoin'⟩ := Coin.canonical_of_toAmount hcoin
  refine ⟨⟨⟨_, hsender⟩, ⟨_, hrecipient⟩, hcanonical, Field.optionalText_ne _⟩, ?_⟩
  simp only [ofSend, hsource, Account.onChain_address hsender, Account.onChain_address hrecipient,
    hcoin', Outcome.ok_bind, ne_eq, not_true_eq_false, if_false]
  exact ⟨_, rfl⟩

/-- An offer that is read is canonical, and written again for the account of a key. -/
theorem SwapCreate.canonical_of_toOffer {m : SwapCreate} {o : SwapOffer}
    (hcreator : creator.publicKey.algorithm = .ed25519)
    (h : m.toOffer (.ofChain creator.chainId) = .ok o) :
    CanonicalOffer (.ofChain creator.chainId) o ∧ ∃ m', ofOffer creator o = .ok m' := by
  simp only [toOffer, Outcome.bind_eq_ok, Outcome.ite_error_eq_ok, Field.bytes_eq_ok,
    Field.address_eq_ok, not_not] at h
  obtain ⟨_, ⟨-, rfl⟩, hhash, htimeout, recipient, hrecipient, as, has, h⟩ := h
  cases Outcome.pure_eq_ok.1 h
  obtain ⟨hcanonical, cs, hcs⟩ := canonical_of_amounts has
  have hsource := Account.ofIdentity_eq_ok.2 ⟨hcreator, rfl⟩
  refine ⟨⟨rfl, ⟨_, hrecipient⟩, hcanonical, ?_, Field.optionalText_ne _⟩, ?_⟩
  · exact fun hzero => htimeout (Timeout.timestamp.inj hzero)
  · simp only [ofOffer, hhash, hsource, Account.onChain_address hrecipient, hcs, deadline,
      Outcome.ok_bind, ne_eq, not_true_eq_false, if_false]
    exact ⟨_, rfl⟩

/-- A claim that is read is written again. -/
theorem SwapRelease.exists_ofClaim {m : SwapRelease} {id : SwapId} {preimage : Bytes}
    (h : m.toClaim = .ok (id, preimage)) : ∃ m', ofClaim id preimage = .ok m' := by
  simp only [toClaim, Outcome.bind_eq_ok, Field.bytes_eq_ok] at h
  obtain ⟨_, ⟨hid, rfl⟩, _, ⟨hpreimage, rfl⟩, h⟩ := h
  cases Outcome.pure_eq_ok.1 h
  simp only [ofClaim, Field.bytes_of_ne hid, Field.bytes_of_ne hpreimage, Outcome.ok_bind]
  exact ⟨_, rfl⟩

/-- An abort that is read is written again. -/
theorem SwapReturn.exists_ofAbort {m : SwapReturn} {id : SwapId} (h : m.toAbort = .ok id) :
    ∃ m', ofAbort id = .ok m' := by
  obtain ⟨hid, rfl⟩ := Field.bytes_eq_ok.1 h
  exact ⟨_, by rw [ofAbort, Field.bytes_of_ne hid]; rfl⟩

/-- An escrow that is read is canonical and written again. -/
theorem EscrowCreate.canonical_of_toEscrow {m : EscrowCreate} {e : Escrow}
    (h : m.toEscrow network = .ok e) :
    CanonicalEscrow network e ∧ ∃ m', ofEscrow e = .ok m' := by
  simp only [toEscrow, Outcome.bind_eq_ok, Outcome.ite_error_eq_ok, Field.address_eq_ok] at h
  obtain ⟨hamount, htimeout, sender, hsender, arbiter, harbiter, recipient, hrecipient, as, has,
    h⟩ := h
  cases Outcome.pure_eq_ok.1 h
  obtain ⟨hcanonical, cs, hcs⟩ := canonical_of_amounts has
  have hsome : as ≠ [] := by
    rintro rfl
    exact hamount (Outcome.mapM_eq_nil has)
  refine ⟨⟨⟨_, hsender⟩, ⟨_, harbiter⟩, ⟨_, hrecipient⟩, hcanonical, hsome, ?_,
    Field.optionalText_ne _⟩, ?_⟩
  · exact fun hzero => htimeout (Timeout.timestamp.inj hzero)
  · simp only [ofEscrow, Account.bytesOfAddress_address hsender,
      Account.bytesOfAddress_address harbiter, Account.bytesOfAddress_address hrecipient, hcs,
      deadline, Outcome.ok_bind]
    exact ⟨_, rfl⟩

/-- A payment that is read is canonical and written again. -/
theorem EscrowRelease.canonical_of_toRelease {m : EscrowRelease} {id : UInt64} {as : List Amount}
    (h : m.toRelease = .ok (id, as)) :
    (∀ a ∈ as, a.Canonical) ∧ ∃ m', ofRelease id as = .ok m' := by
  simp only [toRelease, Outcome.bind_eq_ok] at h
  obtain ⟨_, -, _, has, h⟩ := h
  cases Outcome.pure_eq_ok.1 h
  obtain ⟨hcanonical, cs, hcs⟩ := canonical_of_amounts has
  exact ⟨hcanonical, _, by rw [ofRelease, hcs]; rfl⟩

/-- A party that is read is the network's, and written again. -/
theorem EscrowUpdateParties.canonical_of_party {b : Bytes} {p : Option Address}
    (h : party network b = .ok p) : (∀ a ∈ p, network.Owns a) ∧ ∃ b', partyBytes p = .ok b' := by
  unfold party at h
  split at h
  · cases h
    exact ⟨by simp, _, rfl⟩
  · obtain ⟨a, ha, rfl⟩ := Outcome.map_eq_ok.1 h
    refine ⟨?_, _, Account.bytesOfAddress_address ha⟩
    rintro _ ⟨⟩
    exact ⟨_, ha⟩

/-- Parties that are read are the network's, and written again if there is one. -/
theorem EscrowUpdateParties.canonical_of_toParties {m : EscrowUpdateParties} {id : UInt64}
    {p : EscrowParties} (h : m.toParties network = .ok (id, p)) :
    CanonicalParties network p ∧
      ((∃ m', ofParties id p = .ok m') ↔ (replacedParties p).length = 1) := by
  simp only [toParties, Outcome.bind_eq_ok] at h
  obtain ⟨_, -, sender, hsender, arbiter, harbiter, recipient, hrecipient, h⟩ := h
  cases Outcome.pure_eq_ok.1 h
  obtain ⟨hsender, source, hsource⟩ := canonical_of_party hsender
  obtain ⟨harbiter, middle, hmiddle⟩ := canonical_of_party harbiter
  obtain ⟨hrecipient, destination, hdestination⟩ := canonical_of_party hrecipient
  refine ⟨⟨hsender, harbiter, hrecipient⟩, ?_⟩
  rw [replacedParties, List.reduceOption_length_eq]
  simp only [ofParties, Outcome.ite_error_eq_ok, not_not, hsource, hmiddle, hdestination,
    Outcome.ok_bind, exists_and_left]
  exact and_iff_left ⟨_, rfl⟩

/-! ## Contracts and usernames -/

/-- Participants that are read are some of the network, with weights, and written again. -/
theorem canonical_of_toParticipants {ms : List MultisigParticipant} {ps : List Participant}
    (h : toParticipants network ms = .ok ps) :
    ps ≠ [] ∧ (∀ p ∈ ps, network.Owns p.address ∧ p.weight ≠ 0) ∧
      ∃ ms', ofParticipants ps = .ok ms' := by
  obtain ⟨hne, hps⟩ := toParticipants_eq_ok.1 h
  have hread (p : Participant) (hp : p ∈ ps) :
      ∃ signature, Account.address network signature = .ok p.address ∧ p.weight ≠ 0 := by
    obtain ⟨m, -, hm⟩ := Outcome.mem_of_mapM_eq_ok hps p hp
    obtain ⟨hweight, hsame, haddress⟩ := toParticipant_eq_ok.1 hm
    exact ⟨_, haddress, hsame ▸ hweight⟩
  refine ⟨?_, fun p hp => ?_, Outcome.exists_mapM_eq_ok.2 fun p hp => ?_⟩
  · rintro rfl
    exact hne (Outcome.mapM_eq_nil hps)
  · obtain ⟨signature, haddress, hweight⟩ := hread p hp
    exact ⟨⟨_, haddress⟩, hweight⟩
  · obtain ⟨signature, haddress, -⟩ := hread p hp
    exact ⟨_, Outcome.bind_eq_ok.2 ⟨signature, Account.bytesOfAddress_address haddress, rfl⟩⟩

/-- A contract that is read is canonical and written again. -/
theorem MultisigCreate.canonical_of_toContract {m : MultisigCreate} {c : Contract}
    (h : m.toContract network = .ok c) :
    CanonicalContract network c ∧ ∃ m', ofContract c = .ok m' := by
  simp only [toContract, Outcome.bind_eq_ok, Field.uint32_eq_ok] at h
  obtain ⟨ps, hps, _, ⟨hactivation, rfl⟩, _, ⟨hadmin, rfl⟩, h⟩ := h
  cases Outcome.pure_eq_ok.1 h
  obtain ⟨hsome, hread, ms, hms⟩ := canonical_of_toParticipants hps
  exact ⟨⟨hsome, fun p hp => (hread p hp).1, fun p hp => (hread p hp).2, hactivation, hadmin⟩,
    _, by rw [ofContract, hms]; rfl⟩

/-- New terms that are read are canonical, name their contract, and are written again. -/
theorem MultisigUpdate.canonical_of_toContract {m : MultisigUpdate} {id : Bytes} {c : Contract}
    (h : m.toContract network = .ok (id, c)) :
    (id ≠ [] ∧ CanonicalContract network c) ∧ ∃ m', ofContract id c = .ok m' := by
  simp only [toContract, Outcome.bind_eq_ok, Field.bytes_eq_ok, Field.uint32_eq_ok] at h
  obtain ⟨_, ⟨hid, rfl⟩, ps, hps, _, ⟨hactivation, rfl⟩, _, ⟨hadmin, rfl⟩, h⟩ := h
  cases Outcome.pure_eq_ok.1 h
  obtain ⟨hsome, hread, ms, hms⟩ := canonical_of_toParticipants hps
  exact ⟨⟨hid, hsome, fun p hp => (hread p hp).1, fun p hp => (hread p hp).2, hactivation, hadmin⟩,
    _, by rw [ofContract, hms]; rfl⟩

/-- Targets that are read are canonical. -/
theorem canonical_of_toTargets {ws : List UsernameTarget} {ts : List ChainAddress}
    (h : toTargets ws = .ok ts) : ∀ t ∈ ts, CanonicalTarget t := by
  obtain ⟨hws, rfl⟩ := toTargets_eq_ok.1 h
  rw [List.forall_mem_map]
  exact fun w hw => ⟨(hws w hw).1, (hws w hw).2⟩

/-- The targets of a registration that is read are canonical. -/
theorem UsernameRegister.canonical_of_toRegistration {m : UsernameRegister} {name : String}
    {targets : List ChainAddress} (h : m.toRegistration = .ok (name, targets)) :
    ∀ t ∈ targets, CanonicalTarget t := by
  simp only [toRegistration, Outcome.bind_eq_ok] at h
  obtain ⟨_, -, ts, hts, h⟩ := h
  cases Outcome.pure_eq_ok.1 h
  exact canonical_of_toTargets hts

/-- A registration is written if its name ends in the namespace. -/
theorem UsernameRegister.exists_ofRegistration_iff {name : String} {targets : List ChainAddress} :
    (∃ m, ofRegistration name targets = .ok m) ↔ usernameNamespace <:+ name.toList := by
  rw [ofRegistration, ← List.isSuffixOf_iff_suffix]
  split <;> simp_all

/-- New targets that are read are canonical and those of some username. -/
theorem UsernameChangeTargets.canonical_of_toTargets {m : UsernameChangeTargets} {name : String}
    {targets : List ChainAddress} (h : m.toTargets = .ok (name, targets)) :
    name ≠ "" ∧ ∀ t ∈ targets, CanonicalTarget t := by
  simp only [UsernameChangeTargets.toTargets, Outcome.bind_eq_ok, Field.text_eq_ok] at h
  obtain ⟨_, ⟨hname, rfl⟩, ts, hts, h⟩ := h
  cases Outcome.pure_eq_ok.1 h
  exact ⟨hname, Schema.canonical_of_toTargets hts⟩

/-! ## Governance -/

/-- Electors that are read are the network's, with weights, and written again. -/
theorem canonical_of_toElectors {es : List Elector} {m : TextMap ElectorWeight}
    (h : toElectors network es = .ok m) :
    (∀ e ∈ m.entries, network.Owns e.1 ∧ e.2.weight ≠ 0) ∧ ∃ es', ofElectors m = .ok es' := by
  obtain ⟨hes, -, rfl⟩ := toElectors_eq_ok.1 h
  have hread (e : String × ElectorWeight)
      (he : e ∈ (TextMap.ofList (es.map (electorEntry network))).entries) :
      ∃ raw, Account.address network raw = .ok e.1 ∧ e.2.weight ≠ 0 := by
    obtain ⟨elector, helector, rfl⟩ := List.mem_map.1 (TextMap.mem_of_mem_ofList he)
    obtain ⟨hlength, hweight⟩ := hes elector helector
    exact ⟨_, Account.address_eq_ok.2 ⟨hlength, rfl⟩, hweight⟩
  refine ⟨fun e he => ?_, Outcome.exists_mapM_eq_ok.2 fun e he => ?_⟩
  · obtain ⟨raw, haddress, hweight⟩ := hread e he
    exact ⟨⟨_, haddress⟩, hweight⟩
  · obtain ⟨raw, haddress, -⟩ := hread e he
    exact ⟨_, Outcome.bind_eq_ok.2 ⟨raw, Account.bytesOfAddress_address haddress, rfl⟩⟩

/-- A validator's name has no uppercase letters. -/
theorem isUpper_of_mem_validatorName {key : Bytes} {c : Char}
    (h : c ∈ (validatorName key).toList) : c.isUpper = false := by
  have hscheme : ∀ c ∈ validatorScheme, c.isUpper = false := by simp [validatorScheme]
  rw [toList_validatorName] at h
  exact (List.mem_append.1 h).elim (hscheme c) Hex.isUpper_of_mem_digits

/-- A name in lowercase is read if it is that of a key of 32 bytes. -/
theorem exists_validatorKey_iff {name : String} (hcase : ∀ c ∈ name.toList, c.isUpper = false) :
    (∃ key, validatorKey name = .ok key) ↔
      ∃ key : Bytes, key.length = 32 ∧ name = validatorName key := by
  constructor
  · rintro ⟨key, hkey⟩
    exact ⟨key, (validatorKey_eq_ok.1 hkey).1, (validatorName_of_validatorKey hcase hkey).1.symm⟩
  · rintro ⟨key, hlength, rfl⟩
    exact ⟨key, validatorKey_eq_ok.2
      ⟨hlength, _, toList_validatorName key, Hex.spells_digits key⟩⟩

/-- Validators that are read have names in lowercase, and are written again if these are those of
keys of 32 bytes. -/
theorem canonical_of_toValidators {us : List ValidatorUpdate} {m : TextMap ValidatorPower}
    (h : toValidators us = .ok m) :
    (∀ e ∈ m.entries, ∀ c ∈ e.1.toList, c.isUpper = false) ∧
      ((∃ us', ofValidators m = .ok us') ↔
        ∀ e ∈ m.entries, ∃ key : Bytes, key.length = 32 ∧ e.1 = validatorName key) := by
  obtain ⟨entries, hentries, rfl⟩ := toValidators_eq_ok.1 h
  have hcase (e : String × ValidatorPower) (he : e ∈ (TextMap.ofList entries).entries) :
      ∀ c ∈ e.1.toList, c.isUpper = false := by
    obtain ⟨u, -, hu⟩ := Outcome.mem_of_mapM_eq_ok hentries e (TextMap.mem_of_mem_ofList he)
    obtain ⟨key, -, -, rfl⟩ := toValidator_eq_ok.1 hu
    exact fun c => isUpper_of_mem_validatorName
  refine ⟨hcase, Outcome.exists_mapM_eq_ok.trans (forall₂_congr fun e he => ?_)⟩
  exact Outcome.exists_bind_pure_eq_ok.trans (exists_validatorKey_iff (hcase e he))

/-- What a proposal does, once read, is canonical, and written again if it is writable. -/
theorem ProposalOptions.canonical_of_toAction {o : ProposalOptions} {action : ProposalAction}
    (h : o.toAction network = .ok action) :
    CanonicalAction network action ∧
      ((∃ o', ofAction action = .ok o') ↔ WritableAction action) := by
  unfold toAction at h
  split at h
  · cases h
    exact ⟨trivial, iff_of_true ⟨_, rfl⟩ trivial⟩
  · obtain ⟨m, hm, rfl⟩ := Outcome.map_eq_ok.1 h
    obtain ⟨hcase, hiff⟩ := canonical_of_toValidators hm
    exact ⟨hcase, Outcome.exists_bind_pure_eq_ok.trans hiff⟩
  · simp only [Outcome.bind_eq_ok] at h
    obtain ⟨id, -, m, hm, h⟩ := h
    cases Outcome.pure_eq_ok.1 h
    obtain ⟨hcanonical, es, hes⟩ := canonical_of_toElectors hm
    exact ⟨hcanonical, iff_of_true ⟨_, by rw [ofAction, hes]; rfl⟩ trivial⟩
  · cases h
  · cases h

/-- A proposal that is read is canonical, and written again if what it does is writable. -/
theorem ProposalCreate.canonical_of_toDraft {m : ProposalCreate} {d : ProposalDraft}
    (h : m.toDraft network = .ok d) :
    CanonicalDraft network d ∧ ((∃ m', ofDraft d = .ok m') ↔ WritableAction d.action) := by
  simp only [toDraft, ProposalOptions.actionOfField, ProposalOptions.actionOfBytes,
    Outcome.bind_eq_ok, Outcome.mapError_eq_ok, Field.address_eq_ok] at h
  obtain ⟨action, ⟨raw, -, haction⟩, ruleId, -, author, hauthor, h⟩ := h
  cases Outcome.pure_eq_ok.1 h
  split at haction
  · obtain ⟨hcanonical, hiff⟩ := ProposalOptions.canonical_of_toAction haction
    refine ⟨⟨hcanonical, _, hauthor⟩, Iff.trans ?_ hiff⟩
    simp only [ofDraft, Account.bytesOfAddress_address hauthor, Outcome.ok_bind]
    exact Outcome.exists_bind_pure_eq_ok
  · cases haction

/-! ## Transactions -/

/-- **A request that is read is canonical, and written again exactly if it is writable**, for the
account of a key. -/
theorem Action.canonical_of_toRequest {action : Action} {r : Request}
    (hcreator : creator.publicKey.algorithm = .ed25519) (h : action.toRequest creator = .ok r) :
    CanonicalRequest (.ofChain creator.chainId) r ∧
      ((∃ action', ofRequest creator r = .ok action') ↔ WritableRequest r) := by
  cases action with
  | cashSend m =>
    obtain ⟨s, hs, rfl⟩ := Outcome.map_eq_ok.1 h
    obtain ⟨hcanonical, hwritten⟩ := CashSend.canonical_of_toSend hs
    exact ⟨hcanonical, Outcome.exists_map_iff_true hwritten⟩
  | swapCreate m =>
    obtain ⟨o, ho, rfl⟩ := Outcome.map_eq_ok.1 h
    obtain ⟨hcanonical, hwritten⟩ := SwapCreate.canonical_of_toOffer hcreator ho
    exact ⟨hcanonical, Outcome.exists_map_iff_true hwritten⟩
  | swapRelease m =>
    obtain ⟨⟨id, preimage⟩, hclaim, rfl⟩ := Outcome.map_eq_ok.1 h
    exact ⟨trivial, Outcome.exists_map_iff_true (SwapRelease.exists_ofClaim hclaim)⟩
  | swapReturn m =>
    obtain ⟨id, hid, rfl⟩ := Outcome.map_eq_ok.1 h
    exact ⟨trivial, Outcome.exists_map_iff_true (SwapReturn.exists_ofAbort hid)⟩
  | usernameRegister m =>
    obtain ⟨⟨name, targets⟩, hm, rfl⟩ := Outcome.map_eq_ok.1 h
    exact ⟨UsernameRegister.canonical_of_toRegistration hm,
      Outcome.exists_map_eq_ok.trans UsernameRegister.exists_ofRegistration_iff⟩
  | usernameChangeTargets m =>
    obtain ⟨⟨name, targets⟩, hm, rfl⟩ := Outcome.map_eq_ok.1 h
    exact ⟨UsernameChangeTargets.canonical_of_toTargets hm, iff_of_true ⟨_, rfl⟩ trivial⟩
  | multisigCreate m =>
    obtain ⟨c, hc, rfl⟩ := Outcome.map_eq_ok.1 h
    obtain ⟨hcanonical, hwritten⟩ := MultisigCreate.canonical_of_toContract hc
    exact ⟨hcanonical, Outcome.exists_map_iff_true hwritten⟩
  | multisigUpdate m =>
    obtain ⟨⟨id, c⟩, hc, rfl⟩ := Outcome.map_eq_ok.1 h
    obtain ⟨hcanonical, hwritten⟩ := MultisigUpdate.canonical_of_toContract hc
    exact ⟨hcanonical, Outcome.exists_map_iff_true hwritten⟩
  | escrowCreate m =>
    obtain ⟨e, he, rfl⟩ := Outcome.map_eq_ok.1 h
    obtain ⟨hcanonical, hwritten⟩ := EscrowCreate.canonical_of_toEscrow he
    exact ⟨hcanonical, Outcome.exists_map_iff_true hwritten⟩
  | escrowRelease m =>
    obtain ⟨⟨id, as⟩, has, rfl⟩ := Outcome.map_eq_ok.1 h
    obtain ⟨hcanonical, hwritten⟩ := EscrowRelease.canonical_of_toRelease has
    exact ⟨hcanonical, Outcome.exists_map_iff_true hwritten⟩
  | escrowReturn m =>
    obtain ⟨id, -, rfl⟩ := Outcome.map_eq_ok.1 h
    exact ⟨trivial, iff_of_true ⟨_, rfl⟩ trivial⟩
  | escrowUpdateParties m =>
    obtain ⟨⟨id, parties⟩, hparties, rfl⟩ := Outcome.map_eq_ok.1 h
    obtain ⟨hcanonical, hiff⟩ := EscrowUpdateParties.canonical_of_toParties hparties
    exact ⟨hcanonical, Outcome.exists_map_eq_ok.trans hiff⟩
  | proposalCreate m =>
    obtain ⟨d, hd, rfl⟩ := Outcome.map_eq_ok.1 h
    obtain ⟨hcanonical, hiff⟩ := ProposalCreate.canonical_of_toDraft hd
    exact ⟨hcanonical, Outcome.exists_map_eq_ok.trans hiff⟩
  | proposalVote m =>
    obtain ⟨⟨id, v⟩, -, rfl⟩ := Outcome.map_eq_ok.1 h
    exact ⟨trivial, iff_of_true ⟨_, rfl⟩ trivial⟩
  | proposalTally m =>
    obtain ⟨id, -, rfl⟩ := Outcome.map_eq_ok.1 h
    exact ⟨trivial, iff_of_true ⟨_, rfl⟩ trivial⟩

/-- A fee that is read is none or a canonical one in tokens, and written again. -/
theorem Tx.canonical_of_toFee {tx : Tx} {fee : Option Fee}
    (hcreator : creator.publicKey.algorithm = .ed25519) (h : tx.toFee = .ok fee) :
    (fee = none ∨ ∃ a : Amount, a.Canonical ∧ fee = some (.ofTokens a)) ∧
      ∃ fees, feeOf creator fee = .ok fees := by
  unfold toFee at h
  split at h
  · obtain ⟨a, ha, rfl⟩ := Outcome.map_eq_ok.1 h
    obtain ⟨hcanonical, hcoin⟩ := Coin.canonical_of_toAmount ha
    have hpayer := Account.ofIdentity_eq_ok.2 ⟨hcreator, rfl⟩
    refine ⟨.inr ⟨a, hcanonical, rfl⟩, ?_⟩
    simp only [feeOf, Fee.ofTokens, hpayer, hcoin, Outcome.ok_bind]
    exact ⟨_, rfl⟩
  · cases h
    exact ⟨.inl rfl, _, rfl⟩

/-- A signature that is read is that of an ed25519 key, and written again. -/
theorem StdSignature.canonical_of_toSignature {w : StdSignature} {s : Signature}
    (h : w.toSignature = .ok s) :
    s.publicKey.algorithm = .ed25519 ∧ ∃ w', ofSignature s = .ok w' := by
  simp only [toSignature, Outcome.bind_eq_ok] at h
  obtain ⟨_, -, key, hkey, _, -, data, -, h⟩ := h
  cases Outcome.pure_eq_ok.1 h
  unfold KeyData.toPublicKey at hkey
  split at hkey
  · cases hkey
    exact ⟨rfl, _, rfl⟩
  · cases hkey

/-- **A transaction that is read is canonical and one of the chain, and written again exactly if its
request is writable.** -/
theorem Tx.canonical_of_toSigned {tx : Tx} {chainId : ChainId} {t : SignedTransaction}
    (h : tx.toSigned chainId = .ok t) :
    CanonicalTransaction t ∧ t.transaction.creator.chainId = chainId ∧
      ((∃ tx', ofSigned t = .ok tx') ↔ WritableRequest t.transaction.request) := by
  obtain ⟨hsignatures, hcreator, ⟨action, -, hrequest⟩, hfee⟩ := toSigned_eq_ok.1 h
  have hread (s : Signature) (hs : s ∈ t.signatures) :
      s.publicKey.algorithm = .ed25519 ∧ ∃ w, StdSignature.ofSignature s = .ok w := by
    obtain ⟨w, -, hw⟩ := Outcome.mem_of_mapM_eq_ok hsignatures s hs
    exact StdSignature.canonical_of_toSignature hw
  -- the creator's key is that of the first signature
  have hkey : t.transaction.creator.publicKey.algorithm = .ed25519 := by
    rw [hcreator]
    exact (hread t.primary List.mem_cons_self).1
  obtain ⟨hcanonical, hiff⟩ := Action.canonical_of_toRequest hkey hrequest
  obtain ⟨hfees, fees, hwritten⟩ := canonical_of_toFee hkey hfee
  obtain ⟨ss, hss⟩ := Outcome.exists_mapM_eq_ok.2 fun s hs => (hread s hs).2
  refine ⟨⟨by rw [hcreator], hfees, hcanonical⟩, by rw [hcreator], Iff.trans ?_ hiff⟩
  simp only [ofSigned, ofTransaction, hwritten, hss, Outcome.bind_eq_ok, Outcome.pure_eq_ok,
    Outcome.ok_bind]
  constructor
  · rintro ⟨_, _, ⟨action', haction', -⟩, -⟩
    exact ⟨action', haction'⟩
  · rintro ⟨action', haction'⟩
    exact ⟨_, _, ⟨action', haction', rfl⟩, rfl⟩

end Schema

namespace Codec

/-- **A parsed transaction is posted again exactly if its request is writable**, and is identified
then; what is posted again is read as the same transaction. The bytes are counted in a word of 64
bits. -/
theorem repostable_iff_writable {b : Bytes} {chainId : ChainId} {t : SignedTransaction}
    (h : parse b chainId = .ok t) :
    ((∃ b', bytesToPost t = .ok b') ↔ WritableRequest t.transaction.request) ∧
    ((∃ id, identifier t = .ok id) ↔ WritableRequest t.transaction.request) ∧
    ∀ b', bytesToPost t = .ok b' → b'.length < Wire.wordSize → parse b' chainId = .ok t := by
  obtain ⟨tx, -, htx⟩ := parse_eq_ok.1 h
  obtain ⟨hcanonical, rfl, hiff⟩ := Schema.Tx.canonical_of_toSigned htx
  have hpost : (∃ b', bytesToPost t = .ok b') ↔ WritableRequest t.transaction.request :=
    Outcome.exists_map_eq_ok.trans hiff
  refine ⟨hpost, Outcome.exists_bind_pure_eq_ok.trans hpost, ?_⟩
  intro b' hb' hlength
  obtain ⟨tx', htx', hbytes, hread⟩ := decode?_bytesToPost hb' hlength
  have hback := Schema.Tx.toSigned_ofSigned hcanonical htx' (by rwa [hbytes])
  exact parse_eq_ok.2 ⟨tx', hread, hback⟩

/-- A message of a stranger that registers a name; it has no version, which is written always. -/
def registrationMessage (name : String) : Schema.Tx where
  usernameRegister := some { username := name, targets := [⟨"iov-lovenet", "ash"⟩] }
  signatures := [⟨11, some ⟨some [7, 7, 7]⟩, some ⟨some [1, 2]⟩⟩]

/-- The registration of a name. -/
def sampleRegistration (name : String) : SignedTransaction where
  transaction :=
    { creator := ⟨"iov-lovenet", .ed25519, [7, 7, 7]⟩
      fee := none
      request := .registerUsername name [⟨"iov-lovenet", "ash"⟩] }
  primary := ⟨11, ⟨.ed25519, [7, 7, 7]⟩, [1, 2]⟩
  others := []

/-- The registration of a name in the namespace is read from the stranger's message and posted
again, in other bytes that are read alike. -/
theorem repostable_iff_writable_sampleRegistration :
    parse (Wire.Message.encode (registrationMessage "ash*iov")) "iov-lovenet" =
        .ok (sampleRegistration "ash*iov") ∧
      WritableRequest (sampleRegistration "ash*iov").transaction.request ∧
      ∃ b, bytesToPost (sampleRegistration "ash*iov") = .ok b ∧ b.length = 53 ∧
        b ≠ Wire.Message.encode (registrationMessage "ash*iov") ∧
        parse b "iov-lovenet" = .ok (sampleRegistration "ash*iov") := by
  have hparse : parse (Wire.Message.encode (registrationMessage "ash*iov")) "iov-lovenet" =
      .ok (sampleRegistration "ash*iov") := by decide +kernel
  have hlength : (bytesToPost (sampleRegistration "ash*iov")).map List.length = .ok 53 := by
    decide +kernel
  have hshort : (Wire.Message.encode (registrationMessage "ash*iov")).length = 49 := by
    decide +kernel
  obtain ⟨b, hpost, h53⟩ := Outcome.map_eq_ok.1 hlength
  obtain ⟨hiff, -, hback⟩ := repostable_iff_writable hparse
  refine ⟨hparse, hiff.1 ⟨b, hpost⟩, b, hpost, h53, ?_, hback b hpost (by rw [h53]; decide)⟩
  rintro rfl
  omega

/-- The registration of a name without the namespace is read, but neither posted nor identified. -/
theorem parse_bareRegistration :
    parse (Wire.Message.encode (registrationMessage "ash")) "iov-lovenet" =
        .ok (sampleRegistration "ash") ∧
      bytesToPost (sampleRegistration "ash") = .error (.invalid .usernameNamespace) ∧
      identifier (sampleRegistration "ash") = .error (.invalid .usernameNamespace) := by
  decide +kernel

end Codec

end Bns

end ChainKit
