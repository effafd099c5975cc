import ChainKit.Proofs.Bns.RoundTrip
import Mathlib
/-!
# Which posted transactions are read back

Reading asks for fields that writing does not ask for: weights and
thresholds, deadlines, participants, the amounts of an escrow, the name of
a contract or of an updated username, both halves of a target, and
electors that are different accounts. `CompleteRequest` lists them. What
is posted is read back, as a transaction of the same kind, exactly if its
request is complete (`readable_iff_complete`); a request that is not can
be posted all the same (`parse_namelessUpdate`).
-/

namespace ChainKit

namespace Bns

variable {network : Network} {creator : Identity}

/-- A contract with participants, weights and thresholds. -/
structure CompleteContract (c : Contract) : Prop where
  participants : c.participants ≠ []
  weights : ∀ p ∈ c.participants, p.weight ≠ 0
  activation : c.activationThreshold ≠ 0
  admin : c.adminThreshold ≠ 0

/-- What a proposal does, if electors have weights and no account is named twice, be it under two
spellings. -/
def CompleteAction : ProposalAction → Prop
  | .text _ => True
  | .validators _ => True
  | .electorate _ electors => (∀ e ∈ electors.entries, e.2.weight ≠ 0) ∧
      (electors.entries.map fun e => Account.bytesOfAddress e.1).Nodup

/-- A request with every field that reading asks for. -/
def CompleteRequest : Request → Prop
  | .send _ => True
  | .offerSwap o => o.timeout ≠ .timestamp 0
  | .claimSwap _ _ => True
  | .abortSwap _ => True
  | .registerUsername _ targets => ∀ t ∈ targets, CanonicalTarget t
  | .updateUsernameTargets name targets => name ≠ "" ∧ ∀ t ∈ targets, CanonicalTarget t
  | .createContract c => CompleteContract c
  | .updateContract id c => id ≠ [] ∧ CompleteContract c
  | .createEscrow e => e.amounts ≠ [] ∧ e.timeout ≠ .timestamp 0
  | .releaseEscrow _ _ => True
  | .returnEscrow _ => True
  | .updateEscrowParties _ _ => True
  | .createProposal d => CompleteAction d.action
  | .vote _ _ => True
  | .tally _ => True

namespace Schema

/-! ## Transfers -/

/-- The coins of amounts are read, whether or not the amounts were canonical. -/
theorem exists_amounts {as : List Amount} {cs : List Coin} (h : coins as = .ok cs) :
    ∃ bs, amounts cs = .ok bs := by
  refine Outcome.exists_mapM_eq_ok.2 fun c hc => ?_
  obtain ⟨a, -, ha⟩ := Outcome.mem_of_mapM_eq_ok h c hc
  exact ⟨_, Coin.toAmount_of_ofAmount ha⟩

/-- A deadline of zero is the one that counts as absent. -/
theorem deadline_ne_zero_iff {t : Timeout} {n : Int64} (h : deadline t = .ok n) :
    n ≠ 0 ↔ t ≠ .timestamp 0 := by
  cases t with
  | timestamp seconds =>
    cases h
    rw [Ne, Ne, Timeout.timestamp.injEq]
  | height count => cases h

/-- A send is read. -/
theorem CashSend.exists_toSend {s : Send} {m : CashSend} (h : ofSend creator s = .ok m) :
    ∃ r, m.toSend creator = .ok r := by
  simp only [ofSend, Outcome.bind_eq_ok, Outcome.ite_error_eq_ok, not_not] at h
  obtain ⟨source, hsource, sender, hsender, rfl, recipient, hrecipient, amount, hamount, h⟩ := h
  cases Outcome.pure_eq_ok.1 h
  obtain ⟨payer, hpayer⟩ := Account.exists_address sender.network
    (Account.length_of_ofAddress (Account.onChain_eq_ok.1 hsender).1)
  obtain ⟨target, htarget⟩ := Account.exists_address (.ofChain creator.chainId)
    (Account.length_of_ofAddress (Account.onChain_eq_ok.1 hrecipient).1)
  have hcreator : Account.addressOfIdentity creator = .ok payer := by
    rw [Account.addressOfIdentity, hsource, Outcome.ok_bind, hpayer]
  simp only [toSend, hcreator, Field.address_eq_ok.2 htarget, Field.present,
    Coin.toAmount_of_ofAmount hamount, Outcome.ok_bind]
  exact ⟨_, rfl⟩

/-- An offer is read exactly if it has a deadline. -/
theorem SwapCreate.exists_toOffer_iff {o : SwapOffer} {m : SwapCreate}
    (h : ofOffer creator o = .ok m) :
    (∃ r, m.toOffer (.ofChain creator.chainId) = .ok r) ↔ o.timeout ≠ .timestamp 0 := by
  simp only [ofOffer, Outcome.bind_eq_ok, Outcome.ite_error_eq_ok, not_not] at h
  obtain ⟨hhash, source, hsource, recipient, hrecipient, amount, hamount, timeout, htimeout, h⟩ := h
  cases Outcome.pure_eq_ok.1 h
  have hne : o.hash ≠ [] := by
    intro hnil
    simp [hnil, hashSize] at hhash
  obtain ⟨target, htarget⟩ := Account.exists_address (.ofChain creator.chainId)
    (Account.length_of_ofAddress (Account.onChain_eq_ok.1 hrecipient).1)
  obtain ⟨bs, hbs⟩ := exists_amounts hamount
  rw [← deadline_ne_zero_iff htimeout]
  simp only [toOffer, Field.bytes_of_ne hne, Outcome.ok_bind, hhash, ne_eq, not_true_eq_false,
    if_false, Outcome.ite_error_eq_ok, Field.address_eq_ok.2 htarget, hbs, exists_and_left]
  exact and_iff_left ⟨_, rfl⟩

/-- An escrow is read exactly if it holds something until some time. -/
theorem EscrowCreate.exists_toEscrow_iff {e : Escrow} {m : EscrowCreate}
    (h : ofEscrow e = .ok m) :
    (∃ r, m.toEscrow network = .ok r) ↔ e.amounts ≠ [] ∧ e.timeout ≠ .timestamp 0 := by
  simp only [ofEscrow, Outcome.bind_eq_ok] at h
  obtain ⟨source, hsource, arbiter, harbiter, destination, hdestination, amount, hamount, timeout,
    htimeout, h⟩ := h
  cases Outcome.pure_eq_ok.1 h
  obtain ⟨payer, hpayer⟩ := Account.exists_address network
    (Account.length_of_bytesOfAddress hsource)
  obtain ⟨middle, hmiddle⟩ := Account.exists_address network
    (Account.length_of_bytesOfAddress harbiter)
  obtain ⟨target, htarget⟩ := Account.exists_address network
    (Account.length_of_bytesOfAddress hdestination)
  obtain ⟨bs, hbs⟩ := exists_amounts hamount
  have hnil : amount = [] ↔ e.amounts = [] := by
    constructor
    · rintro rfl
      exact Outcome.mapM_eq_nil hamount
    · intro hnil
      rw [hnil] at hamount
      cases hamount
      rfl
  rw [← deadline_ne_zero_iff htimeout, Ne, ← hnil]
  simp only [toEscrow, Outcome.ite_error_eq_ok, Field.address_eq_ok.2 hpayer,
    Field.address_eq_ok.2 hmiddle, Field.address_eq_ok.2 htarget, hbs, Outcome.ok_bind,
    exists_and_left]
  exact and_congr_right fun _ => and_iff_left ⟨_, rfl⟩

/-- A payment is read. -/
theorem EscrowRelease.exists_toRelease {id : UInt64} {as : List Amount} {m : EscrowRelease}
    (h : ofRelease id as = .ok m) : ∃ r, m.toRelease = .ok r := by
  simp only [ofRelease, Outcome.bind_eq_ok] at h
  obtain ⟨amount, hamount, h⟩ := h
  cases Outcome.pure_eq_ok.1 h
  obtain ⟨bs, hbs⟩ := exists_amounts hamount
  simp only [toRelease, NumericId.decode_encode, hbs, Outcome.ok_bind]
  exact ⟨_, rfl⟩

/-- A party is read, or its absence. -/
theorem EscrowUpdateParties.exists_party (network : Network) {p : Option Address} {b : Bytes}
    (h : partyBytes p = .ok b) : ∃ q, party network b = .ok q := by
  cases p with
  | none =>
    cases h
    exact ⟨none, rfl⟩
  | some a =>
    have hlength : b.length = 20 := Account.length_of_bytesOfAddress h
    have hne : b ≠ [] := by
      rintro rfl
      simp at hlength
    obtain ⟨a', ha'⟩ := Account.exists_address network hlength
    exact ⟨some a', by rw [party, if_neg hne, ha', Outcome.map_ok]⟩

/-- The replacement of a party is read. -/
theorem EscrowUpdateParties.exists_toParties {id : UInt64} {p : EscrowParties}
    {m : EscrowUpdateParties} (h : ofParties id p = .ok m) : ∃ r, m.toParties network = .ok r := by
  simp only [ofParties, Outcome.bind_eq_ok, Outcome.ite_error_eq_ok] at h
  obtain ⟨-, source, hsource, arbiter, harbiter, destination, hdestination, h⟩ := h
  cases Outcome.pure_eq_ok.1 h
  obtain ⟨payer, hpayer⟩ := exists_party network hsource
  obtain ⟨middle, hmiddle⟩ := exists_party network harbiter
  obtain ⟨target, htarget⟩ := exists_party network hdestination
  simp only [toParties, NumericId.decode_encode, hpayer, hmiddle, htarget, Outcome.ok_bind]
  exact ⟨_, rfl⟩

/-! ## Contracts and usernames -/

/-- Participants are read exactly if there are some, each with a weight. -/
theorem exists_toParticipants_iff (network : Network) {ps : List Participant}
    {ms : List MultisigParticipant} (h : ofParticipants ps = .ok ms) :
    (∃ qs, toParticipants network ms = .ok qs) ↔ ps ≠ [] ∧ ∀ p ∈ ps, p.weight ≠ 0 := by
  have hweight (p : Participant) (m : MultisigParticipant) (hm : (do
      let signature ← Account.bytesOfAddress p.address
      return ({ signature, weight := p.weight } : MultisigParticipant)) = .ok m) :
      m.weight = p.weight := by
    obtain ⟨signature, -, hm⟩ := Outcome.bind_eq_ok.1 hm
    cases Outcome.pure_eq_ok.1 hm
    rfl
  -- an address is written as 20 bytes, so only the weight may be missing
  have hreads : ∀ m ∈ ms, (∃ q, toParticipant network 0 m = .ok q) ↔ m.weight ≠ 0 := by
    intro m hm
    obtain ⟨p, -, hp⟩ := Outcome.mem_of_mapM_eq_ok h m hm
    obtain ⟨signature, hsignature, hp⟩ := Outcome.bind_eq_ok.1 hp
    cases Outcome.pure_eq_ok.1 hp
    obtain ⟨a, ha⟩ := Account.exists_address network
      (Account.length_of_bytesOfAddress hsignature)
    constructor
    · rintro ⟨q, hq⟩
      exact (toParticipant_eq_ok.1 hq).1
    · intro hweight
      exact ⟨⟨a, p.weight⟩, toParticipant_eq_ok.2 ⟨hweight, rfl, ha⟩⟩
  have hnil : ms ≠ [] ↔ ps ≠ [] := by
    have hmap := Outcome.map_eq_of_mapM h hweight
    rw [Ne, Ne, ← List.map_eq_nil_iff (f := (·.weight)), hmap, List.map_eq_nil_iff]
  have hweights : (∀ m ∈ ms, m.weight ≠ 0) ↔ ∀ p ∈ ps, p.weight ≠ 0 :=
    Outcome.forall_mem_iff_of_mapM (p := (· ≠ 0)) h hweight
  simp only [toParticipants_eq_ok, exists_and_left, Outcome.exists_mapM_eq_ok, hnil]
  rw [forall₂_congr hreads, hweights]

/-- A new contract is read exactly if it is complete. -/
theorem MultisigCreate.exists_toContract_iff {c : Contract} {m : MultisigCreate}
    (h : ofContract c = .ok m) : (∃ r, m.toContract network = .ok r) ↔ CompleteContract c := by
  obtain ⟨ps, hps, h⟩ := Outcome.bind_eq_ok.1 h
  cases Outcome.pure_eq_ok.1 h
  have hparticipants := exists_toParticipants_iff network hps
  simp only [toContract, Outcome.bind_eq_ok, Field.uint32_eq_ok]
  constructor
  · rintro ⟨_, qs, hqs, _, ⟨hactivation, -⟩, _, ⟨hadmin, -⟩, -⟩
    obtain ⟨hne, hweights⟩ := hparticipants.1 ⟨qs, hqs⟩
    exact ⟨hne, hweights, hactivation, hadmin⟩
  · intro hc
    obtain ⟨qs, hqs⟩ := hparticipants.2 ⟨hc.participants, hc.weights⟩
    exact ⟨_, qs, hqs, _, ⟨hc.activation, rfl⟩, _, ⟨hc.admin, rfl⟩, rfl⟩

/-- New terms are read exactly if they are complete and name their contract. -/
theorem MultisigUpdate.exists_toContract_iff {id : Bytes} {c : Contract} {m : MultisigUpdate}
    (h : ofContract id c = .ok m) :
    (∃ r, m.toContract network = .ok r) ↔ id ≠ [] ∧ CompleteContract c := by
  obtain ⟨ps, hps, h⟩ := Outcome.bind_eq_ok.1 h
  cases Outcome.pure_eq_ok.1 h
  have hparticipants := exists_toParticipants_iff network hps
  simp only [toContract, Outcome.bind_eq_ok, Field.bytes_eq_ok, Field.uint32_eq_ok]
  constructor
  · rintro ⟨_, _, ⟨hid, -⟩, qs, hqs, _, ⟨hactivation, -⟩, _, ⟨hadmin, -⟩, -⟩
    obtain ⟨hne, hweights⟩ := hparticipants.1 ⟨qs, hqs⟩
    exact ⟨hid, hne, hweights, hactivation, hadmin⟩
  · rintro ⟨hid, hc⟩
    obtain ⟨qs, hqs⟩ := hparticipants.2 ⟨hc.participants, hc.weights⟩
    exact ⟨_, _, ⟨hid, rfl⟩, qs, hqs, _, ⟨hc.activation, rfl⟩, _, ⟨hc.admin, rfl⟩, rfl⟩

/-- A registration is read exactly if its targets are canonical; its name is never empty. -/
theorem UsernameRegister.exists_toRegistration_iff {name : String} {targets : List ChainAddress}
    {m : UsernameRegister} (h : ofRegistration name targets = .ok m) :
    (∃ r, m.toRegistration = .ok r) ↔ ∀ t ∈ targets, CanonicalTarget t := by
  constructor
  · rintro ⟨r, hr⟩
    simp only [ofRegistration] at h
    split at h
    · cases h
      simp only [toRegistration, Outcome.bind_eq_ok] at hr
      obtain ⟨_, -, ts, hts, -⟩ := hr
      exact (toTargets_ofTargets_eq_ok.1 hts).1
    · cases h
  · intro hcanonical
    exact ⟨_, UsernameRegister.toRegistration_ofRegistration hcanonical h⟩

/-- New targets are read exactly if they are canonical and those of some username. -/
theorem UsernameChangeTargets.exists_toTargets_iff {name : String} {targets : List ChainAddress} :
    (∃ r, (ofTargets name targets).toTargets = .ok r) ↔
      name ≠ "" ∧ ∀ t ∈ targets, CanonicalTarget t := by
  constructor
  · rintro ⟨r, hr⟩
    simp only [ofTargets, UsernameChangeTargets.toTargets, Outcome.bind_eq_ok, Field.text_eq_ok]
      at hr
    obtain ⟨_, ⟨hname, -⟩, ts, hts, -⟩ := hr
    exact ⟨hname, (toTargets_ofTargets_eq_ok.1 hts).1⟩
  · rintro ⟨hname, hcanonical⟩
    exact ⟨_, UsernameChangeTargets.toTargets_ofTargets hname hcanonical⟩

/-! ## Governance -/

/-- Validators are read, the last of those with one key. -/
theorem exists_toValidators {updates : TextMap ValidatorPower} {us : List ValidatorUpdate}
    (h : ofValidators updates = .ok us) : ∃ map, toValidators us = .ok map := by
  have hreads : ∀ u ∈ us, ∃ e, toValidator 0 u = .ok e := by
    intro u hu
    obtain ⟨e, -, he⟩ := Outcome.mem_of_mapM_eq_ok h u hu
    obtain ⟨key, hkey, he⟩ := Outcome.bind_eq_ok.1 he
    cases Outcome.pure_eq_ok.1 he
    -- a key that is written has 32 bytes, so it is there
    have hne : key ≠ [] := by
      rintro rfl
      simp [validatorKey_eq_ok] at hkey
    exact ⟨_, toValidator_eq_ok.2 ⟨_, rfl, hne, rfl⟩⟩
  obtain ⟨entries, hentries⟩ := Outcome.exists_mapM_eq_ok.2 hreads
  exact ⟨_, toValidators_eq_ok.2 ⟨entries, hentries, rfl⟩⟩

/-- Electors are read exactly if each has a weight and they are different accounts. -/
theorem exists_toElectors_iff (network : Network) {electors : TextMap ElectorWeight}
    {es : List Elector} (h : ofElectors electors = .ok es) :
    (∃ map, toElectors network es = .ok map) ↔ (∀ e ∈ electors.entries, e.2.weight ≠ 0) ∧
      (electors.entries.map fun e => Account.bytesOfAddress e.1).Nodup := by
  -- an elector is written as the bytes and the weight of its entry
  have hwritten (d : String × ElectorWeight) (e : Elector) (he : (do
      return ({ address := ← Account.bytesOfAddress d.1, weight := d.2.weight } : Elector)) =
        .ok e) : (Account.bytesOfAddress d.1 = .ok e.address) ∧ e.weight = d.2.weight := by
    obtain ⟨address, haddress, he⟩ := Outcome.bind_eq_ok.1 he
    cases Outcome.pure_eq_ok.1 he
    exact ⟨haddress, rfl⟩
  have hlengths : ∀ e ∈ es, e.address.length = 20 := by
    intro e he
    obtain ⟨d, -, hd⟩ := Outcome.mem_of_mapM_eq_ok h e he
    exact Account.length_of_bytesOfAddress (hwritten d e hd).1
  have hweights : (∀ e ∈ es, e.weight ≠ 0) ↔ ∀ e ∈ electors.entries, e.2.weight ≠ 0 :=
    Outcome.forall_mem_iff_of_mapM (p := (· ≠ 0)) h fun d e he => (hwritten d e he).2
  have haccounts : es.map (fun e => (.ok e.address : Result Bytes)) =
      electors.entries.map fun e => Account.bytesOfAddress e.1 :=
    Outcome.map_eq_of_mapM h fun d e he => (hwritten d e he).1.symm
  have hnodup : (es.map (·.address)).Nodup ↔
      (electors.entries.map fun e => Account.bytesOfAddress e.1).Nodup := by
    rw [← haccounts, ← List.nodup_map_iff (f := (Except.ok : Bytes → Result Bytes))
      fun _ _ => Except.ok.inj, List.map_map]
    rfl
  simp only [toElectors_eq_ok, exists_and_left, exists_eq, and_true, forall₂_and, hweights, hnodup]
  exact and_congr_left fun _ => and_iff_right hlengths

/-- What a proposal does is read exactly if it is complete. -/
theorem ProposalOptions.exists_toAction_iff (network : Network) {action : ProposalAction}
    {o : ProposalOptions} (h : ofAction action = .ok o) :
    (∃ r, o.toAction network = .ok r) ↔ CompleteAction action := by
  cases action with
  | text resolution =>
    cases h
    exact iff_of_true ⟨_, rfl⟩ trivial
  | validators updates =>
    obtain ⟨us, hus, h⟩ := Outcome.bind_eq_ok.1 h
    cases Outcome.pure_eq_ok.1 h
    exact Outcome.exists_map_iff_true (exists_toValidators hus)
  | electorate id electors =>
    obtain ⟨es, hes, h⟩ := Outcome.bind_eq_ok.1 h
    cases Outcome.pure_eq_ok.1 h
    rw [CompleteAction, ← exists_toElectors_iff network hes]
    simp only [toAction, NumericId.decode_encode, Outcome.ok_bind, Outcome.bind_eq_ok]
    constructor
    · rintro ⟨_, map, hmap, -⟩
      exact ⟨map, hmap⟩
    · rintro ⟨map, hmap⟩
      exact ⟨_, map, hmap, rfl⟩

/-- A proposal is read exactly if what it does is complete. -/
theorem ProposalCreate.exists_toDraft_iff {d : ProposalDraft} {m : ProposalCreate}
    (h : ofDraft d = .ok m) (hlength : m.rawOption.length < Wire.wordSize) :
    (∃ r, m.toDraft network = .ok r) ↔ CompleteAction d.action := by
  simp only [ofDraft, Outcome.bind_eq_ok] at h
  obtain ⟨options, hoptions, author, hauthor, h⟩ := h
  cases Outcome.pure_eq_ok.1 h
  obtain ⟨a, ha⟩ := Account.exists_address network
    (Account.length_of_bytesOfAddress hauthor)
  rw [← ProposalOptions.exists_toAction_iff network hoptions]
  simp only [toDraft, ProposalOptions.actionOfField_of_ofAction hoptions hlength,
    Outcome.bind_eq_ok, Outcome.mapError_eq_ok, NumericId.decode_encode, Field.address_eq_ok, ha]
  constructor
  · rintro ⟨_, action, haction, -⟩
    exact ⟨action, haction⟩
  · rintro ⟨action, haction⟩
    exact ⟨_, action, haction, _, rfl, a, rfl, rfl⟩

/-! ## Transactions -/

/-- **An action is read exactly if its request is complete**, if the length of the action is a
word. -/
theorem Action.exists_toRequest_iff {r : Request} {action : Action}
    (h : ofRequest creator r = .ok action)
    (hlength : ∀ m, action = proposalCreate m → m.rawOption.length < Wire.wordSize) :
    (∃ r', action.toRequest creator = .ok r') ↔ CompleteRequest r := by
  cases r <;> simp only [ofRequest, Outcome.map_eq_ok] at h
  case send s =>
    obtain ⟨m, hm, rfl⟩ := h
    exact Outcome.exists_map_iff_true (CashSend.exists_toSend hm)
  case offerSwap o =>
    obtain ⟨m, hm, rfl⟩ := h
    exact Outcome.exists_map_eq_ok.trans (SwapCreate.exists_toOffer_iff hm)
  case claimSwap id preimage =>
    obtain ⟨m, hm, rfl⟩ := h
    exact Outcome.exists_map_iff_true ⟨_, SwapRelease.toClaim_ofClaim hm⟩
  case abortSwap id =>
    obtain ⟨m, hm, rfl⟩ := h
    exact Outcome.exists_map_iff_true ⟨_, SwapReturn.toAbort_ofAbort hm⟩
  case registerUsername name targets =>
    obtain ⟨m, hm, rfl⟩ := h
    exact Outcome.exists_map_eq_ok.trans (UsernameRegister.exists_toRegistration_iff hm)
  case updateUsernameTargets name targets =>
    cases h
    exact Outcome.exists_map_eq_ok.trans UsernameChangeTargets.exists_toTargets_iff
  case createContract c =>
    obtain ⟨m, hm, rfl⟩ := h
    exact Outcome.exists_map_eq_ok.trans (MultisigCreate.exists_toContract_iff hm)
  case updateContract id c =>
    obtain ⟨m, hm, rfl⟩ := h
    exact Outcome.exists_map_eq_ok.trans (MultisigUpdate.exists_toContract_iff hm)
  case createEscrow e =>
    obtain ⟨m, hm, rfl⟩ := h
    exact Outcome.exists_map_eq_ok.trans (EscrowCreate.exists_toEscrow_iff hm)
  case releaseEscrow id amounts =>
    obtain ⟨m, hm, rfl⟩ := h
    exact Outcome.exists_map_iff_true (EscrowRelease.exists_toRelease hm)
  case returnEscrow id =>
    cases h
    exact Outcome.exists_map_iff_true ⟨_, NumericId.decode_encode _ id⟩
  case updateEscrowParties id parties =>
    obtain ⟨m, hm, rfl⟩ := h
    exact Outcome.exists_map_iff_true (EscrowUpdateParties.exists_toParties hm)
  case createProposal d =>
    obtain ⟨m, hm, rfl⟩ := h
    exact Outcome.exists_map_eq_ok.trans (ProposalCreate.exists_toDraft_iff hm (hlength m rfl))
  case vote id v =>
    cases h
    exact Outcome.exists_map_iff_true ⟨_, ProposalVote.toVote_ofVote id v⟩
  case tally id =>
    cases h
    exact Outcome.exists_map_iff_true ⟨_, ProposalTally.toId_ofId id⟩

/-- An action is read as a request of the kind that it was written for. -/
theorem Action.name_of_toRequest {r r' : Request} {action : Action}
    (h : ofRequest creator r = .ok action) (h' : action.toRequest creator = .ok r') :
    r'.name = r.name := by
  cases r <;> simp only [ofRequest, Outcome.map_eq_ok, Except.ok.injEq] at h
  -- the kinds that are written without a check
  case updateUsernameTargets | returnEscrow | vote | tally =>
    subst h
    obtain ⟨_, -, rfl⟩ := Outcome.map_eq_ok.1 h'
    rfl
  all_goals
    obtain ⟨m, -, rfl⟩ := h
    obtain ⟨_, -, rfl⟩ := Outcome.map_eq_ok.1 h'
    rfl

/-- The fee of a transaction is read. -/
theorem Tx.exists_toFee {fee : Option Fee} {tx : Tx} (h : feeOf creator fee = .ok tx.fees) :
    ∃ f, tx.toFee = .ok f := by
  unfold feeOf at h
  split at h
  · simp only [Outcome.bind_eq_ok] at h
    obtain ⟨payer, -, coin, hcoin, h⟩ := h
    have hfees := Outcome.pure_eq_ok.1 h
    simp only [toFee, ← hfees, Coin.toAmount_of_ofAmount hcoin, Outcome.map_ok]
    exact ⟨_, rfl⟩
  · have hfees := Except.ok.inj h
    simp only [toFee, ← hfees]
    exact ⟨_, rfl⟩

/-- **A written transaction is read exactly if its request is complete**, if its creator signs first
and the length of its message is a word. -/
theorem Tx.exists_toSigned_iff {t : SignedTransaction} {tx : Tx}
    (hsigner : t.primary.publicKey = t.transaction.creator.publicKey) (h : ofSigned t = .ok tx)
    (hlength : (Wire.Message.encode tx).length < Wire.wordSize) :
    (∃ u, tx.toSigned t.transaction.creator.chainId = .ok u) ↔
      CompleteRequest t.transaction.request := by
  obtain ⟨action, fees, ss, haction, hfees, hss, rfl⟩ := ofSigned_eq_ok h
  have hcreator : (⟨t.transaction.creator.chainId, t.primary.publicKey⟩ : Identity) =
      t.transaction.creator := by
    rw [hsigner]
  have hthe := theAction_ofAction action fees ss
  have hsignatures := StdSignature.mapM_toSignature hss
  rw [← Action.exists_toRequest_iff haction (by
    rintro m rfl
    exact Nat.lt_of_le_of_lt (length_rawOption_le rfl) hlength)]
  constructor
  · rintro ⟨u, hu⟩
    have hback := (signatures_of_toSigned h hu).2.trans hcreator
    obtain ⟨-, -, ⟨action', haction', hrequest⟩, -⟩ := toSigned_eq_ok.1 hu
    cases hthe.symm.trans haction'
    exact ⟨_, hback ▸ hrequest⟩
  · rintro ⟨r, hr⟩
    have hwritten : feeOf t.transaction.creator t.transaction.fee =
        .ok { ofAction action with fees, signatures := ss : Tx }.fees := hfees
    obtain ⟨fee, hfee⟩ := exists_toFee hwritten
    exact ⟨⟨⟨t.transaction.creator, fee, r⟩, t.primary, t.others⟩, toSigned_eq_ok.2
      ⟨hsignatures, hcreator.symm, ⟨action, hthe, hr⟩, hfee⟩⟩

/-- A written transaction is read as one of the same kind. -/
theorem Tx.name_of_toSigned {t u : SignedTransaction} {tx : Tx}
    (hsigner : t.primary.publicKey = t.transaction.creator.publicKey) (h : ofSigned t = .ok tx)
    (hu : tx.toSigned t.transaction.creator.chainId = .ok u) :
    u.transaction.request.name = t.transaction.request.name := by
  have hback : u.transaction.creator = t.transaction.creator := by
    rw [(signatures_of_toSigned h hu).2, hsigner]
  obtain ⟨action, fees, ss, haction, -, -, rfl⟩ := ofSigned_eq_ok h
  obtain ⟨-, -, ⟨action', haction', hrequest⟩, -⟩ := toSigned_eq_ok.1 hu
  cases (theAction_ofAction action fees ss).symm.trans haction'
  exact Action.name_of_toRequest haction (hback ▸ hrequest)

end Schema

namespace Codec

/-- **What is posted is read back exactly if its request is complete**, whatever its kind, and then
as a request of that kind with the creator and the signatures that it had. The creator has to sign
first, and the bytes are counted in a word of 64 bits. -/
theorem readable_iff_complete {t : SignedTransaction} {b : Bytes}
    (hsigner : t.primary.publicKey = t.transaction.creator.publicKey)
    (hpost : bytesToPost t = .ok b) (hlength : b.length < Wire.wordSize) :
    ((∃ u, parse b t.transaction.creator.chainId = .ok u) ↔
      CompleteRequest t.transaction.request) ∧
    ∀ u, parse b t.transaction.creator.chainId = .ok u →
      u.transaction.request.name = t.transaction.request.name ∧
      u.transaction.creator = t.transaction.creator ∧ u.signatures = t.signatures := by
  obtain ⟨tx, htx, hbytes, hread⟩ := decode?_bytesToPost hpost hlength
  have hparse (u : SignedTransaction) : parse b t.transaction.creator.chainId = .ok u ↔
      tx.toSigned t.transaction.creator.chainId = .ok u := by
    simp only [parse, hread]
  simp only [hparse]
  refine ⟨Schema.Tx.exists_toSigned_iff hsigner htx (by rwa [hbytes]), fun u hu => ?_⟩
  obtain ⟨hsame, hback⟩ := Schema.Tx.signatures_of_toSigned htx hu
  exact ⟨Schema.Tx.name_of_toSigned hsigner htx hu, by rw [hback, hsigner], hsame⟩

/-- New terms for the contract of a name: one participant, whose signature alone activates them. -/
def sampleUpdate (name : Bytes) : SignedTransaction where
  transaction :=
    { creator := ⟨"iov-lovenet", .ed25519, [7, 7, 7]⟩
      fee := none
      request := .updateContract name ⟨[⟨sampleElector 1, 1⟩], 1, 1⟩ }
  primary := ⟨11, ⟨.ed25519, [7, 7, 7]⟩, [1, 2]⟩
  others := []

/-- New terms for a contract with a name are complete and read back, as what they are. -/
theorem readable_iff_complete_sampleUpdate :
    (sampleUpdate [1]).primary.publicKey = (sampleUpdate [1]).transaction.creator.publicKey ∧
      CompleteRequest (sampleUpdate [1]).transaction.request ∧
      ∃ b u, bytesToPost (sampleUpdate [1]) = .ok b ∧ b.length = 57 ∧
        parse b "iov-lovenet" = .ok u ∧
        u.transaction.request.name = "bns/update_multisignature_contract" ∧
        u.signatures = (sampleUpdate [1]).signatures := by
  have hlength : (bytesToPost (sampleUpdate [1])).map List.length = .ok 57 := by decide +kernel
  obtain ⟨b, hpost, h57⟩ := Outcome.map_eq_ok.1 hlength
  have hcomplete : CompleteRequest (sampleUpdate [1]).transaction.request :=
    ⟨by decide, by decide, by decide, by decide, by decide⟩
  obtain ⟨hiff, hsame⟩ := readable_iff_complete (t := sampleUpdate [1]) rfl hpost
    (by rw [h57]; decide)
  obtain ⟨u, hu⟩ := hiff.2 hcomplete
  obtain ⟨hname, -, hsignatures⟩ := hsame u hu
  exact ⟨rfl, hcomplete, b, u, hpost, h57, hu, hname, hsignatures⟩

/-- New terms for a contract without a name are posted by the creator, and refused when they are
read. -/
theorem parse_namelessUpdate :
    (sampleUpdate []).primary.publicKey = (sampleUpdate []).transaction.creator.publicKey ∧
      ∃ b, bytesToPost (sampleUpdate []) = .ok b ∧
        parse b (sampleUpdate []).transaction.creator.chainId = .error (.missing "contractId") := by
  have hlength : (bytesToPost (sampleUpdate [])).map List.length = .ok 54 := by decide +kernel
  obtain ⟨b, hpost, -⟩ := Outcome.map_eq_ok.1 hlength
  have hparse : (bytesToPost (sampleUpdate [])).bind (parse · "iov-lovenet") =
      .error (.missing "contractId") := by decide +kernel
  rw [hpost] at hparse
  exact ⟨rfl, b, hpost, hparse⟩

end Codec

end Bns

end ChainKit
