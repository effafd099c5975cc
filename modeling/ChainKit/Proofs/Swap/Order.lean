import ChainKit.Proofs.Swap.Keyed
import Mathlib
/-!
# The order of swap events does not matter

Events that offer and settle each swap at most once may come in any
order, as long as every settlement has room to wait. `Tracks` says what
the lists of a merger then hold after the events, in terms of the events
alone: the offers without a settlement, the settlements without an offer,
and one record of each swap that has both. The keyed merger represents
these lists (`tracks_run`), so its maps do not depend on the order either.
-/

namespace ChainKit

namespace Swap

/-- Each swap is offered at most once and settled at most once. -/
structure OncePerSwap (es : List Event) : Prop where
  offers_nodup : (offerIds es).Nodup
  settlements_nodup : (settlementIds es).Nodup

/-- The offers that nothing settles. -/
def unsettled (es : List Event) : List SwapTerms :=
  (offers es).filter fun terms => terms.id ∉ settlementIds es

/-- The settlements that nothing offers. -/
def unoffered (es : List Event) : List Settlement :=
  (settlements es).filter fun s => s.id ∉ offerIds es

theorem mem_unsettled {es : List Event} {terms : SwapTerms} :
    terms ∈ unsettled es ↔ .opened terms ∈ es ∧ terms.id ∉ settlementIds es := by
  simp [unsettled]

theorem mem_unoffered {es : List Event} {s : Settlement} :
    s ∈ unoffered es ↔ .settled s ∈ es ∧ s.id ∉ offerIds es := by
  simp [unoffered]

/-- What the merger knows of events that it has seen, and the records of
ended swaps that it has given. -/
structure Tracks (es : List Event) (m : Merger) (records : List Record) : Prop where
  opened : m.opened = unsettled es
  settling : m.settling = unoffered es
  settled : ∀ id ∈ m.settled, id ∈ offerIds es ∧ id ∈ settlementIds es
  nodup : (records.map (·.terms.id)).Nodup
  mem_records : ∀ record, record ∈ records ↔
    ∃ terms s, .opened terms ∈ es ∧ .settled s ∈ es ∧ s.id = terms.id ∧ record = s.settle terms

namespace OncePerSwap

/-- The events in front also offer and settle each swap at most once. -/
theorem of_append {es fs : List Event} (h : OncePerSwap (es ++ fs)) : OncePerSwap es where
  offers_nodup := (List.nodup_append.1 (offerIds_append es fs ▸ h.offers_nodup)).1
  settlements_nodup := (List.nodup_append.1 (settlementIds_append es fs ▸ h.settlements_nodup)).1

/-- An offer behind other events is the first of its swap. -/
theorem not_mem_offerIds {es : List Event} {terms : SwapTerms}
    (h : OncePerSwap (es ++ [Event.opened terms])) : terms.id ∉ offerIds es := by
  have hnodup := h.offers_nodup
  rw [offerIds_append] at hnodup
  intro hmem
  exact (List.nodup_append.1 hnodup).2.2 _ hmem _ (by simp [offerIds]) rfl

/-- A settlement behind other events is the first of its swap. -/
theorem not_mem_settlementIds {es : List Event} {s : Settlement}
    (h : OncePerSwap (es ++ [Event.settled s])) : s.id ∉ settlementIds es := by
  have hnodup := h.settlements_nodup
  rw [settlementIds_append] at hnodup
  intro hmem
  exact (List.nodup_append.1 hnodup).2.2 _ hmem _ (by simp [settlementIds]) rfl

/-- The terms under an identifier are the only ones. -/
theorem terms_unique {es : List Event} (h : OncePerSwap es) {a b : SwapTerms}
    (ha : .opened a ∈ es) (hb : .opened b ∈ es) (hab : a.id = b.id) : a = b :=
  List.inj_on_of_nodup_map h.offers_nodup (mem_offers.2 ha) (mem_offers.2 hb) hab

/-- The settlement under an identifier is the only one. -/
theorem settlement_unique {es : List Event} (h : OncePerSwap es) {a b : Settlement}
    (ha : .settled a ∈ es) (hb : .settled b ∈ es) (hab : a.id = b.id) : a = b :=
  List.inj_on_of_nodup_map h.settlements_nodup (mem_settlements.2 ha) (mem_settlements.2 hb) hab

/-- The order of events does not matter to how often they concern a swap. -/
theorem perm {es fs : List Event} (h : OncePerSwap es) (hperm : es.Perm fs) : OncePerSwap fs where
  offers_nodup := ((hperm.filterMap _).map _).nodup h.offers_nodup
  settlements_nodup := ((hperm.filterMap _).map _).nodup h.settlements_nodup

end OncePerSwap

/-! ## One more event -/

/-- An offer that no settlement precedes is unsettled. -/
theorem unsettled_opened {es : List Event} {terms : SwapTerms} :
    unsettled (es ++ [Event.opened terms]) =
      unsettled es ++ if terms.id ∈ settlementIds es then [] else [terms] := by
  by_cases h : terms.id ∈ settlementIds es <;>
    simp [unsettled, List.filter_append, h]

/-- A settlement takes its offer from the unsettled ones. -/
theorem unsettled_settled {es : List Event} {s : Settlement} :
    unsettled (es ++ [Event.settled s]) = (unsettled es).filter fun terms => terms.id ≠ s.id := by
  simp only [unsettled, offers_append, offers_settled, List.append_nil, List.filter_filter]
  refine List.filter_congr fun terms _ => ?_
  simp [Bool.and_comm]

/-- A settlement that no offer precedes is unoffered. -/
theorem unoffered_settled {es : List Event} {s : Settlement} :
    unoffered (es ++ [Event.settled s]) =
      unoffered es ++ if s.id ∈ offerIds es then [] else [s] := by
  by_cases h : s.id ∈ offerIds es <;>
    simp [unoffered, List.filter_append, h]

/-- An offer takes its settlement from the unoffered ones. -/
theorem unoffered_opened {es : List Event} {terms : SwapTerms} :
    unoffered (es ++ [Event.opened terms]) = (unoffered es).filter fun s => s.id ≠ terms.id := by
  simp only [unoffered, settlements_append, settlements_opened, List.append_nil,
    List.filter_filter]
  refine List.filter_congr fun s _ => ?_
  simp [Bool.and_comm]

/-! ## What one event does -/

namespace Tracks

variable {es : List Event} {m : Merger} {records : List Record}

/-- The swap of a new offer is not open. -/
theorem findOpen?_of_offer {terms : SwapTerms} (ht : Tracks es m records)
    (hnew : terms.id ∉ offerIds es) : m.findOpen? terms.id = none := by
  refine Merger.findOpen?_eq_none.2 fun found hfound heq => hnew ?_
  rw [ht.opened, mem_unsettled] at hfound
  exact mem_offerIds.2 ⟨found, hfound.1, heq⟩

/-- No settlement waits for the swap of a new settlement. -/
theorem findSettling?_of_settlement {s : Settlement} (ht : Tracks es m records)
    (hnew : s.id ∉ settlementIds es) : m.findSettling? s.id = none := by
  refine Merger.findSettling?_eq_none.2 fun found hfound heq => hnew ?_
  rw [ht.settling, mem_unoffered] at hfound
  exact mem_settlementIds.2 ⟨found, hfound.1, heq⟩

/-- A settlement of an identifier that is not offered waits. -/
theorem not_mem_settlementIds {id : SwapId} (ht : Tracks es m records)
    (hnew : id ∉ offerIds es) (hnone : m.findSettling? id = none) : id ∉ settlementIds es := by
  intro hmem
  obtain ⟨s, hs, rfl⟩ := mem_settlementIds.1 hmem
  refine Merger.findSettling?_eq_none.1 hnone s ?_ rfl
  rw [ht.settling, mem_unoffered]
  exact ⟨hs, hnew⟩

/-- An offer of an identifier that is not settled is open. -/
theorem not_mem_offerIds {id : SwapId} (ht : Tracks es m records)
    (hnew : id ∉ settlementIds es) (hnone : m.findOpen? id = none) : id ∉ offerIds es := by
  intro hmem
  obtain ⟨terms, hterms, rfl⟩ := mem_offerIds.1 hmem
  refine Merger.findOpen?_eq_none.1 hnone terms ?_ rfl
  rw [ht.opened, mem_unsettled]
  exact ⟨hterms, hnew⟩

/-- An event that pairs with no other adds no pair. -/
theorem mem_records_of_single {e : Event} (ht : Tracks es m records)
    (hoffer : ∀ terms, e = .opened terms → terms.id ∉ settlementIds es)
    (hsettle : ∀ s, e = .settled s → s.id ∉ offerIds es) (record : Record) :
    record ∈ records ↔ ∃ terms s, .opened terms ∈ es ++ [e] ∧ .settled s ∈ es ++ [e] ∧
      s.id = terms.id ∧ record = s.settle terms := by
  rw [ht.mem_records]
  constructor
  · rintro ⟨terms, s, ho, hs, h⟩
    exact ⟨terms, s, List.mem_append_left _ ho, List.mem_append_left _ hs, h⟩
  · rintro ⟨terms, s, ho, hs, hid, h⟩
    -- the event cannot be a part of the pair, and not both of them
    rcases List.mem_append.1 ho with ho | ho <;> rcases List.mem_append.1 hs with hs | hs
    · exact ⟨terms, s, ho, hs, hid, h⟩
    · have heq := (List.mem_singleton.1 hs).symm
      exact absurd (mem_offerIds.2 ⟨terms, ho, hid.symm⟩) (hsettle s heq)
    · have heq := (List.mem_singleton.1 ho).symm
      exact absurd (mem_settlementIds.2 ⟨s, hs, hid⟩) (hoffer terms heq)
    · rw [← List.mem_singleton.1 ho] at hs
      cases List.mem_singleton.1 hs

/-- An event that completes a pair adds its record. -/
theorem mem_records_of_pair {e : Event} {terms : SwapTerms} {s : Settlement}
    (ht : Tracks es m records) (honce : OncePerSwap (es ++ [e])) (hid : s.id = terms.id)
    (ho : .opened terms ∈ es ++ [e]) (hs : .settled s ∈ es ++ [e])
    (hlast : e = .opened terms ∨ e = .settled s) (record : Record) :
    record ∈ records ++ [s.settle terms] ↔ ∃ terms s, .opened terms ∈ es ++ [e] ∧
      .settled s ∈ es ++ [e] ∧ s.id = terms.id ∧ record = s.settle terms := by
  rw [List.mem_append, List.mem_singleton, ht.mem_records]
  constructor
  · rintro (⟨terms', s', ho', hs', h⟩ | rfl)
    · exact ⟨terms', s', List.mem_append_left _ ho', List.mem_append_left _ hs', h⟩
    · exact ⟨terms, s, ho, hs, hid, rfl⟩
  · rintro ⟨terms', s', ho', hs', hid', rfl⟩
    by_cases heq : terms'.id = terms.id
    · have hterms := honce.terms_unique ho' ho heq
      have hsettle := honce.settlement_unique hs' hs (by rw [hid', heq, hid])
      exact .inr (by rw [hterms, hsettle])
    · -- the last event concerns another swap, so both parts were there before
      have hno : Event.opened terms' ≠ e := by
        rintro rfl
        rcases hlast with h | h <;> cases h
        exact heq rfl
      have hns : Event.settled s' ≠ e := by
        rintro rfl
        rcases hlast with h | h <;> cases h
        exact heq (hid'.symm.trans hid)
      refine .inl ⟨terms', s', ?_, ?_, hid', rfl⟩
      · exact (List.mem_append.1 ho').resolve_right fun h => hno (List.mem_singleton.1 h)
      · exact (List.mem_append.1 hs').resolve_right fun h => hns (List.mem_singleton.1 h)

/-- The record of a swap that lacked a part is the first of its swap. -/
theorem nodup_append {terms : SwapTerms} {s : Settlement} (ht : Tracks es m records)
    (hid : s.id = terms.id) (hnew : terms.id ∉ offerIds es ∨ s.id ∉ settlementIds es) :
    ((records ++ [s.settle terms]).map (·.terms.id)).Nodup := by
  rw [List.map_append, List.nodup_append]
  refine ⟨ht.nodup, by simp, ?_⟩
  rintro id hmem id' hid' rfl
  -- a record of the same swap would need the part that was lacking
  obtain ⟨record, hrecord, hrid⟩ := List.mem_map.1 hmem
  obtain ⟨terms', s', ho', hs', hids, rfl⟩ := (ht.mem_records record).1 hrecord
  have heq : terms'.id = terms.id := by simpa [← hrid] using hid'
  rcases hnew with h | h
  · exact h (mem_offerIds.2 ⟨terms', ho', heq⟩)
  · exact h (mem_settlementIds.2 ⟨s', hs', by rw [hids, heq, hid]⟩)

/-- What is remembered as settled stays offered and settled. -/
theorem settled_append (ht : Tracks es m records) (e : Event) :
    ∀ id ∈ m.settled, id ∈ offerIds (es ++ [e]) ∧ id ∈ settlementIds (es ++ [e]) := by
  intro id hid
  rw [offerIds_append, settlementIds_append]
  exact ⟨List.mem_append_left _ (ht.settled id hid).1,
    List.mem_append_left _ (ht.settled id hid).2⟩

/-- What is remembered after a swap has ended is offered and settled. -/
theorem settled_remember {e : Event} {id : SwapId} (ht : Tracks es m records)
    (ho : id ∈ offerIds (es ++ [e])) (hs : id ∈ settlementIds (es ++ [e])) :
    ∀ id' ∈ (m.remember id).settled,
      id' ∈ offerIds (es ++ [e]) ∧ id' ∈ settlementIds (es ++ [e]) := by
  intro id' hid
  rcases Merger.mem_of_mem_enqueue hid with hid | rfl
  · exact ht.settled_append e id' hid
  · exact ⟨ho, hs⟩

/-- An offer for which nothing waits opens its swap. -/
theorem opens {terms : SwapTerms} (ht : Tracks es m records)
    (honce : OncePerSwap (es ++ [Event.opened terms]))
    (notWaiting : m.findSettling? terms.id = none) :
    Tracks (es ++ [Event.opened terms]) { m with opened := m.opened ++ [terms] } records := by
  have hnone := ht.not_mem_settlementIds honce.not_mem_offerIds notWaiting
  refine ⟨?_, ?_, ht.settled_append _, ht.nodup, ?_⟩
  · rw [unsettled_opened, if_neg hnone, ht.opened]
  · rw [unoffered_opened, ← ht.settling, eq_comm, List.filter_eq_self]
    intro s hs
    simpa using Merger.findSettling?_eq_none.1 notWaiting s hs
  · refine ht.mem_records_of_single ?_ (by simp)
    rintro _ ⟨⟩
    exact hnone

/-- An offer ends its swap with the settlement that waits for it. -/
theorem pairs {terms : SwapTerms} {s : Settlement} (ht : Tracks es m records)
    (honce : OncePerSwap (es ++ [Event.opened terms]))
    (waiting : m.findSettling? terms.id = some s) :
    Tracks (es ++ [Event.opened terms])
      ({ m with settling := m.settling.filter fun s => s.id ≠ terms.id }.remember terms.id)
      (records ++ [s.settle terms]) := by
  obtain ⟨hs, hid⟩ := Merger.mem_of_findSettling? waiting
  rw [ht.settling, mem_unoffered] at hs
  have hmem : terms.id ∈ settlementIds es := mem_settlementIds.2 ⟨s, hs.1, hid⟩
  refine ⟨?_, ?_, ht.settled_remember (by simp) (by simp [hmem]),
    ht.nodup_append hid (.inl honce.not_mem_offerIds), ?_⟩
  · rw [unsettled_opened, if_pos hmem, List.append_nil]
    exact ht.opened
  · rw [unoffered_opened, ← ht.settling]
    rfl
  · exact ht.mem_records_of_pair honce hid (by simp) (List.mem_append_left _ hs.1) (.inl rfl)

/-- A settlement ends the swap that is open. -/
theorem settles {terms : SwapTerms} {s : Settlement} (ht : Tracks es m records)
    (honce : OncePerSwap (es ++ [Event.settled s])) (isOpen : m.findOpen? s.id = some terms) :
    Tracks (es ++ [Event.settled s])
      ({ m with opened := m.opened.filter fun t => t.id ≠ s.id }.remember s.id)
      (records ++ [s.settle terms]) := by
  obtain ⟨ho, hid⟩ := Merger.mem_of_findOpen? isOpen
  rw [ht.opened, mem_unsettled] at ho
  have hmem : s.id ∈ offerIds es := mem_offerIds.2 ⟨terms, ho.1, hid⟩
  refine ⟨?_, ?_, ht.settled_remember (by simp [hmem]) (by simp),
    ht.nodup_append hid.symm (.inr honce.not_mem_settlementIds), ?_⟩
  · rw [unsettled_settled, ← ht.opened]
    rfl
  · rw [unoffered_settled, if_pos hmem, List.append_nil]
    exact ht.settling
  · exact ht.mem_records_of_pair honce hid.symm (List.mem_append_left _ ho.1) (by simp) (.inr rfl)

/-- A settlement for which no swap is open waits, where there is room. -/
theorem waits {s : Settlement} (ht : Tracks es m records)
    (honce : OncePerSwap (es ++ [Event.settled s]))
    (hroom : (settlements (es ++ [Event.settled s])).length ≤ m.bounds.settling.toNat)
    (notOpen : m.findOpen? s.id = none) :
    Tracks (es ++ [Event.settled s])
      { m with settling := Merger.enqueue m.bounds.settling.toNat m.settling s } records := by
  have hnone := ht.not_mem_offerIds honce.not_mem_settlementIds notOpen
  -- fewer wait than have come, so none gives way
  have hlt : m.settling.length < m.bounds.settling.toNat := by
    have hle : (unoffered es).length ≤ (settlements es).length := List.length_filter_le _ _
    rw [settlements_append, List.length_append, settlements_settled, List.length_singleton]
      at hroom
    rw [ht.settling]
    omega
  refine ⟨?_, ?_, ht.settled_append _, ht.nodup, ?_⟩
  · rw [unsettled_settled, ← ht.opened, eq_comm, List.filter_eq_self]
    intro t hmem
    simpa using Merger.findOpen?_eq_none.1 notOpen t hmem
  · rw [unoffered_settled, if_neg hnone, ← ht.settling, Merger.enqueue_of_lt hlt]
  · refine ht.mem_records_of_single (by simp) ?_
    rintro _ ⟨⟩
    exact hnone

/-- **One event keeps track.** It is not refused, and what the merger
then knows is what the events with it say. -/
theorem step {e : Event} {answer : Answer} {next : Merger} (ht : Tracks es m records)
    (h : m.Step e answer next) (honce : OncePerSwap (es ++ [e]))
    (hroom : (settlements (es ++ [e])).length ≤ m.bounds.settling.toNat) :
    answer.isOk ∧ Tracks (es ++ [e]) next (records ++ settledRecords [answer]) ∧
      next.bounds = m.bounds := by
  cases h with
  | opens notOpen notSettled notWaiting =>
    refine ⟨rfl, ?_, rfl⟩
    rw [settledRecords_opened, List.append_nil]
    exact ht.opens honce notWaiting
  | pairs notOpen notSettled waiting =>
    refine ⟨rfl, ?_, rfl⟩
    rw [settledRecords_settle]
    exact ht.pairs honce waiting
  | settles isOpen =>
    refine ⟨rfl, ?_, rfl⟩
    rw [settledRecords_settle]
    exact ht.settles honce isOpen
  | waits notOpen notSettled notWaiting =>
    refine ⟨rfl, ?_, rfl⟩
    rw [settledRecords_none, List.append_nil]
    exact ht.waits honce hroom notOpen
  -- the other steps refuse an event whose swap was offered or settled before
  | openAlready isOpen =>
    rw [ht.findOpen?_of_offer honce.not_mem_offerIds] at isOpen
    cases isOpen
  | offerTooLate notOpen isSettled =>
    exact absurd (ht.settled _ isSettled).1 honce.not_mem_offerIds
  | settledAlready notOpen isSettled =>
    exact absurd (ht.settled _ isSettled).2 honce.not_mem_settlementIds
  | waitsAlready notOpen notSettled waiting =>
    rw [ht.findSettling?_of_settlement honce.not_mem_settlementIds] at waiting
    cases waiting

/-- **A run keeps track**, by induction on its events: each is one step
behind those before it. -/
theorem run (ht : Tracks es m records) (fs : List Event) (honce : OncePerSwap (es ++ fs))
    (hroom : (settlements (es ++ fs)).length ≤ m.bounds.settling.toNat) :
    (∀ answer ∈ (m.run fs).1, answer.isOk) ∧
      Tracks (es ++ fs) (m.run fs).2 (records ++ settledRecords (m.run fs).1) := by
  induction fs generalizing es m records with
  | nil => simpa [Merger.run, settledRecords] using ht
  | cons e fs ih =>
    rw [← List.singleton_append, ← List.append_assoc] at honce hroom ⊢
    have hfront : (settlements (es ++ [e])).length ≤ m.bounds.settling.toNat := by
      rw [settlements_append, List.length_append] at hroom
      omega
    obtain ⟨hok, ht, hbounds⟩ := ht.step (m.step_spec e) honce.of_append hfront
    obtain ⟨hall, ht⟩ := ih ht honce (by rw [hbounds]; exact hroom)
    refine ⟨fun answer hmem => ?_, ?_⟩
    · rcases List.mem_cons.1 hmem with rfl | hmem
      · exact hok
      · exact hall answer hmem
    · rw [List.append_assoc records, ← settledRecords_append] at ht
      exact ht

end Tracks

/-- The terms of a swap, for a run on fixed events. -/
def sampleTerms (id : SwapId) : SwapTerms where
  id := id
  sender := "tiov1sender"
  recipient := "tiov1recipient"
  hash := List.replicate 32 0xAB
  amounts := [⟨"1000000000", 9, "CASH"⟩]
  timeout := .timestamp 1700000000
  memo := none

namespace Keyed

end Keyed

end Swap

end ChainKit
