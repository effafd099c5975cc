import ChainKit.Proofs.Swap.Memory
import Mathlib
/-!
# Swaps do not interfere

What a merger knows of one swap is a `Status`, and the events of the swap
move it from one to the next. As long as nothing gives way, an event is
answered by the status of its own swap, and leaves the statuses of all
others as they are (`Merger.Shows.step`). The answers about a swap in a
run are therefore those that its own events get alone (`Keyed.run_filter`),
whatever comes in between.
-/

namespace ChainKit

namespace Swap

/-- What is known of one swap. -/
inductive Status where
  | unseen
  /-- Offered, and not yet settled. -/
  | opened (terms : SwapTerms)
  /-- Settled before it was offered. -/
  | waiting (settlement : Settlement)
  /-- Offered and settled. -/
  | settled
  deriving DecidableEq, Repr

namespace Status

/-- The terms of a swap that is open. -/
def open? : Status → Option SwapTerms
  | opened terms => some terms
  | _ => none

/-- The settlement that waits for the offer. -/
def waiting? : Status → Option Settlement
  | waiting settlement => some settlement
  | _ => none

/-- How an event of the swap is answered, and what is known afterwards. -/
def step : Status → Event → Answer × Status
  | unseen, .opened terms => (.ok (some (.opened terms)), opened terms)
  | unseen, .settled s => (.ok none, waiting s)
  | opened terms, .opened again => (.error (.duplicateOpen again.id), opened terms)
  | opened terms, .settled s => (.ok (some (s.settle terms)), settled)
  | waiting s, .opened terms => (.ok (some (s.settle terms)), settled)
  | waiting s, .settled again => (.error (.duplicateSettlement again.id), waiting s)
  | settled, e => (.error (.alreadySettled e.id), settled)

/-- Takes in the events of a swap in order. -/
def run (status : Status) : List Event → List Answer × Status
  | [] => ([], status)
  | e :: es => ((status.step e).1 :: ((status.step e).2.run es).1, ((status.step e).2.run es).2)

end Status

/-- The answers to the events of one swap. -/
def answersOf (id : SwapId) (es : List Event) (answers : List Answer) : List Answer :=
  ((es.zip answers).filter fun p => p.1.id = id).map (·.2)

/-- All answers are about a swap if all events are. -/
theorem answersOf_eq_self {id : SwapId} {es : List Event} {answers : List Answer}
    (hall : ∀ e ∈ es, e.id = id) (hlength : answers.length = es.length) :
    answersOf id es answers = answers := by
  have hpairs : (es.zip answers).filter (fun p => p.1.id = id) = es.zip answers := by
    refine List.filter_eq_self.2 fun p hp => ?_
    simpa using hall p.1 (List.of_mem_zip hp).1
  rw [answersOf, hpairs, List.map_snd_zip (by omega)]

/-! ## Searching a list -/

section Search

variable {β : Type} {key : β → SwapId} {xs : List β} {x : β} {id other : SwapId}

/-- What is new is found behind the rest. -/
theorem find?_concat (hnone : (xs.find? fun y => key y = key x) = none) :
    ((xs ++ [x]).find? fun y => key y = key x) = some x := by
  simp [List.find?_append, hnone]

/-- Another search does not find it. -/
theorem find?_concat_of_ne (hne : key x ≠ id) :
    ((xs ++ [x]).find? fun y => key y = id) = xs.find? fun y => key y = id := by
  simp [List.find?_append, hne]

/-- What is taken out is not found. -/
theorem find?_filter_self :
    ((xs.filter fun y => key y ≠ id).find? fun y => key y = id) = none := by
  simp [List.find?_eq_none]

/-- What is left is found as before. -/
theorem find?_filter_of_ne (hne : other ≠ id) :
    ((xs.filter fun y => key y ≠ other).find? fun y => key y = id) =
      xs.find? fun y => key y = id := by
  rw [List.find?_filter]
  congr 1
  funext y
  by_cases hy : key y = id
  · simp [hy, hne.symm]
  · simp [hy]

end Search

namespace Merger

variable {m next : Merger} {e : Event} {answer : Answer} {es : List Event} {id : SwapId}
variable {status : Status}

/-- The merger knows of a swap what its status says. -/
structure Shows (m : Merger) (id : SwapId) (status : Status) : Prop where
  opened : m.findOpen? id = status.open?
  settling : m.findSettling? id = status.waiting?
  settled : id ∈ m.settled ↔ status = .settled

/-- There is room for the settlements among events to wait beside those that do. -/
def HasRoomToWait (m : Merger) (es : List Event) : Prop :=
  m.settling.length + (settlements es).length ≤ m.bounds.settling.toNat

/-- Room for settlements is room for those behind the first event, after it. -/
theorem HasRoomToWait.tail (hwait : m.HasRoomToWait (e :: es)) (hstep : m.Step e answer next) :
    next.HasRoomToWait es := by
  have hcons : settlements (e :: es) = settlements [e] ++ settlements es :=
    settlements_append [e] es
  have hle : next.settling.length ≤ m.settling.length + (settlements [e]).length := by
    cases hstep with
    | pairs notOpen notSettled waiting =>
      exact Nat.le_trans (List.length_filter_le _ _) (Nat.le_add_right _ _)
    | @waits s notOpen notSettled notWaiting =>
      have hlength : (Merger.enqueue m.bounds.settling.toNat m.settling s).length ≤
          (m.settling ++ [s]).length := enqueue_sublist.length_le
      rwa [List.length_append] at hlength
    | _ => exact Nat.le_add_right _ _
  unfold HasRoomToWait at hwait ⊢
  rw [hcons, List.length_append] at hwait
  rw [hstep.bounds]
  omega

/-- With room a settlement waits behind the others. -/
theorem HasRoomToWait.enqueue {s : Settlement} (hwait : m.HasRoomToWait (.settled s :: es)) :
    Merger.enqueue m.bounds.settling.toNat m.settling s = m.settling ++ [s] := by
  have hcons : settlements (.settled s :: es) = s :: settlements es := rfl
  unfold HasRoomToWait at hwait
  rw [hcons, List.length_cons] at hwait
  exact enqueue_of_lt (by omega)

/-- With room what was settled stays settled, and so does what an event settles. -/
theorem HasRoom.mem_settled (hroom : m.HasRoom (e :: es)) (hm : m.Consistent)
    (hstep : m.Step e answer next) :
    id ∈ next.settled ↔ id ∈ m.settled ∨ id ∈ settledIds [answer] := by
  rw [hroom.settled hm hstep, List.mem_append]

namespace Shows

theorem eq_unseen (h : m.Shows id status) (hopen : m.findOpen? id = none)
    (hsettled : id ∉ m.settled) (hwait : m.findSettling? id = none) : status = .unseen := by
  have hnot : status ≠ .settled := fun heq => hsettled (h.settled.2 heq)
  rw [h.opened] at hopen
  rw [h.settling] at hwait
  cases status with
  | unseen => rfl
  | opened terms => cases hopen
  | waiting s => cases hwait
  | settled => exact absurd rfl hnot

theorem eq_opened {terms : SwapTerms} (h : m.Shows id status)
    (hopen : m.findOpen? id = some terms) : status = .opened terms := by
  rw [h.opened] at hopen
  cases status with
  | opened found => exact congrArg Status.opened (Option.some.inj hopen)
  | _ => cases hopen

theorem eq_waiting {s : Settlement} (h : m.Shows id status)
    (hwait : m.findSettling? id = some s) : status = .waiting s := by
  rw [h.settling] at hwait
  cases status with
  | waiting found => exact congrArg Status.waiting (Option.some.inj hwait)
  | _ => cases hwait

/-- Nothing is known of any swap at first. -/
theorem fresh (bounds : Bounds) (id : SwapId) : (fresh bounds).Shows id .unseen where
  opened := rfl
  settling := rfl
  settled := by simp [Merger.fresh]

/-- **An event of a swap is answered by its status**, and moves it. -/
theorem step (h : m.Shows e.id status) (hm : m.Consistent) (hroom : m.HasRoom (e :: es))
    (hwait : m.HasRoomToWait (e :: es)) (hstep : m.Step e answer next) :
    answer = (status.step e).1 ∧ next.Shows e.id (status.step e).2 := by
  have hmem : e.id ∈ next.settled ↔ e.id ∈ m.settled ∨ e.id ∈ settledIds [answer] :=
    hroom.mem_settled hm hstep
  cases hstep with
  | @opens terms notOpen notSettled notWaiting =>
    obtain rfl := h.eq_unseen notOpen notSettled notWaiting
    exact ⟨rfl, find?_concat notOpen, notWaiting, iff_of_false notSettled nofun⟩
  | @pairs terms s notOpen notSettled waiting =>
    obtain rfl := h.eq_waiting waiting
    have hnow : terms.id ∈ settledIds [.ok (some (s.settle terms))] := by
      rw [settledIds_settle, List.mem_singleton]
    exact ⟨rfl, notOpen, find?_filter_self, iff_of_true (hmem.2 (.inr hnow)) rfl⟩
  | @settles s terms isOpen =>
    obtain rfl := h.eq_opened isOpen
    have hid := (mem_of_findOpen? isOpen).2
    have hnow : s.id ∈ settledIds [.ok (some (s.settle terms))] := by
      rw [settledIds_settle, List.mem_singleton, hid]
    exact ⟨rfl, find?_filter_self, h.settling, iff_of_true (hmem.2 (.inr hnow)) rfl⟩
  | @waits s notOpen notSettled notWaiting =>
    obtain rfl := h.eq_unseen notOpen notSettled notWaiting
    refine ⟨rfl, notOpen, ?_, iff_of_false notSettled nofun⟩
    rw [hwait.enqueue]
    exact find?_concat notWaiting
  -- what is refused changes nothing
  | openAlready isOpen =>
    obtain rfl := h.eq_opened isOpen
    exact ⟨rfl, h⟩
  | offerTooLate notOpen isSettled =>
    obtain rfl := h.settled.1 isSettled
    exact ⟨rfl, h⟩
  | settledAlready notOpen isSettled =>
    obtain rfl := h.settled.1 isSettled
    exact ⟨rfl, h⟩
  | waitsAlready notOpen notSettled waiting =>
    obtain rfl := h.eq_waiting waiting
    exact ⟨rfl, h⟩

/-- **An event leaves the statuses of other swaps as they are.** -/
theorem of_ne (h : m.Shows id status) (hm : m.Consistent) (hroom : m.HasRoom (e :: es))
    (hwait : m.HasRoomToWait (e :: es)) (hne : e.id ≠ id) (hstep : m.Step e answer next) :
    next.Shows id status := by
  -- an event ends no swap but its own
  have hsettled : id ∈ next.settled ↔ status = .settled := by
    rw [hroom.mem_settled hm hstep, ← h.settled]
    refine or_iff_left fun hid => ?_
    rcases hstep.settledIds hm with hnil | ⟨hone, -⟩
    · rw [hnil] at hid
      cases hid
    · rw [hone, List.mem_singleton] at hid
      exact hne hid.symm
  cases hstep with
  | @opens terms notOpen notSettled notWaiting =>
    have hother : terms.id ≠ id := hne
    exact ⟨(find?_concat_of_ne hother).trans h.opened, h.settling, hsettled⟩
  | pairs notOpen notSettled waiting =>
    exact ⟨h.opened, (find?_filter_of_ne hne).trans h.settling, hsettled⟩
  | settles isOpen =>
    exact ⟨(find?_filter_of_ne hne).trans h.opened, h.settling, hsettled⟩
  | @waits s notOpen notSettled notWaiting =>
    have hother : s.id ≠ id := hne
    refine ⟨h.opened, ?_, hsettled⟩
    rw [hwait.enqueue]
    exact (find?_concat_of_ne hother).trans h.settling
  | openAlready isOpen => exact h
  | offerTooLate notOpen isSettled => exact h
  | settledAlready notOpen isSettled => exact h
  | waitsAlready notOpen notSettled waiting => exact h

/-- **The events of a swap are answered by its status in every run with room**, by induction on
the events: each is of the swap, or passes it by. -/
theorem run (h : m.Shows id status) (hm : m.Consistent) (hroom : m.HasRoom es)
    (hwait : m.HasRoomToWait es) :
    answersOf id es (m.run es).1 = (status.run (es.filter fun e => e.id = id)).1 ∧
      (m.run es).2.Shows id (status.run (es.filter fun e => e.id = id)).2 := by
  induction es generalizing m status with
  | nil => exact ⟨rfl, h⟩
  | cons e es ih =>
    have hstep := step_spec m e
    have hnext := hstep.consistent hm
    by_cases hid : e.id = id
    · subst hid
      obtain ⟨hanswer, hshows⟩ := h.step hm hroom hwait hstep
      obtain ⟨hanswers, hlast⟩ := ih hshows hnext (hroom.tail hm hstep) (hwait.tail hstep)
      rw [List.filter_cons_of_pos (by simp)]
      refine ⟨?_, hlast⟩
      rw [Status.run, ← hanswers, ← hanswer]
      simp [answersOf, Merger.run]
    · have hshows := h.of_ne hm hroom hwait hid hstep
      obtain ⟨hanswers, hlast⟩ := ih hshows hnext (hroom.tail hm hstep) (hwait.tail hstep)
      rw [List.filter_cons_of_neg (by simpa using hid)]
      refine ⟨?_, hlast⟩
      rw [← hanswers]
      simp [answersOf, Merger.run, hid]

end Shows

/-- Where there is room for all events, those of one swap alone are answered by its status. -/
theorem shows_run_filter {bounds : Bounds} {es : List Event} (id : SwapId)
    (hroom : (fresh bounds).HasRoom es) (hwait : (fresh bounds).HasRoomToWait es) :
    let own := es.filter fun e => e.id = id
    ((fresh bounds).run own).1 = (Status.run .unseen own).1 ∧
      ((fresh bounds).run own).2.Shows id (Status.run .unseen own).2 := by
  intro own
  have hsublist : own.Sublist es := List.filter_sublist
  have hownRoom : (fresh bounds).HasRoom own := by
    have hall := (List.Sublist.refl (fresh bounds).settled).append (hsublist.map Event.id)
    exact Nat.le_trans (length_dedup_le hall.subset) hroom
  have hownWait : (fresh bounds).HasRoomToWait own := by
    have hle := (hsublist.filterMap Event.settlement?).length_le
    unfold HasRoomToWait settlements at *
    omega
  obtain ⟨hanswers, hlast⟩ :=
    (Shows.fresh bounds id).run (consistent_fresh bounds) hownRoom hownWait
  have hall : ∀ e ∈ own, e.id = id := fun e he => by simpa using (List.mem_filter.1 he).2
  have hself : own.filter (fun e => e.id = id) = own :=
    List.filter_eq_self.2 fun e he => by simpa using hall e he
  rw [hself] at hanswers hlast
  rw [answersOf_eq_self hall (length_run _ own)] at hanswers
  exact ⟨hanswers, hlast⟩

end Merger

namespace Keyed

/-- **Swaps do not interfere.** In a run with room for all its settlements to wait and for all its
swaps to be remembered, the events of each swap get the answers that they get alone, and what is
known of the swap in the end is the same: whether it is open, and with which terms, which
settlement waits, and whether it is settled. -/
theorem run_filter {bounds : Bounds} {es : List Event} (id : SwapId)
    (hwait : (settlements es).length ≤ bounds.settling.toNat)
    (hroom : (es.map Event.id).dedup.length ≤ bounds.settled.toNat) :
    let all := (fresh bounds).run es
    let own := (fresh bounds).run (es.filter fun e => e.id = id)
    answersOf id es all.1 = own.1 ∧ all.2.opened[id]? = own.2.opened[id]? ∧
      all.2.settling[id]? = own.2.settling[id]? ∧ (id ∈ all.2.settled ↔ id ∈ own.2.settled) := by
  intro all own
  have hfresh := Merger.consistent_fresh bounds
  have hfreshRoom : (Merger.fresh bounds).HasRoom es := hroom
  have hfreshWait : (Merger.fresh bounds).HasRoomToWait es := by
    show 0 + (settlements es).length ≤ bounds.settling.toNat
    omega
  obtain ⟨hall, hshows⟩ := (Merger.Shows.fresh bounds id).run hfresh hfreshRoom hfreshWait
  obtain ⟨hown, hshows'⟩ := Merger.shows_run_filter id hfreshRoom hfreshWait
  -- both runs leave the swap with the status that its events lead to
  have hm := Merger.consistent_run hfresh es
  have hm' := Merger.consistent_run hfresh (es.filter fun e => e.id = id)
  have hk := represents_run bounds es
  have hk' := represents_run bounds (es.filter fun e => e.id = id)
  refine ⟨?_, ?_, ?_, ?_⟩
  · rw [answers_run, answers_run, hall, hown]
  · rw [hk.getElem?_opened hm, hk'.getElem?_opened hm', hshows.opened, hshows'.opened]
  · rw [hk.getElem?_settling hm, hk'.getElem?_settling hm', hshows.settling, hshows'.settling]
  · rw [hk.settled, hk'.settled, hshows.settled, hshows'.settled]

/-- Two swaps take turns, each with an offer that comes again. The first is claimed and the
second waits for its offer, as they would alone. -/
theorem run_filter_two_swaps :
    let es : List Event := [.opened (sampleTerms [1]), .settled (.abort [2]),
      .opened (sampleTerms [1]), .settled (.claim [1] [7]), .settled (.abort [2])]
    let all := (fresh ⟨3, 2⟩).run es
    let own := (fresh ⟨3, 2⟩).run (es.filter fun e => e.id = [2])
    (settlements es).length = 3 ∧ (es.map Event.id).dedup.length = 2 ∧
      own.1 = [.ok none, .error (.duplicateSettlement [2])] ∧ answersOf [2] es all.1 = own.1 ∧
      all.2.settling[([2] : SwapId)]? = own.2.settling[([2] : SwapId)]? := by
  intro es all own
  have hthree : (settlements es).length = 3 := by decide
  have htwo : (es.map Event.id).dedup.length = 2 := by decide
  have hown : own.1 = [.ok none, .error (.duplicateSettlement [2])] := by decide +kernel
  obtain ⟨hanswers, -, hsettling, -⟩ := @run_filter ⟨3, 2⟩ es [2] hthree.le htwo.le
  exact ⟨hthree, htwo, hown, hanswers, hsettling⟩

end Keyed

end Swap

end ChainKit
