import ChainKit.Proofs.Swap.Run
import Mathlib
/-!
# What every run of the merger keeps

A swap is open, or it waits for its offer, or it is remembered as settled,
and it is that once: `Merger.Consistent` says so, with the two bounds. No
event breaks it (`Merger.Step.consistent`), so it holds after every run
from the start (`Merger.consistent_run`). Under it an event is refused for
what is known of its swap and for nothing else
(`Merger.Consistent.step_opened_eq_error`, `Merger.Consistent.step_settled_eq_error`).
-/

namespace ChainKit

namespace Swap

namespace Merger

/-- Each swap stands in one place, once, and the bounds are kept. -/
structure Consistent (m : Merger) : Prop where
  opened_nodup : (m.opened.map (·.id)).Nodup
  settling_nodup : (m.settling.map (·.id)).Nodup
  settled_nodup : m.settled.Nodup
  opened_settling : ∀ terms ∈ m.opened, ∀ s ∈ m.settling, terms.id ≠ s.id
  opened_settled : ∀ terms ∈ m.opened, terms.id ∉ m.settled
  settling_settled : ∀ s ∈ m.settling, s.id ∉ m.settled
  length_settling : m.settling.length ≤ m.bounds.settling.toNat
  length_settled : m.settled.length ≤ m.bounds.settled.toNat

/-! ## Queues -/

variable {α : Type} {bound : Nat} {queue : List α} {x : α}

/-- A queue keeps the order of what was there and puts what is new behind it. -/
theorem enqueue_sublist : (enqueue bound queue x).Sublist (queue ++ [x]) := by
  unfold enqueue
  split
  · exact List.sublist_append_left _ _
  · exact (List.drop_sublist _ _).append (List.Sublist.refl _)

/-- A queue stays within its bound. -/
theorem length_enqueue_le (h : queue.length ≤ bound) : (enqueue bound queue x).length ≤ bound := by
  unfold enqueue
  split
  · exact h
  · rw [List.length_append, List.length_drop, List.length_singleton]
    omega

/-- What is new to a queue stands in it once. -/
theorem nodup_enqueue (h : queue.Nodup) (hnew : x ∉ queue) : (enqueue bound queue x).Nodup := by
  refine enqueue_sublist.nodup (List.nodup_append.2 ⟨h, by simp, ?_⟩)
  rintro y hy z hz rfl
  exact hnew (List.mem_singleton.1 hz ▸ hy)

/-- The places in a queue do not depend on what stands there. -/
theorem map_enqueue {β : Type} (f : α → β) :
    (enqueue bound queue x).map f = enqueue bound (queue.map f) (f x) := by
  unfold enqueue
  split
  · rfl
  · rw [List.map_append, List.map_drop, List.map_singleton, List.length_map]

/-! ## One event -/

variable {m next : Merger} {e : Event} {answer : Answer} {id : SwapId}

/-- Nothing is known of no events. -/
theorem consistent_fresh (bounds : Bounds) : (fresh bounds).Consistent where
  opened_nodup := .nil
  settling_nodup := .nil
  settled_nodup := .nil
  opened_settling := fun _ h => nomatch h
  opened_settled := fun _ h => nomatch h
  settling_settled := fun _ h => nomatch h
  length_settling := Nat.zero_le _
  length_settled := Nat.zero_le _

namespace Consistent

/-- A swap that stands nowhere may be remembered as settled. -/
theorem remember (h : m.Consistent) (hopened : ∀ terms ∈ m.opened, terms.id ≠ id)
    (hsettling : ∀ s ∈ m.settling, s.id ≠ id) (hsettled : id ∉ m.settled) :
    (m.remember id).Consistent where
  opened_nodup := h.opened_nodup
  settling_nodup := h.settling_nodup
  settled_nodup := nodup_enqueue h.settled_nodup hsettled
  opened_settling := h.opened_settling
  opened_settled terms ht hmem := by
    rcases mem_of_mem_enqueue hmem with hmem | heq
    · exact h.opened_settled terms ht hmem
    · exact hopened terms ht heq
  settling_settled s hs hmem := by
    rcases mem_of_mem_enqueue hmem with hmem | heq
    · exact h.settling_settled s hs hmem
    · exact hsettling s hs heq
  length_settling := h.length_settling
  length_settled := length_enqueue_le h.length_settled

/-- A new offer opens its swap. -/
theorem opens {terms : SwapTerms} (h : m.Consistent) (notOpen : m.findOpen? terms.id = none)
    (notSettled : terms.id ∉ m.settled) (notWaiting : m.findSettling? terms.id = none) :
    Consistent { m with opened := m.opened ++ [terms] } where
  opened_nodup := by
    have hnew := findOpen?_eq_none.1 notOpen
    simp only [List.map_append, List.map_singleton]
    refine List.nodup_append.2 ⟨h.opened_nodup, by simp, ?_⟩
    rintro _ hmem _ hlast rfl
    obtain ⟨found, hfound, hid⟩ := List.mem_map.1 hmem
    exact hnew found hfound (hid.trans (List.mem_singleton.1 hlast))
  settling_nodup := h.settling_nodup
  settled_nodup := h.settled_nodup
  opened_settling t ht s hs := by
    rcases List.mem_append.1 ht with ht | ht
    · exact h.opened_settling t ht s hs
    · rw [List.mem_singleton.1 ht]
      exact (findSettling?_eq_none.1 notWaiting s hs).symm
  opened_settled t ht := by
    rcases List.mem_append.1 ht with ht | ht
    · exact h.opened_settled t ht
    · rw [List.mem_singleton.1 ht]
      exact notSettled
  settling_settled := h.settling_settled
  length_settling := h.length_settling
  length_settled := h.length_settled

/-- A settlement that waits no longer leaves the rest as it was. -/
theorem filter_settling (h : m.Consistent) (p : Settlement → Bool) :
    Consistent { m with settling := m.settling.filter p } where
  opened_nodup := h.opened_nodup
  settling_nodup := (List.filter_sublist.map _).nodup h.settling_nodup
  settled_nodup := h.settled_nodup
  opened_settling t ht s hs := h.opened_settling t ht s (List.mem_of_mem_filter hs)
  opened_settled := h.opened_settled
  settling_settled s hs := h.settling_settled s (List.mem_of_mem_filter hs)
  length_settling := (List.length_filter_le _ _).trans h.length_settling
  length_settled := h.length_settled

/-- A swap that is open no longer leaves the rest as it was. -/
theorem filter_opened (h : m.Consistent) (p : SwapTerms → Bool) :
    Consistent { m with opened := m.opened.filter p } where
  opened_nodup := (List.filter_sublist.map _).nodup h.opened_nodup
  settling_nodup := h.settling_nodup
  settled_nodup := h.settled_nodup
  opened_settling t ht s hs := h.opened_settling t (List.mem_of_mem_filter ht) s hs
  opened_settled t ht := h.opened_settled t (List.mem_of_mem_filter ht)
  settling_settled := h.settling_settled
  length_settling := h.length_settling
  length_settled := h.length_settled

/-- A new settlement waits. -/
theorem waits {s : Settlement} (h : m.Consistent) (notOpen : m.findOpen? s.id = none)
    (notSettled : s.id ∉ m.settled) (notWaiting : m.findSettling? s.id = none) :
    Consistent { m with settling := enqueue m.bounds.settling.toNat m.settling s } where
  opened_nodup := h.opened_nodup
  settling_nodup := by
    simp only [map_enqueue]
    refine nodup_enqueue h.settling_nodup fun hmem => ?_
    obtain ⟨found, hfound, hid⟩ := List.mem_map.1 hmem
    exact findSettling?_eq_none.1 notWaiting found hfound hid
  settled_nodup := h.settled_nodup
  opened_settling t ht w hw := by
    rcases mem_of_mem_enqueue hw with hw | rfl
    · exact h.opened_settling t ht w hw
    · exact findOpen?_eq_none.1 notOpen t ht
  opened_settled := h.opened_settled
  settling_settled w hw := by
    rcases mem_of_mem_enqueue hw with hw | rfl
    · exact h.settling_settled w hw
    · exact notSettled
  length_settling := length_enqueue_le h.length_settling
  length_settled := h.length_settled

end Consistent

/-- **One event keeps each swap in one place.** -/
theorem Step.consistent (hstep : m.Step e answer next) (h : m.Consistent) : next.Consistent := by
  cases hstep with
  | opens notOpen notSettled notWaiting => exact h.opens notOpen notSettled notWaiting
  | @pairs terms s notOpen notSettled waiting =>
    refine (h.filter_settling _).remember (findOpen?_eq_none.1 notOpen) ?_ notSettled
    intro w hw
    simpa using (List.mem_filter.1 hw).2
  | openAlready isOpen => exact h
  | offerTooLate notOpen isSettled => exact h
  | @settles s terms isOpen =>
    -- what was open neither waited nor was settled
    obtain ⟨hmem, hid⟩ := mem_of_findOpen? isOpen
    refine (h.filter_opened _).remember ?_ ?_ ?_
    · intro t ht
      simpa using (List.mem_filter.1 ht).2
    · intro w hw
      exact hid ▸ (h.opened_settling terms hmem w hw).symm
    · exact hid ▸ h.opened_settled terms hmem
  | waits notOpen notSettled notWaiting => exact h.waits notOpen notSettled notWaiting
  | settledAlready notOpen isSettled => exact h
  | waitsAlready notOpen notSettled waiting => exact h

/-- No event changes the bounds. -/
theorem Step.bounds (hstep : m.Step e answer next) : next.bounds = m.bounds := by
  cases hstep <;> rfl

/-- The bounds stay as they were set. -/
theorem bounds_run (m : Merger) (es : List Event) : (m.run es).2.bounds = m.bounds := by
  induction es generalizing m with
  | nil => rfl
  | cons e es ih => exact (ih _).trans (step_spec m e).bounds

/-- **Each swap stays in one place.** -/
theorem consistent_run (h : m.Consistent) (es : List Event) : (m.run es).2.Consistent := by
  induction es generalizing m with
  | nil => exact h
  | cons e es ih => exact ih ((step_spec m e).consistent h)

/-! ## What is refused -/

namespace Consistent

variable {error : Error}

/-- What is open is not settled. -/
theorem not_mem_settled_of_findOpen? {terms : SwapTerms} (h : m.Consistent)
    (isOpen : m.findOpen? id = some terms) : id ∉ m.settled := by
  obtain ⟨hmem, rfl⟩ := mem_of_findOpen? isOpen
  exact h.opened_settled terms hmem

/-- For what is open no settlement waits. -/
theorem findSettling?_of_findOpen? {terms : SwapTerms} (h : m.Consistent)
    (isOpen : m.findOpen? id = some terms) : m.findSettling? id = none := by
  obtain ⟨hmem, rfl⟩ := mem_of_findOpen? isOpen
  exact findSettling?_eq_none.2 fun s hs => (h.opened_settling terms hmem s hs).symm

/-- For what is settled no settlement waits. -/
theorem findSettling?_of_mem_settled (h : m.Consistent) (hsettled : id ∈ m.settled) :
    m.findSettling? id = none := by
  refine findSettling?_eq_none.2 fun s hs hid => ?_
  exact h.settling_settled s hs (hid ▸ hsettled)

/-- **An offer is refused for an open or a settled swap**, and for nothing else. -/
theorem step_opened_eq_error (h : m.Consistent) {terms : SwapTerms} :
    (m.step (.opened terms)).1 = .error error ↔
      ((m.findOpen? terms.id).isSome ∧ error = .duplicateOpen terms.id) ∨
        (terms.id ∈ m.settled ∧ error = .alreadySettled terms.id) := by
  have hstep := step_spec m (.opened terms)
  generalize (m.step (.opened terms)).1 = answer at hstep ⊢
  generalize (m.step (.opened terms)).2 = next at hstep
  cases hstep with
  | opens notOpen notSettled notWaiting => simp [notOpen, notSettled]
  | pairs notOpen notSettled waiting => simp [notOpen, notSettled]
  | openAlready isOpen => simp [isOpen, h.not_mem_settled_of_findOpen? isOpen, eq_comm]
  | offerTooLate notOpen isSettled => simp [notOpen, isSettled, eq_comm]

/-- **A settlement is refused for a settled swap, or beside another that waits**, and for nothing
else. -/
theorem step_settled_eq_error (h : m.Consistent) {s : Settlement} :
    (m.step (.settled s)).1 = .error error ↔
      (s.id ∈ m.settled ∧ error = .alreadySettled s.id) ∨
        ((m.findSettling? s.id).isSome ∧ error = .duplicateSettlement s.id) := by
  have hstep := step_spec m (.settled s)
  generalize (m.step (.settled s)).1 = answer at hstep ⊢
  generalize (m.step (.settled s)).2 = next at hstep
  cases hstep with
  | settles isOpen =>
    simp [h.not_mem_settled_of_findOpen? isOpen, h.findSettling?_of_findOpen? isOpen]
  | waits notOpen notSettled notWaiting => simp [notSettled, notWaiting]
  | settledAlready notOpen isSettled =>
    simp [isSettled, h.findSettling?_of_mem_settled isSettled, eq_comm]
  | waitsAlready notOpen notSettled waiting => simp [notSettled, waiting, eq_comm]

end Consistent

end Merger

end Swap

end ChainKit
