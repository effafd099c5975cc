import ChainKit.Proofs.Swap.Order
import Mathlib
/-!
# How long a settled swap is remembered

Settled swaps are remembered in a queue, so a run leaves the end of the
list of all that have ended (`Merger.settled_run`). A swap is forgotten
only when as many others have ended after it as are remembered; until
then its events are refused. Where no more swaps occur than are
remembered, none is forgotten (`Merger.HasRoom.settled_run`), so each ends
at most once (`Keyed.settled_once`).
-/

namespace ChainKit

namespace Swap

/-- The swaps that ended, in the order of their records. -/
def settledIds (answers : List Answer) : List SwapId :=
  (settledRecords answers).map (·.terms.id)

theorem settledIds_append (as bs : List Answer) :
    settledIds (as ++ bs) = settledIds as ++ settledIds bs := by
  rw [settledIds, settledRecords_append, List.map_append]
  rfl

/-- The answer of a settled record names its swap. -/
theorem settledIds_of_isSettled {record : Record} (h : record.isSettled) :
    settledIds [.ok (some record)] = [record.terms.id] := by
  cases record with
  | opened terms => cases h
  | claimed terms preimage => rfl
  | aborted terms => rfl

/-- A swap that a settlement ends is named. -/
theorem settledIds_settle (s : Settlement) (terms : SwapTerms) :
    settledIds [.ok (some (s.settle terms))] = [terms.id] := by
  rw [settledIds, settledRecords_settle, List.map_singleton, terms_settle]

/-! ## The end of a list -/

section Ends

variable {α : Type} {n : Nat}

/-- What was cut off in front is not missed behind. -/
theorem rtake_append (xs ys : List α) : (xs.rtake n ++ ys).rtake n = (xs ++ ys).rtake n := by
  simp only [List.rtake_eq_reverse_take_reverse, List.reverse_append, List.reverse_reverse,
    List.take_append, List.take_take]
  congr 3
  omega

/-- A short list is all end. -/
theorem rtake_of_length_le {xs : List α} (h : xs.length ≤ n) : xs.rtake n = xs := by
  rw [List.rtake, Nat.sub_eq_zero_of_le h, List.drop_zero]

/-- An entry with fewer than `n` behind it is one of the last `n`. -/
theorem mem_rtake {x : α} (xs : List α) {ys : List α} (h : ys.length < n) :
    x ∈ (xs ++ x :: ys).rtake n := by
  have hle : (xs ++ x :: ys).length - n ≤ xs.length := by
    rw [List.length_append, List.length_cons]
    omega
  rw [List.rtake, List.drop_append_of_le_length hle]
  simp

/-- A queue within its bound keeps the last of what came. -/
theorem Merger.enqueue_eq_rtake {queue : List α} {x : α} (h : queue.length ≤ n) :
    Merger.enqueue n queue x = (queue ++ [x]).rtake n := by
  unfold Merger.enqueue
  split
  · rename_i hzero
    have hnil : queue = [] := List.length_eq_zero_iff.1 (by omega)
    simp [hnil, hzero]
  · have hle : queue.length + 1 - n ≤ queue.length := by omega
    rw [List.rtake, List.length_append, List.length_singleton,
      List.drop_append_of_le_length hle]

end Ends

namespace Merger

variable {m next : Merger} {e : Event} {answer : Answer}

/-! ## What is remembered -/

/-- An event ends no swap, or its own, which was not settled before. -/
theorem Step.settledIds (hstep : m.Step e answer next) (h : m.Consistent) :
    settledIds [answer] = [] ∨ settledIds [answer] = [e.id] ∧ e.id ∉ m.settled := by
  cases hstep with
  | @pairs terms s notOpen notSettled waiting =>
    exact .inr ⟨settledIds_settle s terms, notSettled⟩
  | @settles s terms isOpen =>
    have hid := (mem_of_findOpen? isOpen).2
    refine .inr ⟨?_, h.not_mem_settled_of_findOpen? isOpen⟩
    rw [settledIds_settle, hid]
    rfl
  | _ => exact .inl rfl

/-- One event moves the end of what has been settled. -/
theorem Step.settled (hstep : m.Step e answer next) (h : m.Consistent) :
    next.settled = (m.settled ++ Swap.settledIds [answer]).rtake m.bounds.settled.toNat := by
  have hself : m.settled.rtake m.bounds.settled.toNat = m.settled :=
    rtake_of_length_le h.length_settled
  cases hstep with
  | @pairs terms s notOpen notSettled waiting =>
    rw [settledIds_settle]
    exact enqueue_eq_rtake h.length_settled
  | @settles s terms isOpen =>
    have hid := (mem_of_findOpen? isOpen).2
    rw [settledIds_settle, hid]
    exact enqueue_eq_rtake h.length_settled
  | _ => exact (List.append_nil _).symm ▸ hself.symm

/-- The first event of a run ends its swap before the others end theirs. -/
theorem settledIds_run_cons (m : Merger) (e : Event) (es : List Event) :
    settledIds (m.run (e :: es)).1 =
      settledIds [(m.step e).1] ++ settledIds ((m.step e).2.run es).1 :=
  settledIds_append [(m.step e).1] _

/-- **The last of all that was settled is remembered**, as much of it as the bound allows. -/
theorem settled_run (h : m.Consistent) (es : List Event) :
    (m.run es).2.settled =
      (m.settled ++ settledIds (m.run es).1).rtake m.bounds.settled.toNat := by
  induction es generalizing m with
  | nil =>
    have hnil : m.settled ++ settledIds (m.run []).1 = m.settled := List.append_nil _
    rw [hnil]
    exact (rtake_of_length_le h.length_settled).symm
  | cons e es ih =>
    have hstep := step_spec m e
    calc (m.run (e :: es)).2.settled
        = ((m.step e).2.settled ++ settledIds ((m.step e).2.run es).1).rtake
            (m.step e).2.bounds.settled.toNat := ih (hstep.consistent h)
      _ = (m.settled ++ settledIds [(m.step e).1] ++
            settledIds ((m.step e).2.run es).1).rtake m.bounds.settled.toNat := by
          rw [hstep.bounds, hstep.settled h, rtake_append]
      _ = (m.settled ++ settledIds (m.run (e :: es)).1).rtake m.bounds.settled.toNat := by
          rw [settledIds_run_cons, List.append_assoc]

/-- A swap that ends is remembered while fewer end after it than are remembered. -/
theorem mem_settled_run {record : Record} (h : m.Consistent) (es : List Event)
    (hanswer : (m.step e).1 = .ok (some record)) (hsettled : record.isSettled)
    (hfew : (settledRecords ((m.step e).2.run es).1).length < m.bounds.settled.toNat) :
    record.terms.id ∈ ((m.step e).2.run es).2.settled := by
  have hstep := step_spec m e
  have hone : (m.step e).2.settled =
      (m.settled ++ [record.terms.id]).rtake m.bounds.settled.toNat := by
    rw [hstep.settled h, hanswer, settledIds_of_isSettled hsettled]
  rw [settled_run (hstep.consistent h), hstep.bounds, hone, rtake_append, List.append_assoc]
  refine mem_rtake m.settled ?_
  show (settledIds ((m.step e).2.run es).1).length < m.bounds.settled.toNat
  rw [settledIds, List.length_map]
  exact hfew

/-! ## Room for every swap -/

/-- There is room to remember the swaps of the events beside those that are remembered. -/
def HasRoom (m : Merger) (es : List Event) : Prop :=
  (m.settled ++ es.map Event.id).dedup.length ≤ m.bounds.settled.toNat

/-- More swaps are no fewer. -/
theorem length_dedup_le {xs ys : List SwapId} (h : xs ⊆ ys) :
    xs.dedup.length ≤ ys.dedup.length := by
  refine (List.subperm_of_subset (List.nodup_dedup xs) fun x hx => ?_).length_le
  exact List.mem_dedup.2 (h (List.mem_dedup.1 hx))

section Room

variable {es : List Event}

/-- Fewer swaps are remembered than there is room for, while one is new. -/
theorem HasRoom.length_lt (hroom : m.HasRoom (e :: es)) (h : m.Consistent)
    (hnew : e.id ∉ m.settled) : m.settled.length < m.bounds.settled.toNat := by
  -- the swap and those remembered are told apart
  have hnodup : (e.id :: m.settled).Nodup := List.nodup_cons.2 ⟨hnew, h.settled_nodup⟩
  have hsubset : e.id :: m.settled ⊆ m.settled ++ (e :: es).map Event.id := by
    intro id hid
    rcases List.mem_cons.1 hid with rfl | hid
    · exact List.mem_append_right _ List.mem_cons_self
    · exact List.mem_append_left _ hid
  have hle := length_dedup_le hsubset
  rw [hnodup.dedup, List.length_cons] at hle
  unfold HasRoom at hroom
  omega

/-- Where there is room, what an event settles is remembered behind the rest. -/
theorem HasRoom.settled (hroom : m.HasRoom (e :: es)) (h : m.Consistent)
    (hstep : m.Step e answer next) : next.settled = m.settled ++ settledIds [answer] := by
  rw [hstep.settled h]
  refine rtake_of_length_le ?_
  rcases hstep.settledIds h with hnil | ⟨hone, hnew⟩
  · rw [hnil, List.append_nil]
    exact h.length_settled
  · rw [hone, List.length_append, List.length_singleton]
    exact hroom.length_lt h hnew

/-- Room for events is room for those behind the first, after it. -/
theorem HasRoom.tail (hroom : m.HasRoom (e :: es)) (h : m.Consistent)
    (hstep : m.Step e answer next) : next.HasRoom es := by
  have hsubset : next.settled ++ es.map Event.id ⊆ m.settled ++ (e :: es).map Event.id := by
    rw [hroom.settled h hstep]
    rcases hstep.settledIds h with hnil | ⟨hone, -⟩
    · rw [hnil]
      simp
    · rw [hone]
      simp
  unfold HasRoom
  rw [hstep.bounds]
  exact Nat.le_trans (length_dedup_le hsubset) hroom

/-- **With room for every swap none is forgotten.** -/
theorem HasRoom.settled_run (hroom : m.HasRoom es) (h : m.Consistent) :
    (m.run es).2.settled = m.settled ++ settledIds (m.run es).1 := by
  induction es generalizing m with
  | nil => exact (List.append_nil _).symm
  | cons e es ih =>
    have hstep := step_spec m e
    rw [settledIds_run_cons, ← List.append_assoc, ← hroom.settled h hstep]
    exact ih (hroom.tail h hstep) (hstep.consistent h)

end Room

/-! ## What is refused -/

/-- The events of a swap that is remembered as settled change nothing. -/
theorem Consistent.step_of_mem_settled (h : m.Consistent) (hmem : e.id ∈ m.settled) :
    m.step e = (.error (.alreadySettled e.id), m) := by
  have hstep := step_spec m e
  rw [← Prod.mk.eta (p := m.step e)]
  generalize (m.step e).1 = answer at hstep ⊢
  generalize (m.step e).2 = next at hstep ⊢
  cases hstep with
  | opens notOpen notSettled notWaiting => exact absurd hmem notSettled
  | pairs notOpen notSettled waiting => exact absurd hmem notSettled
  | openAlready isOpen => exact absurd hmem (h.not_mem_settled_of_findOpen? isOpen)
  | offerTooLate notOpen isSettled => rfl
  | settles isOpen => exact absurd hmem (h.not_mem_settled_of_findOpen? isOpen)
  | waits notOpen notSettled notWaiting => exact absurd hmem notSettled
  | settledAlready notOpen isSettled => rfl
  | waitsAlready notOpen notSettled waiting => exact absurd hmem notSettled

/-- While few enough swaps have ended since, the events of a settled swap change nothing. -/
theorem Consistent.step_of_settled {record : Record} (h : m.Consistent) (es : List Event)
    (hanswer : (m.step e).1 = .ok (some record)) (hsettled : record.isSettled)
    (hfew : (settledRecords ((m.step e).2.run es).1).length < m.bounds.settled.toNat) {e' : Event}
    (hid : e'.id = record.terms.id) :
    (((m.step e).2.run es).2.step e').1 = .error (.alreadySettled record.terms.id) := by
  have hlast := consistent_run ((step_spec m e).consistent h) es
  have hmem := mem_settled_run h es hanswer hsettled hfew
  rw [← hid] at hmem ⊢
  rw [hlast.step_of_mem_settled hmem]

end Merger

namespace Keyed

/-- What the lists refuse, the collections refuse, and stay as they are. -/
theorem Represents.refuses {k : Keyed} {m : Merger} {e : Event} {error : Error}
    (h : Represents k m) (hm : m.Consistent) (hrefused : (m.step e).1 = .error error) :
    k.process e = (.error error, k) := by
  have hanswer : (k.process e).1 = .error error := (h.process hm e).1.trans hrefused
  rw [← Prod.mk.eta (p := k.process e), hanswer, process_of_error hanswer]

/-- **A settled swap is settled once**, while it is remembered: as long as fewer swaps have ended
since than are remembered, every event of it is refused and changes nothing. So in a run over no
more swaps than are remembered, each ends at most once, whatever is repeated or reordered. -/
theorem settled_once (bounds : Bounds) :
    (∀ (es fs : List Event) (e : Event) (record : Record),
      (((fresh bounds).run es).2.process e).1 = .ok (some record) → record.isSettled →
      (settledRecords ((((fresh bounds).run es).2.process e).2.run fs).1).length <
        bounds.settled.toNat →
      ∀ e' : Event, e'.id = record.terms.id →
        ((fresh bounds).run (es ++ e :: fs)).2.process e' =
          (.error (.alreadySettled record.terms.id), ((fresh bounds).run (es ++ e :: fs)).2)) ∧
    ∀ es : List Event, (es.map Event.id).dedup.length ≤ bounds.settled.toNat →
      ((settledRecords ((fresh bounds).run es).1).map (·.terms.id)).Nodup := by
  constructor
  · intro es fs e record hanswer hsettled hfew e' hid
    have hm := Merger.consistent_run (Merger.consistent_fresh bounds) es
    have hk := represents_run bounds es
    have hbounds := Merger.bounds_run (Merger.fresh bounds) es
    rw [run_append]
    generalize ((fresh bounds).run es).2 = k at hanswer hfew hk ⊢
    generalize ((Merger.fresh bounds).run es).2 = m at hm hk hbounds
    show ((k.process e).2.run fs).2.process e' = (_, ((k.process e).2.run fs).2)
    -- the lists of the other merger refuse the event, so the collections do
    obtain ⟨hfirst, hnext⟩ := hk.process hm e
    have hmnext := (Merger.step_spec m e).consistent hm
    obtain ⟨hanswers, hlast⟩ := hnext.run hmnext fs
    refine hlast.refuses (Merger.consistent_run hmnext fs) ?_
    refine hm.step_of_settled fs (hfirst ▸ hanswer) hsettled ?_ hid
    rw [← hanswers, hbounds]
    exact hfew
  · intro es hroom
    have hm := Merger.consistent_run (Merger.consistent_fresh bounds) es
    have hnodup := hm.settled_nodup
    have hfresh : (Merger.fresh bounds).HasRoom es := hroom
    rw [hfresh.settled_run (Merger.consistent_fresh bounds)] at hnodup
    rw [answers_run]
    exact hnodup

/-- Two swaps are remembered. The first is still refused after the second has ended; and each of
the two ends once, although a settlement comes again. -/
theorem settled_once_two_swaps :
    let es : List Event := [.opened (sampleTerms [1])]
    let e : Event := .settled (.claim [1] [7])
    let fs : List Event := [.settled (.abort [2]), .opened (sampleTerms [2]), .settled (.abort [1])]
    let k := ((fresh ⟨10, 2⟩).run (es ++ e :: fs)).2
    (((fresh ⟨10, 2⟩).run es).2.process e).1 =
        .ok (some (.claimed (sampleTerms [1]) [7])) ∧
      k.process (.opened (sampleTerms [1])) = (.error (.alreadySettled [1]), k) ∧
      ((es ++ e :: fs).map Event.id).dedup.length = 2 ∧
      ((settledRecords ((fresh ⟨10, 2⟩).run (es ++ e :: fs)).1).map (·.terms.id)).Nodup := by
  intro es e fs k
  have hanswer : (((fresh ⟨10, 2⟩).run es).2.process e).1 =
      .ok (some (.claimed (sampleTerms [1]) [7])) := by decide +kernel
  have hfew : (settledRecords ((((fresh ⟨10, 2⟩).run es).2.process e).2.run fs).1).length < 2 := by
    decide +kernel
  have htwo : ((es ++ e :: fs).map Event.id).dedup.length = 2 := by decide
  have hrefused :=
    (settled_once ⟨10, 2⟩).1 es fs e _ hanswer rfl hfew (.opened (sampleTerms [1])) rfl
  exact ⟨hanswer, hrefused, htwo, (settled_once ⟨10, 2⟩).2 (es ++ e :: fs) htwo.le⟩

end Keyed

end Swap

end ChainKit
