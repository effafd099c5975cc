import ChainKit.Proofs.Swap.Memory
import Mathlib
/-!
# First in, first out

The settlements that wait are told from the history of a run alone, the
events and what was answered to each. Places in a history are numbered:
`History.waiting` are those where a settlement was left to wait, less the
ones that are gone and the ones whose offer was taken in since.
`History.evicted` are gone: an arrival that finds the queue full sends the
first of it away. What is left is `History.queue`.

The merger changes its list by one rule (`Step.settling`), so after a run
the list is a fold of the history (`settling_run`), and the fold is the
queue of the history (`History.foldl_buffer`). `Keyed.first_in_first_out`
says so of the map and the queue beside it.
-/

namespace ChainKit

namespace Swap

/-- The settlement that an answer leaves waiting. -/
def kept? : Event × Answer → Option Settlement
  | (.settled s, .ok none) => some s
  | _ => none

/-- The swap of an offer that is taken in. -/
def taken? : Event × Answer → Option SwapId
  | (.opened terms, .ok _) => some terms.id
  | _ => none

/-- What has happened: the events in order, and what was answered to each. -/
abbrev History := List (Event × Answer)

namespace History

/-! ## The queue of a history -/

/-- The settlement that was left to wait at a place. -/
def arrival? (history : History) (i : Nat) : Option Settlement := history[i]?.bind kept?

/-- The swap whose offer was taken in at a place. -/
def offered? (history : History) (i : Nat) : Option SwapId := history[i]?.bind taken?

/-- The places before `n` of the settlements that wait, in the order of arrival: those that are
not gone, and whose swap was not offered since. -/
def waiting (history : History) (gone : List Nat) (n : Nat) : List Nat :=
  (List.range n).filter fun i => (history.arrival? i).isSome ∧ i ∉ gone ∧
    ∀ j < n, i < j → history.offered? j ≠ (history.arrival? i).map (·.id)

/-- The places before `n` of the settlements that gave way to others: where one arrives and
`bound` of them wait, the first of these. -/
def evicted (history : History) (bound : Nat) : Nat → List Nat
  | 0 => []
  | n + 1 =>
    let gone := history.evicted bound n
    let queue := history.waiting gone n
    if (history.arrival? n).isSome ∧ queue.length = bound then gone ++ queue.take 1 else gone

/-- The places before `n` of the settlements that wait in a queue of at most `bound`. -/
def queue (history : History) (bound n : Nat) : List Nat :=
  history.waiting (history.evicted bound n) n

/-- What waits after an event and its answer. -/
def buffer (bound : Nat) (queue : List Settlement) (x : Event × Answer) : List Settlement :=
  match kept? x with
  | some s => Merger.enqueue bound queue s
  | none => queue.filter fun s => taken? x ≠ some s.id

variable {history : History} {gone : List Nat} {bound n i : Nat}

theorem mem_waiting : i ∈ history.waiting gone n ↔ i < n ∧ (history.arrival? i).isSome ∧
    i ∉ gone ∧ ∀ j < n, i < j → history.offered? j ≠ (history.arrival? i).map (·.id) := by
  simp [waiting]

/-- What waits after one more place: what waited, unless its swap was offered there, and what
arrived there. -/
theorem waiting_succ (hgone : n ∉ gone) : history.waiting gone (n + 1) =
    ((history.waiting gone n).filter fun i =>
      history.offered? n ≠ (history.arrival? i).map (·.id)) ++
        if (history.arrival? n).isSome then [n] else [] := by
  -- nothing stands behind the last place
  have hlast : ((history.arrival? n).isSome ∧ n ∉ gone ∧
      ∀ j < n + 1, n < j → history.offered? j ≠ (history.arrival? n).map (·.id)) ↔
        (history.arrival? n).isSome := by
    refine ⟨fun h => h.1, fun h => ⟨h, hgone, fun j hj hlt => ?_⟩⟩
    omega
  rw [waiting, List.range_succ, List.filter_append, waiting, List.filter_filter]
  congr 1
  · refine List.filter_congr fun i hi => ?_
    have hlt := List.mem_range.1 hi
    -- the places behind `i` are those before `n`, and `n`
    have hsplit : (∀ j < n + 1, i < j → history.offered? j ≠ (history.arrival? i).map (·.id)) ↔
        history.offered? n ≠ (history.arrival? i).map (·.id) ∧
          ∀ j < n, i < j → history.offered? j ≠ (history.arrival? i).map (·.id) := by
      rw [Nat.forall_lt_succ_right]
      exact ⟨fun ⟨h, hn⟩ => ⟨hn hlt, h⟩, fun ⟨hn, h⟩ => ⟨h, fun _ => hn⟩⟩
    simp only [hsplit, ← Bool.decide_and, decide_eq_decide]
    tauto
  · simp only [List.filter_singleton, hlast, Bool.cond_decide]

/-- With more of them gone fewer wait. -/
theorem waiting_append (more : List Nat) : history.waiting (gone ++ more) n =
    (history.waiting gone n).filter fun i => i ∉ more := by
  rw [waiting, waiting, List.filter_filter]
  refine List.filter_congr fun i _ => ?_
  simp only [← Bool.decide_and, decide_eq_decide, List.mem_append]
  tauto

/-- Only what waited before gives way. -/
theorem lt_of_mem_evicted (h : i ∈ history.evicted bound n) : i < n := by
  induction n with
  | zero => cases h
  | succ n ih =>
    rw [evicted] at h
    split at h
    · rcases List.mem_append.1 h with h | h
      · exact Nat.lt_succ_of_lt (ih h)
      · exact Nat.lt_succ_of_lt (mem_waiting.1 (List.mem_of_mem_take h)).1
    · exact Nat.lt_succ_of_lt (ih h)

theorem nodup_waiting : (history.waiting gone n).Nodup := List.nodup_range.filter _

/-- Without its first entry a list of different entries is its tail. -/
theorem filter_notMem_take_one {xs : List Nat} (h : xs.Nodup) :
    (xs.filter fun i => i ∉ xs.take 1) = xs.drop 1 := by
  cases xs with
  | nil => rfl
  | cons x xs =>
    have hx := (List.nodup_cons.1 h).1
    simp only [List.take_succ_cons, List.take_zero, List.drop_succ_cons, List.drop_zero,
      List.mem_singleton, List.filter_cons, not_true_eq_false, decide_false, Bool.false_eq_true,
      if_false]
    refine List.filter_eq_self.2 fun y hy => ?_
    have hne : y ≠ x := fun heq => hx (heq ▸ hy)
    simpa using hne

/-- Where nothing arrives, those whose swap is offered leave the queue. -/
theorem queue_succ_of_none (h : history.arrival? n = none) : history.queue bound (n + 1) =
    (history.queue bound n).filter fun i =>
      history.offered? n ≠ (history.arrival? i).map (·.id) := by
  have hgone : history.evicted bound (n + 1) = history.evicted bound n := by
    simp [evicted, h]
  have hnew : n ∉ history.evicted bound n := fun hmem => (lt_of_mem_evicted hmem).ne rfl
  rw [queue, hgone, waiting_succ hnew, h]
  exact List.append_nil _

/-- No offer is taken in where a settlement arrives. -/
theorem offered?_of_arrival? {s : Settlement} (h : history.arrival? n = some s) :
    history.offered? n = none := by
  obtain ⟨x, hx, hs⟩ := Option.bind_eq_some_iff.1 h
  rw [offered?, hx, Option.bind_some]
  unfold kept? at hs
  split at hs
  · rfl
  · cases hs

/-- Where a settlement arrives it is put behind the others, of which the first leaves if they are
too many. -/
theorem queue_succ_of_some {s : Settlement} (h : history.arrival? n = some s)
    (hle : (history.queue bound n).length ≤ bound) : history.queue bound (n + 1) =
      (history.queue bound n).drop ((history.queue bound n).length + 1 - bound) ++ [n] := by
  have hnew : n ∉ history.evicted bound (n + 1) := by
    intro hmem
    rw [evicted] at hmem
    split at hmem
    · rcases List.mem_append.1 hmem with hmem | hmem
      · exact (lt_of_mem_evicted hmem).ne rfl
      · exact (mem_waiting.1 (List.mem_of_mem_take hmem)).1.ne rfl
    · exact (lt_of_mem_evicted hmem).ne rfl
  have hstay (gone : List Nat) : ((history.waiting gone n).filter fun i =>
      history.offered? n ≠ (history.arrival? i).map (·.id)) = history.waiting gone n := by
    refine List.filter_eq_self.2 fun i hi => ?_
    obtain ⟨w, hw⟩ := Option.isSome_iff_exists.1 (mem_waiting.1 hi).2.1
    simp [offered?_of_arrival? h, hw]
  rw [queue, waiting_succ hnew, hstay, h]
  congr 1
  rw [evicted, h]
  rcases Nat.lt_or_ge (history.queue bound n).length bound with hroom | hfull
  · have hzero : (history.queue bound n).length + 1 - bound = 0 := by omega
    rw [if_neg fun hfull => hroom.ne hfull.2, hzero]
    rfl
  · have hone : (history.queue bound n).length + 1 - bound = 1 := by omega
    rw [if_pos ⟨rfl, Nat.le_antisymm hle hfull⟩, waiting_append, hone]
    exact filter_notMem_take_one nodup_waiting

/-- **The fold of a history is its queue.** -/
theorem foldl_buffer (hbound : bound ≠ 0) (n : Nat) :
    ((history.take n).foldl (buffer bound) []).map some =
      (history.queue bound n).map history.arrival? ∧
        (history.queue bound n).length ≤ bound := by
  induction n with
  | zero => exact ⟨rfl, Nat.zero_le _⟩
  | succ n ih =>
    obtain ⟨hsame, hle⟩ := ih
    have hlength := congrArg List.length hsame
    rw [List.length_map, List.length_map] at hlength
    rw [List.take_add_one, List.foldl_append]
    generalize (history.take n).foldl (buffer bound) [] = settling at hsame hlength ⊢
    cases h : history.arrival? n with
    | some s =>
      obtain ⟨x, hx, hs⟩ := Option.bind_eq_some_iff.1 h
      rw [queue_succ_of_some h hle, hx]
      simp only [Option.toList_some, List.foldl_cons, List.foldl_nil, buffer, hs,
        Merger.enqueue, if_neg hbound]
      constructor
      · rw [List.map_append, List.map_append, List.map_drop, hsame, List.map_drop, hlength,
          List.map_singleton, List.map_singleton, h]
      · rw [List.length_append, List.length_drop, List.length_singleton]
        omega
    | none =>
      rw [queue_succ_of_none h]
      refine ⟨?_, (List.length_filter_le _ _).trans hle⟩
      have hfilter : (history[n]?.toList.foldl (buffer bound) settling) =
          settling.filter fun s => history.offered? n ≠ some s.id := by
        rw [arrival?] at h
        rw [offered?]
        cases hx : history[n]? with
        | none => simp
        | some x =>
          rw [hx, Option.bind_some] at h
          simp [buffer, h]
      calc (history[n]?.toList.foldl (buffer bound) settling).map some
          = (settling.map some).filter fun s => history.offered? n ≠ s.map (·.id) := by
            rw [hfilter, List.filter_map]
            rfl
        _ = _ := by
            rw [hsame, List.filter_map]
            rfl

end History

namespace Merger

variable {m next : Merger} {e : Event} {answer : Answer}

/-- One event changes what waits by the rule. -/
theorem Step.settling (hstep : m.Step e answer next) :
    next.settling = History.buffer m.bounds.settling.toNat m.settling (e, answer) := by
  cases hstep with
  | opens notOpen notSettled notWaiting =>
    -- no settlement of the swap waits, so none leaves
    refine (List.filter_eq_self.2 fun s hs => ?_).symm
    have hne := findSettling?_eq_none.1 notWaiting s hs
    exact decide_eq_true fun hid => hne (Option.some.inj hid).symm
  | pairs notOpen notSettled waiting =>
    refine List.filter_congr fun s _ => ?_
    simp [taken?, eq_comm]
  | waits notOpen notSettled notWaiting => rfl
  | _ => exact (List.filter_eq_self.2 fun s _ => by simp [taken?]).symm

/-- **What waits after a run is a fold of its history.** -/
theorem settling_run (m : Merger) (es : List Event) : (m.run es).2.settling =
    (es.zip (m.run es).1).foldl (History.buffer m.bounds.settling.toNat) m.settling := by
  induction es generalizing m with
  | nil => rfl
  | cons e es ih =>
    have hstep := step_spec m e
    rw [run, List.zip_cons_cons, List.foldl_cons, ← hstep.settling, ← hstep.bounds]
    exact ih _

/-- A settlement leaves the queue when the offer of its swap is taken in, or as the first of a full
queue when another is left to wait. -/
theorem Step.leaves {s : Settlement} (hstep : m.Step e answer next) (h : m.Consistent)
    (hmem : s ∈ m.settling) (hleft : s ∉ next.settling) : taken? (e, answer) = some s.id ∨
      (kept? (e, answer)).isSome ∧ m.settling.length = m.bounds.settling.toNat ∧
        m.settling.head? = some s := by
  rw [hstep.settling, History.buffer] at hleft
  cases hkept : kept? (e, answer) with
  | none =>
    rw [hkept] at hleft
    by_contra hnot
    exact hleft (List.mem_filter.2 ⟨hmem, by simpa [hkept] using hnot⟩)
  | some new =>
    simp only [hkept, enqueue] at hleft
    split at hleft
    · exact absurd hmem hleft
    · have hle := h.length_settling
      have hdrop : s ∉ m.settling.drop (m.settling.length + 1 - m.bounds.settling.toNat) :=
        fun hkeep => hleft (List.mem_append_left _ hkeep)
      -- at most one is dropped in front, so it is the first
      rcases Nat.lt_or_ge m.settling.length m.bounds.settling.toNat with hroom | hfull
      · rw [Nat.sub_eq_zero_of_le hroom, List.drop_zero] at hdrop
        exact absurd hmem hdrop
      · have hone : m.settling.length + 1 - m.bounds.settling.toNat = 1 := by omega
        refine .inr ⟨rfl, by omega, ?_⟩
        rw [hone] at hdrop
        obtain ⟨first, rest, hqueue⟩ := List.exists_cons_of_ne_nil (List.ne_nil_of_mem hmem)
        rw [hqueue] at hmem hdrop ⊢
        rcases List.mem_cons.1 hmem with rfl | hrest
        · rfl
        · exact absurd hrest hdrop

end Merger

namespace Keyed

/-- The map holds the settlements of the list under the swaps of the queue. -/
theorem Represents.map_settlingOrder {k : Keyed} {m : Merger} (h : Represents k m) :
    k.settlingOrder.map (k.settling[·]?) = m.settling.map some := by
  rw [h.settlingOrder, List.map_map]
  refine List.map_congr_left fun s hs => ?_
  exact (h.settling s.id s).2 ⟨hs, rfl⟩

/-- **Settlements wait and give way first in, first out.** What is buffered, in the order of the
queue, is what the history says: the settlements left to wait, in the order of arrival, less those
whose offer was taken in since and those that gave way. With a bound of zero nothing is buffered.
A settlement leaves for an offer of its swap, or as the first of a full buffer when another is left
to wait. The queue of the settled swaps is the end of all that have been settled. -/
theorem first_in_first_out (bounds : Bounds) (es : List Event) :
    let answers := ((fresh bounds).run es).1
    let k := ((fresh bounds).run es).2
    let history : History := es.zip answers
    (bounds.settling.toNat ≠ 0 → k.settlingOrder.map (k.settling[·]?) =
      (history.queue bounds.settling.toNat es.length).map history.arrival?) ∧
    (bounds.settling.toNat = 0 → k.settlingOrder = [] ∧ k.settling.size = 0) ∧
    (∀ (e : Event) (id : SwapId), id ∈ k.settlingOrder → id ∉ (k.process e).2.settlingOrder →
      taken? (e, (k.process e).1) = some id ∨
        (kept? (e, (k.process e).1)).isSome ∧ k.settlingOrder.length = bounds.settling.toNat ∧
          k.settlingOrder.head? = some id) ∧
    k.settledOrder =
      (settledIds answers).rtake (min (settledIds answers).length bounds.settled.toNat) := by
  intro answers k history
  have h : Represents k ((Merger.fresh bounds).run es).2 := represents_run bounds es
  have hanswers : answers = ((Merger.fresh bounds).run es).1 := answers_run bounds es
  have hm := Merger.consistent_run (Merger.consistent_fresh bounds) es
  have hbounds : ((Merger.fresh bounds).run es).2.bounds = bounds := Merger.bounds_run _ es
  refine ⟨fun hbound => ?_, fun hzero => ?_, fun e id hmem hleft => ?_, ?_⟩
  · have hlength : history.length = es.length := by
      rw [List.length_zip, hanswers, Merger.length_run, min_self]
    have hall : history.take es.length = history := by
      rw [← hlength, List.take_length]
    have hfold : ((history.take es.length).foldl
        (History.buffer bounds.settling.toNat) []).map some =
          (history.queue bounds.settling.toNat es.length).map history.arrival? :=
      (History.foldl_buffer hbound es.length).1
    rw [hall] at hfold
    rw [h.map_settlingOrder, Merger.settling_run, ← hanswers]
    exact hfold
  · have hwell := h.wellFormed hm
    have hsize := hwell.size_settling
    rw [h.bounds, hbounds, hzero] at hsize
    have hlength := hm.length_settling
    rw [hbounds, hzero] at hlength
    rw [h.settlingOrder, List.length_eq_zero_iff.1 (Nat.le_zero.1 hlength)]
    exact ⟨rfl, Nat.le_zero.1 hsize⟩
  · obtain ⟨hanswer, hnext⟩ := h.process hm e
    rw [h.settlingOrder] at hmem
    obtain ⟨s, hs, rfl⟩ := List.mem_map.1 hmem
    rw [hnext.settlingOrder] at hleft
    have hgone : s ∉ (((Merger.fresh bounds).run es).2.step e).2.settling :=
      fun hstays => hleft (List.mem_map.2 ⟨s, hstays, rfl⟩)
    rw [hanswer, h.settlingOrder, List.length_map, List.head?_map]
    rcases (Merger.step_spec _ e).leaves hm hs hgone with htaken | ⟨hkept, hfull, hfirst⟩
    · exact .inl htaken
    · rw [hbounds] at hfull
      exact .inr ⟨hkept, hfull, by rw [hfirst]; rfl⟩
  · rw [h.settledOrder, Merger.settled_run (Merger.consistent_fresh bounds), hanswers]
    simp only [Merger.fresh, List.nil_append, List.rtake]
    congr 1
    omega

/-- Three settlements may wait and one settled swap is remembered. The second settlement leaves from
the middle, for its offer; the fifth sends away the first; and the third leaves for its offer. -/
theorem first_in_first_out_five :
    let es : List Event := [.settled (.abort [1]), .settled (.claim [2] [7]),
      .settled (.abort [3]), .opened (sampleTerms [2]), .settled (.abort [4]),
      .settled (.claim [5] [8]), .opened (sampleTerms [3])]
    let k := ((fresh ⟨3, 1⟩).run es).2
    let history : History := es.zip ((fresh ⟨3, 1⟩).run es).1
    history.evicted 3 7 = [0] ∧ history.queue 3 7 = [4, 5] ∧
      k.settlingOrder.map (k.settling[·]?) = [some (.abort [4]), some (.claim [5] [8])] ∧
      k.settledOrder = [[3]] := by
  intro es k history
  have hqueue : history.queue 3 7 = [4, 5] := by decide +kernel
  obtain ⟨hbuffered, -, -, hsettled⟩ := first_in_first_out ⟨3, 1⟩ es
  have hbuffered := hbuffered (by decide)
  refine ⟨by decide +kernel, hqueue, ?_, ?_⟩
  · refine hbuffered.trans ?_
    show (history.queue 3 7).map history.arrival? = _
    rw [hqueue]
    decide +kernel
  · refine hsettled.trans ?_
    decide +kernel

end Keyed

end Swap

end ChainKit
