import ChainKit.Proofs.Swap.Consistent
import ChainKit.Swap.Keyed
import Mathlib
/-!
# The keyed memory keeps what the lists keep

Five collections are changed by hand on every event: two maps, a set and
two queues. `Represents` says when they hold what a `Merger` lists; every
event keeps it and is answered alike (`Represents.process`), so both
mergers give the same answers on every run (`answers_run`). What the lists
keep is then kept by the collections: `WellFormed` says that each swap
stands in one of them under its own identifier, and that each queue lists
its collection. It holds after every run, where an event is refused for
what is known of its swap alone, and a refusal changes nothing
(`wellFormed_run`).
-/

namespace ChainKit

namespace Swap

namespace Keyed

/-! ## Maps of lists -/

section Indexes

variable {β : Type} {key : β → SwapId} {t : Std.ExtTreeMap SwapId β} {entries : List β}
variable {id : SwapId} {x : β}

/-- The map holds the entries of a list, each under its key. -/
def Indexes (key : β → SwapId) (t : Std.ExtTreeMap SwapId β) (entries : List β) : Prop :=
  ∀ id x, t[id]? = some x ↔ x ∈ entries ∧ key x = id

/-- A key that a map lacks is erased from it without a change. -/
theorem erase_eq_self (h : t[id]? = none) : t.erase id = t := by
  refine Std.ExtTreeMap.ext_getElem? fun a => ?_
  rw [Std.ExtTreeMap.getElem?_erase]
  split
  · rename_i heq
    rw [← Std.LawfulEqCmp.compare_eq_iff_eq.1 heq, h]
  · rfl

namespace Indexes

theorem mem_iff (h : Indexes key t entries) : id ∈ t ↔ id ∈ entries.map key := by
  rw [Std.ExtTreeMap.mem_iff_isSome_getElem?, Option.isSome_iff_exists, List.mem_map]
  exact exists_congr fun x => h id x

/-- A map is determined by the entries that it holds. -/
theorem unique {u : Std.ExtTreeMap SwapId β} {others : List β} (h : Indexes key t entries)
    (h' : Indexes key u others) (hsame : ∀ x, x ∈ entries ↔ x ∈ others) : t = u := by
  refine Std.ExtTreeMap.ext_getElem? fun id => Option.ext fun x => ?_
  rw [h id x, h' id x, hsame]

/-- The map has as many entries as the list. -/
theorem size (h : Indexes key t entries) (hnodup : (entries.map key).Nodup) :
    t.size = entries.length := by
  have hperm : t.keys.Perm (entries.map key) :=
    (List.perm_ext_iff_of_nodup Std.ExtTreeMap.nodup_keys hnodup).2 fun id => by
      rw [Std.ExtTreeMap.mem_keys, h.mem_iff]
  rw [← Std.ExtTreeMap.length_keys, hperm.length_eq, List.length_map]

/-- Without one key the map holds the entries of the others. -/
theorem erase (h : Indexes key t entries) (id : SwapId) :
    Indexes key (t.erase id) (entries.filter fun x => key x ≠ id) := by
  intro a x
  rw [Std.ExtTreeMap.getElem?_erase, List.mem_filter]
  simp only [Std.LawfulEqCmp.compare_eq_iff_eq, decide_eq_true_eq]
  split
  · rename_i heq
    subst heq
    simp only [reduceCtorEq, false_iff]
    rintro ⟨⟨-, hne⟩, heq⟩
    exact hne heq
  · rename_i hne
    rw [h a x]
    constructor
    · rintro ⟨hx, rfl⟩
      exact ⟨⟨hx, fun heq => hne heq.symm⟩, rfl⟩
    · rintro ⟨⟨hx, -⟩, rfl⟩
      exact ⟨hx, rfl⟩

/-- With a new key the map holds one entry more. -/
theorem insert (h : Indexes key t entries) (hnew : key x ∉ entries.map key) :
    Indexes key (t.insert (key x) x) (entries ++ [x]) := by
  intro a y
  rw [Std.ExtTreeMap.getElem?_insert, List.mem_append, List.mem_singleton]
  simp only [Std.LawfulEqCmp.compare_eq_iff_eq]
  split
  · rename_i heq
    subst heq
    rw [Option.some.injEq]
    constructor
    · rintro rfl
      exact ⟨.inr rfl, rfl⟩
    · rintro ⟨hy | rfl, heq⟩
      · exact absurd (List.mem_map.2 ⟨y, hy, heq⟩) hnew
      · rfl
  · rename_i hne
    rw [h a y]
    constructor
    · rintro ⟨hy, rfl⟩
      exact ⟨.inl hy, rfl⟩
    · rintro ⟨hy | rfl, rfl⟩
      · exact ⟨hy, rfl⟩
      · exact absurd rfl hne

/-- Without its first key the map holds the rest of the list. -/
theorem erase_head (h : Indexes key t (x :: entries)) (hnodup : ((x :: entries).map key).Nodup) :
    Indexes key (t.erase (key x)) entries := by
  have hrest : (x :: entries).filter (fun y => key y ≠ key x) = entries := by
    rw [List.map_cons, List.nodup_cons] at hnodup
    rw [List.filter_cons_of_neg (by simp), List.filter_eq_self]
    intro y hy
    simpa using fun heq => hnodup.1 (List.mem_map.2 ⟨y, hy, heq⟩)
  exact hrest ▸ h.erase (key x)

/-- What is found under a key in the map is found in the list. -/
theorem getElem?_eq_find? (h : Indexes key t entries) (hnodup : (entries.map key).Nodup)
    (id : SwapId) : t[id]? = entries.find? fun x => key x = id := by
  refine Option.ext fun x => (h id x).trans ?_
  constructor
  · rintro ⟨hx, rfl⟩
    cases hfind : entries.find? fun y => key y = key x with
    | none => simpa using List.find?_eq_none.1 hfind x hx
    | some y =>
      have heq : key y = key x := by simpa using List.find?_some hfind
      rw [List.inj_on_of_nodup_map hnodup (List.mem_of_find?_eq_some hfind) hx heq]
  · intro hfind
    exact ⟨List.mem_of_find?_eq_some hfind, by simpa using List.find?_some hfind⟩

end Indexes

end Indexes

/-! ## Entries that give way -/

/-- **Eviction keeps the end of the queue**, for every way in which a collection holds a queue
that knows its size and stays right without the first entry. -/
theorem evict_spec {σ β : Type} (holds : σ → List β → Prop) (key : β → SwapId) {size : σ → Nat}
    {erase : σ → SwapId → σ} (hsize : ∀ {s queue}, holds s queue → size s = queue.length)
    (herase : ∀ {s x queue}, holds s (x :: queue) → holds (erase s (key x)) queue)
    {bound : Nat} (hbound : bound ≠ 0) {s : σ} {queue : List β} (h : holds s queue) :
    (evict size erase bound (queue.map key) s).1 =
        (queue.drop (queue.length + 1 - bound)).map key ∧
      holds (evict size erase bound (queue.map key) s).2
        (queue.drop (queue.length + 1 - bound)) := by
  induction queue generalizing s with
  | nil =>
    have hzero : ([] : List β).length + 1 - bound = 0 := by
      rw [List.length_nil]
      omega
    rw [hzero]
    exact ⟨rfl, h⟩
  | cons x queue ih =>
    simp only [List.map_cons, evict, hsize h, List.length_cons]
    split
    · -- one more entry than for the rest of the queue gives way
      have hsucc : queue.length + 1 + 1 - bound = queue.length + 1 - bound + 1 := by omega
      rw [hsucc, List.drop_succ_cons]
      exact ih (herase h)
    · have hzero : queue.length + 1 + 1 - bound = 0 := by omega
      rw [hzero]
      exact ⟨rfl, h⟩

/-! ## Sets of lists -/

section Collects

variable {t : Std.ExtTreeSet SwapId} {ids : List SwapId} {id : SwapId}

/-- The set holds the elements of a list. -/
def Collects (t : Std.ExtTreeSet SwapId) (ids : List SwapId) : Prop := ∀ id, id ∈ t ↔ id ∈ ids

namespace Collects

/-- The set has as many elements as the list. -/
theorem size (h : Collects t ids) (hnodup : ids.Nodup) : t.size = ids.length := by
  have hdistinct : t.toList.Nodup := Std.ExtTreeSet.distinct_toList.imp fun hne heq =>
    hne (Std.LawfulEqCmp.compare_eq_iff_eq.2 heq)
  have hperm : t.toList.Perm ids := (List.perm_ext_iff_of_nodup hdistinct hnodup).2 fun id => by
    rw [Std.ExtTreeSet.mem_toList, h id]
  rw [← Std.ExtTreeSet.length_toList, hperm.length_eq]

/-- Without its first element the set holds the rest of the list. -/
theorem erase_head (h : Collects t (id :: ids)) (hnodup : (id :: ids).Nodup) :
    Collects (t.erase id) ids := by
  intro a
  rw [Std.ExtTreeSet.mem_erase, h a, List.mem_cons, ne_eq,
    Std.LawfulEqCmp.compare_eq_iff_eq]
  constructor
  · rintro ⟨hne, rfl | ha⟩
    · exact absurd rfl hne
    · exact ha
  · intro ha
    refine ⟨?_, .inr ha⟩
    rintro rfl
    exact (List.nodup_cons.1 hnodup).1 ha

/-- With one element more the set holds a longer list. -/
theorem insert (h : Collects t ids) (id : SwapId) : Collects (t.insert id) (ids ++ [id]) := by
  intro a
  rw [Std.ExtTreeSet.mem_insert, h a, List.mem_append, List.mem_singleton,
    Std.LawfulEqCmp.compare_eq_iff_eq, or_comm, eq_comm]

end Collects

end Collects

/-! ## The same merger -/

/-- The collections hold what the lists of a merger list. -/
structure Represents (k : Keyed) (m : Merger) : Prop where
  bounds : k.bounds = m.bounds
  opened : Indexes (·.id) k.opened m.opened
  settling : Indexes (·.id) k.settling m.settling
  settlingOrder : k.settlingOrder = m.settling.map (·.id)
  settled : Collects k.settled m.settled
  settledOrder : k.settledOrder = m.settled

namespace Represents

variable {k : Keyed} {m : Merger} {id : SwapId}

theorem fresh (bounds : Bounds) : Represents (fresh bounds) (Merger.fresh bounds) where
  bounds := rfl
  opened := by simp [Indexes, Keyed.fresh, Merger.fresh]
  settling := by simp [Indexes, Keyed.fresh, Merger.fresh]
  settlingOrder := rfl
  settled := by simp [Collects, Keyed.fresh, Merger.fresh]
  settledOrder := rfl

/-- Both remember a swap as settled. -/
theorem remember (h : Represents k m) (hnodup : m.settled.Nodup) (id : SwapId) :
    Represents (k.remember id) (m.remember id) := by
  unfold Keyed.remember Merger.remember Merger.enqueue
  rw [h.bounds]
  split
  · exact { h with }
  · rename_i hbound
    obtain ⟨hqueue, -, hset⟩ := evict_spec
      (fun (t : Std.ExtTreeSet SwapId) (ids : List SwapId) => ids.Nodup ∧ Collects t ids)
      (fun id => id) (fun h => h.2.size h.1)
      (fun h => ⟨(List.nodup_cons.1 h.1).2, h.2.erase_head h.1⟩) hbound ⟨hnodup, h.settled⟩
    rw [List.map_id', ← h.settledOrder] at hqueue hset
    exact { h with
      bounds := rfl
      settled := by
        rw [← h.settledOrder]
        exact hset.insert id
      settledOrder := by
        rw [← h.settledOrder]
        exact congrArg (· ++ [id]) (by simpa using hqueue) }

/-- With both a settlement waits. -/
theorem wait {s : Settlement} (h : Represents k m) (hm : m.Consistent)
    (notWaiting : m.findSettling? s.id = none) :
    Represents (k.wait s)
      { m with settling := Merger.enqueue m.bounds.settling.toNat m.settling s } := by
  unfold Keyed.wait Merger.enqueue
  rw [h.bounds]
  split
  · exact { h with }
  · rename_i hbound
    obtain ⟨hqueue, hnodup, hmap⟩ := evict_spec
      (fun (t : Std.ExtTreeMap SwapId Settlement) (ss : List Settlement) =>
        (ss.map (·.id)).Nodup ∧ Indexes (·.id) t ss)
      (·.id) (fun h => h.2.size h.1)
      (fun h => ⟨(List.nodup_cons.1 h.1).2, h.2.erase_head h.1⟩) hbound
      ⟨hm.settling_nodup, h.settling⟩
    rw [← h.settlingOrder] at hqueue hmap
    refine { h with bounds := rfl, settling := hmap.insert ?_, settlingOrder := ?_ }
    · intro hmem
      obtain ⟨found, hfound, hid⟩ := List.mem_map.1 hmem
      exact Merger.findSettling?_eq_none.1 notWaiting found (List.mem_of_mem_drop hfound) hid
    · simp only [List.map_append, List.map_singleton]
      exact congrArg (· ++ [s.id]) hqueue

/-- What is open in one is open in the other. -/
theorem getElem?_opened (h : Represents k m) (hm : m.Consistent) (id : SwapId) :
    k.opened[id]? = m.findOpen? id :=
  h.opened.getElem?_eq_find? hm.opened_nodup id

/-- What waits in one waits in the other. -/
theorem getElem?_settling (h : Represents k m) (hm : m.Consistent) (id : SwapId) :
    k.settling[id]? = m.findSettling? id :=
  h.settling.getElem?_eq_find? hm.settling_nodup id

theorem mem_opened (h : Represents k m) (hm : m.Consistent) :
    id ∈ k.opened ↔ (m.findOpen? id).isSome := by
  rw [Std.ExtTreeMap.mem_iff_isSome_getElem?, h.getElem?_opened hm]

theorem mem_settling (h : Represents k m) (hm : m.Consistent) :
    id ∈ k.settling ↔ (m.findSettling? id).isSome := by
  rw [Std.ExtTreeMap.mem_iff_isSome_getElem?, h.getElem?_settling hm]

/-- **Both answer an event alike**, and know the same afterwards. -/
theorem process (h : Represents k m) (hm : m.Consistent) (e : Event) :
    (k.process e).1 = (m.step e).1 ∧ Represents (k.process e).2 (m.step e).2 := by
  have hstep := Merger.step_spec m e
  have hnext := hstep.consistent hm
  generalize (m.step e).1 = answer at hstep ⊢
  generalize (m.step e).2 = next at hstep hnext ⊢
  -- both look a swap up in the same collections, in the same order
  have hopened := h.getElem?_opened hm
  have hsettling := h.getElem?_settling hm
  have hsettled := h.settled
  cases hstep with
  | @opens terms notOpen notSettled notWaiting =>
    have hrest : k.settling.erase terms.id = k.settling :=
      erase_eq_self ((hsettling _).trans notWaiting)
    have hnew : terms.id ∉ m.opened.map (·.id) := by
      rw [← h.opened.mem_iff, h.mem_opened hm, notOpen]
      exact Bool.false_ne_true
    simp only [Keyed.process, processOpened, h.mem_opened hm, notOpen, hsettled _, notSettled,
      hsettling, notWaiting, hrest, Option.isSome_none, Bool.false_eq_true, if_false]
    exact ⟨rfl, { h with opened := h.opened.insert hnew }⟩
  | @pairs terms s notOpen notSettled waiting =>
    simp only [Keyed.process, processOpened, h.mem_opened hm, notOpen, hsettled _, notSettled,
      hsettling, waiting, Option.isSome_none, Bool.false_eq_true, if_false]
    have hrest : Represents
        { k with
          settling := k.settling.erase terms.id
          settlingOrder := k.settlingOrder.filter (· ≠ terms.id) }
        { m with settling := m.settling.filter fun s => s.id ≠ terms.id } :=
      { h with
        settling := h.settling.erase terms.id
        settlingOrder := by rw [h.settlingOrder, List.filter_map]; rfl }
    exact ⟨rfl, hrest.remember hm.settled_nodup terms.id⟩
  | @openAlready terms found isOpen =>
    simp only [Keyed.process, processOpened, h.mem_opened hm, isOpen, Option.isSome_some, if_true]
    exact ⟨rfl, h⟩
  | @offerTooLate terms notOpen isSettled =>
    simp only [Keyed.process, processOpened, h.mem_opened hm, notOpen, hsettled _, isSettled,
      Option.isSome_none, Bool.false_eq_true, if_false, if_true]
    exact ⟨rfl, h⟩
  | @settles s terms isOpen =>
    simp only [Keyed.process, processSettled, hopened, isOpen]
    have hrest : Represents { k with opened := k.opened.erase s.id }
        { m with opened := m.opened.filter fun t => t.id ≠ s.id } :=
      { h with opened := h.opened.erase s.id }
    exact ⟨trivial, hrest.remember hm.settled_nodup s.id⟩
  | @waits s notOpen notSettled notWaiting =>
    have hrest : k.opened.erase s.id = k.opened := erase_eq_self ((hopened _).trans notOpen)
    simp only [Keyed.process, processSettled, hopened, notOpen, hrest, hsettled _, notSettled,
      h.mem_settling hm, notWaiting, Option.isSome_none, Bool.false_eq_true, if_false]
    exact ⟨trivial, h.wait hm notWaiting⟩
  | @settledAlready s notOpen isSettled =>
    have hrest : k.opened.erase s.id = k.opened := erase_eq_self ((hopened _).trans notOpen)
    simp only [Keyed.process, processSettled, hopened, notOpen, hrest, hsettled _, isSettled,
      if_true]
    exact ⟨trivial, h⟩
  | @waitsAlready s found notOpen notSettled waiting =>
    have hrest : k.opened.erase s.id = k.opened := erase_eq_self ((hopened _).trans notOpen)
    simp only [Keyed.process, processSettled, hopened, notOpen, hrest, hsettled _, notSettled,
      h.mem_settling hm, waiting, Option.isSome_some, if_false, if_true]
    exact ⟨trivial, h⟩

end Represents

/-! ## Runs -/

/-- Takes in events in order: the answers, and what is known in the end. -/
def run (k : Keyed) : List Event → List Answer × Keyed
  | [] => ([], k)
  | e :: es => ((k.process e).1 :: ((k.process e).2.run es).1, ((k.process e).2.run es).2)

/-- A run goes on where the events before have led. -/
theorem run_append (k : Keyed) (es fs : List Event) :
    k.run (es ++ fs) = ((k.run es).1 ++ ((k.run es).2.run fs).1, ((k.run es).2.run fs).2) := by
  induction es generalizing k with
  | nil => rfl
  | cons e es ih => simp only [List.cons_append, run, ih]

variable {k : Keyed} {m : Merger}

/-- Both give the same answers to a run, and know the same afterwards. -/
theorem Represents.run (h : Represents k m) (hm : m.Consistent) (es : List Event) :
    (k.run es).1 = (m.run es).1 ∧ Represents (k.run es).2 (m.run es).2 := by
  induction es generalizing k m with
  | nil => exact ⟨rfl, h⟩
  | cons e es ih =>
    obtain ⟨hanswer, hnext⟩ := h.process hm e
    obtain ⟨hanswers, hlast⟩ := ih hnext ((Merger.step_spec m e).consistent hm)
    exact ⟨by rw [Keyed.run, Merger.run, hanswer, hanswers], hlast⟩

/-- **The keyed merger answers like the one that keeps lists**, whatever comes. -/
theorem answers_run (bounds : Bounds) (es : List Event) :
    ((fresh bounds).run es).1 = ((Merger.fresh bounds).run es).1 :=
  ((Represents.fresh bounds).run (Merger.consistent_fresh bounds) es).1

/-- And it knows the same. -/
theorem represents_run (bounds : Bounds) (es : List Event) :
    Represents ((fresh bounds).run es).2 ((Merger.fresh bounds).run es).2 :=
  ((Represents.fresh bounds).run (Merger.consistent_fresh bounds) es).2

/-! ## What the collections keep -/

/-- Each swap stands in one collection, under its own identifier; each queue lists its
collection, and the bounds are kept. -/
structure WellFormed (k : Keyed) : Prop where
  opened_settling : ∀ id ∈ k.opened, id ∉ k.settling
  opened_settled : ∀ id ∈ k.opened, id ∉ k.settled
  settling_settled : ∀ id ∈ k.settling, id ∉ k.settled
  settlingOrder_nodup : k.settlingOrder.Nodup
  mem_settlingOrder : ∀ id, id ∈ k.settlingOrder ↔ id ∈ k.settling
  settledOrder_nodup : k.settledOrder.Nodup
  mem_settledOrder : ∀ id, id ∈ k.settledOrder ↔ id ∈ k.settled
  opened_id : ∀ id (terms : SwapTerms), k.opened[id]? = some terms → terms.id = id
  settling_id : ∀ id (s : Settlement), k.settling[id]? = some s → s.id = id
  size_settling : k.settling.size ≤ k.bounds.settling.toNat
  size_settled : k.settled.size ≤ k.bounds.settled.toNat

/-- Collections that hold consistent lists are well formed. -/
theorem Represents.wellFormed (h : Represents k m) (hm : m.Consistent) : k.WellFormed where
  opened_settling id hopened hsettling := by
    obtain ⟨terms, hterms, rfl⟩ := List.mem_map.1 (h.opened.mem_iff.1 hopened)
    obtain ⟨s, hs, hid⟩ := List.mem_map.1 (h.settling.mem_iff.1 hsettling)
    exact hm.opened_settling terms hterms s hs hid.symm
  opened_settled id hopened hsettled := by
    obtain ⟨terms, hterms, rfl⟩ := List.mem_map.1 (h.opened.mem_iff.1 hopened)
    exact hm.opened_settled terms hterms ((h.settled _).1 hsettled)
  settling_settled id hsettling hsettled := by
    obtain ⟨s, hs, rfl⟩ := List.mem_map.1 (h.settling.mem_iff.1 hsettling)
    exact hm.settling_settled s hs ((h.settled _).1 hsettled)
  settlingOrder_nodup := h.settlingOrder ▸ hm.settling_nodup
  mem_settlingOrder id := by rw [h.settlingOrder, h.settling.mem_iff]
  settledOrder_nodup := h.settledOrder ▸ hm.settled_nodup
  mem_settledOrder id := by rw [h.settledOrder, h.settled id]
  opened_id id terms hterms := ((h.opened id terms).1 hterms).2
  settling_id id s hs := ((h.settling id s).1 hs).2
  size_settling := by
    rw [h.bounds, h.settling.size hm.settling_nodup]
    exact hm.length_settling
  size_settled := by
    rw [h.bounds, h.settled.size hm.settled_nodup]
    exact hm.length_settled

/-- A refusal changes nothing, though a settlement is looked up by taking its swap out. -/
theorem process_of_error {e : Event} {error : Error} (h : (k.process e).1 = .error error) :
    (k.process e).2 = k := by
  cases e with
  | opened terms =>
    simp only [process, processOpened] at h ⊢
    split
    · rfl
    · split
      · rfl
      · rename_i hopened hsettled
        simp only [hopened, hsettled, if_false] at h
        split at h <;> cases h
  | settled s =>
    simp only [process, processSettled] at h ⊢
    cases hopen : k.opened[s.id]? with
    | some terms =>
      rw [hopen] at h
      cases h
    | none =>
      simp only [hopen, erase_eq_self hopen] at h ⊢
      split
      · rfl
      · split
        · rfl
        · rename_i hsettled hwaiting
          simp only [hsettled, hwaiting, if_false] at h
          cases h

/-- **The five collections stay well formed**, whatever comes and whatever the bounds. Where they
have got to, an offer is refused exactly for an open or a settled swap, a settlement exactly for a
settled swap or beside one that waits, and a refusal leaves all of them as they are. -/
theorem wellFormed_run (bounds : Bounds) (es : List Event) :
    let k := ((fresh bounds).run es).2
    k.bounds = bounds ∧ k.WellFormed ∧
      (∀ (terms : SwapTerms) (error : Error), (k.process (.opened terms)).1 = .error error ↔
        (terms.id ∈ k.opened ∧ error = .duplicateOpen terms.id) ∨
          (terms.id ∈ k.settled ∧ error = .alreadySettled terms.id)) ∧
      (∀ (s : Settlement) (error : Error), (k.process (.settled s)).1 = .error error ↔
        (s.id ∈ k.settled ∧ error = .alreadySettled s.id) ∨
          (s.id ∈ k.settling ∧ error = .duplicateSettlement s.id)) ∧
      ∀ (e : Event) (error : Error), (k.process e).1 = .error error → (k.process e).2 = k := by
  intro k
  have hm := Merger.consistent_run (Merger.consistent_fresh bounds) es
  have h : Represents k ((Merger.fresh bounds).run es).2 :=
    ((Represents.fresh bounds).run (Merger.consistent_fresh bounds) es).2
  refine ⟨?_, h.wellFormed hm, ?_, ?_, fun e error => process_of_error⟩
  · rw [h.bounds, Merger.bounds_run]
    rfl
  · intro terms error
    rw [(h.process hm _).1, hm.step_opened_eq_error, h.mem_opened hm, h.settled]
  · intro s error
    rw [(h.process hm _).1, hm.step_settled_eq_error, h.mem_settling hm, h.settled]

end Keyed

end Swap

end ChainKit
