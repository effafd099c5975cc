import ChainKit.Swap.Merger
import Mathlib
/-!
# Runs of the merger

A run takes in a list of events one by one. A refused event is answered
with its error and changes nothing, so a run never stops. `Step` lists
what one event can do: an offer opens its swap, or ends it with the
settlement that waits; a settlement ends its swap, or waits; everything
else is refused. `step_spec` says that the merger does one of these.
-/

namespace ChainKit

namespace Swap

/-- What the merger answers to an event. -/
abbrev Answer := Except Error (Option Record)

/-- The terms that an event offers. -/
def Event.offer? : Event → Option SwapTerms
  | .opened terms => some terms
  | .settled _ => none

/-- The settlement that an event reports. -/
def Event.settlement? : Event → Option Settlement
  | .opened _ => none
  | .settled settlement => some settlement

/-- The offers among events, in order. -/
def offers (es : List Event) : List SwapTerms := es.filterMap Event.offer?

/-- The settlements among events, in order. -/
def settlements (es : List Event) : List Settlement := es.filterMap Event.settlement?

/-- The identifiers that are offered. -/
def offerIds (es : List Event) : List SwapId := (offers es).map (·.id)

/-- The identifiers that are settled. -/
def settlementIds (es : List Event) : List SwapId := (settlements es).map (·.id)

/-- The records of ended swaps among answers, in order. -/
def settledRecords (answers : List Answer) : List Record :=
  answers.filterMap fun
    | .ok (some record) => if record.isSettled then some record else none
    | _ => none

theorem settledRecords_append (as bs : List Answer) :
    settledRecords (as ++ bs) = settledRecords as ++ settledRecords bs :=
  List.filterMap_append

@[simp] theorem terms_settle (s : Settlement) (terms : SwapTerms) :
    (s.settle terms).terms = terms := by
  cases s <;> rfl

theorem settledRecords_settle (s : Settlement) (terms : SwapTerms) :
    settledRecords [.ok (some (s.settle terms))] = [s.settle terms] := by
  cases s <;> rfl

theorem settledRecords_opened (terms : SwapTerms) :
    settledRecords [.ok (some (.opened terms))] = [] := rfl

theorem settledRecords_none : settledRecords [.ok none] = [] := rfl

@[simp] theorem mem_offers {es : List Event} {terms : SwapTerms} :
    terms ∈ offers es ↔ .opened terms ∈ es := by
  simp only [offers, List.mem_filterMap]
  constructor
  · rintro ⟨e, he, h⟩
    cases e with
    | opened t => exact Option.some.inj h ▸ he
    | settled s => cases h
  · exact fun h => ⟨_, h, rfl⟩

@[simp] theorem mem_settlements {es : List Event} {s : Settlement} :
    s ∈ settlements es ↔ .settled s ∈ es := by
  simp only [settlements, List.mem_filterMap]
  constructor
  · rintro ⟨e, he, h⟩
    cases e with
    | opened t => cases h
    | settled s' => exact Option.some.inj h ▸ he
  · exact fun h => ⟨_, h, rfl⟩

@[simp] theorem offers_append (es fs : List Event) : offers (es ++ fs) = offers es ++ offers fs :=
  List.filterMap_append

@[simp] theorem settlements_append (es fs : List Event) :
    settlements (es ++ fs) = settlements es ++ settlements fs :=
  List.filterMap_append

@[simp] theorem offers_opened (terms : SwapTerms) : offers [.opened terms] = [terms] := rfl

@[simp] theorem offers_settled (s : Settlement) : offers [.settled s] = [] := rfl

@[simp] theorem settlements_opened (terms : SwapTerms) : settlements [.opened terms] = [] := rfl

@[simp] theorem settlements_settled (s : Settlement) : settlements [.settled s] = [s] := rfl

@[simp] theorem offerIds_append (es fs : List Event) :
    offerIds (es ++ fs) = offerIds es ++ offerIds fs := by
  simp [offerIds]

@[simp] theorem settlementIds_append (es fs : List Event) :
    settlementIds (es ++ fs) = settlementIds es ++ settlementIds fs := by
  simp [settlementIds]

@[simp] theorem offerIds_opened (terms : SwapTerms) : offerIds [.opened terms] = [terms.id] := rfl

@[simp] theorem offerIds_settled (s : Settlement) : offerIds [.settled s] = [] := rfl

@[simp] theorem settlementIds_opened (terms : SwapTerms) : settlementIds [.opened terms] = [] := rfl

@[simp] theorem settlementIds_settled (s : Settlement) : settlementIds [.settled s] = [s.id] := rfl

/-- An identifier is offered by some event. -/
theorem mem_offerIds {es : List Event} {id : SwapId} :
    id ∈ offerIds es ↔ ∃ terms, .opened terms ∈ es ∧ terms.id = id := by
  simp [offerIds]

/-- An identifier is settled by some event. -/
theorem mem_settlementIds {es : List Event} {id : SwapId} :
    id ∈ settlementIds es ↔ ∃ s, .settled s ∈ es ∧ s.id = id := by
  simp [settlementIds]

namespace Merger

/-- Takes in an event; a refused one is answered with its error and
changes nothing. -/
def step (m : Merger) (e : Event) : Answer × Merger :=
  match m.process e with
  | .ok (record, next) => (.ok record, next)
  | .error error => (.error error, m)

/-- Takes in events in order: the answers, and what is known in the end. -/
def run (m : Merger) : List Event → List Answer × Merger
  | [] => ([], m)
  | e :: es => ((m.step e).1 :: ((m.step e).2.run es).1, ((m.step e).2.run es).2)

/-- Every event is answered. -/
theorem length_run (m : Merger) (es : List Event) : (m.run es).1.length = es.length := by
  induction es generalizing m with
  | nil => rfl
  | cons e es ih => simp only [run, List.length_cons, ih]

/-- The merger that has seen nothing. -/
def fresh (bounds : Bounds) : Merger := { bounds }

/-- What one event can do. -/
inductive Step (m : Merger) : Event → Answer → Merger → Prop where
  /-- An offer opens its swap. -/
  | opens {terms : SwapTerms} (notOpen : m.findOpen? terms.id = none)
      (notSettled : terms.id ∉ m.settled) (notWaiting : m.findSettling? terms.id = none) :
      Step m (.opened terms) (.ok (some (.opened terms)))
        { m with opened := m.opened ++ [terms] }
  /-- An offer ends its swap with the settlement that waits for it. -/
  | pairs {terms : SwapTerms} {s : Settlement} (notOpen : m.findOpen? terms.id = none)
      (notSettled : terms.id ∉ m.settled) (waiting : m.findSettling? terms.id = some s) :
      Step m (.opened terms) (.ok (some (s.settle terms)))
        ({ m with settling := m.settling.filter fun s => s.id ≠ terms.id }.remember terms.id)
  /-- The swap of an offer is open already. -/
  | openAlready {terms found : SwapTerms} (isOpen : m.findOpen? terms.id = some found) :
      Step m (.opened terms) (.error (.duplicateOpen terms.id)) m
  /-- The swap of an offer is settled already. -/
  | offerTooLate {terms : SwapTerms} (notOpen : m.findOpen? terms.id = none)
      (isSettled : terms.id ∈ m.settled) :
      Step m (.opened terms) (.error (.alreadySettled terms.id)) m
  /-- A settlement ends its swap. -/
  | settles {s : Settlement} {terms : SwapTerms} (isOpen : m.findOpen? s.id = some terms) :
      Step m (.settled s) (.ok (some (s.settle terms)))
        ({ m with opened := m.opened.filter fun t => t.id ≠ s.id }.remember s.id)
  /-- A settlement waits for its offer, or is dropped where nothing may. -/
  | waits {s : Settlement} (notOpen : m.findOpen? s.id = none) (notSettled : s.id ∉ m.settled)
      (notWaiting : m.findSettling? s.id = none) :
      Step m (.settled s) (.ok none)
        { m with settling := enqueue m.bounds.settling.toNat m.settling s }
  /-- The swap of a settlement is settled already. -/
  | settledAlready {s : Settlement} (notOpen : m.findOpen? s.id = none)
      (isSettled : s.id ∈ m.settled) :
      Step m (.settled s) (.error (.alreadySettled s.id)) m
  /-- Another settlement of the swap waits already. -/
  | waitsAlready {s found : Settlement} (notOpen : m.findOpen? s.id = none)
      (notSettled : s.id ∉ m.settled) (waiting : m.findSettling? s.id = some found) :
      Step m (.settled s) (.error (.duplicateSettlement s.id)) m

/-- **The merger takes one of the steps.** -/
theorem step_spec (m : Merger) (e : Event) : Step m e (m.step e).1 (m.step e).2 := by
  cases e with
  | opened terms =>
    -- what is open is asked first, then what is settled, then what waits
    cases hopen : m.findOpen? terms.id with
    | some found =>
      have h : m.step (.opened terms) = (.error (.duplicateOpen terms.id), m) := by
        simp [step, process, processOpened, hopen, Except.map]
      rw [h]
      exact .openAlready hopen
    | none =>
      by_cases hsettled : terms.id ∈ m.settled
      · have h : m.step (.opened terms) = (.error (.alreadySettled terms.id), m) := by
          simp [step, process, processOpened, hopen, hsettled, Except.map]
        rw [h]
        exact .offerTooLate hopen hsettled
      · cases hwait : m.findSettling? terms.id with
        | some s =>
          have h : m.step (.opened terms) = (.ok (some (s.settle terms)),
              { m with settling := m.settling.filter fun s => s.id ≠ terms.id }.remember
                terms.id) := by
            simp [step, process, processOpened, hopen, hsettled, hwait, Except.map]
          rw [h]
          exact .pairs hopen hsettled hwait
        | none =>
          have h : m.step (.opened terms) = (.ok (some (.opened terms)),
              { m with opened := m.opened ++ [terms] }) := by
            simp [step, process, processOpened, hopen, hsettled, hwait, Except.map]
          rw [h]
          exact .opens hopen hsettled hwait
  | settled s =>
    cases hopen : m.findOpen? s.id with
    | some terms =>
      have h : m.step (.settled s) = (.ok (some (s.settle terms)),
          { m with opened := m.opened.filter fun t => t.id ≠ s.id }.remember s.id) := by
        simp [step, process, processSettled, hopen]
      rw [h]
      exact .settles hopen
    | none =>
      by_cases hsettled : s.id ∈ m.settled
      · have h : m.step (.settled s) = (.error (.alreadySettled s.id), m) := by
          simp [step, process, processSettled, hopen, hsettled]
        rw [h]
        exact .settledAlready hopen hsettled
      · cases hwait : m.findSettling? s.id with
        | some found =>
          have h : m.step (.settled s) = (.error (.duplicateSettlement s.id), m) := by
            simp [step, process, processSettled, hopen, hsettled, hwait]
          rw [h]
          exact .waitsAlready hopen hsettled hwait
        | none =>
          have h : m.step (.settled s) = (.ok none,
              { m with settling := enqueue m.bounds.settling.toNat m.settling s }) := by
            simp [step, process, processSettled, hopen, hsettled, hwait]
          rw [h]
          exact .waits hopen hsettled hwait

/-- No open swap has an identifier that is not found. -/
theorem findOpen?_eq_none {m : Merger} {id : SwapId} :
    m.findOpen? id = none ↔ ∀ terms ∈ m.opened, terms.id ≠ id := by
  simp [findOpen?]

/-- No settlement waits under an identifier that is not found. -/
theorem findSettling?_eq_none {m : Merger} {id : SwapId} :
    m.findSettling? id = none ↔ ∀ s ∈ m.settling, s.id ≠ id := by
  simp [findSettling?]

/-- What is found is open, under that identifier. -/
theorem mem_of_findOpen? {m : Merger} {id : SwapId} {terms : SwapTerms}
    (h : m.findOpen? id = some terms) : terms ∈ m.opened ∧ terms.id = id :=
  ⟨List.mem_of_find?_eq_some h, by simpa using List.find?_some h⟩

/-- What is found waits, under that identifier. -/
theorem mem_of_findSettling? {m : Merger} {id : SwapId} {s : Settlement}
    (h : m.findSettling? id = some s) : s ∈ m.settling ∧ s.id = id :=
  ⟨List.mem_of_find?_eq_some h, by simpa using List.find?_some h⟩

/-- What a queue keeps was there or is new. -/
theorem mem_of_mem_enqueue {α : Type} {bound : Nat} {queue : List α} {x y : α}
    (h : y ∈ enqueue bound queue x) : y ∈ queue ∨ y = x := by
  unfold enqueue at h
  split at h
  · exact .inl h
  · rcases List.mem_append.1 h with h | h
    · exact .inl (List.mem_of_mem_drop h)
    · exact .inr (by simpa using h)

/-- A queue with room keeps everything. -/
theorem enqueue_of_lt {α : Type} {bound : Nat} {queue : List α} {x : α}
    (h : queue.length < bound) : enqueue bound queue x = queue ++ [x] := by
  -- nothing is dropped in front
  have hzero : queue.length + 1 - bound = 0 := by omega
  rw [enqueue, if_neg (by omega), hzero, List.drop_zero]

end Merger

end Swap

end ChainKit
