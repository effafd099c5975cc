import ChainKit.Swap.Basic

/-!
# Merging swap events

Chains are scanned piecemeal, so the offer of a swap and its settlement
arrive in either order, and more than once. The merger pairs them: an
offer opens its swap, a claim or an abort settles it, and a settlement
that comes before its offer waits for it. Settled swaps are remembered, so
a repeated event is an error.

Two bounds keep the memory finite. When either is reached, the entry that
arrived first gives way; with a bound of zero nothing is kept.
-/

namespace ChainKit

namespace Swap

/-- How a swap ends. -/
inductive Settlement where
  | claim (id : SwapId) (preimage : Bytes)
  | abort (id : SwapId)
  deriving DecidableEq, Repr

/-- The swap that a settlement is about. -/
def Settlement.id : Settlement → SwapId
  | .claim id _ => id
  | .abort id => id

/-- What a chain scan reports. -/
inductive Event where
  | opened (terms : SwapTerms)
  | settled (settlement : Settlement)
  deriving DecidableEq, Repr

/-- The swap that an event is about. -/
def Event.id : Event → SwapId
  | .opened terms => terms.id
  | .settled settlement => settlement.id

/-- What became of a swap. -/
inductive Record where
  | opened (terms : SwapTerms)
  | claimed (terms : SwapTerms) (preimage : Bytes)
  | aborted (terms : SwapTerms)
  deriving DecidableEq, Repr

namespace Record

/-- The terms of the swap. -/
def terms : Record → SwapTerms
  | opened terms => terms
  | claimed terms _ => terms
  | aborted terms => terms

/-- Whether the swap has ended. -/
def isSettled : Record → Bool
  | opened _ => false
  | claimed .. => true
  | aborted _ => true

end Record

/-- The record of a swap that a settlement ends. -/
def Settlement.settle (s : Settlement) (terms : SwapTerms) : Record :=
  match s with
  | .claim _ preimage => .claimed terms preimage
  | .abort _ => .aborted terms

/-- Why an event is refused. -/
inductive Error where
  | duplicateOpen (id : SwapId)
  | duplicateSettlement (id : SwapId)
  | alreadySettled (id : SwapId)
  deriving DecidableEq, Repr

/-- The wording of a refusal. -/
def Error.message : Error → String
  | .duplicateOpen id => s!"swap {Text.Hex.encode id} is already open"
  | .duplicateSettlement id => s!"swap {Text.Hex.encode id} already has a pending settlement"
  | .alreadySettled id => s!"swap {Text.Hex.encode id} is already settled"

/-- The bounds of a merger's memory. -/
structure Bounds where
  /-- How many settlements may wait for their offers. -/
  settling : UInt64 := 10000
  /-- How many settled swaps are remembered. -/
  settled : UInt64 := 100000
  deriving DecidableEq, Repr

namespace Bounds

/-- Bounds that are never reached. -/
def unbounded : Bounds := ⟨0xFFFFFFFFFFFFFFFF, 0xFFFFFFFFFFFFFFFF⟩

def toJson (b : Bounds) : Json :=
  .record [("max_settling", .integer b.settling.toNat), ("max_settled", .integer b.settled.toNat)]

def ofJson? (j : Json) : Option Bounds := do
  let f ← j.fields? 2
  let default : Bounds := {}
  return {
    settling := ← f.withDefault 0 ["max_settling"] default.settling Json.uint64?
    settled := ← f.withDefault 1 ["max_settled"] default.settled Json.uint64? }

end Bounds

/-- What is known of the swaps seen so far. -/
structure Merger where
  bounds : Bounds := {}
  /-- The open swaps, in the order of their offers. -/
  opened : List SwapTerms := []
  /-- The settlements that wait for their offers, in the order of arrival. -/
  settling : List Settlement := []
  /-- The swaps remembered as settled, in the order of settling. -/
  settled : List SwapId := []
  deriving DecidableEq, Repr

namespace Merger

/-- The open swap with this identifier. -/
def findOpen? (m : Merger) (id : SwapId) : Option SwapTerms := m.opened.find? fun t => t.id = id

/-- The waiting settlement of this identifier. -/
def findSettling? (m : Merger) (id : SwapId) : Option Settlement :=
  m.settling.find? fun s => s.id = id

/-- Appends `x` to a queue of at most `bound`, the first entries giving
way; a queue of bound zero stays as it is. -/
def enqueue {α : Type} (bound : Nat) (queue : List α) (x : α) : List α :=
  if bound = 0 then queue else queue.drop (queue.length + 1 - bound) ++ [x]

/-- Remembers a swap as settled. -/
def remember (m : Merger) (id : SwapId) : Merger :=
  { m with settled := enqueue m.bounds.settled.toNat m.settled id }

/-- Takes in an offer: it opens its swap, or ends it if its settlement
waits already. -/
def processOpened (m : Merger) (terms : SwapTerms) : Except Error (Record × Merger) :=
  if (m.findOpen? terms.id).isSome then .error (.duplicateOpen terms.id)
  else if m.settled.contains terms.id then .error (.alreadySettled terms.id)
  else match m.findSettling? terms.id with
    | some settlement =>
      let settling := m.settling.filter fun s => s.id ≠ terms.id
      .ok (settlement.settle terms, { m with settling }.remember terms.id)
    | none => .ok (.opened terms, { m with opened := m.opened ++ [terms] })

/-- Takes in a settlement: it ends an open swap, or waits for its offer. -/
def processSettled (m : Merger) (settlement : Settlement) :
    Except Error (Option Record × Merger) :=
  match m.findOpen? settlement.id with
  | some terms =>
    let opened := m.opened.filter fun t => t.id ≠ settlement.id
    .ok (some (settlement.settle terms), { m with opened }.remember settlement.id)
  | none =>
    if m.settled.contains settlement.id then .error (.alreadySettled settlement.id)
    else if (m.findSettling? settlement.id).isSome then .error (.duplicateSettlement settlement.id)
    else
      .ok (none, { m with settling := enqueue m.bounds.settling.toNat m.settling settlement })

/-- Takes in an event. The record says what became of its swap; there is
none for a settlement that has to wait or cannot be kept. A refused event
changes nothing. -/
def process (m : Merger) : Event → Except Error (Option Record × Merger)
  | .opened terms => (m.processOpened terms).map fun (record, m) => (some record, m)
  | .settled settlement => m.processSettled settlement

end Merger

end Swap

end ChainKit
