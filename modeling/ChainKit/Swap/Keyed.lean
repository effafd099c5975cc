import ChainKit.Swap.Merger
import Std.Data.ExtTreeMap
import Std.Data.ExtTreeSet

/-!
# A merger with keyed memory

The lists of a `Merger` are searched from one end to the other. Here the
open swaps and the waiting settlements stand in maps under the identifier
of their swap, and the settled swaps in a set; two queues tell in which
order the entries of the bounded collections give way. The collections are
changed one after the other, so a change made before a refusal would stay.
-/

namespace ChainKit

namespace Swap

/-- What is known of the swaps seen so far, under their identifiers. -/
structure Keyed where
  bounds : Bounds := {}
  /-- The open swaps. -/
  opened : Std.ExtTreeMap SwapId SwapTerms := ∅
  /-- The settlements that wait for their offers. -/
  settling : Std.ExtTreeMap SwapId Settlement := ∅
  /-- The swaps of these settlements, in the order of arrival. -/
  settlingOrder : List SwapId := []
  /-- The swaps remembered as settled. -/
  settled : Std.ExtTreeSet SwapId := ∅
  /-- The same swaps in the order of settling. -/
  settledOrder : List SwapId := []

namespace Keyed

/-- Erases the entries that are first in their queue, as long as there
are `bound` of them or more. -/
def evict {σ : Type} (size : σ → Nat) (erase : σ → SwapId → σ) (bound : Nat) :
    List SwapId → σ → List SwapId × σ
  | [], entries => ([], entries)
  | oldest :: queue, entries =>
    if bound ≤ size entries then evict size erase bound queue (erase entries oldest)
    else (oldest :: queue, entries)

/-- Remembers a swap as settled. -/
def remember (k : Keyed) (id : SwapId) : Keyed :=
  if k.bounds.settled.toNat = 0 then k
  else
    let (queue, settled) :=
      evict (·.size) (·.erase ·) k.bounds.settled.toNat k.settledOrder k.settled
    { k with settledOrder := queue ++ [id], settled := settled.insert id }

/-- Lets a settlement wait. -/
def wait (k : Keyed) (settlement : Settlement) : Keyed :=
  if k.bounds.settling.toNat = 0 then k
  else
    let (queue, settling) :=
      evict (·.size) (·.erase ·) k.bounds.settling.toNat k.settlingOrder k.settling
    { k with
      settlingOrder := queue ++ [settlement.id]
      settling := settling.insert settlement.id settlement }

/-- Takes in an offer: it opens its swap, or ends it if its settlement
waits already. -/
def processOpened (k : Keyed) (terms : SwapTerms) : Except Error Record × Keyed :=
  if terms.id ∈ k.opened then (.error (.duplicateOpen terms.id), k)
  else if terms.id ∈ k.settled then (.error (.alreadySettled terms.id), k)
  else
    let waiting := k.settling[terms.id]?
    let k := { k with settling := k.settling.erase terms.id }
    match waiting with
    | some settlement =>
      let k := { k with settlingOrder := k.settlingOrder.filter (· ≠ terms.id) }
      (.ok (settlement.settle terms), k.remember terms.id)
    | none => (.ok (.opened terms), { k with opened := k.opened.insert terms.id terms })

/-- Takes in a settlement: it ends an open swap, or waits for its offer. -/
def processSettled (k : Keyed) (settlement : Settlement) :
    Except Error (Option Record) × Keyed :=
  let found := k.opened[settlement.id]?
  let k := { k with opened := k.opened.erase settlement.id }
  match found with
  | some terms => (.ok (some (settlement.settle terms)), k.remember settlement.id)
  | none =>
    if settlement.id ∈ k.settled then (.error (.alreadySettled settlement.id), k)
    else if settlement.id ∈ k.settling then (.error (.duplicateSettlement settlement.id), k)
    else (.ok none, k.wait settlement)

/-- Takes in an event: the answer, and what is known afterwards, also
after a refusal. The record says what became of the event's swap; there is
none for a settlement that has to wait or cannot be kept. -/
def process (k : Keyed) : Event → Except Error (Option Record) × Keyed
  | .opened terms =>
    let (answer, k) := k.processOpened terms
    (answer.map some, k)
  | .settled settlement => k.processSettled settlement

/-- The merger that has seen nothing. -/
def fresh (bounds : Bounds) : Keyed := { bounds }

end Keyed

end Swap

end ChainKit
