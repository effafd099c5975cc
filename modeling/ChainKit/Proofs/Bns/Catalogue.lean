import ChainKit.Bns.Schema.Catalogue
import ChainKit.Proofs.Bns.Schema
import Mathlib
/-!
# The catalogue loses nothing

The catalogue names 37 message types (`entries`). Each is `Lossless` at a
depth below the levels that reading allows, so whatever value of it is
written is read back as it was: `entries_lossless`. Since two values never
share their bytes, a field that is present and empty is not taken for one
that is absent, nor elements of a repeated field for others in another
order or number.
-/

namespace ChainKit

namespace Bns

namespace Schema

open Wire

/-- Every message type is lossless, with levels to spare. -/
theorem exists_lossless_of_mem_entries :
    ∀ e ∈ entries, ∃ depth < Message.levels, Lossless e.carrier depth := by
  simp only [entries, List.forall_mem_cons, List.not_mem_nil, false_implies, implies_true, and_true]
  and_intros
  all_goals exact ⟨_, by decide, inferInstance⟩

/-- **Every message of the schema is read back from its bytes.** Whatever the type and the value,
if the number of the bytes is a word they are read as the value, and no other value has them. -/
theorem entries_lossless (e : Entry) (hmem : e ∈ entries) (x : e.carrier)
    (hlength : (Message.encode x).length < wordSize) :
    Message.decode? (Message.encode x) = some x ∧
      ∀ y : e.carrier, Message.encode y = Message.encode x → y = x := by
  obtain ⟨depth, hdepth, hlossless⟩ := exists_lossless_of_mem_entries e hmem
  refine ⟨decode?_encode hdepth hlength, fun y hsame => ?_⟩
  exact eq_of_encode_eq hdepth hlength hsame

/-- A key that is present and empty, a signature of no scheme, electors that repeat and come out of
order, and codes below zero. -/
theorem entries_lossless_samples :
    (let x : StdSignature := ⟨-1, some ⟨some []⟩, some ⟨none⟩⟩
     Message.decode? (Message.encode x) = some x) ∧
    (let x : Electorate := ⟨some ⟨-3⟩, [], "", [⟨[2], 7⟩, ⟨[1], 0⟩, ⟨[2], 7⟩], 0, 300⟩
     Message.decode? (Message.encode x) = some x) ∧
    (let x : ProposalState :=
      ⟨some ⟨0⟩, "é", [0], "", none, some ⟨[], 0⟩, -1, 0, 1, [],
        some ⟨1, 0, 0, 0, some ⟨0, 0⟩, none⟩, -1, 2, -2147483648⟩
     Message.decode? (Message.encode x) = some x) := by
  refine ⟨?_, ?_, ?_⟩
  · exact (entries_lossless ⟨_, StdSignature⟩ (List.mem_of_getElem? (i := 4) rfl) _
      (by decide +kernel)).1
  · exact (entries_lossless ⟨_, Electorate⟩ (List.mem_of_getElem? (i := 25) rfl) _
      (by decide +kernel)).1
  · exact (entries_lossless ⟨_, ProposalState⟩ (List.mem_of_getElem? (i := 29) rfl) _
      (by decide +kernel)).1

end Schema

end Bns

end ChainKit
