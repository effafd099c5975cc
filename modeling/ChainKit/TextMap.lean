/-!
# Text maps — values under distinct names, in the order of the names

A `TextMap` holds at most one value a name and lists its entries by name,
code point by code point. The order is part of the type, so two maps that
answer alike are equal.
-/

namespace ChainKit

/-- Values under distinct names, listed in the order of the names. -/
structure TextMap (α : Type) where
  entries : List (String × α)
  sorted : entries.Pairwise fun a b => a.1 < b.1

namespace TextMap

variable {α : Type}

instance [DecidableEq α] : DecidableEq (TextMap α) := fun a b =>
  decidable_of_iff (a.entries = b.entries)
    ⟨fun h => by cases a; cases b; simp_all, fun h => by rw [h]⟩

/-- The map without entries. -/
def empty : TextMap α := ⟨[], .nil⟩

instance : Inhabited (TextMap α) := ⟨empty⟩

/-- The entries with `value` under `name`, in the place of an older one. -/
def place (name : String) (value : α) : List (String × α) → List (String × α)
  | [] => [(name, value)]
  | entry :: rest =>
    if name < entry.1 then (name, value) :: entry :: rest
    else if name = entry.1 then (name, value) :: rest
    else entry :: place name value rest

/-- Only the name placed is new. -/
theorem mem_place {name : String} {value : α} {entries : List (String × α)} {e : String × α}
    (h : e ∈ place name value entries) : e.1 = name ∨ e ∈ entries := by
  induction entries with
  | nil => simp_all [place]
  | cons entry rest ih =>
    unfold place at h
    split at h
    · rcases List.mem_cons.1 h with h | h
      · exact .inl (by rw [h])
      · exact .inr h
    · split at h
      · rcases List.mem_cons.1 h with h | h
        · exact .inl (by rw [h])
        · exact .inr (List.mem_cons_of_mem _ h)
      · rcases List.mem_cons.1 h with h | h
        · exact .inr (by simp [h])
        · exact (ih h).imp id (List.mem_cons_of_mem _)

/-- Placing keeps the order. -/
theorem sorted_place {name : String} {value : α} {entries : List (String × α)}
    (h : entries.Pairwise fun a b => a.1 < b.1) :
    (place name value entries).Pairwise fun a b => a.1 < b.1 := by
  induction entries with
  | nil => simp [place]
  | cons entry rest ih =>
    obtain ⟨hd, tl⟩ := List.pairwise_cons.1 h
    unfold place
    split
    · rename_i lt
      refine List.pairwise_cons.2 ⟨fun e he => ?_, h⟩
      rcases List.mem_cons.1 he with rfl | he
      · exact lt
      · exact String.lt_trans lt (hd e he)
    · split
      · rename_i eq
        exact List.pairwise_cons.2 ⟨fun e he => eq ▸ hd e he, tl⟩
      · rename_i lt ne
        refine List.pairwise_cons.2 ⟨fun e he => ?_, ih tl⟩
        rcases mem_place he with he | he
        · have le := String.not_lt.1 lt
          rw [he]
          exact Classical.byContradiction fun h => ne (String.le_antisymm (String.not_lt.1 h) le)
        · exact hd e he

/-- The map with `value` under `name`, in the place of an older one. -/
def insert (m : TextMap α) (name : String) (value : α) : TextMap α :=
  ⟨place name value m.entries, sorted_place m.sorted⟩

/-- The map of a list of entries; a later entry takes the place of an
earlier one of its name. -/
def ofList (entries : List (String × α)) : TextMap α :=
  entries.foldl (fun m (name, value) => m.insert name value) empty

/-- The value under a name. -/
def find? (m : TextMap α) (name : String) : Option α :=
  (m.entries.find? fun entry => entry.1 = name).map (·.2)

/-- Whether a value stands under the name. -/
def contains (m : TextMap α) (name : String) : Bool := (m.find? name).isSome

end TextMap

end ChainKit
