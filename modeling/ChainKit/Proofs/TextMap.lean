import ChainKit.TextMap
import Mathlib
/-!
# Text maps are rebuilt from their entries

A name above all others is placed at the end, so placing the entries of a
map one after the other makes the same list again. In whatever order
entries under distinct names are placed, the map is the same
(`perm_ofList`, `eq_of_perm`). Of entries under one name the last counts
(`find?_ofList`), and the others are lost (`length_ofList_iff`).
-/

namespace ChainKit

namespace TextMap

variable {α : Type} {name : String} {value : α} {entries : List (String × α)}

theorem ext_entries {m n : TextMap α} (h : m.entries = n.entries) : m = n := by
  cases m
  cases n
  cases h
  rfl

/-- A name above all others stands at the end. -/
theorem place_of_lt (h : ∀ e ∈ entries, e.1 < name) :
    place name value entries = entries ++ [(name, value)] := by
  induction entries with
  | nil => rfl
  | cons entry rest ih =>
    have hlt := h entry List.mem_cons_self
    have hne : name ≠ entry.1 := by
      rintro rfl
      exact String.lt_irrefl _ hlt
    rw [place, if_neg (String.lt_asymm hlt), if_neg hne,
      ih fun e he => h e (List.mem_cons_of_mem _ he), List.cons_append]

/-- A name above all others is new. -/
theorem contains_of_lt {m : TextMap α} (h : ∀ e ∈ m.entries, e.1 < name) :
    m.contains name = false := by
  have hnone : m.entries.find? (fun e => decide (e.1 = name)) = none := by
    rw [List.find?_eq_none]
    intro e he heq
    have hlt := h e he
    rw [of_decide_eq_true heq] at hlt
    exact String.lt_irrefl _ hlt
  simp [contains, find?, hnone]

/-- A value that is found stands under its name. -/
theorem mem_of_find? {m : TextMap α} (h : m.find? name = some value) :
    (name, value) ∈ m.entries := by
  obtain ⟨e, he, hvalue⟩ := Option.map_eq_some_iff.1 h
  have hname : e.1 = name := by simpa using List.find?_some he
  obtain ⟨n, v⟩ := e
  cases hname
  cases hvalue
  exact List.mem_of_find?_eq_some he

/-- No name stands in a map twice. -/
theorem nodup_names (m : TextMap α) : (m.entries.map Prod.fst).Nodup := by
  refine List.pairwise_map.2 (m.sorted.imp ?_)
  intro a b hlt heq
  rw [heq] at hlt
  exact String.lt_irrefl _ hlt

/-- No two entries of a map have one name. -/
theorem eq_of_mem {m : TextMap α} {d e : String × α} (hd : d ∈ m.entries) (he : e ∈ m.entries)
    (h : d.1 = e.1) : d = e :=
  List.inj_on_of_nodup_map m.nodup_names hd he h

/-- The value of an entry is found under its name. -/
theorem find?_of_mem {m : TextMap α} {e : String × α} (he : e ∈ m.entries) :
    m.find? e.1 = some e.2 := by
  rw [find?]
  cases hfind : m.entries.find? fun d => d.1 = e.1 with
  | none => exact absurd (List.find?_eq_none.1 hfind e he) (by simp)
  | some d =>
    have hname : d.1 = e.1 := by simpa using List.find?_some hfind
    rw [eq_of_mem (List.mem_of_find?_eq_some hfind) he hname, Option.map_some]

/-- What is found under a name stands there, and all that stands there is found. -/
theorem find?_eq_some {m : TextMap α} : m.find? name = some value ↔ (name, value) ∈ m.entries :=
  ⟨mem_of_find?, find?_of_mem⟩

/-- A name is in the map if some entry has it. -/
theorem contains_iff {m : TextMap α} : m.contains name = true ↔ name ∈ m.entries.map Prod.fst := by
  simp [contains, find?, List.find?_isSome]

theorem mem_map_fst_place {k : String} :
    k ∈ (place name value entries).map Prod.fst ↔ k = name ∨ k ∈ entries.map Prod.fst := by
  induction entries with
  | nil => simp [place]
  | cons entry rest ih =>
    rw [place]
    split
    · simp
    · split
      · rename_i heq
        simp [heq]
      · rw [List.map_cons, List.mem_cons, ih, List.map_cons, List.mem_cons, or_left_comm]

/-- Inserting adds one name. -/
theorem contains_insert {m : TextMap α} {k : String} :
    (m.insert name value).contains k = true ↔ k = name ∨ m.contains k = true := by
  rw [contains_iff, contains_iff]
  exact mem_map_fst_place

/-- What is placed is new, all else was there. -/
theorem eq_or_mem_of_mem_place {e : String × α} (h : e ∈ place name value entries) :
    e = (name, value) ∨ e ∈ entries := by
  induction entries with
  | nil => simpa [place] using h
  | cons entry rest ih =>
    rw [place] at h
    split at h
    · exact List.mem_cons.1 h
    · split at h
      · exact (List.mem_cons.1 h).imp_right (List.mem_cons_of_mem _)
      · rcases List.mem_cons.1 h with rfl | h
        · exact .inr List.mem_cons_self
        · exact (ih h).imp_right (List.mem_cons_of_mem _)

/-- What stands in a map after insertions was inserted or stood there before. -/
theorem mem_of_mem_foldl_insert {m : TextMap α} {rest : List (String × α)} {e : String × α}
    (h : e ∈ (rest.foldl (fun m (name, value) => m.insert name value) m).entries) :
    e ∈ m.entries ∨ e ∈ rest := by
  induction rest generalizing m with
  | nil => exact .inl h
  | cons d rest ih =>
    rcases ih (m := m.insert d.1 d.2) h with h | h
    · rcases eq_or_mem_of_mem_place h with rfl | h
      · exact .inr List.mem_cons_self
      · exact .inl h
    · exact .inr (List.mem_cons_of_mem _ h)

/-- What stands in the map of a list stands in the list. -/
theorem mem_of_mem_ofList {rest : List (String × α)} {e : String × α}
    (h : e ∈ (ofList rest).entries) : e ∈ rest :=
  (mem_of_mem_foldl_insert h).resolve_left List.not_mem_nil

/-- What is placed under a new name is added. -/
theorem perm_place (h : name ∉ entries.map Prod.fst) :
    (place name value entries).Perm ((name, value) :: entries) := by
  induction entries with
  | nil => exact .rfl
  | cons entry rest ih =>
    rw [List.map_cons, List.mem_cons, not_or] at h
    rw [place]
    split
    · exact .rfl
    · rw [if_neg h.1]
      exact ((ih h.2).cons entry).trans (.swap _ _ _)

/-- Entries under distinct new names are added. -/
theorem perm_foldl_insert {m : TextMap α} {rest : List (String × α)}
    (hnew : ∀ e ∈ rest, m.contains e.1 = false) (hrest : (rest.map Prod.fst).Nodup) :
    (rest.foldl (fun m (name, value) => m.insert name value) m).entries.Perm
      (m.entries ++ rest) := by
  -- each entry is new to the map so far, which holds those in front of it
  induction rest generalizing m with
  | nil => simp
  | cons e rest ih =>
    rw [List.map_cons, List.nodup_cons] at hrest
    rw [List.forall_mem_cons] at hnew
    have hinsert : (m.insert e.1 e.2).entries.Perm (e :: m.entries) := by
      refine perm_place ?_
      rw [← contains_iff, hnew.1]
      exact Bool.false_ne_true
    have hbehind : ∀ d ∈ rest, (m.insert e.1 e.2).contains d.1 = false := by
      intro d hd
      rw [← Bool.not_eq_true, contains_insert, hnew.2 d hd, not_or]
      exact ⟨fun hname => hrest.1 (hname ▸ List.mem_map_of_mem hd), Bool.false_ne_true⟩
    exact (ih hbehind hrest.2).trans ((hinsert.append_right rest).trans List.perm_middle.symm)

/-- **The map of entries under distinct names holds just these.** -/
theorem perm_ofList {rest : List (String × α)} (h : (rest.map Prod.fst).Nodup) :
    (ofList rest).entries.Perm rest :=
  perm_foldl_insert (fun _ _ => rfl) h

/-- **Maps of the same entries are equal**, in whatever order these are given. -/
theorem eq_of_perm {m n : TextMap α} (h : m.entries.Perm n.entries) : m = n :=
  ext_entries (h.eq_of_pairwise (fun _ _ _ _ hlt hgt => absurd hgt (String.lt_asymm hlt))
    m.sorted n.sorted)

/-- **Maps that answer alike are equal.** -/
theorem ext_find? {m n : TextMap α} (h : ∀ name, m.find? name = n.find? name) : m = n := by
  refine eq_of_perm ((List.perm_ext_iff_of_nodup m.nodup_names.of_map n.nodup_names.of_map).2 ?_)
  rintro ⟨name, value⟩
  rw [← find?_eq_some, h, find?_eq_some]

/-! ### Entries under one name -/

/-- Under the name that is placed its value is found, and all else is found as before. -/
theorem find?_place {k : String} : (place name value entries).find? (fun e => e.1 = k) =
    if k = name then some (name, value) else entries.find? fun e => e.1 = k := by
  induction entries with
  | nil => grind [place]
  | cons entry rest ih =>
    rw [place]
    split
    · grind
    · split
      · grind
      · rw [List.find?_cons, ih]
        grind

/-- The value under a name is the one that was inserted last. -/
theorem find?_insert {m : TextMap α} {k : String} :
    (m.insert name value).find? k = if k = name then some value else m.find? k := by
  rw [find?, insert, find?_place]
  split <;> rfl

/-- One more entry of the list is inserted behind the others. -/
theorem ofList_concat (rest : List (String × α)) (e : String × α) :
    ofList (rest ++ [e]) = (ofList rest).insert e.1 e.2 := by
  rw [ofList, List.foldl_append]
  rfl

/-- **Of the entries under one name the last counts.** -/
theorem find?_ofList {rest : List (String × α)} {k : String} :
    (ofList rest).find? k = (rest.reverse.find? fun e => e.1 = k).map Prod.snd := by
  induction rest using List.reverseRecOn with
  | nil => rfl
  | append_singleton rest e ih =>
    rw [ofList_concat, find?_insert, ih, List.reverse_concat, List.find?_cons]
    by_cases hname : e.1 = k
    · simp [hname]
    · simp [hname, Ne.symm hname]

/-- The names in the map of a list are those in the list, each once. -/
theorem perm_names_ofList (rest : List (String × α)) :
    ((ofList rest).entries.map Prod.fst).Perm (rest.map Prod.fst).dedup := by
  refine (List.perm_ext_iff_of_nodup (nodup_names _) (List.nodup_dedup _)).2 fun k => ?_
  rw [← contains_iff, contains, find?_ofList, Option.isSome_map, List.find?_isSome, List.mem_dedup]
  simp

/-- **No entry of a list is lost exactly if no name stands in it twice.** -/
theorem length_ofList_iff {rest : List (String × α)} :
    (ofList rest).entries.length = rest.length ↔ (rest.map Prod.fst).Nodup := by
  have hlength := (perm_names_ofList rest).length_eq
  have hnames : (rest.map Prod.fst).length = rest.length := List.length_map _
  rw [List.length_map] at hlength
  rw [hlength, ← hnames, ← List.dedup_eq_self]
  exact ⟨(List.dedup_sublist _).eq_of_length, congrArg _⟩

/-! ### Entries in order -/

/-- Entries above those of a map are added behind them. -/
theorem entries_foldl_insert {m : TextMap α} {rest : List (String × α)}
    (h : (m.entries ++ rest).Pairwise fun a b => a.1 < b.1) :
    (rest.foldl (fun m (name, value) => m.insert name value) m).entries = m.entries ++ rest := by
  -- each entry is above the map so far, which grows at its end
  induction rest generalizing m with
  | nil => simp
  | cons e rest ih =>
    have hbelow : ∀ d ∈ m.entries, d.1 < e.1 := fun d hd =>
      (List.pairwise_append.1 h).2.2 d hd e List.mem_cons_self
    have hinsert : (m.insert e.1 e.2).entries = m.entries ++ [e] := place_of_lt hbelow
    rw [List.foldl_cons, ih (by rwa [hinsert, List.append_assoc]), hinsert, List.append_assoc,
      List.singleton_append]

/-- **A map is rebuilt from its entries.** -/
theorem ofList_entries (m : TextMap α) : ofList m.entries = m :=
  ext_entries (entries_foldl_insert (m := empty) m.sorted)

end TextMap

end ChainKit
