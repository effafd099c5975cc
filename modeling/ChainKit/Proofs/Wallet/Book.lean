import ChainKit.Proofs.Outcome
import ChainKit.Wallet.Basic
import Mathlib
/-!
# Books keep their identities apart

No two entries of a book have the same identifier (`Distinct`): inserting
refuses a second one, and a label is no part of it. So the entries of a
book can be inserted again one by one, and give the same book
(`book_eq_ok`).
-/

namespace ChainKit

namespace Wallet

/-- Where all images differ, that of an element is none of those in front of it. -/
theorem not_mem_front_of_nodup {γ δ : Type} {f : γ → δ} {front rest : List γ} {x : γ}
    (h : ((front ++ x :: rest).map f).Nodup) : f x ∉ front.map f := by
  rw [List.map_append, List.map_cons, List.nodup_middle, List.nodup_cons] at h
  exact fun hmem => h.1 (List.mem_append_left _ hmem)

/-- Where all images differ, what has an image is found, and nothing else is. -/
theorem find?_eq_some_of_nodup {γ δ : Type} [DecidableEq δ] {f : γ → δ} {xs : List γ} {x : γ}
    {y : δ} (h : (xs.map f).Nodup) : (xs.find? fun z => f z = y) = some x ↔ x ∈ xs ∧ f x = y := by
  constructor
  · intro hfind
    exact ⟨List.mem_of_find?_eq_some hfind, by simpa using List.find?_some hfind⟩
  · rintro ⟨hx, rfl⟩
    obtain ⟨front, rest, rfl⟩ := List.append_of_mem hx
    refine List.find?_eq_some_iff_append.2 ⟨by simp, front, rest, rfl, fun z hz => ?_⟩
    have hne : f z ≠ f x := fun heq => not_mem_front_of_nodup h (List.mem_map.2 ⟨z, hz, heq⟩)
    simpa using hne

namespace Book

variable {α β : Type}

/-- The identifiers of the entries differ. -/
def Distinct (b : Book α) : Prop := (b.entries.map (·.holder.id)).Nodup

theorem distinct_empty : Distinct ({} : Book α) := List.nodup_nil

/-- What is inserted is new, and stands last. -/
theorem insert_eq_ok {b c : Book α} {holder : LocalIdentity} {data : α} :
    b.insert holder data = .ok c ↔
      holder.id ∉ b.entries.map (·.holder.id) ∧ c = ⟨b.entries ++ [⟨holder, data⟩]⟩ := by
  have hheld : (b.entries.any fun e => e.holder.id = holder.id) = true ↔
      holder.id ∈ b.entries.map (·.holder.id) := by
    simp
  rw [insert, Outcome.ite_error_eq_ok, hheld, Except.ok.injEq, eq_comm (a := c)]

/-- Inserting keeps identifiers apart. -/
theorem Distinct.insert {b c : Book α} {holder : LocalIdentity} {data : α} (hb : b.Distinct)
    (h : b.insert holder data = .ok c) : c.Distinct := by
  obtain ⟨hnew, rfl⟩ := insert_eq_ok.1 h
  rw [Distinct, List.map_append, List.nodup_append']
  exact ⟨hb, List.nodup_singleton _, by simpa using hnew⟩

/-- What a change keeps of an element it keeps of the list. -/
theorem map_changeFirst {γ δ : Type} {test : γ → Bool} {change : γ → γ} {f : γ → δ}
    (h : ∀ x, f (change x) = f x) (xs : List γ) :
    (changeFirst test change xs).map f = xs.map f := by
  induction xs with
  | nil => rfl
  | cons x xs ih =>
    rw [changeFirst]
    split
    · rw [List.map_cons, List.map_cons, h]
    · rw [List.map_cons, List.map_cons, ih]

/-- A label changes neither who the entries belong to nor their data. -/
theorem map_setLabel {γ : Type} {b c : Book α} {i : Identity} {label : Option String}
    (f : Identity → α → γ) (h : b.setLabel i label = .ok c) :
    c.entries.map (fun e => f e.holder.identity e.data) =
      b.entries.map fun e => f e.holder.identity e.data := by
  unfold setLabel at h
  split at h
  · cases h
    refine map_changeFirst (fun e => ?_) _
    rfl
  · cases h

/-- A label keeps identifiers apart. -/
theorem Distinct.setLabel {b c : Book α} {i : Identity} {label : Option String} (hb : b.Distinct)
    (h : b.setLabel i label = .ok c) : c.Distinct := by
  have hids := map_setLabel (fun i _ => i.localId) h
  rw [Distinct]
  exact hids ▸ hb

end Book

namespace Stored

variable {α β : Type}

/-- Entries with new identifiers are inserted one by one behind those of a book. -/
theorem foldlM_insert {check : LocalIdentity → α → Result β} {write : β → α}
    {front rest : List (Entry β)} (hdistinct : Book.Distinct ⟨front ++ rest⟩)
    (hcheck : ∀ e ∈ rest, check e.holder (write e.data) = .ok e.data) :
    (rest.map fun e => (⟨e.holder, write e.data⟩ : Entry α)).foldlM
      (fun b e => do b.insert e.holder (← check e.holder e.data)) (⟨front⟩ : Book β) =
        .ok ⟨front ++ rest⟩ := by
  induction rest generalizing front with
  | nil =>
    rw [List.append_nil]
    rfl
  | cons e rest ih =>
    have happend : front ++ e :: rest = front ++ [e] ++ rest := by simp
    have hnext : Book.insert ⟨front⟩ e.holder e.data = .ok ⟨front ++ [e]⟩ :=
      Book.insert_eq_ok.2 ⟨not_mem_front_of_nodup hdistinct, rfl⟩
    have hrest := ih (happend ▸ hdistinct) fun d hd => hcheck d (List.mem_cons_of_mem _ hd)
    rw [happend]
    simp only [List.map_cons, List.foldlM_cons, hcheck e List.mem_cons_self, hnext,
      Outcome.ok_bind, hrest]

/-- **A book grows again from its entries**, if the check gives back the data of each. -/
theorem book_eq_ok {check : LocalIdentity → α → Result β} {b : Book β} {s : Stored α}
    (write : β → α) (hb : b.Distinct)
    (hs : s.entries = b.entries.map fun e => ⟨e.holder, write e.data⟩)
    (hcheck : ∀ e ∈ b.entries, check e.holder (write e.data) = .ok e.data) :
    s.book check = .ok b := by
  rw [book, hs]
  exact foldlM_insert hb hcheck

end Stored

end Wallet

end ChainKit
