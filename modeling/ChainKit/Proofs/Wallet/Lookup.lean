import ChainKit.Proofs.Text.Hex
import ChainKit.Proofs.Wallet.Book
import Mathlib
/-!
# Identities are found by what they are

A book looks identities up by their local identifiers. Neither the digits
of a key nor the name of its scheme has a bar in it, so an identifier is cut
at its last two bars, and tells the chain, whatever characters that has, the
scheme and the key (`Identity.localId_injective`). To compare identifiers is
therefore to compare identities. Where these are apart, an identity has one
entry or none: inserting refuses just the identities that the book holds
(`Book.insert_eq`), and a label is put on one of them, if it is there, and
on no other (`Book.setLabel_eq`).
-/

namespace ChainKit

open Text

/-- Nothing stands in front of the first mark that is the last one as well. -/
theorem eq_nil_of_last_mark {γ : Type} {x : γ} {front bs ds : List γ}
    (h : x :: bs = front ++ x :: ds) (hbs : x ∉ bs) : front = [] ∧ bs = ds := by
  cases front with
  | nil => exact ⟨rfl, (List.cons.inj h).2⟩
  | cons y front =>
    have hrest : bs = front ++ x :: ds := (List.cons.inj h).2
    refine absurd ?_ hbs
    rw [hrest]
    exact List.mem_append_right front List.mem_cons_self

/-- What stands behind the last of some marks, and in front of it. -/
theorem eq_of_last_mark {γ : Type} {x : γ} {as bs cs ds : List γ}
    (h : as ++ x :: bs = cs ++ x :: ds) (hbs : x ∉ bs) (hds : x ∉ ds) : as = cs ∧ bs = ds := by
  rcases List.append_eq_append_iff.1 h with ⟨more, rfl, hrest⟩ | ⟨more, rfl, hrest⟩
  · obtain ⟨rfl, rfl⟩ := eq_nil_of_last_mark hrest hbs
    exact ⟨(List.append_nil as).symm, rfl⟩
  · obtain ⟨rfl, rfl⟩ := eq_nil_of_last_mark hrest hds
    exact ⟨List.append_nil cs, rfl⟩

theorem Algorithm.name_injective : Function.Injective name := by
  intro a b h
  cases a <;> cases b <;> first | rfl | exact absurd h (by decide)

namespace Identity

theorem bar_notMem_digits (data : Bytes) : '|' ∉ Hex.digits data := by
  intro h
  exact absurd ((Hex.spells_digits data).isSome_valueOf? '|' h) (by decide)

theorem bar_notMem_name (a : Algorithm) : '|' ∉ a.name.toList := by
  cases a <;> decide

theorem toList_localId (i : Identity) : i.localId.toList =
    (i.chainId.toList ++ '|' :: i.publicKey.algorithm.name.toList) ++
      '|' :: Hex.digits i.publicKey.data := by
  have hbar : "|".toList = ['|'] := rfl
  simp only [localId, Hex.encode, String.toList_append, String.toList_ofList, hbar,
    List.append_assoc, List.singleton_append]

/-- **An identifier tells its identity**, even if bars stand in the name of the chain. -/
theorem localId_injective : Function.Injective localId := by
  intro i j h
  have hlists := congrArg String.toList h
  rw [toList_localId, toList_localId] at hlists
  obtain ⟨hfront, hdigits⟩ :=
    eq_of_last_mark hlists (bar_notMem_digits _) (bar_notMem_digits _)
  obtain ⟨hchain, hname⟩ := eq_of_last_mark hfront (bar_notMem_name _) (bar_notMem_name _)
  obtain ⟨chainId, algorithm, data⟩ := i
  obtain ⟨chainId', algorithm', data'⟩ := j
  rw [mk.injEq, PublicKey.mk.injEq]
  exact ⟨String.toList_injective hchain, Algorithm.name_injective (String.toList_injective hname),
    Hex.digits_injective hdigits⟩

end Identity

theorem LocalIdentity.id_eq_iff {l : LocalIdentity} {i : Identity} :
    l.id = i.localId ↔ l.identity = i :=
  Identity.localId_injective.eq_iff

/-- The identity under this label, if it is the one to be labelled. -/
def LocalIdentity.relabel (i : Identity) (label : Option String) (l : LocalIdentity) :
    LocalIdentity :=
  if l.identity = i then { l with label } else l

@[simp] theorem LocalIdentity.identity_relabel (i : Identity) (label : Option String)
    (l : LocalIdentity) : (l.relabel i label).identity = l.identity := by
  unfold relabel
  split <;> rfl

namespace Wallet

namespace Book

variable {α : Type} {b : Book α} {i : Identity} {holder : LocalIdentity} {label : Option String}

/-- Identifiers are apart exactly if identities are. -/
theorem distinct_iff : b.Distinct ↔ (b.identities.map (·.identity)).Nodup := by
  have hids : b.entries.map (·.holder.id) =
      (b.identities.map (·.identity)).map Identity.localId := by
    simp only [identities, List.map_map]
    rfl
  rw [Distinct, hids, List.nodup_map_iff Identity.localId_injective]

theorem mem_identities : i ∈ b.identities.map (·.identity) ↔
    ∃ e ∈ b.entries, e.holder.identity = i := by
  simp [identities]

/-- An identity that is held has one entry, and that is found. -/
theorem find?_eq_some (hb : b.Distinct) {e : Entry α} :
    b.find? i = some e ↔ e ∈ b.entries ∧ e.holder.identity = i := by
  rw [find?, find?_eq_some_of_nodup hb, LocalIdentity.id_eq_iff]

/-- Nothing is found of an identity that is not held. -/
theorem find?_eq_none : b.find? i = none ↔ i ∉ b.identities.map (·.identity) := by
  rw [find?, List.find?_eq_none, mem_identities]
  simp [LocalIdentity.id_eq_iff]

/-- **Just the identities that the book holds are refused.** -/
theorem insert_eq (b : Book α) (holder : LocalIdentity) (data : α) : b.insert holder data =
    if holder.identity ∈ b.identities.map (·.identity) then .error (.duplicateIdentity holder.id)
    else .ok ⟨b.entries ++ [⟨holder, data⟩]⟩ := by
  have hheld : (b.entries.any fun e => e.holder.id = holder.id) = true ↔
      holder.identity ∈ b.identities.map (·.identity) := by
    rw [mem_identities]
    simp [LocalIdentity.id, Identity.localId_injective.eq_iff]
  simp only [insert, hheld]

/-- The data of an identity is that of its entry. -/
theorem get_eq_ok (hb : b.Distinct) {data : α} :
    b.get i = .ok data ↔ ∃ e ∈ b.entries, e.holder.identity = i ∧ e.data = data := by
  rw [get]
  cases hfind : b.find? i with
  | none =>
    rw [find?_eq_none, mem_identities] at hfind
    exact iff_of_false (fun h => nomatch h) fun ⟨e, he, hi, _⟩ => hfind ⟨e, he, hi⟩
  | some d =>
    rw [Except.ok.injEq]
    constructor
    · intro h
      obtain ⟨hd, hi⟩ := (find?_eq_some hb).1 hfind
      exact ⟨d, hd, hi, h⟩
    · rintro ⟨e, he, hi, rfl⟩
      have hsame := (find?_eq_some hb).2 ⟨he, hi⟩
      rw [hfind, Option.some.injEq] at hsame
      rw [hsame]

/-- There is no data of an identity that is not held. -/
theorem get_of_notMem (hi : i ∉ b.identities.map (·.identity)) :
    b.get i = .error (.identityNotFound i.localId) := by
  rw [get, find?_eq_none.2 hi]

/-! ## Labels -/

/-- The book in which an identity has this label, if it is there. -/
def relabel (i : Identity) (label : Option String) (b : Book α) : Book α :=
  ⟨b.entries.map fun e => { e with holder := e.holder.relabel i label }⟩

theorem identities_relabel :
    (b.relabel i label).identities = b.identities.map (·.relabel i label) := by
  simp [identities, relabel]

theorem map_data_relabel :
    (b.relabel i label).entries.map (·.data) = b.entries.map (·.data) := by
  simp [relabel]

theorem map_identity_relabel : (b.relabel i label).identities.map (·.identity) =
    b.identities.map (·.identity) := by
  simp [identities_relabel]

/-- To change the first element of a kind of which there is one is to change all of that kind. -/
theorem changeFirst_eq_map {γ δ : Type} [DecidableEq δ] {f : γ → δ} {xs : List γ}
    (h : (xs.map f).Nodup) (x : δ) (change : γ → γ) :
    changeFirst (fun y => f y = x) change xs =
      xs.map fun y => if f y = x then change y else y := by
  induction xs with
  | nil => rfl
  | cons y xs ih =>
    rw [List.map_cons, List.nodup_cons] at h
    rw [changeFirst, List.map_cons]
    by_cases hy : f y = x
    · have hrest : ∀ z ∈ xs, (if f z = x then change z else z) = z := by
        intro z hz
        exact if_neg fun hzx => h.1 (List.mem_map.2 ⟨z, hz, hzx.trans hy.symm⟩)
      rw [if_pos (decide_eq_true hy), if_pos hy, List.map_congr_left hrest, List.map_id']
    · rw [if_neg (by simpa using hy), if_neg hy, ih h.2]

/-- Something is found of an identity exactly if it is held. -/
theorem isSome_find?_iff : (b.find? i).isSome = true ↔ i ∈ b.identities.map (·.identity) := by
  rw [← not_iff_not, ← find?_eq_none, Bool.not_eq_true, Option.isSome_eq_false_iff,
    Option.isNone_iff_eq_none]

/-- **A label is put on the identity, if it is held, and on no other.** -/
theorem setLabel_eq (hb : b.Distinct) (i : Identity) (label : Option String) :
    b.setLabel i label =
      if i ∈ b.identities.map (·.identity) then .ok (b.relabel i label)
      else .error (.identityNotFound i.localId) := by
  have hentries := changeFirst_eq_map hb i.localId fun e =>
    { e with holder := { e.holder with label } }
  simp only [setLabel, isSome_find?_iff, hentries, relabel]
  congr 3
  refine List.map_congr_left fun e _ => ?_
  by_cases he : e.holder.identity = i
  · rw [if_pos (LocalIdentity.id_eq_iff.2 he), LocalIdentity.relabel, if_pos he]
  · rw [if_neg (mt LocalIdentity.id_eq_iff.1 he), LocalIdentity.relabel, if_neg he]

/-- The label that was put on an identity is found. -/
theorem label?_relabel (hb : b.Distinct) (hi : i ∈ b.identities.map (·.identity)) :
    (b.relabel i label).label? i = label := by
  obtain ⟨e, he, hei⟩ := mem_identities.1 hi
  have hdistinct : (b.relabel i label).Distinct := by
    rw [distinct_iff, map_identity_relabel, ← distinct_iff]
    exact hb
  have hfind : (b.relabel i label).find? i =
      some { e with holder := e.holder.relabel i label } := by
    refine (find?_eq_some hdistinct).2 ⟨List.mem_map.2 ⟨e, he, rfl⟩, ?_⟩
    rw [LocalIdentity.identity_relabel, hei]
  rw [label?, hfind, Option.bind_some, LocalIdentity.relabel, if_pos hei]

/-! ## Looking up by identifiers -/

/-- To look for an identifier is to look for its identity. -/
theorem find?_eq_find?_identity (b : Book α) (i : Identity) :
    b.find? i = b.entries.find? fun e => e.holder.identity = i := by
  simp only [find?, LocalIdentity.id_eq_iff]

/-- To change what has an identifier is to change what has its identity. -/
theorem setLabel_eq_changeFirst (b : Book α) (i : Identity) (label : Option String) :
    b.setLabel i label =
      if i ∈ b.identities.map (·.identity) then
        .ok ⟨changeFirst (fun e => e.holder.identity = i)
          (fun e => { e with holder := { e.holder with label } }) b.entries⟩
      else .error (.identityNotFound i.localId) := by
  simp only [setLabel, isSome_find?_iff, LocalIdentity.id_eq_iff]

/-- **Identifiers never collide**, whatever the chain is called, and books that compare them
compare identities: an identity is looked up where it stands first and nowhere else, one is
inserted exactly if the book does not hold it, and a label is put on the identity itself. -/
theorem identified_by_localId (b : Book α) (i j : Identity) (holder : LocalIdentity) (data : α)
    (label : Option String) :
    (i.localId = j.localId ↔ i = j) ∧
      b.get i = ((b.entries.find? fun e => e.holder.identity = i).map (·.data)).elim
        (.error (.identityNotFound i.localId)) .ok ∧
      b.label? i = (b.entries.find? fun e => e.holder.identity = i).bind (·.holder.label) ∧
      b.insert holder data =
        (if holder.identity ∈ b.identities.map (·.identity) then
          .error (.duplicateIdentity holder.id)
        else .ok ⟨b.entries ++ [⟨holder, data⟩]⟩) ∧
      b.setLabel i label =
        if i ∈ b.identities.map (·.identity) then
          .ok ⟨changeFirst (fun e => e.holder.identity = i)
            (fun e => { e with holder := { e.holder with label } }) b.entries⟩
        else .error (.identityNotFound i.localId) := by
  refine ⟨Identity.localId_injective.eq_iff, ?_, ?_, b.insert_eq holder data,
    b.setLabel_eq_changeFirst i label⟩
  · rw [get, ← find?_eq_find?_identity]
    cases b.find? i <;> rfl
  · rw [label?, find?_eq_find?_identity]

end Book

end Wallet

end ChainKit
