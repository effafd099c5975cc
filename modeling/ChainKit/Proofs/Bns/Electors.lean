import ChainKit.Proofs.Bns.Governance
import ChainKit.Proofs.TextMap
import Mathlib
/-!
# Electors are read as a map

The electors of a list are read one after the other into a map under their
addresses. Different accounts have different addresses, so none takes the
place of another, and the order of the list does not show in the map
(`toElectors_iff_distinct`).
-/

namespace ChainKit

namespace Bns

namespace Schema

variable {network : Network} {es fs : List Elector} {m : TextMap ElectorWeight}

/-- Accounts that differ are entered under addresses that differ. -/
theorem nodup_electorEntry (hlength : ∀ e ∈ es, e.address.length = 20)
    (hnodup : (es.map (·.address)).Nodup) :
    ((es.map (electorEntry network)).map Prod.fst).Nodup := by
  rw [List.map_map]
  refine List.pairwise_map.2 ((List.pairwise_map.1 hnodup).imp_of_mem ?_)
  intro d e hd he hne heq
  exact hne ((electorEntry_inj (hlength d hd) (hlength e he)).1 heq)

/-- **The map holds one entry for each elector**, and no other. -/
theorem perm_of_toElectors (h : toElectors network es = .ok m) :
    m.entries.Perm (es.map (electorEntry network)) := by
  obtain ⟨hes, hnodup, rfl⟩ := toElectors_eq_ok.1 h
  exact TextMap.perm_ofList (nodup_electorEntry (fun e he => (hes e he).1) hnodup)

/-- Electors that are read are those of the list, which differ. -/
theorem toElectors_iff_perm : toElectors network es = .ok m ↔
    (∀ e ∈ es, e.address.length = 20 ∧ e.weight ≠ 0) ∧ (es.map (·.address)).Nodup ∧
      m.entries.Perm (es.map (electorEntry network)) := by
  constructor
  · intro h
    obtain ⟨hes, hnodup, -⟩ := toElectors_eq_ok.1 h
    exact ⟨hes, hnodup, perm_of_toElectors h⟩
  · rintro ⟨hes, hnodup, hperm⟩
    have hread : toElectors network es = .ok (.ofList (es.map (electorEntry network))) :=
      toElectors_eq_ok.2 ⟨hes, hnodup, rfl⟩
    rw [hread, TextMap.eq_of_perm (hperm.trans (perm_of_toElectors hread).symm)]

/-- An elector is found under its address. -/
theorem find?_of_toElectors (h : toElectors network es = .ok m) {e : Elector} (he : e ∈ es) :
    Account.address network e.address = .ok (electorEntry network e).1 ∧
      m.find? (electorEntry network e).1 = some ⟨e.weight⟩ := by
  have hlength := ((toElectors_eq_ok.1 h).1 e he).1
  have hmem := (perm_of_toElectors h).mem_iff.2 (List.mem_map_of_mem he)
  exact ⟨Account.address_eq_ok.2 ⟨hlength, rfl⟩, TextMap.find?_of_mem hmem⟩

/-- Electors in another order are read as the same map. -/
theorem toElectors_of_perm (hperm : es.Perm fs) (h : toElectors network es = .ok m) :
    toElectors network fs = .ok m := by
  obtain ⟨hes, hnodup, hentries⟩ := toElectors_iff_perm.1 h
  exact toElectors_iff_perm.2 ⟨fun e he => hes e (hperm.mem_iff.2 he),
    (hperm.map _).nodup_iff.1 hnodup, hentries.trans (hperm.map _)⟩

/-- **Electors are read exactly if each has 20 bytes and a weight, and none stands twice.** The map
holds one entry for each of them, its weight under its address; and it is the same for every order
of the list, or there is none for any. -/
theorem toElectors_iff_distinct (network : Network) (es : List Elector) :
    ((∃ m, toElectors network es = .ok m) ↔
      (∀ e ∈ es, e.address.length = 20 ∧ e.weight ≠ 0) ∧ (es.map (·.address)).Nodup) ∧
    (∀ m, toElectors network es = .ok m → m.entries.Perm (es.map (electorEntry network)) ∧
      ∀ e ∈ es, Account.address network e.address = .ok (electorEntry network e).1 ∧
        m.find? (electorEntry network e).1 = some ⟨e.weight⟩) ∧
    ∀ fs, es.Perm fs → ∀ m, toElectors network es = .ok m ↔ toElectors network fs = .ok m := by
  refine ⟨?_, fun m h => ⟨perm_of_toElectors h, fun e he => find?_of_toElectors h he⟩,
    fun fs hperm m => ⟨toElectors_of_perm hperm, toElectors_of_perm hperm.symm⟩⟩
  simp only [toElectors_eq_ok, exists_and_left, exists_eq, and_true]

/-- Two accounts with their weights. -/
def sampleElectors : List Elector := [⟨List.replicate 20 1, 2⟩, ⟨List.replicate 20 2, 3⟩]

/-- The two are read in either order, as a map of two entries. -/
theorem toElectors_iff_distinct_sampleElectors :
    ∃ m, toElectors .test sampleElectors = .ok m ∧
      toElectors .test sampleElectors.reverse = .ok m ∧ m.entries.length = 2 := by
  obtain ⟨hread, hentries, horder⟩ := toElectors_iff_distinct .test sampleElectors
  obtain ⟨m, hm⟩ := hread.2 (by decide +kernel)
  exact ⟨m, hm, (horder _ (List.reverse_perm _).symm m).1 hm, (hentries m hm).1.length_eq⟩

end Schema

end Bns

end ChainKit
