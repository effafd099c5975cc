import ChainKit.Bytes.Lemmas
import ChainKit.Ethereum.Options
import ChainKit.Proofs.Outcome
import ChainKit.Proofs.Text.Hex
import Mathlib
/-!
# Addresses and keys name their accounts

The digits of an account spell its bytes however letters are raised, so
the account is read back from its address (`ofAddress?_address`). What an
address spells in lowercase is its account, so two addresses are of one
contract exactly if they are read as the same account
(`sameContract_iff`). A point is read back from both its coordinates.
-/

namespace ChainKit

open Text

namespace Ethereum

namespace Account

variable {a : Account} {s t : Address}

/-! ## Digits -/

theorem length_nibbles (b : Bytes) : (nibbles b).length = 2 * b.length := by
  induction b with
  | nil => rfl
  | cons x b ih =>
    rw [nibbles, List.flatMap_cons, List.length_append, ← nibbles, ih]
    simp only [List.length_cons, List.length_nil]
    omega

/-- A digit has the same value if it is raised. -/
theorem valueOf?_raised {v : Nat} (k : Nat) (hv : v < 16) :
    Hex.valueOf? (if 8 ≤ k then (Hex.digit v).toUpper else Hex.digit v) = some v := by
  split
  · exact (Hex.valueOf?_digit hv).2
  · exact (Hex.valueOf?_digit hv).1

/-- Raised digits spell the same bytes. -/
theorem spells_raise (b : Bytes) {ns : List Nat} (h : 2 * b.length ≤ ns.length) :
    Hex.Spells (raise (Hex.digits b) ns) b := by
  induction b generalizing ns with
  | nil => trivial
  | cons x b ih =>
    have hx := x.toNat_lt
    rcases ns with _ | ⟨m, _ | ⟨n, ns⟩⟩
    · simp at h
    · simp only [List.length_cons, List.length_nil] at h
      omega
    · have hrest : 2 * b.length ≤ ns.length := by
        simp only [List.length_cons] at h
        omega
      exact ⟨valueOf?_raised m (by omega), valueOf?_raised n (by omega), ih hrest⟩

/-- The digits of an account spell its bytes. -/
theorem spells_digits (a : Account) : Hex.Spells a.digits a.data := by
  refine spells_raise a.data ?_
  rw [length_nibbles, Keccak256.length_digest, a.length_data]
  omega

/-- The account that digits spell, in either case. -/
theorem ofDigits?_eq_some {body : List Char} :
    ofDigits? body = some a ↔ Hex.Spells body a.data := by
  constructor
  · intro h
    obtain ⟨data, hdata, ha⟩ := Option.bind_eq_some_iff.1 h
    have hspells := Hex.decode_eq_ok_iff.1 (Outcome.toOption_eq_some.1 hdata)
    rw [String.toList_ofList] at hspells
    unfold ofBytes? at ha
    split at ha
    · cases ha
      exact hspells
    · cases ha
  · intro h
    have hdecode : Hex.decode (String.ofList body) = .ok a.data := by
      rw [Hex.decode_eq_ok_iff, String.toList_ofList]
      exact h
    simp [ofDigits?, hdecode, Except.toOption, ofBytes?, a.length_data]

/-! ## Addresses -/

/-- **The account is read back from its address.** -/
@[simp] theorem ofAddress?_address (a : Account) : ofAddress? a.address = some a := by
  have hdigits : ofDigits? a.digits = some a := ofDigits?_eq_some.2 (spells_digits a)
  have htext : a.address.toList = '0' :: 'x' :: a.digits := by rw [address, String.toList_ofList]
  rw [ofAddress?, htext]
  simp only [hdigits, Option.bind_eq_bind, Option.bind_some]
  rw [if_pos (by simp)]

@[simp] theorem ofAddress_address (a : Account) : ofAddress a.address = .ok a := by
  rw [ofAddress, ofAddress?_address]

theorem ofAddress_eq_ok : ofAddress s = .ok a ↔ ofAddress? s = some a := by
  unfold ofAddress
  split <;> rename_i h <;> simp [h]

/-- A text is read as an account exactly if it is an address. -/
theorem exists_ofAddress_iff : (∃ a, ofAddress s = .ok a) ↔ isAddress s = true := by
  simp only [ofAddress_eq_ok, isAddress, Option.isSome_iff_exists]

/-- A digit in lowercase is the one that is written for its value. -/
theorem toLower_of_valueOf? {c : Char} {n : Nat} (h : Hex.valueOf? c = some n) :
    c.toLower = Hex.digit n := by
  -- all characters that could be digits are tried
  have hlower : ∀ c : Char, c.toNat < 128 → ∀ n < 16,
      Hex.value? (UInt8.ofNat c.toNat) = some n → c.toLower = Hex.digit n :=
    Utf8.forall_ascii (by decide +kernel)
  obtain ⟨hlt, hvalue⟩ := Hex.value?_of_valueOf? h
  exact hlower c hlt n (Hex.value?_eq_some hvalue).1 hvalue

/-- Spelling characters in lowercase are the digits that are written. -/
theorem map_toLower_of_spells {cs : List Char} {b : Bytes} (h : Hex.Spells cs b) :
    cs.map Char.toLower = Hex.digits b := by
  induction b generalizing cs with
  | nil =>
    rcases cs with _ | ⟨x, _ | ⟨y, cs⟩⟩
    · rfl
    · cases h
    · cases h
  | cons x b ih =>
    rcases cs with _ | ⟨u, _ | ⟨v, cs⟩⟩
    · cases h
    · cases h
    · obtain ⟨hu, hv, hrest⟩ := h
      rw [List.map_cons, List.map_cons, toLower_of_valueOf? hu, toLower_of_valueOf? hv, ih hrest,
        Hex.digits]

/-- An address in lowercase is the digits of its account behind `0x`. -/
theorem map_toLower_of_ofAddress? (h : ofAddress? s = some a) :
    s.toList.map Char.toLower = '0' :: 'x' :: Hex.digits a.data := by
  unfold ofAddress? at h
  split at h
  · rename_i body hbody
    obtain ⟨read, hread, h⟩ := Option.bind_eq_some_iff.1 h
    split at h
    · cases h
      rw [hbody, List.map_cons, List.map_cons, map_toLower_of_spells (ofDigits?_eq_some.1 hread)]
      rfl
    · cases h
  · cases h

/-- **Two addresses are of one contract exactly if they are read as the same account.** -/
theorem sameContract_iff {b : Account} (hs : ofAddress? s = some a) (ht : ofAddress? t = some b) :
    Options.sameContract s t = true ↔ a = b := by
  rw [Options.sameContract, decide_eq_true_iff, map_toLower_of_ofAddress? hs,
    map_toLower_of_ofAddress? ht]
  constructor
  · intro h
    obtain ⟨a, ha⟩ := a
    obtain ⟨b, hb⟩ := b
    have hdata : a = b := Hex.digits_injective (List.cons.inj (List.cons.inj h).2).2
    subst hdata
    rfl
  · rintro rfl
    rfl

end Account

end Ethereum

/-! ## Points -/

namespace Secp256k1

/-- A coordinate is read back from its 32 bytes. -/
theorem Point.coordinate?_ofNat (x : Coordinate) :
    coordinate? (Bytes.toNat (Bytes.ofNat 32 x.val)) = some x := by
  have hlt : x.val < 256 ^ 32 := Nat.lt_trans x.isLt (by decide)
  rw [Bytes.toNat_ofNat_of_lt hlt, coordinate?, dif_pos x.isLt]

/-- A point that is read from both coordinates of another is that other. -/
theorem Point.eq_of_ofBytes?_uncompressed {p q : Point} (h : ofBytes? p.uncompressed = some q) :
    q = p := by
  have hlength : p.coordinates.length = 64 := by simp [coordinates]
  have htake : p.coordinates.take 32 = Bytes.ofNat 32 p.x.val := by
    rw [coordinates, List.take_left' (by simp)]
  have hdrop : p.coordinates.drop 32 = Bytes.ofNat 32 p.y.val := by
    rw [coordinates, List.drop_left' (by simp)]
  simp only [uncompressed, ofBytes?, hlength, ne_eq, not_true_eq_false, if_false, htake, hdrop,
    coordinate?_ofNat, Option.bind_eq_bind, Option.bind_some] at h
  split at h
  · exact (Option.some.inj h).symm
  · cases h

end Secp256k1

end ChainKit
