import ChainKit.Bns.Field
import ChainKit.Bytes.Lemmas
import ChainKit.Proofs.Bns.Address
import Mathlib
/-!
# Required fields are there

What is read from a required field is what stands in it, and there is
something (`bytes_eq_ok`, `text_eq_ok`, `uint32_eq_ok`, `present_eq_ok`).
An identifier is read from the number that its bytes spell
(`NumericId.decode_eq_ok`), and a list whose elements carry their index in
the wording of a rejection is read as one without (`mapIndexed_eq_ok`).
-/

namespace ChainKit

namespace Bns

namespace Field

/-- Bytes that an address was read as are written as it again. -/
theorem address_of_bytesOfAddress {network : Network} {a : Address} {data : Bytes} (field : String)
    (hown : network.Owns a) (h : Account.bytesOfAddress a = .ok data) :
    address network field data = .ok a := by
  have haddress := Account.address_of_bytesOfAddress hown h
  have hlength := (Account.address_eq_ok.1 haddress).1
  have hne : data ≠ [] := by
    rintro rfl
    simp at hlength
  rw [address, bytes, if_neg hne, Outcome.ok_bind, haddress]

/-- The address of an account that has to be there is the one of its 20 bytes. -/
theorem address_eq_ok {network : Network} {field : String} {data : Bytes} {a : Address} :
    address network field data = .ok a ↔ Account.address network data = .ok a := by
  rw [address, bytes]
  split
  · rename_i hnil
    simp [hnil, Account.address_eq_ok, Outcome.bind_eq_ok]
  · rfl

theorem bytes_eq_ok {field : String} {b c : Bytes} : bytes field b = .ok c ↔ b ≠ [] ∧ b = c := by
  simp [bytes, Outcome.ite_error_eq_ok]

theorem text_eq_ok {field s t : String} : text field s = .ok t ↔ s ≠ "" ∧ s = t := by
  simp [text, Outcome.ite_error_eq_ok]

theorem uint32_eq_ok {field : String} {n m : UInt32} :
    uint32 field n = .ok m ↔ n ≠ 0 ∧ n = m := by
  simp [uint32, Outcome.ite_error_eq_ok]

theorem present_eq_ok {α : Type} {field : String} {o : Option α} {x : α} :
    present field o = .ok x ↔ o = some x := by
  cases o <;> simp [present]

theorem bytes_of_ne {field : String} {b : Bytes} (h : b ≠ []) : bytes field b = .ok b := if_neg h

theorem text_of_ne {field s : String} (h : s ≠ "") : text field s = .ok s := if_neg h

theorem uint32_of_ne {field : String} {n : UInt32} (h : n ≠ 0) : uint32 field n = .ok n := if_neg h

/-- An empty text is read as an absent one. -/
theorem optionalText_ne (s : String) : optionalText s ≠ some "" := by
  unfold optionalText
  split <;> simp_all

/-- A text that may be absent is read back, unless it is there and empty. -/
theorem optionalText_getD {s : Option String} (h : s ≠ some "") : optionalText (s.getD "") = s := by
  cases s with
  | none => rfl
  | some s => exact if_neg fun hs => h (by rw [Option.getD_some.symm.trans hs])

end Field

namespace NumericId

variable {field : String} {b : Bytes} {id : UInt64}

theorem length_encode (id : UInt64) : (encode id).length = 8 := Bytes.length_ofNat 8 id.toNat

/-- An identifier is spelled by its bytes. -/
theorem toNat_encode (id : UInt64) : Bytes.toNat (encode id) = id.toNat :=
  Bytes.toNat_ofNat_of_lt id.toNat_lt

/-- Bytes are read as the identifier that they spell, if there are any. -/
theorem decode_eq_ok : decode field b = .ok id ↔ b ≠ [] ∧ Bytes.toNat b = id.toNat := by
  simp only [decode, Outcome.bind_eq_ok, Field.bytes_eq_ok]
  constructor
  · rintro ⟨_, ⟨hne, rfl⟩, h⟩
    split at h
    · rename_i hfits
      cases Outcome.pure_eq_ok.1 h
      exact ⟨hne, (UInt64.toNat_ofNat_of_lt hfits).symm⟩
    · cases h
  · rintro ⟨hne, hvalue⟩
    have hfits : Bytes.toNat b < UInt64.size := hvalue ▸ id.toNat_lt
    refine ⟨b, ⟨hne, rfl⟩, ?_⟩
    rw [if_pos hfits, hvalue, UInt64.ofNat_toNat]
    rfl

/-- An identifier is read back. -/
theorem decode_encode (field : String) (id : UInt64) : decode field (encode id) = .ok id := by
  have hne : encode id ≠ [] := List.ne_nil_of_length_pos (by rw [length_encode]; decide)
  exact decode_eq_ok.2 ⟨hne, toNat_encode id⟩

end NumericId

/-- Indices stand in the wording of a rejection alone, so a list goes through without them. -/
theorem mapIndexed_eq_ok {α β : Type} {f : Nat → α → Result β} {xs : List α} {ys : List β}
    (h : ∀ i x y, f i x = .ok y ↔ f 0 x = .ok y) (i : Nat) :
    mapIndexed f i xs = .ok ys ↔ xs.mapM (f 0) = .ok ys := by
  induction xs generalizing ys i with
  | nil => rfl
  | cons x xs ih =>
    rw [mapIndexed, Outcome.bind_eq_ok, List.mapM_cons, Outcome.bind_eq_ok]
    simp only [h i x, Outcome.bind_eq_ok, ih]

/-- A list goes back with its indices if every element does, wherever it stands. -/
theorem mapIndexed_inverse {α β : Type} {f : α → Result β} {g : Nat → β → Result α} {xs : List α}
    {ys : List β} (h : xs.mapM f = .ok ys)
    (hinverse : ∀ x ∈ xs, ∀ i y, f x = .ok y → g i y = .ok x) (i : Nat) :
    mapIndexed g i ys = .ok xs := by
  induction xs generalizing ys i with
  | nil =>
    cases h
    rfl
  | cons x xs ih =>
    obtain ⟨y, zs, hy, hzs, rfl⟩ := Outcome.mapM_cons_eq_ok.1 h
    have hxs := ih hzs (fun z hz => hinverse z (List.mem_cons_of_mem _ hz)) (i + 1)
    rw [mapIndexed, hinverse x List.mem_cons_self i y hy, Outcome.ok_bind, hxs]
    rfl

end Bns

end ChainKit
