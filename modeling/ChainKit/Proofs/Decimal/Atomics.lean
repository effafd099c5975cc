import ChainKit.Proofs.Text.Numeral
import Mathlib
/-!
# Counts of atomic units are read as grouped numerals

A count is written with digits, but more is read: a plus sign in front and
underscores behind the first digit are let through
(`ofAtomics_iff_grouped`). A text without either is read exactly if it is a
run of digits, and the canonical quantities are those that are written
again as they were.
-/

namespace ChainKit

open Text

namespace Decimal

variable {text : String} {d : UInt32} {x : Decimal} {n : Nat}

/-- The refusal of a text that is no numeral. -/
def noNumeral (text : String) : Error :=
  if text = "" then .emptyQuantity else .invalidQuantity text

theorem ofAtomics_eq_ok :
    ofAtomics text d = .ok x ↔ Numeral.grouped? text.toList = some x.atomics ∧
      x.fractionalDigits = d := by
  obtain ⟨atomics, digits⟩ := x
  rw [ofAtomics]
  split
  · rename_i hempty
    subst hempty
    simp [Numeral.grouped?]
  · split
    · rename_i n hread
      simp [hread, eq_comm]
    · rename_i hread
      simp [hread]

/-- What is no numeral is refused. -/
theorem ofAtomics_of_none (h : Numeral.grouped? text.toList = none) :
    ofAtomics text d = .error (noNumeral text) := by
  rw [ofAtomics, noNumeral, h]
  split <;> rfl

/-- Digits with neither a plus sign nor underscores are read as their value, and nothing else is. -/
theorem ofAtomics_of_bare (hplus : '+' ∉ text.toList) (hunderscore : '_' ∉ text.toList) :
    ofAtomics text d = if Numeral.isDigits text.toList then .ok ⟨Numeral.value text.toList, d⟩
      else .error (noNumeral text) := by
  split
  · rename_i hdigits
    exact ofAtomics_eq_ok.2 ⟨Numeral.grouped?_of_isDigits hdigits, rfl⟩
  · rename_i hdigits
    refine ofAtomics_of_none (Option.eq_none_iff_forall_ne_some.2 fun n hread => hdigits ?_)
    obtain ⟨body, hbody, ⟨c, rest, rfl, hc, hrest⟩, -⟩ := Numeral.grouped?_eq_some.1 hread
    rcases hbody with hbody | hbody <;> rw [hbody] at hplus hunderscore ⊢
    · refine Numeral.isDigits_iff.2 ⟨List.cons_ne_nil _ _, List.forall_mem_cons.2 ⟨hc, ?_⟩⟩
      intro e he
      refine (hrest e he).resolve_right ?_
      rintro rfl
      exact hunderscore (List.mem_cons_of_mem _ he)
    · exact absurd List.mem_cons_self hplus

/-- Just the canonical quantities are read and written again as they were. -/
theorem checkQuantity_iff_ofAtomics :
    checkQuantity text = .ok () ↔ ∃ x, ofAtomics text d = .ok x ∧ x.quantity = text := by
  constructor
  · intro hcheck
    have hread := Numeral.grouped?_of_isDigits (isDigits_of_checkQuantity hcheck)
    exact ⟨⟨Numeral.value text.toList, d⟩, ofAtomics_eq_ok.2 ⟨hread, rfl⟩,
      ofNat_of_checkQuantity hcheck⟩
  · rintro ⟨x, -, hquantity⟩
    rw [← hquantity]
    exact checkQuantity_ofNat x.atomics

/-- **A count of atomic units is read exactly from a grouped numeral**: a digit with digits and
underscores behind it, maybe behind a plus sign. All else is refused, so that of the texts without
plus sign and underscores just the runs of digits are read, as their value. The canonical quantities
are those that are written again as they were. -/
theorem ofAtomics_iff_grouped (text : String) (d : UInt32) :
    (∀ x, ofAtomics text d = .ok x ↔ x.fractionalDigits = d ∧
      ∃ body, (text.toList = body ∨ text.toList = '+' :: body) ∧ Numeral.Groups body ∧
        Numeral.value (body.filter Char.isDigit) = x.atomics) ∧
    ((∀ x, ofAtomics text d ≠ .ok x) → ofAtomics text d = .error (noNumeral text)) ∧
    ('+' ∉ text.toList → '_' ∉ text.toList →
      ofAtomics text d = if Numeral.isDigits text.toList then .ok ⟨Numeral.value text.toList, d⟩
        else .error (noNumeral text)) ∧
    (checkQuantity text = .ok () ↔ ∃ x, ofAtomics text d = .ok x ∧ x.quantity = text) := by
  refine ⟨fun x => ?_, fun h => ?_, ofAtomics_of_bare, checkQuantity_iff_ofAtomics⟩
  · rw [ofAtomics_eq_ok, Numeral.grouped?_eq_some, and_comm]
  · refine ofAtomics_of_none (Option.eq_none_iff_forall_ne_some.2 fun n hread => ?_)
    exact h ⟨n, d⟩ (ofAtomics_eq_ok.2 ⟨hread, rfl⟩)

/-- `0_07` is read, `0.07` is refused and `007` is read but written differently. -/
theorem ofAtomics_iff_grouped_samples :
    ofAtomics "0_07" 9 = .ok ⟨7, 9⟩ ∧ ofAtomics "0.07" 9 = .error (.invalidQuantity "0.07") ∧
      ofAtomics "007" 9 = .ok ⟨7, 9⟩ ∧ quantity ⟨7, 9⟩ ≠ "007" := by
  have hgroups : Numeral.Groups ['0', '_', '0', '7'] :=
    ⟨'0', ['_', '0', '7'], rfl, rfl, by simp⟩
  have hpoint : ∀ x, ofAtomics "0.07" 9 ≠ .ok x := by
    have hnone : (ofAtomics "0.07" 9).toOption = none := by decide +kernel
    intro x hx
    rw [hx] at hnone
    cases hnone
  have hread := (ofAtomics_iff_grouped "007" 9).2.2.1 (by decide +kernel) (by decide +kernel)
  exact ⟨((ofAtomics_iff_grouped _ _).1 _).2 ⟨rfl, _, .inl rfl, hgroups, rfl⟩,
    (ofAtomics_iff_grouped _ _).2.1 hpoint, hread, by decide +kernel⟩

/-- A sign and an underscore are read, although they are no digits. -/
theorem ofAtomics_signed :
    (ofAtomics "+5" 0 = .ok ⟨5, 0⟩ ∧ Numeral.isDigits "+5".toList = false) ∧
    (ofAtomics "1_000" 0 = .ok ⟨1000, 0⟩ ∧ Numeral.isDigits "1_000".toList = false) := by
  decide +kernel

end Decimal

end ChainKit
