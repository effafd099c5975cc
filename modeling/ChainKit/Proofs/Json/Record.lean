import ChainKit.Json.Record
import ChainKit.Proofs.Outcome
import ChainKit.Proofs.Text.Hex
import ChainKit.Proofs.TextMap
import Mathlib
/-!
# Values and records are read back

Texts, words and bytes are read back from the values that they are written
as, lists item by item and maps name by name. What may be null is told from
null if null is no value. An object of named members has just these members
as its fields.

Other documents can be read too, and each reader takes just one kind of
value for a result: `text?_eq_some` and those behind it say which.
-/

namespace ChainKit

open Text

namespace Json

/-! ## Single values -/

@[simp] theorem text?_str (s : String) : text? (str s) = some s := rfl

@[simp] theorem nullable?_str (s : String) : nullable? text? (str s) = some (some s) := rfl

@[simp] theorem uint32?_integer (n : UInt32) : uint32? (.integer n.toNat) = some n := by
  have hlt : (n.toNat : Int) < 0x100000000 := by
    have := n.toNat_lt
    omega
  simp [uint32?, integer?, hlt]

@[simp] theorem uint64?_integer (n : UInt64) : uint64? (.integer n.toNat) = some n := by
  have hlt : (n.toNat : Int) < 0x10000000000000000 := by
    have := n.toNat_lt
    omega
  simp [uint64?, integer?, hlt]

@[simp] theorem int64?_integer (n : Int64) : int64? (.integer n.toInt) = some n := by
  have hlow := n.le_toInt
  have hhigh := n.toInt_lt
  have hrange : -0x8000000000000000 ≤ n.toInt ∧ n.toInt < 0x8000000000000000 := by omega
  rw [int64?, integer?, if_pos hrange, Option.map_some, Int64.ofInt_toInt]

@[simp] theorem hex?_hex (b : Bytes) : hex? (hex b) = some b := by
  simp [hex?, hex, str, text?, Hex.decode_encode, Except.toOption]

/-- Items are read one by one. -/
theorem list?_map {α β : Type} {read : Json → Option α} {write : β → Json} {f : β → α} {xs : List β}
    (h : ∀ x ∈ xs, read (write x) = some (f x)) :
    list? read (.array (xs.map write)) = some (xs.map f) := by
  rw [list?, List.mapM_map]
  exact Outcome.mapM_eq_pure h

/-- What may be null is read back, unless null is a value. -/
theorem nullable?_nullable {α : Type} {read : Json → Option α} {write : α → Json}
    (hnull : read .null = none) (h : ∀ x, read (write x) = some x) (x : Option α) :
    nullable? read (nullable write x) = some x := by
  cases x with
  | none => rfl
  | some x =>
    have hx := h x
    rw [nullable, nullable?]
    · rw [hx, Option.map_some]
    · intro hwrite
      rw [hwrite, hnull] at hx
      cases hx

/-! ## Records -/

/-- Members under names are named. -/
theorem named?_map {f : String × Json → Option String × Json} (hf : ∀ m, f m = (some m.1, m.2))
    (ms : List (String × Json)) : named? (ms.map f) = some ms := by
  induction ms with
  | nil => rfl
  | cons m ms ih =>
    rw [List.map_cons, hf, named?, ih]
    rfl

/-- An object of named members has them as its fields. -/
@[simp] theorem fields?_record (count : Nat) (ms : List (String × Json)) :
    (record ms).fields? count = some (.named ms) := by
  rw [record, fields?, named?_map fun _ => rfl]
  rfl

/-- Values under names are read one by one. -/
theorem map?_map {α : Type} {read : Json → Option α} {write : α → Json}
    (h : ∀ x, read (write x) = some x) (m : TextMap α) : map? read (map write m) = some m := by
  have hentries : (m.entries.map fun e => (e.1, write e.2)).mapM
      (fun e => (read e.2).map fun x => (e.1, x)) = some m.entries := by
    have hentry (e : String × α) :
        (read (write e.2)).map (fun x => (e.1, x)) = some (id e) := by
      rw [h, Option.map_some]
      rfl
    rw [List.mapM_map]
    exact (Outcome.mapM_eq_pure fun e _ => hentry e).trans (congrArg some m.entries.map_id)
  rw [map?.eq_def, map, record]
  simp only [named?_map fun _ => rfl, Option.bind_eq_bind, Option.bind_some]
  rw [Option.bind_eq_some_iff]
  exact ⟨m.entries, hentries, congrArg some m.ofList_entries⟩

/-! ## What was read -/

section Read

variable {α : Type} {read : Json → Option α} {j : Json} {f : Fields} {i : Nat} {name : String}
  {names : List String}

theorem text?_eq_some {s : String} : text? j = some s ↔ j = str s := by
  cases j <;> simp [text?, str]

theorem uint32?_eq_some {n : UInt32} : uint32? j = some n ↔ j = .integer n.toNat := by
  constructor
  · intro h
    obtain ⟨m, hm, rfl⟩ := Option.map_eq_some_iff.1 h
    cases j <;> simp only [integer?, reduceCtorEq] at hm
    split at hm
    · rename_i k hrange
      cases hm
      rw [UInt32.toNat_ofNat_of_lt' (by rw [UInt32.size]; omega), Int.toNat_of_nonneg hrange.1]
    · cases hm
  · rintro rfl
    exact uint32?_integer n

/-- Bytes are read from digits of either case. -/
theorem hex?_eq_some {b : Bytes} :
    hex? j = some b ↔ ∃ s : String, j = str s ∧ Hex.Spells s.toList b := by
  simp only [hex?, Option.bind_eq_some_iff, text?_eq_some, Outcome.toOption_eq_some,
    Hex.decode_eq_ok_iff]

theorem nullable?_text?_eq_some {x : Option String} :
    nullable? text? j = some x ↔ j = nullable str x := by
  cases j <;> cases x <;> simp [nullable?, nullable, text?, str]

/-- The value is a name: alone, or as the one member of an object whose value is null. -/
def IsName (j : Json) (name : String) : Prop := j = str name ∨ j = .object [(some name, .null)]

/-- A choice is read from its name, if it is the first of this name. -/
theorem choice?_eq_some {nameOf : α → String} {choices : List α} {x : α}
    (hx : (choices.find? fun y => nameOf y = nameOf x) = some x) :
    choice? nameOf choices j = some x ↔ j.IsName (nameOf x) := by
  have hname {s : String} (h : (choices.find? fun y => nameOf y = s) = some x) : nameOf x = s := by
    simpa using List.find?_some h
  constructor
  · intro h
    unfold choice? at h
    split at h
    · rw [hname h]
      exact .inl rfl
    · rw [hname h]
      exact .inr rfl
    · cases h
  · rintro (rfl | rfl)
    · exact hx
    · exact hx

/-- Items are read in order. -/
theorem list?_eq_some {xs : List α} : list? read j = some xs ↔
    ∃ items, j = .array items ∧ List.Forall₂ (fun item x => read item = some x) items xs := by
  cases j <;> simp [list?, Outcome.mapM_eq_some_iff_forall₂]

namespace Fields

/-- A field that must be there is read from what stands in it. -/
theorem required_eq_some {x : α} : f.required i name read = some x ↔
    ∃ j, f.find? i [name] = some (some j) ∧ read j = some x := by
  rw [required]
  rcases f.find? i [name] with _ | _ | j <;> simp

/-- The field holds a text, or for none it is null or missing. -/
def SpellsText (f : Fields) (i : Nat) (names : List String) (x : Option String) : Prop :=
  f.find? i names = some (some (nullable str x)) ∨ f.find? i names = some none ∧ x = none

/-- A field with a default is read from what stands in it. -/
theorem withDefault_eq_some {x default : α} : f.withDefault i names default read = some x ↔
    (∃ j, f.find? i names = some (some j) ∧ read j = some x) ∨
      f.find? i names = some none ∧ x = default := by
  rw [withDefault]
  rcases f.find? i names with _ | _ | j <;> simp [eq_comm]

theorem withDefault_text?_eq_some {s default : String} :
    f.withDefault i names default text? = some s ↔
      f.find? i names = some (some (str s)) ∨ f.find? i names = some none ∧ s = default := by
  simp only [withDefault_eq_some, text?_eq_some, exists_eq_right]

theorem withDefault_nullable?_eq_some {x : Option String} :
    f.withDefault i names none (nullable? text?) = some x ↔ f.SpellsText i names x := by
  simp only [withDefault_eq_some, nullable?_text?_eq_some, SpellsText, exists_eq_right]

end Fields

end Read

end Json

end ChainKit
