import ChainKit.Wire.Record
import Mathlib
/-!
# Records read back what they write

A varint below `2 ^ 64` is read back from its shortest spelling, whatever
follows it; so is a key, a payload, and by induction a whole run of
records. `Payload.Fits` and `Record.Plain` name what the wire can carry: a
field number of 29 bits that is not zero, and a payload that is no group
and whose length is a word of 64 bits.
-/

namespace ChainKit

namespace Wire

/-- One more than the largest number a varint spells. -/
abbrev wordSize : Nat := 0x10000000000000000

/-! ## Varints -/

namespace Varint

theorem write_of_lt {n : Nat} (h : n < 128) : write n = [UInt8.ofNat n] := by
  rw [write, if_pos h]

theorem write_of_ge {n : Nat} (h : 128 ≤ n) :
    write n = UInt8.ofNat (n % 128 + 128) :: write (n / 128) := by
  rw [write, if_neg (by omega)]

/-- A number takes at least one byte. -/
theorem write_ne_nil (n : Nat) : write n ≠ [] := by
  rcases Nat.lt_or_ge n 128 with h | h
  · simp [write_of_lt h]
  · simp [write_of_ge h]

/-- A number is read back where the bytes left are enough for it; of the
last byte only one bit counts. -/
theorem readWithin_write {count n : Nat} (rest : Bytes) (h : n < 2 * 128 ^ count) :
    readWithin (count + 1) (write n ++ rest) = some (n, rest) := by
  -- by induction on the bytes left: each takes seven bits off the number
  induction count generalizing n with
  | zero =>
    rw [write_of_lt (by omega), List.singleton_append, readWithin]
    have hbyte : (UInt8.ofNat n).toNat = n := by simp; omega
    have hlow : UInt8.ofNat n < 128 := by rw [UInt8.lt_iff_toNat_lt, hbyte]; simp; omega
    have hone : ¬ 1 < UInt8.ofNat n := by rw [UInt8.lt_iff_toNat_lt, hbyte]; simp; omega
    simp only [if_pos hlow, hone, hbyte, decide_false, Bool.and_false, Bool.false_eq_true,
      if_false]
  | succ count ih =>
    rcases Nat.lt_or_ge n 128 with hlt | hge
    · rw [write_of_lt hlt, List.singleton_append, readWithin]
      have hbyte : (UInt8.ofNat n).toNat = n := by simp; omega
      have hlow : UInt8.ofNat n < 128 := by rw [UInt8.lt_iff_toNat_lt, hbyte]; simpa using hlt
      simp [if_pos hlow]
      omega
    · rw [write_of_ge hge, List.cons_append, readWithin]
      have hbyte : (UInt8.ofNat (n % 128 + 128)).toNat = n % 128 + 128 := by simp; omega
      have hhigh : ¬ UInt8.ofNat (n % 128 + 128) < 128 := by
        rw [UInt8.lt_iff_toNat_lt, hbyte]; simp
      have hrest : n / 128 < 2 * 128 ^ count := by
        rw [Nat.pow_succ] at h
        omega
      have hsum : n % 128 + 128 - 128 + 128 * (n / 128) = n := by omega
      rw [if_neg hhigh, ih hrest, Option.map_some, hbyte]
      simp only [hsum]

/-- A word is read back from its spelling, whatever follows. -/
theorem read?_write {n : Nat} (rest : Bytes) (h : n < wordSize) :
    read? (write n ++ rest) = some (n, rest) :=
  readWithin_write rest (by simpa using h)

end Varint

/-! ## Records -/

/-- A payload that the wire can carry: no group, and no longer than a
word can say. -/
def Payload.Fits : Payload → Prop
  | .varint _ => True
  | .fixed64 b => b.length = 8
  | .bytes b => b.length < wordSize
  | .group => False
  | .fixed32 b => b.length = 4

namespace Record

/-- A record whose key and payload the wire can carry. -/
structure Plain (r : Record) : Prop where
  pos : 0 < r.number
  lt : r.number < 0x20000000
  fits : r.payload.Fits

/-- The split at the length of the front. -/
theorem split?_append (front rest : Bytes) :
    Bytes.split? front.length (front ++ rest) = some (front, rest) := by
  simp [Bytes.split?]

/-- A key is read back. -/
theorem readKey?_write {number kind : Nat} (rest : Bytes) (hpos : 0 < number)
    (hlt : number < 0x20000000) (hkind : kind < 8) :
    readKey? (Varint.write (number * 8 + kind) ++ rest) = some (number, kind, rest) := by
  have hword : number * 8 + kind < wordSize := by unfold wordSize; omega
  have hkey : number * 8 + kind < UInt32.size ∧ 8 ≤ number * 8 + kind := by
    simp only [UInt32.size]; omega
  rw [readKey?, Varint.read?_write rest hword]
  simp only [Option.bind_eq_bind, Option.bind_some, if_pos hkey]
  congr 3 <;> omega

/-- A payload that fits is read back. -/
theorem readPayload?_write {p : Payload} (number : Nat) (rest : Bytes) (h : p.Fits) :
    readPayload? p.kind (p.write number ++ rest) = some (p, rest) := by
  cases p with
  | varint n =>
    simp [Payload.kind, Payload.write, readPayload?, Varint.read?_write rest n.toNat_lt]
  | fixed64 b =>
    have hb : b.length = 8 := h
    simp [Payload.kind, Payload.write, readPayload?, ← hb, split?_append]
  | bytes b =>
    simp [Payload.kind, Payload.write, readPayload?, List.append_assoc,
      Varint.read?_write (b ++ rest) h, split?_append]
  | group => cases h
  | fixed32 b =>
    have hb : b.length = 4 := h
    simp [Payload.kind, Payload.write, readPayload?, ← hb, split?_append]

theorem kind_of_fits {p : Payload} (h : p.Fits) : p.kind < 8 ∧ p.kind ≠ 3 ∧ p.kind ≠ 4 := by
  cases p <;> first | cases h; done | simp [Payload.kind]

/-- A record takes at least one byte. -/
theorem write_ne_nil (r : Record) : r.write ≠ [] := by
  simp [write, Varint.write_ne_nil]

/-- The front record is read back, and the records behind it follow. -/
theorem readAll_write_append {levels : Nat} {r : Record} (rest : Bytes) (hlevels : 0 < levels)
    (h : r.Plain) :
    readAll levels [] (r.write ++ rest) = (readAll levels [] rest).map (r :: ·) := by
  obtain ⟨hlt, hthree, hfour⟩ := kind_of_fits h.fits
  have hkey := readKey?_write (r.payload.write r.number ++ rest) h.pos h.lt hlt
  have hpayload := readPayload?_write r.number rest h.fits
  rw [write, List.append_assoc, readAll, if_neg (by simp [Varint.write_ne_nil])]
  -- the key and then the payload are read, and no group opens or ends
  split
  · rename_i hnone
    rw [hkey] at hnone
    cases hnone
  · rename_i number kind after hsome
    rw [hkey] at hsome
    cases hsome
    rw [if_neg hfour, if_neg (by simp; omega), if_neg hthree]
    split
    · rename_i hnone
      rw [hpayload] at hnone
      cases hnone
    · rename_i payload after hsome
      rw [hpayload] at hsome
      cases hsome
      rw [if_pos rfl]

/-- **Records are read back.** -/
theorem readAll_writeAll {levels : Nat} {rs : List Record} (hlevels : 0 < levels)
    (h : ∀ r ∈ rs, r.Plain) : readAll levels [] (writeAll rs) = some rs := by
  induction rs with
  | nil => rw [readAll]; rfl
  | cons r rs ih =>
    rw [writeAll, List.flatMap_cons, readAll_write_append _ hlevels (h r List.mem_cons_self)]
    rw [← writeAll, ih fun q hq => h q (List.mem_cons_of_mem _ hq), Option.map_some]

/-- Bytes inside a record are fewer than those of the message. -/
theorem length_le_writeAll {rs : List Record} {number : Nat} {b : Bytes}
    (h : ⟨number, .bytes b⟩ ∈ rs) : b.length ≤ (writeAll rs).length := by
  induction rs with
  | nil => cases h
  | cons r rs ih =>
    rw [writeAll, List.flatMap_cons, List.length_append]
    rcases List.mem_cons.1 h with rfl | h
    · simp only [write, Payload.write, List.length_append]
      omega
    · have := ih h
      rw [writeAll] at this
      omega

end Record

end Wire

end ChainKit
