import ChainKit.Proofs.Ethereum.Guarded
import Mathlib
/-!
# Byte strings are recovered from arguments

A byte string as an argument is the word of its length, its bytes and zeros
up to whole words, so it takes at least one word even if it is empty. What
stands behind the bytes is never looked at (`bytes_eq_ok`). So byte strings
that are written as arguments are a head and a tail (`laid_ofStrings`), and
each of them is read from its own argument.
-/

namespace ChainKit

namespace Ethereum

namespace Arguments

variable {data b : Bytes} {bs : List Bytes}

/-- A byte string as an argument: the word of its length, its bytes and zeros up to whole words. -/
def ofString (b : Bytes) : Bytes :=
  (Word.ofNat b.length).data ++ b ++ Bytes.zeros ((32 - b.length % 32) % 32)

/-- Byte strings as arguments that follow each other behind their head. -/
def ofStrings (bs : List Bytes) : Arguments where
  head := (List.range bs.length).map (startOf (bs.map ofString))
  tail := bs.map ofString

theorem length_ofString (b : Bytes) :
    (ofString b).length = 32 + b.length + (32 - b.length % 32) % 32 := by
  rw [ofString, List.length_append, List.length_append, Word.length_data, Bytes.zeros,
    List.length_replicate]

/-- Byte strings as arguments are a head and a tail. -/
theorem laid_ofStrings (h : bs ≠ []) : (ofStrings bs).Laid (ofStrings bs).encode where
  nonempty hnil := h (List.map_eq_nil_iff.1 hnil)
  whole := by
    intro argument hargument
    obtain ⟨b, -, rfl⟩ := List.mem_map.1 hargument
    have hlength := length_ofString b
    exact ⟨List.ne_nil_of_length_pos (by omega), Nat.dvd_of_mod_eq_zero (by omega)⟩
  starts := by rw [ofStrings, List.length_map]
  bytes := rfl

/-- A byte string is no longer than the arguments that it is one of. -/
theorem length_le_encode (h : b ∈ bs) : b.length ≤ (ofStrings bs).encode.length := by
  have hargument : (ofString b).length ≤ (ofStrings bs).tail.flatten.length :=
    (List.sublist_flatten_of_mem (List.mem_map_of_mem h)).length_le
  have hlength := length_ofString b
  rw [length_encode]
  omega

/-- **The bytes behind a length are read**, whatever stands behind them. -/
theorem bytes_eq_ok : bytes data = .ok b ↔ 32 ≤ data.length ∧
    Bytes.toNat (data.take 32) = b.length ∧ b.length ≤ data.length - 32 ∧
      b = (data.drop 32).take b.length := by
  simp only [bytes, Outcome.ite_error_eq_ok, Outcome.bind_eq_ok, Outcome.pure_eq_ok,
    position_eq_ok]
  constructor
  · rintro ⟨hword, length, ⟨hlength, hle⟩, hstop, rfl⟩
    have hread : ((data.drop 32).take length).length = length := by
      rw [List.length_take, List.length_drop]
      omega
    rw [hread]
    exact ⟨by omega, hlength.symm, by omega, rfl⟩
  · rintro ⟨hword, hlength, hle, hb⟩
    exact ⟨by omega, b.length, ⟨hlength.symm, by omega⟩, by omega, hb.symm⟩

/-- A byte string whose length fits in a word is read back from its argument. -/
theorem bytes_ofString (h : b.length < 2 ^ 256) : bytes (ofString b) = .ok b := by
  have hlength := length_ofString b
  have hword : (ofString b).take 32 = (Word.ofNat b.length).data := by
    rw [ofString, List.append_assoc, List.take_left' (Word.length_data _)]
  have hrest : (ofString b).drop 32 = b ++ Bytes.zeros ((32 - b.length % 32) % 32) := by
    rw [ofString, List.append_assoc, List.drop_left' (Word.length_data _)]
  refine bytes_eq_ok.2 ⟨by omega, ?_, by omega, ?_⟩
  · rw [hword]
    exact Word.toNat_ofNat h
  · rw [hrest, List.take_left' rfl]

/-- **Byte strings are recovered from their arguments**, one from each, as long as the starts fit in
words; and from any data exactly the bytes behind its first word are read, as many as that word
says, which never leaves the data. -/
theorem strings_recovered :
    (∀ bs : List Bytes, bs ≠ [] → (ofStrings bs).encode.length < 2 ^ 256 →
      ∃ a, read (ofStrings bs).encode = .ok a ∧ a.tail.length = bs.length ∧
        a.tail.map bytes = bs.map .ok) ∧
    ∀ data : Bytes,
      (∀ b, bytes data = .ok b ↔ 32 ≤ data.length ∧ Bytes.toNat (data.take 32) = b.length ∧
        b.length ≤ data.length - 32 ∧ b = (data.drop 32).take b.length) ∧
      (data.length < 2 ^ 63 → (Guarded.bytes data).run = some (bytes data)) := by
  refine ⟨fun bs hne hlength => ?_, fun data => ⟨fun b => bytes_eq_ok, Guarded.bytes_eq⟩⟩
  refine ⟨ofStrings bs, read_of_laid (laid_ofStrings hne) hlength, List.length_map _, ?_⟩
  rw [ofStrings, List.map_map]
  refine List.map_congr_left fun b hb => ?_
  have hle := length_le_encode hb
  rw [Function.comp_apply, bytes_ofString (by omega)]

/-- An empty string, one that fills a word and one that does not. -/
def sampleStrings : List Bytes := [[], List.replicate 32 0x61, [0x41, 0x53, 0x48]]

/-- The three strings are recovered from their 256 bytes, and the last one is read within its two
words. -/
theorem strings_recovered_sampleStrings : (ofStrings sampleStrings).encode.length = 256 ∧
    (∃ a, read (ofStrings sampleStrings).encode = .ok a ∧
      a.tail.map bytes = sampleStrings.map .ok) ∧
    (Guarded.bytes (ofString [0x41, 0x53, 0x48])).run = some (.ok [0x41, 0x53, 0x48]) := by
  have hlength : (ofStrings sampleStrings).encode.length = 256 := by
    simp [length_encode, ofStrings, sampleStrings, length_ofString]
  have hlast : (ofString [0x41, 0x53, 0x48]).length = 64 := length_ofString _
  obtain ⟨hrecovered, hread⟩ := strings_recovered
  obtain ⟨a, ha, -, hstrings⟩ := hrecovered sampleStrings (by decide) (by rw [hlength]; decide)
  obtain ⟨-, hguarded⟩ := hread (ofString [0x41, 0x53, 0x48])
  refine ⟨hlength, ⟨a, ha, hstrings⟩, ?_⟩
  rw [hguarded (by rw [hlast]; decide), bytes_ofString (by decide)]

end Arguments

end Ethereum

end ChainKit
