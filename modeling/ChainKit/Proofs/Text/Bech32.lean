import ChainKit.Text.Bech32
import Mathlib
/-!
# Bech32 — symbols, checksums and characters

Three facts make a text readable again. Regrouping bits into symbols and
back loses nothing but zeros at the end (`bytesOfBits_symbolsOfBits`). The
checksum is linear over exclusive or, so the six symbols behind a text add
what its residue lacks to one (`residue_checksum`). No symbol is written as
the separator, so the last `1` stands between prefix and symbols.
-/

namespace ChainKit

namespace Text

namespace Bech32

/-! ## Regrouping -/

theorem symbolBits_five (a b c d e : Bool) :
    symbolBits (BitVec.ofNat 5 (bitsValue [a, b, c, d, e])) = [a, b, c, d, e] := by
  revert a b c d e
  decide

theorem byteBits_value (n : Nat) (h : n < 256) :
    UInt8.ofNat (bitsValue (byteBits (UInt8.ofNat n))) = UInt8.ofNat n := by
  revert n
  decide +kernel

theorem bitsValue_byteBits (b : UInt8) : UInt8.ofNat (bitsValue (byteBits b)) = b := by
  have h := byteBits_value b.toNat b.toNat_lt
  rwa [UInt8.ofNat_toNat] at h

/-- Symbols have the bits they were made of, and fewer than five zeros. -/
theorem symbolBits_symbolsOfBits (bits : List Bool) :
    ∃ count < 5, (symbolsOfBits bits).flatMap symbolBits = bits ++ List.replicate count false := by
  fun_induction symbolsOfBits bits with
  | case1 => exact ⟨0, by omega, rfl⟩
  | case2 a b c d e rest ih =>
    obtain ⟨count, hlt, hrest⟩ := ih
    exact ⟨count, hlt, by rw [List.flatMap_cons, symbolBits_five, hrest]; rfl⟩
  | case3 few hne hfive =>
    -- one to four bits, filled up to five
    rcases few with _ | ⟨a, _ | ⟨b, _ | ⟨c, _ | ⟨d, _ | ⟨e, rest⟩⟩⟩⟩⟩
    · exact absurd rfl hne
    · exact ⟨4, by omega, by simpa using symbolBits_five a false false false false⟩
    · exact ⟨3, by omega, by simpa using symbolBits_five a b false false false⟩
    · exact ⟨2, by omega, by simpa using symbolBits_five a b c false false⟩
    · exact ⟨1, by omega, by simpa using symbolBits_five a b c d false⟩
    · exact absurd rfl (hfive a b c d e rest)

/-- Bytes are made of their bits, and fewer than eight more are dropped. -/
theorem bytesOfBits_byteBits (bytes : Bytes) {more : List Bool} (h : more.length < 8) :
    bytesOfBits (bytes.flatMap byteBits ++ more) = bytes := by
  induction bytes with
  | nil =>
    unfold bytesOfBits
    split
    · rename_i hmore
      rw [List.flatMap_nil, List.nil_append] at hmore
      simp only [hmore, List.length_cons] at h
      omega
    · rfl
  | cons b bytes ih =>
    have hbits : byteBits b = [b.toBitVec.getMsbD 0, b.toBitVec.getMsbD 1, b.toBitVec.getMsbD 2,
        b.toBitVec.getMsbD 3, b.toBitVec.getMsbD 4, b.toBitVec.getMsbD 5, b.toBitVec.getMsbD 6,
        b.toBitVec.getMsbD 7] := rfl
    rw [List.flatMap_cons, hbits]
    simp only [List.cons_append, List.nil_append, bytesOfBits, ih]
    rw [← hbits, bitsValue_byteBits]

/-- **Bytes survive the regrouping.** -/
theorem bytesOfBits_symbolsOfBits (bytes : Bytes) :
    bytesOfBits ((symbolsOfBits (bytes.flatMap byteBits)).flatMap symbolBits) = bytes := by
  obtain ⟨count, hlt, hbits⟩ := symbolBits_symbolsOfBits (bytes.flatMap byteBits)
  rw [hbits, bytesOfBits_byteBits]
  simp only [List.length_replicate]
  omega

theorem length_flatMap_byteBits (bytes : Bytes) :
    (bytes.flatMap byteBits).length = 8 * bytes.length := by
  induction bytes with
  | nil => rfl
  | cons b bytes ih =>
    have hb : (byteBits b).length = 8 := by simp [byteBits]
    rw [List.flatMap_cons, List.length_append, ih, hb, List.length_cons]
    omega

/-- There is a symbol for every five bits or fewer. -/
theorem length_symbolsOfBits (bits : List Bool) :
    (symbolsOfBits bits).length = (bits.length + 4) / 5 := by
  fun_induction symbolsOfBits bits with
  | case1 => rfl
  | case2 a b c d e rest ih =>
    simp only [List.length_cons, ih]
    omega
  | case3 few hne hfive =>
    rcases few with _ | ⟨a, _ | ⟨b, _ | ⟨c, _ | ⟨d, _ | ⟨e, rest⟩⟩⟩⟩⟩
    · exact absurd rfl hne
    · simp
    · simp
    · simp
    · simp
    · exact absurd rfl (hfive a b c d e rest)

/-! ## Checksums -/

/-- A generator if the bit is set. -/
def pick (bit : Bool) (g : Residue) : Residue := if bit then g else 0

theorem pick_xor (a b : Bool) (g : Residue) : pick (a ^^ b) g = pick a g ^^^ pick b g := by
  cases a <;> cases b <;> simp [pick]

/-- What the bits shifted out add. -/
def feedback (r : Residue) : Residue :=
  pick (r.getLsbD 25) 0x3b6a57b2 ^^^ pick (r.getLsbD 26) 0x26508e6d ^^^
    pick (r.getLsbD 27) 0x1ea119fa ^^^ pick (r.getLsbD 28) 0x3d4233dd ^^^
    pick (r.getLsbD 29) 0x2a1462b3

theorem absorb_eq (r : Residue) (s : Symbol) :
    absorb r s = r <<< 5 ^^^ s.setWidth 30 ^^^ feedback r := by
  have hpick : ∀ (bit : Bool) (t g : Residue),
      (if bit = true then t ^^^ g else t) = t ^^^ pick bit g := by
    intro bit t g
    cases bit <;> simp [pick]
  simp only [absorb, generators, List.zipIdx_cons, List.zipIdx_nil, List.foldl_cons,
    List.foldl_nil, hpick, feedback, Nat.reduceAdd, Nat.add_zero]
  ac_rfl

theorem feedback_xor (r t : Residue) : feedback (r ^^^ t) = feedback r ^^^ feedback t := by
  simp only [feedback, BitVec.getLsbD_xor, pick_xor]
  ac_rfl

/-- Taking in a symbol is linear: the residues add up. -/
theorem absorb_xor (r t : Residue) (s : Symbol) :
    absorb (r ^^^ t) s = absorb r 0 ^^^ absorb t s := by
  simp only [absorb_eq, feedback_xor, BitVec.shiftLeft_xor_distrib, BitVec.ofNat_eq_ofNat,
    BitVec.setWidth_zero, BitVec.xor_zero]
  ac_rfl

theorem foldl_absorb_xor (r t : Residue) (symbols : List Symbol) :
    symbols.foldl absorb (r ^^^ t) =
      (List.replicate symbols.length 0).foldl absorb r ^^^ symbols.foldl absorb t := by
  induction symbols generalizing r t with
  | nil => rfl
  | cons s symbols ih =>
    rw [List.foldl_cons, absorb_xor, ih, List.length_cons, List.replicate_succ, List.foldl_cons,
      List.foldl_cons]

/-- While nothing is shifted out, symbols are put behind each other. -/
theorem absorb_ushiftRight (r : Residue) (i : Nat) :
    absorb (r >>> (i + 5)) ((r >>> i).setWidth 5) = r >>> i := by
  have hfeedback : feedback (r >>> (i + 5)) = 0 := by
    simp [feedback, pick]
  rw [absorb_eq, hfeedback]
  ext j hj
  simp only [BitVec.ofNat_eq_ofNat, BitVec.xor_zero, BitVec.getElem_xor, BitVec.getElem_shiftLeft,
    BitVec.getElem_setWidth, BitVec.getLsbD_setWidth, BitVec.getElem_ushiftRight,
    BitVec.getLsbD_ushiftRight]
  by_cases h : j < 5
  · simp [h]
  · have hindex : i + 5 + (j - 5) = i + j := by omega
    simp [h, hindex]

/-- The six symbols of a residue, taken in one after the other, make it. -/
theorem foldl_absorb_symbols (r : Residue) :
    ([25, 20, 15, 10, 5, 0].map fun i => (r >>> i).setWidth 5).foldl absorb 0 = r := by
  have hzero : (0 : Residue) = r >>> (25 + 5) := by
    ext j hj
    simp
  simp only [List.map_cons, List.map_nil, List.foldl_cons, List.foldl_nil]
  rw [hzero, absorb_ushiftRight r 25, absorb_ushiftRight r 20, absorb_ushiftRight r 15,
    absorb_ushiftRight r 10, absorb_ushiftRight r 5, absorb_ushiftRight r 0,
    BitVec.ushiftRight_zero]

/-- **The checksum makes the residue one.** -/
theorem residue_checksum (hrp : List Char) (symbols : List Symbol) :
    residue (expand hrp ++ (symbols ++ checksum hrp symbols)) = 1 := by
  have hsplit : residue (expand hrp ++ (symbols ++ checksum hrp symbols)) =
      (checksum hrp symbols).foldl absorb (residue (expand hrp ++ symbols)) := by
    rw [residue, ← List.append_assoc, List.foldl_append]
    rfl
  have hzeros : residue (expand hrp ++ symbols ++ List.replicate 6 0) =
      (List.replicate 6 0).foldl absorb (residue (expand hrp ++ symbols)) := by
    rw [residue, List.foldl_append]
    rfl
  have hxor : residue (expand hrp ++ symbols) = residue (expand hrp ++ symbols) ^^^ 0 := by simp
  rw [hsplit, hxor, foldl_absorb_xor]
  simp only [checksum, List.length_map, List.length_cons, List.length_nil, Nat.reduceAdd]
  rw [foldl_absorb_symbols, hzeros, ← BitVec.xor_assoc, BitVec.xor_self, BitVec.zero_xor]

/-! ## Characters -/

theorem symbol?_char : ∀ s : Symbol, symbol? s.char = some s := by decide +kernel

theorem char_ne_separator : ∀ s : Symbol, s.char ≠ '1' := by decide +kernel

theorem splitLast?_eq_none {cs : List Char} : splitLast? cs = none ↔ ∀ c ∈ cs, c ≠ '1' := by
  induction cs with
  | nil => simp [splitLast?]
  | cons c cs ih =>
    rw [splitLast?, List.forall_mem_cons]
    cases hsplit : splitLast? cs with
    | some split =>
      have hmem : ¬ ∀ c ∈ cs, c ≠ '1' := by
        rw [← ih, hsplit]
        simp
      simp only [reduceCtorEq, false_iff, not_and]
      exact fun _ => hmem
    | none =>
      have hcs := ih.1 hsplit
      by_cases hc : c = '1'
      · simp [hc]
      · simpa [hc] using hcs

/-- The last separator stands in front of characters that are none. -/
theorem splitLast?_append {data : List Char} (hrp : List Char) (h : ∀ c ∈ data, c ≠ '1') :
    splitLast? (hrp ++ '1' :: data) = some (hrp, data) := by
  have hnone : splitLast? data = none := splitLast?_eq_none.2 h
  induction hrp with
  | nil => simp [splitLast?, hnone]
  | cons c hrp ih => simp [splitLast?, ih]

end Bech32

end Text

end ChainKit
