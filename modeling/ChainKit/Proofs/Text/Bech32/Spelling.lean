import ChainKit.Proofs.Outcome
import ChainKit.Proofs.Text.Bech32.Residue
import Mathlib
/-!
# How a prefix and bytes are spelled in bech32

A text is read exactly if it is, in lowercase, a prefix, a payload and the
checksum of both, and its letters are of one case (`decode_eq_ok_iff`). No
text stays readable when one of its symbols is replaced
(`decode_set_ne_ok`). The payload is not settled by the bytes: bits
left over are dropped in reading, so that bytes which end with a symbol may
be followed by one more (`exists_spare`, `bytesOfBits_spare`).
-/

namespace ChainKit

namespace Text

namespace Bech32

/-- The characters of a prefix, a payload and their checksum. -/
def spelled (hrp : List Char) (payload : List Symbol) : List Char :=
  hrp ++ '1' :: (payload ++ checksum hrp payload).map Symbol.char

variable {hrp : List Char} {payload : List Symbol} {bytes : Bytes}

/-! ## Regrouping -/

theorem ofNat_symbolBits : ∀ s : Symbol, BitVec.ofNat 5 (bitsValue (symbolBits s)) = s := by
  decide +kernel

theorem byteBits_eight (a b c d e f g h : Bool) :
    byteBits (UInt8.ofNat (bitsValue [a, b, c, d, e, f, g, h])) = [a, b, c, d, e, f, g, h] := by
  revert a b c d e f g h
  decide +kernel

theorem length_flatMap_symbolBits (symbols : List Symbol) :
    (symbols.flatMap symbolBits).length = 5 * symbols.length := by
  induction symbols with
  | nil => rfl
  | cons s symbols ih =>
    have hs : (symbolBits s).length = 5 := by simp [symbolBits]
    rw [List.flatMap_cons, List.length_append, ih, hs, List.length_cons]
    omega

/-- Symbols are made of their bits. -/
theorem symbolsOfBits_symbolBits (symbols : List Symbol) :
    symbolsOfBits (symbols.flatMap symbolBits) = symbols := by
  induction symbols with
  | nil => rfl
  | cons s symbols ih =>
    have hbits : symbolBits s = [s.getMsbD 0, s.getMsbD 1, s.getMsbD 2, s.getMsbD 3,
        s.getMsbD 4] := rfl
    rw [List.flatMap_cons, hbits]
    simp only [List.cons_append, List.nil_append, symbolsOfBits, ih]
    rw [← hbits, ofNat_symbolBits]

/-- Bits are those of their bytes, and fewer than eight more. -/
theorem exists_append_bits (bits : List Bool) :
    ∃ more, more.length < 8 ∧ bits = (bytesOfBits bits).flatMap byteBits ++ more := by
  fun_induction bytesOfBits bits with
  | case1 a b c d e f g h rest ih =>
    obtain ⟨more, hmore, hrest⟩ := ih
    refine ⟨more, hmore, ?_⟩
    rw [List.flatMap_cons, byteBits_eight, List.append_assoc, ← hrest]
    rfl
  | case2 bits hshort =>
    refine ⟨bits, ?_, rfl⟩
    by_contra hlong
    obtain ⟨a, b, c, d, e, f, g, h, rest, rfl⟩ : ∃ a b c d e f g h rest,
        bits = a :: b :: c :: d :: e :: f :: g :: h :: rest := by
      rcases bits with _ | ⟨a, _ | ⟨b, _ | ⟨c, _ | ⟨d, _ | ⟨e, _ | ⟨f, _ | ⟨g, _ | ⟨h, rest⟩⟩⟩⟩⟩⟩⟩⟩
      all_goals first | exact ⟨_, _, _, _, _, _, _, _, _, rfl⟩ | simp at hlong
    exact hshort a b c d e f g h rest rfl

/-- **Bytes that end with a symbol leave room for one more**: the payload is theirs, and a spare
symbol may follow. -/
theorem exists_spare (hfive : 5 ∣ bytes.length)
    (h : bytesOfBits (payload.flatMap symbolBits) = bytes) :
    ∃ spare : Option Symbol, payload = symbolsOfBits (bytes.flatMap byteBits) ++ spare.toList := by
  obtain ⟨more, hmore, hbits⟩ := exists_append_bits (payload.flatMap symbolBits)
  rw [h] at hbits
  have hlength := congrArg List.length hbits
  rw [List.length_append, length_flatMap_symbolBits, length_flatMap_byteBits] at hlength
  obtain ⟨n, hn⟩ := hfive
  -- the symbols of the bytes come first
  have hfront : (payload.take (8 * n)).flatMap symbolBits = bytes.flatMap byteBits := by
    rw [← List.take_append_drop (8 * n) payload, List.flatMap_append] at hbits
    refine (List.append_inj hbits ?_).1
    rw [length_flatMap_symbolBits, length_flatMap_byteBits, List.length_take]
    omega
  have hrest : (payload.drop (8 * n)).length ≤ 1 := by
    rw [List.length_drop]
    omega
  rw [← hfront, symbolsOfBits_symbolBits]
  have hsplit := List.take_append_drop (8 * n) payload
  generalize payload.take (8 * n) = front, payload.drop (8 * n) = rest at hsplit hrest
  rcases rest with _ | ⟨s, _ | ⟨s', rest⟩⟩
  · exact ⟨none, hsplit.symm⟩
  · exact ⟨some s, hsplit.symm⟩
  · simp only [List.length_cons] at hrest
    omega

/-- A spare symbol is dropped. -/
theorem bytesOfBits_spare (hfive : 5 ∣ bytes.length) (spare : Option Symbol) :
    bytesOfBits ((symbolsOfBits (bytes.flatMap byteBits) ++ spare.toList).flatMap symbolBits) =
      bytes := by
  obtain ⟨count, hcount, hbits⟩ := symbolBits_symbolsOfBits (bytes.flatMap byteBits)
  have hlength := congrArg List.length hbits
  rw [length_flatMap_symbolBits, length_symbolsOfBits, List.length_append, List.length_replicate,
    length_flatMap_byteBits] at hlength
  have hzero : count = 0 := by
    obtain ⟨n, hn⟩ := hfive
    omega
  rw [List.flatMap_append, hbits, hzero, List.replicate_zero, List.append_nil]
  refine bytesOfBits_byteBits bytes ?_
  rw [length_flatMap_symbolBits]
  cases spare with
  | none => simp
  | some s => simp

/-! ## Characters -/

theorem toLower_char : ∀ s : Symbol, s.char.toLower = s.char := by decide +kernel

/-- The character at a place is that of the symbol of this value. -/
theorem char_ofNat {i : Nat} (h : i < alphabet.length) :
    Symbol.char (BitVec.ofNat 5 i) = alphabet[i] := by
  have hindex : (BitVec.ofNat 5 i).toNat = i := by
    rw [BitVec.toNat_ofNat]
    exact Nat.mod_eq_of_lt (Nat.lt_of_lt_of_le h (by decide))
  rw [Symbol.char, hindex, List.getD_eq_getElem _ _ h]

theorem exists_char {c : Char} (h : c ∈ alphabet) : ∃ s : Symbol, s.char = c := by
  obtain ⟨i, hi, rfl⟩ := List.getElem_of_mem h
  exact ⟨_, char_ofNat hi⟩

theorem char_injective : Function.Injective Symbol.char := by
  intro s s' h
  have hread := symbol?_char s
  rw [h, symbol?_char] at hread
  exact (Option.some_inj.1 hread).symm

theorem forall_mem_char_ne (symbols : List Symbol) : ∀ c ∈ symbols.map Symbol.char, c ≠ '1' := by
  intro c hc
  obtain ⟨s, -, rfl⟩ := List.mem_map.1 hc
  exact char_ne_separator s

/-- A character stands for a symbol if it is that of the symbol in lowercase. -/
theorem symbol?_eq_some {c : Char} {s : Symbol} : symbol? c = some s ↔ c.toLower = s.char := by
  constructor
  · intro h
    obtain ⟨i, hi, rfl⟩ := Option.map_eq_some_iff.1 h
    obtain ⟨hlt, hc, -⟩ := List.idxOf?_eq_some_iff.1 hi
    rw [char_ofNat hlt]
    exact hc.symm
  · intro h
    have hsame : symbol? c = symbol? s.char := by rw [symbol?, symbol?, h, toLower_char]
    rw [hsame, symbol?_char]

/-- Characters stand for symbols if they are theirs in lowercase. -/
theorem mapM_symbol?_eq_some {data : List Char} {symbols : List Symbol} :
    data.mapM symbol? = some symbols ↔ data.map Char.toLower = symbols.map Symbol.char := by
  rw [Outcome.mapM_eq_some_iff_forall₂, ← List.forall₂_eq_eq_eq, List.forall₂_map_left_iff,
    List.forall₂_map_right_iff]
  simp only [symbol?_eq_some]

/-- The last separator is told by what follows it. -/
theorem splitLast?_eq_some {cs data : List Char} :
    splitLast? cs = some (hrp, data) ↔ cs = hrp ++ '1' :: data ∧ ∀ c ∈ data, c ≠ '1' := by
  constructor
  · intro h
    induction cs generalizing hrp with
    | nil => cases h
    | cons c cs ih =>
      rw [splitLast?] at h
      split at h
      · rename_i front back hsplit
        cases h
        obtain ⟨rfl, hback⟩ := ih hsplit
        exact ⟨rfl, hback⟩
      · rename_i hnone
        by_cases hc : c = '1'
        · rw [if_pos hc] at h
          cases h
          exact ⟨by rw [hc]; rfl, splitLast?_eq_none.1 hnone⟩
        · rw [if_neg hc] at h
          cases h
  · rintro ⟨rfl, h⟩
    exact splitLast?_append hrp h

theorem toLower_eq_separator {c : Char} : c.toLower = '1' ↔ c = '1' := by
  by_cases hupper : c.isUpper = true
  · have halpha : c.toLower.isLower = true := by
      rw [Char.isLower_toLower_eq_isAlpha, Char.isAlpha, hupper, Bool.true_or]
    constructor
    · intro h
      rw [h] at halpha
      cases halpha
    · rintro rfl
      cases hupper
  · rw [Char.toLower_eq_of_not_isUpper hupper]

/-- A prefix is allowed in either case. -/
theorem isPrefix_map_toLower (hrp : List Char) :
    isPrefix (hrp.map Char.toLower) = isPrefix hrp := by
  have hc (c : Char) : (33 ≤ c.toLower.toNat && c.toLower.toNat ≤ 126) =
      (33 ≤ c.toNat && c.toNat ≤ 126) := by
    by_cases hupper : c.isUpper = true
    · have hbounds : 65 ≤ c.toNat ∧ c.toNat ≤ 90 := by
        simpa [Char.isUpper, UInt32.le_iff_toNat_le] using hupper
      have hlower : c.toLower.toNat = c.toNat + 32 := by
        rw [Char.toLower_eq_of_isUpper hupper, Char.toNat_ofNat, if_pos (.inl (by omega))]
      rw [hlower, Bool.eq_iff_iff]
      simp
      omega
    · rw [Char.toLower_eq_of_not_isUpper hupper]
  simp only [isPrefix, List.length_map, List.all_map, Function.comp_def, hc]

/-! ## Texts -/

/-- A text settles its prefix and its symbols. -/
theorem append_separator_inj {hrp' : List Char} {symbols symbols' : List Symbol}
    (h : hrp ++ '1' :: symbols.map Symbol.char = hrp' ++ '1' :: symbols'.map Symbol.char) :
    hrp = hrp' ∧ symbols = symbols' := by
  have hsplit := splitLast?_append hrp (forall_mem_char_ne symbols)
  rw [h, splitLast?_append hrp' (forall_mem_char_ne symbols'), Option.some_inj,
    Prod.mk.injEq] at hsplit
  exact ⟨hsplit.1.symm, (List.map_injective_iff.2 char_injective hsplit.2).symm⟩

/-- **A text is read exactly if it spells a prefix, a payload and their checksum**, in letters of
one case. -/
theorem decode_eq_ok_iff {text hrp : String} :
    decode text = .ok (hrp, bytes) ↔
      isMixed text.toList = false ∧ isPrefix hrp.toList = true ∧
        text.toList.length ≤ maxLength ∧
        ∃ payload, text.toList.map Char.toLower = spelled hrp.toList payload ∧
          bytesOfBits (payload.flatMap symbolBits) = bytes := by
  constructor
  · intro h
    simp only [decode] at h
    split at h
    · cases h
    rename_i front data hsplit
    split at h
    · cases h
    rename_i symbols hsymbols
    simp only [Outcome.ite_error_eq_ok, Bool.or_eq_true, Bool.not_eq_true', decide_eq_true_eq,
      not_or, not_lt, ne_eq, not_not, Bool.not_eq_true, Bool.not_eq_false, Except.ok.injEq,
      Prod.mk.injEq] at h
    obtain ⟨⟨hmixed, hprefix⟩, ⟨⟨hlength, hsix⟩, hresidue⟩, hhrp, hbytes⟩ := h
    obtain ⟨htext, -⟩ := splitLast?_eq_some.1 hsplit
    have hlower := mapM_symbol?_eq_some.1 hsymbols
    obtain ⟨payload, rfl⟩ := exists_checksum hsix hresidue
    have hchecksum : (checksum (front.map Char.toLower) payload).length = 6 := rfl
    subst hhrp
    rw [List.length_append, hchecksum, Nat.add_sub_cancel, List.take_left] at hbytes
    refine ⟨hmixed, ?_, hlength, payload, ?_, hbytes⟩
    · rw [String.toList_ofList, isPrefix_map_toLower, hprefix]
    · rw [htext, List.map_append, List.map_cons, hlower, String.toList_ofList]
      rfl
  · rintro ⟨hmixed, hprefix, hlength, payload, htext, hbytes⟩
    obtain ⟨front, back, hsplit, hfront, hback⟩ := List.map_eq_append_iff.1 htext
    obtain ⟨c, data, rfl, hc, hdata⟩ := List.map_eq_cons_iff.1 hback
    rw [toLower_eq_separator.1 hc] at hsplit
    have hseparator : ∀ d ∈ data, d ≠ '1' := by
      rintro d hd rfl
      have hmem := List.mem_map_of_mem (f := Char.toLower) hd
      rw [hdata] at hmem
      exact forall_mem_char_ne _ _ hmem rfl
    have hsix : (checksum hrp.toList payload).length = 6 := rfl
    have hallowed : isPrefix front = true := by rw [← isPrefix_map_toLower, hfront, hprefix]
    have hlong : ¬ maxLength < text.toList.length := by omega
    simp only [decode, splitLast?_eq_some.2 ⟨hsplit, hseparator⟩, mapM_symbol?_eq_some.2 hdata,
      hmixed, hallowed, hfront, residue_checksum, hlong, List.length_append, hsix, Bool.not_true,
      Bool.or_self, Bool.false_eq_true, if_false, decide_false, ne_eq, not_true_eq_false,
      Bool.false_or, Bool.or_false]
    rw [if_neg (by simp), Nat.add_sub_cancel, List.take_left, hbytes, String.ofList_toList]

/-! ## Written texts -/

/-- The text of bytes spells their symbols. -/
theorem toList_encode (hrp : String) (bytes : Bytes) :
    (encode hrp bytes).toList = spelled hrp.toList (symbolsOfBits (bytes.flatMap byteBits)) := by
  rw [encode, String.toList_ofList]
  rfl

/-- The length of a text: prefix, separator, payload and checksum. -/
theorem length_spelled (hrp : List Char) (payload : List Symbol) :
    (spelled hrp payload).length = hrp.length + 7 + payload.length := by
  have hsix : (checksum hrp payload).length = 6 := rfl
  rw [spelled, List.length_append, List.length_cons, List.length_map, List.length_append, hsix]
  omega

/-- Symbols are written in lowercase. -/
theorem map_toLower_append (hcase : ∀ c ∈ hrp, c.isUpper = false)
    (symbols : List Symbol) : (hrp ++ '1' :: symbols.map Symbol.char).map Char.toLower =
      hrp ++ '1' :: symbols.map Symbol.char := by
  have hhrp : hrp.map Char.toLower = hrp := by
    refine (List.map_congr_left fun c hc => ?_).trans (List.map_id _)
    exact Char.toLower_eq_of_not_isUpper (by simp [hcase c hc])
  have hsymbols : (symbols.map Symbol.char).map Char.toLower = symbols.map Symbol.char := by
    rw [List.map_map]
    exact List.map_congr_left fun s _ => toLower_char s
  rw [List.map_append, List.map_cons, hhrp, hsymbols]
  rfl

/-- A text in lowercase holds letters of one case. -/
theorem isMixed_of_map_toLower {cs : List Char} (h : cs.map Char.toLower = cs) :
    isMixed cs = false := by
  have hupper : cs.any Char.isUpper = false := by
    rw [← h, List.any_map, List.any_eq_false]
    intro c _
    simp
  rw [isMixed, hupper, Bool.false_and]

/-- **Prefix and bytes are read back from their text**, if the prefix is allowed and holds no
uppercase letter, and the text is not too long. -/
theorem decode_encode {hrp : String} {bytes : Bytes} (hallowed : isPrefix hrp.toList = true)
    (hcase : ∀ c ∈ hrp.toList, c.isUpper = false)
    (hlength : hrp.toList.length + 7 + (8 * bytes.length + 4) / 5 ≤ maxLength) :
    decode (encode hrp bytes) = .ok (hrp, bytes) := by
  have hlower : (encode hrp bytes).toList.map Char.toLower = (encode hrp bytes).toList := by
    rw [toList_encode]
    exact map_toLower_append hcase _
  refine decode_eq_ok_iff.2 ⟨isMixed_of_map_toLower hlower, hallowed, ?_, _,
    hlower.trans (toList_encode hrp bytes), bytesOfBits_symbolsOfBits bytes⟩
  rwa [toList_encode, length_spelled, length_symbolsOfBits, length_flatMap_byteBits]

/-- **A written text is not read with one symbol replaced**, be it of the payload or of the
checksum. -/
theorem decode_set_ne_ok {i : Nat} {c d : Char} (hcase : ∀ c ∈ hrp, c.isUpper = false)
    (hi : hrp.length < i) (hd : (spelled hrp payload)[i]? = some d) (hc : c ∈ alphabet)
    (hne : c ≠ d) (result : String × Bytes) :
    decode (String.ofList ((spelled hrp payload).set i c)) ≠ .ok result := by
  obtain ⟨j, rfl⟩ : ∃ j, i = hrp.length + (j + 1) := ⟨i - hrp.length - 1, by omega⟩
  obtain ⟨s', rfl⟩ := exists_char hc
  have hresidue := residue_checksum hrp payload
  rw [spelled] at hd ⊢
  generalize payload ++ checksum hrp payload = symbols at hd hresidue ⊢
  rw [List.getElem?_append_right (by omega), Nat.add_sub_cancel_left, List.getElem?_cons_succ,
    List.getElem?_map] at hd
  obtain ⟨s, hs, rfl⟩ := Option.map_eq_some_iff.1 hd
  rw [List.set_append_right _ _ (by omega), Nat.add_sub_cancel_left, List.set_cons_succ,
    ← List.map_set]
  intro hread
  obtain ⟨-, -, -, payload', hlower, -⟩ := decode_eq_ok_iff.1 hread
  rw [String.toList_ofList, map_toLower_append hcase] at hlower
  -- what would be read has the checksum of what was written, but other symbols
  obtain ⟨hhrp, hsymbols⟩ := append_separator_inj hlower
  have hread' := residue_checksum result.1.toList payload'
  rw [← hsymbols, ← hhrp] at hread'
  have hsymbol : s ≠ s' := fun heq => hne (by rw [heq])
  exact residue_set_ne hs hsymbol (hread'.trans hresidue.symm)

end Bech32

end Text

end ChainKit
