import ChainKit.Proofs.Outcome
import ChainKit.Text.Utf8
import Mathlib
/-!
# UTF-8 reads back what it writes

A character is read back from the front of its bytes, whatever follows
(`decodeChar_encodeChar`): the leading byte tells how many bytes there
are, and the range it leaves to the second byte is the one a shortest
spelling of a character uses. A text follows by induction. The other way
round, bytes that are read as a text are its bytes (`encode_of_decode`):
no character has a second spelling.
-/

namespace ChainKit

namespace Text

namespace Utf8

/-! ## Leading bytes -/

theorem lead?_one {a : UInt8} (h : a.toNat ≤ 0x7F) : lead? a = some (0, 0, 0) := by
  simp only [lead?, UInt8.le_iff_toNat_le, UInt8.reduceToNat]
  rw [if_pos h]

theorem lead?_two {a : UInt8} (h : 0xC2 ≤ a.toNat) (h' : a.toNat ≤ 0xDF) :
    lead? a = some (1, 0x80, 0xBF) := by
  simp only [lead?, UInt8.le_iff_toNat_le, UInt8.reduceToNat]
  rw [if_neg (by omega), if_pos (by simp; omega)]

/-- The bounds of the second byte of three. -/
theorem lead?_three {a : UInt8} (h : 0xE0 ≤ a.toNat) (h' : a.toNat ≤ 0xEF) :
    lead? a = some (2, if a.toNat = 0xE0 then 0xA0 else 0x80,
      if a.toNat = 0xED then 0x9F else 0xBF) := by
  simp only [lead?, UInt8.le_iff_toNat_le, ← UInt8.toNat_inj, UInt8.reduceToNat]
  rw [if_neg (by omega), if_neg (by simp; omega)]
  by_cases h0 : a.toNat = 0xE0
  · simp [h0]
  · by_cases hD : a.toNat = 0xED
    · simp [hD]
    · simp only [h0, hD, if_false]
      rw [if_pos (by simp; omega)]

/-- The bounds of the second byte of four. -/
theorem lead?_four {a : UInt8} (h : 0xF0 ≤ a.toNat) (h' : a.toNat ≤ 0xF4) :
    lead? a = some (3, if a.toNat = 0xF0 then 0x90 else 0x80,
      if a.toNat = 0xF4 then 0x8F else 0xBF) := by
  simp only [lead?, UInt8.le_iff_toNat_le, ← UInt8.toNat_inj, UInt8.reduceToNat]
  rw [if_neg (by omega), if_neg (by simp; omega), if_neg (by omega), if_neg (by omega),
    if_neg (by simp; omega)]
  by_cases h0 : a.toNat = 0xF0
  · simp [h0]
  · by_cases h4 : a.toNat = 0xF4
    · simp [h4]
    · simp only [h0, h4, if_false]
      rw [if_pos (by simp; omega)]

/-- No other byte leads. -/
theorem lead?_none {a : UInt8} (h : 0x80 ≤ a.toNat ∧ a.toNat ≤ 0xC1 ∨ 0xF5 ≤ a.toNat) :
    lead? a = none := by
  simp only [lead?, UInt8.le_iff_toNat_le, ← UInt8.toNat_inj, UInt8.reduceToNat]
  rw [if_neg (by omega), if_neg (by simp; omega), if_neg (by omega), if_neg (by omega),
    if_neg (by simp; omega), if_neg (by omega), if_neg (by simp; omega), if_neg (by omega)]

/-! ## Characters -/

/-- A byte below 256 as a number. -/
theorem toNat_ofNat_of_lt {n : Nat} (h : n < 256) : (UInt8.ofNat n).toNat = n := by
  rw [UInt8.toNat_ofNat']
  omega

theorem isTail_ofNat (n : Nat) : isTail (UInt8.ofNat (n % 64 + 128)) = true := by
  simp only [isTail, UInt8.le_iff_toNat_le, UInt8.reduceToNat, toNat_ofNat_of_lt (n := n % 64 + 128)
    (by omega)]
  simp
  omega

theorem tailBits_ofNat (n : Nat) : tailBits (UInt8.ofNat (n % 64 + 128)) = n % 64 := by
  rw [tailBits, toNat_ofNat_of_lt (by omega)]
  omega

/-- **A character is read back**, whatever follows it. -/
theorem decodeChar_encodeChar (index : Nat) (c : Char) (rest : Bytes) :
    decodeChar index (String.utf8EncodeChar c ++ rest) = .ok (c, rest) := by
  have hvalid := c.valid
  have hofNat : Char.ofNat c.val.toNat = c := Char.ofNat_toNat c
  simp only [UInt32.isValidChar, Nat.isValidChar] at hvalid
  unfold String.utf8EncodeChar
  generalize c.val.toNat = v at hvalid hofNat
  dsimp only
  -- one byte up to 0x7F, two up to 0x7FF, three up to 0xFFFF, and four above
  by_cases h1 : v ≤ 0x7F
  · rw [if_pos h1, List.singleton_append, decodeChar, lead?_one (by
      rw [toNat_ofNat_of_lt (by omega)]; omega)]
    simp only [toNat_ofNat_of_lt (show v < 256 by omega), hofNat]
  rw [if_neg h1]
  by_cases h2 : v ≤ 0x7FF
  · have ha : (UInt8.ofNat (v / 64 % 0x20 + 0xC0)).toNat = v / 64 % 0x20 + 0xC0 :=
      toNat_ofNat_of_lt (by omega)
    have hb : (UInt8.ofNat (v % 0x40 + 0x80)).toNat = v % 0x40 + 0x80 :=
      toNat_ofNat_of_lt (by omega)
    have hsum : (v / 64 % 0x20 + 0xC0) % 32 * 64 + v % 64 = v := by omega
    rw [if_pos h2, List.cons_append, decodeChar, lead?_two (by omega) (by omega)]
    simp only [List.singleton_append, UInt8.lt_iff_toNat_lt, hb, ha, tailBits_ofNat, hsum, hofNat]
    rw [if_neg (by simp; omega)]
    rfl
  rw [if_neg h2]
  by_cases h3 : v ≤ 0xFFFF
  · have ha : (UInt8.ofNat (v / 4096 % 0x10 + 0xE0)).toNat = v / 4096 % 0x10 + 0xE0 :=
      toNat_ofNat_of_lt (by omega)
    have hb : (UInt8.ofNat (v / 64 % 0x40 + 0x80)).toNat = v / 64 % 0x40 + 0x80 :=
      toNat_ofNat_of_lt (by omega)
    have hsum : ((v / 4096 % 0x10 + 0xE0) % 16 * 64 + v / 64 % 64) * 64 + v % 64 = v := by omega
    rw [if_pos h3, List.cons_append, decodeChar, lead?_three (by omega) (by omega)]
    simp only [List.cons_append, List.nil_append, UInt8.lt_iff_toNat_lt, hb, ha, tailBits_ofNat,
      isTail_ofNat, hsum, hofNat]
    -- the second byte lies in the range left to it: no overlong form, no surrogate
    rw [if_neg (by split <;> split <;> simp <;> omega)]
    rfl
  · have ha : (UInt8.ofNat (v / 262144 % 0x08 + 0xF0)).toNat = v / 262144 % 0x08 + 0xF0 :=
      toNat_ofNat_of_lt (by omega)
    have hb : (UInt8.ofNat (v / 4096 % 0x40 + 0x80)).toNat = v / 4096 % 0x40 + 0x80 :=
      toNat_ofNat_of_lt (by omega)
    have hsum : (((v / 262144 % 0x08 + 0xF0) % 8 * 64 + v / 4096 % 64) * 64 + v / 64 % 64) * 64 +
        v % 64 = v := by omega
    rw [if_neg h3, List.cons_append, decodeChar, lead?_four (by omega) (by omega)]
    simp only [List.cons_append, List.nil_append, UInt8.lt_iff_toNat_lt, hb, ha, tailBits_ofNat,
      isTail_ofNat, hsum, hofNat]
    rw [if_neg (by split <;> split <;> simp <;> omega)]
    rfl

theorem isTail_iff {b : UInt8} : isTail b = true ↔ 0x80 ≤ b.toNat ∧ b.toNat ≤ 0xBF := by
  simp [isTail, UInt8.le_iff_toNat_le]

/-- A byte is told by its number. -/
theorem ofNat_eq_of_toNat {n : Nat} {a : UInt8} (h : n = a.toNat) : UInt8.ofNat n = a := by
  rw [h, UInt8.ofNat_toNat]

/-- The bytes of the character of a number. -/
theorem encodeChar_ofNat {v : Nat} (h : v.isValidChar) : String.utf8EncodeChar (Char.ofNat v) =
    if v ≤ 0x7F then [UInt8.ofNat v]
    else if v ≤ 0x7FF then
      [UInt8.ofNat (v / 64 % 32 + 0xC0), UInt8.ofNat (v % 64 + 0x80)]
    else if v ≤ 0xFFFF then
      [UInt8.ofNat (v / 4096 % 16 + 0xE0), UInt8.ofNat (v / 64 % 64 + 0x80),
        UInt8.ofNat (v % 64 + 0x80)]
    else
      [UInt8.ofNat (v / 262144 % 8 + 0xF0), UInt8.ofNat (v / 4096 % 64 + 0x80),
        UInt8.ofNat (v / 64 % 64 + 0x80), UInt8.ofNat (v % 64 + 0x80)] := by
  have hv : (Char.ofNat v).val.toNat = v := by
    have := Char.toNat_ofNat v
    rwa [if_pos h] at this
  unfold String.utf8EncodeChar
  rw [hv]

/-- Two bytes that lead and follow are those of their character. -/
theorem encodeChar_two {a b : UInt8} (ha : 0xC2 ≤ a.toNat ∧ a.toNat ≤ 0xDF)
    (hb : 0x80 ≤ b.toNat ∧ b.toNat ≤ 0xBF) :
    String.utf8EncodeChar (Char.ofNat (a.toNat % 32 * 64 + tailBits b)) = [a, b] := by
  unfold tailBits
  rw [encodeChar_ofNat (.inl (by omega)), if_neg (by omega), if_pos (by omega),
    ofNat_eq_of_toNat (a := a) (by omega), ofNat_eq_of_toNat (a := b) (by omega)]

/-- So are three, if they are no overlong form and no surrogate. -/
theorem encodeChar_three {a b c : UInt8} (ha : 0xE0 ≤ a.toNat ∧ a.toNat ≤ 0xEF)
    (hb : 0x80 ≤ b.toNat ∧ b.toNat ≤ 0xBF) (hoverlong : a.toNat = 0xE0 → 0xA0 ≤ b.toNat)
    (hsurrogate : a.toNat = 0xED → b.toNat ≤ 0x9F) (hc : 0x80 ≤ c.toNat ∧ c.toNat ≤ 0xBF) :
    String.utf8EncodeChar
      (Char.ofNat ((a.toNat % 16 * 64 + tailBits b) * 64 + tailBits c)) = [a, b, c] := by
  unfold tailBits
  rw [encodeChar_ofNat (by unfold Nat.isValidChar; omega), if_neg (by omega), if_neg (by omega),
    if_pos (by omega), ofNat_eq_of_toNat (a := a) (by omega),
    ofNat_eq_of_toNat (a := b) (by omega), ofNat_eq_of_toNat (a := c) (by omega)]

/-- So are four, if they are no overlong form and not above the last character. -/
theorem encodeChar_four {a b c d : UInt8} (ha : 0xF0 ≤ a.toNat ∧ a.toNat ≤ 0xF4)
    (hb : 0x80 ≤ b.toNat ∧ b.toNat ≤ 0xBF) (hoverlong : a.toNat = 0xF0 → 0x90 ≤ b.toNat)
    (hlast : a.toNat = 0xF4 → b.toNat ≤ 0x8F) (hc : 0x80 ≤ c.toNat ∧ c.toNat ≤ 0xBF)
    (hd : 0x80 ≤ d.toNat ∧ d.toNat ≤ 0xBF) :
    String.utf8EncodeChar (Char.ofNat
      (((a.toNat % 8 * 64 + tailBits b) * 64 + tailBits c) * 64 + tailBits d)) = [a, b, c, d] := by
  unfold tailBits
  rw [encodeChar_ofNat (by unfold Nat.isValidChar; omega), if_neg (by omega), if_neg (by omega),
    if_neg (by omega), ofNat_eq_of_toNat (a := a) (by omega),
    ofNat_eq_of_toNat (a := b) (by omega), ofNat_eq_of_toNat (a := c) (by omega),
    ofNat_eq_of_toNat (a := d) (by omega)]

/-- **What is read as a character is its bytes**, in front of the rest: no other spelling is
read. -/
theorem encodeChar_of_decodeChar {index : Nat} {bytes rest : Bytes} {ch : Char}
    (h : decodeChar index bytes = .ok (ch, rest)) : String.utf8EncodeChar ch ++ rest = bytes := by
  rcases bytes with _ | ⟨a, tail⟩
  · cases h
  rw [decodeChar] at h
  by_cases h1 : a.toNat ≤ 0x7F
  · rw [lead?_one h1] at h
    cases h
    rw [encodeChar_ofNat (.inl (by omega)), if_pos h1, UInt8.ofNat_toNat, List.singleton_append]
  by_cases hnone : a.toNat ≤ 0xC1 ∨ 0xF5 ≤ a.toNat
  · rw [lead?_none (by omega)] at h
    cases h
  by_cases h2 : a.toNat ≤ 0xDF
  · rw [lead?_two (by omega) h2] at h
    rcases tail with _ | ⟨b, tail⟩
    · cases h
    simp only [Outcome.ite_error_eq_ok, if_true, Bool.or_eq_true, decide_eq_true_eq, not_or,
      UInt8.lt_iff_toNat_lt, UInt8.reduceToNat, Except.ok.injEq, Prod.mk.injEq] at h
    obtain ⟨⟨hlow, hhigh⟩, rfl, rfl⟩ := h
    rw [encodeChar_two (by omega) (by omega)]
    rfl
  by_cases h3 : a.toNat ≤ 0xEF
  · rw [lead?_three (by omega) h3] at h
    rcases tail with _ | ⟨b, _ | ⟨c, tail⟩⟩
    · cases h
    · simp [Outcome.ite_error_eq_ok] at h
    simp only [Outcome.ite_error_eq_ok, if_true, Bool.or_eq_true, decide_eq_true_eq, not_or,
      UInt8.lt_iff_toNat_lt, apply_ite UInt8.toNat, UInt8.reduceToNat, reduceIte,
      Nat.reduceEqDiff, Bool.not_eq_true', Bool.not_eq_false, isTail_iff, Except.ok.injEq,
      Prod.mk.injEq] at h
    obtain ⟨⟨hlow, hhigh⟩, hc, rfl, rfl⟩ := h
    rw [encodeChar_three (by omega) _ _ _ hc]
    · rfl
    all_goals split at hlow <;> split at hhigh <;> omega
  · rw [lead?_four (by omega) (by omega)] at h
    rcases tail with _ | ⟨b, _ | ⟨c, _ | ⟨d, tail⟩⟩⟩
    · cases h
    · simp [Outcome.ite_error_eq_ok] at h
    · simp [Outcome.ite_error_eq_ok] at h
    simp only [Outcome.ite_error_eq_ok, Bool.or_eq_true, decide_eq_true_eq, not_or,
      UInt8.lt_iff_toNat_lt, apply_ite UInt8.toNat, UInt8.reduceToNat, reduceIte,
      Nat.reduceEqDiff, Bool.not_eq_true', Bool.not_eq_false, isTail_iff, Except.ok.injEq,
      Prod.mk.injEq] at h
    obtain ⟨⟨hlow, hhigh⟩, hc, hd, rfl, rfl⟩ := h
    rw [encodeChar_four (by omega) _ _ _ hc hd]
    · rfl
    all_goals split at hlow <;> split at hhigh <;> omega

/-! ## Texts -/

/-- Characters are read back. -/
theorem decodeFrom_encode (index : Nat) (cs : List Char) :
    decodeFrom index (cs.flatMap String.utf8EncodeChar) = .ok cs := by
  induction cs generalizing index with
  | nil => rw [decodeFrom]; rfl
  | cons c cs ih =>
    have hchar := decodeChar_encodeChar index c (cs.flatMap String.utf8EncodeChar)
    rw [List.flatMap_cons, decodeFrom, if_neg (by simp)]
    split
    · rename_i e herror
      rw [hchar] at herror
      cases herror
    · rename_i d rest hok
      rw [hchar] at hok
      cases hok
      rw [ih]
      rfl

/-- Bytes that spell characters begin with one. -/
theorem exists_decodeChar {index : Nat} {bytes : Bytes} {cs : List Char}
    (h : decodeFrom index bytes = .ok cs) (hne : bytes ≠ []) :
    ∃ c rest next cs', decodeChar index bytes = .ok (c, rest) ∧ decodeFrom next rest = .ok cs' := by
  rw [decodeFrom, if_neg hne] at h
  split at h
  · cases h
  · rename_i c rest hchar
    cases htail : decodeFrom (index + (bytes.length - rest.length)) rest with
    | error e =>
      rw [htail] at h
      cases h
    | ok cs' => exact ⟨c, rest, _, cs', hchar, htail⟩

/-- **A text is read back from its bytes.** -/
theorem decode_encode (text : String) : decode (encode text) = .ok text := by
  rw [decode, encode, decodeFrom_encode]
  simp [Except.map]

/-- Bytes that are read as characters are theirs. -/
theorem flatMap_of_decodeFrom {index : Nat} {bytes : Bytes} {cs : List Char}
    (h : decodeFrom index bytes = .ok cs) : cs.flatMap String.utf8EncodeChar = bytes := by
  induction cs generalizing index bytes with
  | nil =>
    rw [decodeFrom] at h
    split at h
    · rename_i hnil
      rw [hnil]
      rfl
    · split at h
      · cases h
      · obtain ⟨_, -, hcons⟩ := Outcome.map_eq_ok.1 h
        cases hcons
  | cons c cs ih =>
    rw [decodeFrom] at h
    split at h
    · cases h
    · split at h
      · cases h
      · rename_i d rest hchar
        obtain ⟨cs', htail, hcons⟩ := Outcome.map_eq_ok.1 h
        cases hcons
        rw [List.flatMap_cons, ih htail, encodeChar_of_decodeChar hchar]

/-- **Bytes that are read as a text are the bytes of the text.** -/
theorem encode_of_decode {bytes : Bytes} {text : String} (h : decode bytes = .ok text) :
    encode text = bytes := by
  obtain ⟨cs, hcs, rfl⟩ := Outcome.map_eq_ok.1 h
  rw [encode, String.toList_ofList, flatMap_of_decodeFrom hcs]

/-- Texts with the same bytes are equal. -/
theorem encode_injective : Function.Injective encode := by
  intro s t h
  have hs := decode_encode s
  rw [h, decode_encode] at hs
  exact (Except.ok.inj hs).symm

/-! ## ASCII -/

/-- What holds of the characters below 128 holds of every character of ASCII. -/
theorem forall_ascii {p : Char → Prop} (h : ∀ n < 128, p (Char.ofNat n)) :
    ∀ c : Char, c.toNat < 128 → p c := by
  intro c hc
  have hp := h c.toNat hc
  rwa [Char.ofNat_toNat] at hp

theorem encodeChar_of_lt {c : Char} (h : c.toNat < 128) :
    String.utf8EncodeChar c = [UInt8.ofNat c.toNat] := by
  have hle : c.val.toNat ≤ 0x7F := Nat.le_of_lt_succ h
  simp only [String.utf8EncodeChar, if_pos hle]
  rfl

/-- Every character of ASCII takes one byte. -/
theorem encode_ofList_of_lt {cs : List Char} (h : ∀ c ∈ cs, c.toNat < 128) :
    encode (String.ofList cs) = cs.map fun c => UInt8.ofNat c.toNat := by
  rw [encode, String.toList_ofList]
  induction cs with
  | nil => rfl
  | cons c cs ih =>
    rw [List.flatMap_cons, encodeChar_of_lt (h c List.mem_cons_self), List.singleton_append,
      ih fun d hd => h d (List.mem_cons_of_mem _ hd), List.map_cons]

/-- A text whose bytes are all of ASCII has the characters of these codes. -/
theorem toList_of_encode {text : String} (h : ∀ b ∈ encode text, b.toNat < 128) :
    text.toList = (encode text).map fun b => Char.ofNat b.toNat := by
  have hcode : ∀ b ∈ encode text, (Char.ofNat b.toNat).toNat = b.toNat := by
    intro b hb
    have hlt := h b hb
    rw [Char.toNat_ofNat, if_pos (.inl (by omega))]
  have hascii : ∀ c ∈ (encode text).map (fun b => Char.ofNat b.toNat), c.toNat < 128 := by
    intro c hc
    obtain ⟨b, hb, rfl⟩ := List.mem_map.1 hc
    rw [hcode b hb]
    exact h b hb
  have hbytes : encode (String.ofList ((encode text).map fun b => Char.ofNat b.toNat)) =
      encode text := by
    rw [encode_ofList_of_lt hascii, List.map_map]
    refine (List.map_congr_left fun b hb => ?_).trans (List.map_id _)
    rw [Function.comp_apply, hcode b hb, UInt8.ofNat_toNat, id]
  rw [← encode_injective hbytes, String.toList_ofList, hbytes]

end Utf8

end Text

end ChainKit
