import ChainKit.Proofs.Bytes
import ChainKit.Proofs.Outcome
import ChainKit.Rlp
import Mathlib
/-!
# Items are read back

The fewest bytes of a length start with no zero and spell it, so a header
written for a payload is a header that is read. A string, or a list of
strings, is read back from its item, whatever follows it, as long as its
length is a word. Other headers are read as well, but none of them is
shorter, and none takes more than nine bytes (`length_of_item`). So a list
is read back exactly as long as the length of its payload is a word
(`length_list_lt_iff`).
-/

namespace ChainKit

namespace Rlp

/-! ## Headers -/

theorem cut_append (front rest : Bytes) : cut front.length (front ++ rest) = .ok (front, rest) := by
  simp [cut]

/-- The payload behind its length, where that is spelled out. -/
theorem cutLong_append (payload rest : Bytes) (h : 55 < payload.length) :
    cutLong (Bytes.ofNatTrimmed payload.length).length
      (Bytes.ofNatTrimmed payload.length ++ (payload ++ rest)) = .ok (payload, rest) := by
  have hne := Bytes.ofNatTrimmed_ne_nil (n := payload.length) (by omega)
  have hhead := Bytes.head?_ofNatTrimmed payload.length
  generalize hdigits : Bytes.ofNatTrimmed payload.length = digits at hne hhead
  have hvalue : Bytes.toNat digits = payload.length := by
    rw [← hdigits, Bytes.toNat_ofNatTrimmed]
  rw [cutLong, if_neg (by simp [hne]), List.head?_append_of_ne_nil _ hne, if_neg hhead,
    if_neg (by simp), List.take_left, List.drop_left, hvalue, if_neg (by omega), cut_append]

/-- The byte in front of a short payload. -/
theorem toNat_shortHeader (start : UInt8) {n : Nat} (hstart : start.toNat ≤ 0xC0) (h : n ≤ 55) :
    (start + UInt8.ofNat n).toNat = start.toNat + n := by
  rw [UInt8.toNat_add, Text.Utf8.toNat_ofNat_of_lt (by omega)]
  omega

/-- The byte in front of the length of a long payload. -/
theorem toNat_longHeader (start : UInt8) {width : Nat} (hstart : start.toNat ≤ 0xC0)
    (h : width ≤ 8) : (start + 55 + UInt8.ofNat width).toNat = start.toNat + 55 + width := by
  rw [UInt8.toNat_add, UInt8.toNat_add, Text.Utf8.toNat_ofNat_of_lt (by omega)]
  simp only [UInt8.reduceToNat]
  omega

/-- A payload is read back behind its header, be it a string's or a list's. -/
theorem item_header (start : UInt8) {payload : Bytes} (rest : Bytes)
    (hstart : start.toNat = 0x80 ∨ start.toNat = 0xC0) (h : payload.length < 2 ^ 64) :
    item (header start payload.length ++ (payload ++ rest)) = .ok (payload, rest) := by
  unfold header
  split
  · rename_i hshort
    have hbyte := toNat_shortHeader start (n := payload.length) (by omega) (by omega)
    rw [List.singleton_append, item]
    simp only [UInt8.lt_iff_toNat_lt, hbyte, UInt8.reduceToNat]
    rcases hstart with hstart | hstart <;> rw [hstart]
    · rw [if_neg (by omega), if_pos (by omega), Nat.add_sub_cancel_left, cut_append]
    · rw [if_neg (by omega), if_neg (by omega), if_neg (by omega), if_pos (by omega),
        Nat.add_sub_cancel_left, cut_append]
  · rename_i hlong
    -- the length takes between one and eight bytes, so no range runs into the next
    have hpos : 0 < (Bytes.ofNatTrimmed payload.length).length :=
      List.length_pos_of_ne_nil (Bytes.ofNatTrimmed_ne_nil (by omega))
    have hwidth : (Bytes.ofNatTrimmed payload.length).length ≤ 8 :=
      Bytes.length_ofNatTrimmed_le (by simpa using h)
    have hcut := cutLong_append payload rest (by omega)
    dsimp only
    generalize Bytes.ofNatTrimmed payload.length = digits at hpos hwidth hcut
    have hbyte := toNat_longHeader start (by omega) hwidth
    rw [List.cons_append, item]
    simp only [UInt8.lt_iff_toNat_lt, hbyte, UInt8.reduceToNat]
    rcases hstart with hstart | hstart <;> rw [hstart]
    · rw [if_neg (by omega), if_neg (by omega), if_pos (by omega),
        show 0x80 + 55 + digits.length - 0xB7 = digits.length by omega, hcut]
    · rw [if_neg (by omega), if_neg (by omega), if_neg (by omega), if_neg (by omega),
        show 0xC0 + 55 + digits.length - 0xF7 = digits.length by omega, hcut]

/-! ## Items -/

/-- **A string is read back from its item**, whatever follows it. -/
theorem item_string {b : Bytes} (rest : Bytes) (h : b.length < 2 ^ 64) :
    item (string b ++ rest) = .ok (b, rest) := by
  have hheader := item_header 0x80 rest (.inl rfl) h
  unfold string
  split
  · -- a byte below 128 is its own item
    rename_i x
    split
    · rename_i hlow
      simp [item, hlow]
    · rw [List.append_assoc]
      exact hheader
  · rw [List.append_assoc]
    exact hheader

/-- Strings that stand side by side are read back in order. -/
theorem payloads_flatMap_string {strings : List Bytes} (h : ∀ b ∈ strings, b.length < 2 ^ 64) :
    payloads (strings.flatMap string) = strings := by
  induction strings with
  | nil =>
    rw [List.flatMap_nil, payloads]
    rfl
  | cons b strings ih =>
    have hitem := item_string (strings.flatMap string) (h b List.mem_cons_self)
    rw [List.flatMap_cons, payloads]
    split
    · rename_i payload rest hread
      rw [hitem] at hread
      cases hread
      rw [ih fun c hc => h c (List.mem_cons_of_mem _ hc)]
    · rename_i e hread
      rw [hitem] at hread
      cases hread

/-- **A list of strings is read back from its item**: one item, a list, and its payload. -/
theorem item_list {strings : List Bytes} (h : (strings.flatMap string).length < 2 ^ 64) :
    item (list strings) = .ok (strings.flatMap string, []) ∧ isList (list strings) = true := by
  have hheader := item_header 0xC0 [] (.inr rfl) h
  rw [List.append_nil] at hheader
  refine ⟨hheader, ?_⟩
  unfold list header
  dsimp only
  split
  · rename_i hshort
    have hle : (0xC0 : UInt8) ≤ 0xC0 + UInt8.ofNat (strings.flatMap string).length := by
      rw [UInt8.le_iff_toNat_le, toNat_shortHeader 0xC0 (by simp) (by omega)]
      omega
    simpa [isList] using hle
  · have hwidth : (Bytes.ofNatTrimmed (strings.flatMap string).length).length ≤ 8 :=
      Bytes.length_ofNatTrimmed_le (by simpa using h)
    have hle : (0xC0 : UInt8) ≤
        0xC0 + 55 + UInt8.ofNat (Bytes.ofNatTrimmed (strings.flatMap string).length).length := by
      rw [UInt8.le_iff_toNat_le, toNat_longHeader 0xC0 (by simp) hwidth]
      omega
    simpa [isList] using hle

/-- A string is no longer than its item. -/
theorem length_le_string (b : Bytes) : b.length ≤ (string b).length := by
  unfold string
  split
  · split <;> simp
  · simp

/-- Each string is no longer than the items side by side. -/
theorem length_le_flatMap_string {strings : List Bytes} {b : Bytes} (hb : b ∈ strings) :
    b.length ≤ (strings.flatMap string).length := by
  induction strings with
  | nil => cases hb
  | cons c strings ih =>
    rw [List.flatMap_cons, List.length_append]
    rcases List.mem_cons.1 hb with rfl | hb
    · have := length_le_string b
      omega
    · have := ih hb
      omega

/-- Items side by side are shorter than the list of them. -/
theorem length_le_list (strings : List Bytes) :
    (strings.flatMap string).length ≤ (list strings).length := by
  simp [list]

/-- **A list of strings is read back whole**, if the length of its payload is a word. -/
theorem read_list {strings : List Bytes} (h : (strings.flatMap string).length < 2 ^ 64) :
    item (list strings) = .ok (strings.flatMap string, []) ∧ isList (list strings) = true ∧
      payloads (strings.flatMap string) = strings := by
  obtain ⟨hitem, hlist⟩ := item_list h
  exact ⟨hitem, hlist, payloads_flatMap_string fun b hb =>
    Nat.lt_of_le_of_lt (length_le_flatMap_string hb) h⟩

/-- **An item is the list of one list of strings only.** -/
theorem eq_of_list_eq {xs ys : List Bytes} (h : list xs = list ys)
    (hlength : (list xs).length < 2 ^ 64) : xs = ys := by
  obtain ⟨hitem, -, hxs⟩ := read_list (Nat.lt_of_le_of_lt (length_le_list xs) hlength)
  obtain ⟨hitem', -, hys⟩ := read_list (Nat.lt_of_le_of_lt (length_le_list ys) (h ▸ hlength))
  rw [h, hitem', Except.ok.injEq, Prod.mk.injEq] at hitem
  rw [← hxs, ← hitem.1, hys]

/-! ## Lengths -/

theorem cut_eq_ok {length : Nat} {b payload rest : Bytes} :
    cut length b = .ok (payload, rest) ↔ payload ++ rest = b ∧ payload.length = length := by
  unfold cut
  split
  · rename_i hle
    constructor
    · intro h
      cases h
      exact ⟨List.take_append_drop _ _, by simp [hle]⟩
    · rintro ⟨rfl, rfl⟩
      rw [List.take_left, List.drop_left]
  · rename_i hlt
    simp only [reduceCtorEq, false_iff, not_and]
    rintro rfl rfl
    exact hlt (by simp)

/-- A payload behind a length of `size` bytes is long, and no longer than they can tell. -/
theorem length_of_cutLong {size : Nat} {b payload rest : Bytes}
    (h : cutLong size b = .ok (payload, rest)) :
    b.length = size + payload.length + rest.length ∧ payload.length < 256 ^ size := by
  simp only [cutLong, Outcome.ite_error_eq_ok] at h
  obtain ⟨-, -, hsize, -, h⟩ := h
  obtain ⟨happend, hlength⟩ := cut_eq_ok.1 h
  have hdigits : (b.take size).length = size := by
    rw [List.length_take]
    omega
  have hlt := Bytes.toNat_lt (b.take size)
  have hb := congrArg List.length happend
  rw [hdigits, ← hlength] at hlt
  rw [List.length_append, List.length_drop] at hb
  omega

/-- A header is one byte, and the bytes of the length where it is spelled out. -/
theorem length_header_le (start : UInt8) {length size : Nat}
    (h : length ≤ 55 ∨ length < 256 ^ size) : (header start length).length ≤ size + 1 := by
  unfold header
  split
  · simp
  · have hdigits : (Bytes.ofNatTrimmed length).length ≤ size :=
      Bytes.length_ofNatTrimmed_le (by omega)
    simpa using hdigits

/-- No item of a string is shorter than the one that is written. -/
theorem length_string_le {b : Bytes} (size : Nat) (h : b.length ≤ 55 ∨ b.length < 256 ^ size) :
    (string b).length ≤ size + b.length + 1 := by
  have hheader := length_header_le 0x80 h
  unfold string
  split
  · split
    · simp
    · simp only [List.length_append, List.length_singleton] at hheader ⊢
      omega
  · rw [List.length_append]
    omega

/-- The payload of an item that is read has a length of one word, as a string again it takes no
more bytes than were read, and its header took nine at most. -/
theorem length_of_item {b payload rest : Bytes} (h : item b = .ok (payload, rest)) :
    payload.length < 2 ^ 64 ∧ (string payload).length + rest.length ≤ b.length ∧
      b.length ≤ 9 + payload.length + rest.length := by
  cases b with
  | nil => cases h
  | cons x b =>
    have hx := x.toNat_lt
    -- the two shapes of a header, for strings and lists alike
    have hshort {length : Nat} (hle : length ≤ 55) (h : cut length b = .ok (payload, rest)) :
        payload.length < 2 ^ 64 ∧ (string payload).length + rest.length ≤ b.length + 1 ∧
          b.length + 1 ≤ 9 + payload.length + rest.length := by
      obtain ⟨rfl, rfl⟩ := cut_eq_ok.1 h
      have := length_string_le 0 (.inl hle)
      rw [List.length_append]
      omega
    have hlong {size : Nat} (hle : size ≤ 8) (h : cutLong size b = .ok (payload, rest)) :
        payload.length < 2 ^ 64 ∧ (string payload).length + rest.length ≤ b.length + 1 ∧
          b.length + 1 ≤ 9 + payload.length + rest.length := by
      obtain ⟨hb, hlt⟩ := length_of_cutLong h
      have hword : (256 : Nat) ^ size ≤ 256 ^ 8 := Nat.pow_le_pow_right (by omega) hle
      have := length_string_le size (.inr hlt)
      omega
    simp only [item, UInt8.lt_iff_toNat_lt, UInt8.reduceToNat] at h
    rw [List.length_cons]
    split at h
    · rename_i hlow
      cases h
      simp [string, UInt8.lt_iff_toNat_lt, hlow]
      omega
    · split at h
      · exact hshort (by omega) h
      · split at h
        · exact hlong (by omega) h
        · split at h
          · exact hshort (by omega) h
          · exact hlong (by omega) h

/-- The length of a payload is a word exactly if the list of it takes less than nine bytes more. -/
theorem length_list_lt_iff {strings : List Bytes} :
    (list strings).length < 2 ^ 64 + 9 ↔ (strings.flatMap string).length < 2 ^ 64 := by
  have hlist : (list strings).length = (header 0xC0 (strings.flatMap string).length).length +
      (strings.flatMap string).length := List.length_append
  rw [hlist]
  generalize (strings.flatMap string).length = length
  constructor
  · intro h
    by_contra hlong
    -- nine bytes or more spell the length, behind the first one
    have hdigits : 8 < (Bytes.ofNatTrimmed length).length := by
      by_contra hle
      have hlt := Bytes.lt_pow_length_ofNatTrimmed length
      have hword : 256 ^ (Bytes.ofNatTrimmed length).length ≤ 256 ^ 8 :=
        Nat.pow_le_pow_right (by omega) (by omega)
      omega
    rw [header, if_neg (by omega), List.length_cons] at h
    omega
  · intro h
    have hheader : (header 0xC0 length).length ≤ 8 + 1 := length_header_le 0xC0 (by omega)
    omega

/-- Strings that are read side by side take no more bytes when they are written again. -/
theorem length_flatMap_payloads (b : Bytes) :
    ((payloads b).flatMap string).length ≤ b.length := by
  induction b using payloads.induct with
  | case1 b payload rest hitem _ ih =>
    rw [payloads]
    split
    · rename_i payload' rest' hitem'
      rw [hitem] at hitem'
      cases hitem'
      have := (length_of_item hitem).2.1
      rw [List.flatMap_cons, List.length_append]
      omega
    · rename_i e herror
      rw [hitem] at herror
      cases herror
  | case2 b e herror =>
    rw [payloads]
    split
    · rename_i payload' rest' hitem'
      rw [herror] at hitem'
      cases hitem'
    · simp

end Rlp

end ChainKit
