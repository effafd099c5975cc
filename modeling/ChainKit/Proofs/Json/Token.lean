import ChainKit.Json.Token
import ChainKit.Proofs.Text.Numeral
import Mathlib
/-!
# The text of a document is cut into its tokens

Each piece of a compact text is scanned as one token, whatever stands
behind it (`scan_cons`). Only a number asks for more: no digit, point or
exponent may follow (`EndsNumber`), and none does, since a number stands
before a comma, a bracket or the end. The tokens of a whole document
follow by induction on its tree (`scan_chars`).
-/

namespace ChainKit

open Text

namespace Json

/-! ## The tokens of a document -/

mutual

/-- The tokens of a document. -/
def tokens : Json → List Token
  | .null => [.null]
  | .bool b => [.bool b]
  | .integer n => [.integer n]
  | .fraction => [.fraction]
  | .text s => [.text s]
  | .array [] => [.openArray, .closeArray]
  | .array (x :: xs) => .openArray :: tokens x ++ itemTokens xs
  | .object [] => [.openObject, .closeObject]
  | .object ((k, v) :: ms) => .openObject :: .text k :: .colon :: tokens v ++ memberTokens ms

/-- The tokens of the items behind the first, and of the end. -/
def itemTokens : List Json → List Token
  | [] => [.closeArray]
  | x :: xs => .comma :: tokens x ++ itemTokens xs

/-- The tokens of the members behind the first, and of the end. -/
def memberTokens : List (Option String × Json) → List Token
  | [] => [.closeObject]
  | (k, v) :: ms => .comma :: .text k :: .colon :: tokens v ++ memberTokens ms

end

namespace Token

variable {cs rest : List Char}

/-- A scan takes one token off. -/
theorem scan_cons {c : Char} {t : Token} (hblank : isBlank c = false)
    (h : scanOne c cs = some (t, rest)) : scan (c :: cs) = (scan rest).map (t :: ·) := by
  rw [scan, hblank]
  simp only [Bool.false_eq_true, if_false]
  split
  · rename_i hnone
    rw [h] at hnone
    cases hnone
  · rename_i token rest' hsome
    rw [h] at hsome
    cases hsome
    rfl

/-- A bracket or a mark is a token by itself. -/
theorem scan_mark {c : Char} {t : Token} (h : mark? c = some t) (cs : List Char) :
    scan (c :: cs) = (scan cs).map (t :: ·) := by
  refine scan_cons ?_ (by simp only [scanOne, h])
  unfold mark? at h
  split at h
  case h_7 => cases h
  all_goals rfl

/-! ## Texts -/

/-- A letter behind a backslash is read as what it stands for. -/
theorem scanText_letter {e c : Char} (h : unescape? e = some c) (hne : e ≠ 'u') (rest : List Char) :
    scanText ('\\' :: e :: rest) =
      (scanText rest).map fun (pieces, rest) => (.char c :: pieces, rest) := by
  rw [scanText]
  · rw [h]
    cases scanText rest <;> rfl
  · rintro _ _ _ _ _ heq -
    exact hne heq

/-- A control character without a letter is read by its code. -/
theorem scanText_control {n : Nat} (h : n < 0x20) (rest : List Char) :
    scanText ('\\' :: 'u' :: '0' :: '0' :: hexDigit (n / 16) :: hexDigit (n % 16) :: rest) =
      (scanText rest).map fun (pieces, rest) => (.unit n :: pieces, rest) := by
  have hunit : ∀ n < 0x20, unit? '0' '0' (hexDigit (n / 16)) (hexDigit (n % 16)) = some n := by
    decide
  rw [scanText, hunit n h]
  cases scanText rest <;> rfl

/-- A character that is not escaped is read as it stands. -/
theorem scanText_plain {c : Char} (hquote : c ≠ '"') (hslash : c ≠ '\\') (h : ¬c.toNat < 0x20)
    (rest : List Char) : scanText (c :: rest) =
      (scanText rest).map fun (pieces, rest) => (.char c :: pieces, rest) := by
  rw [scanText]
  · simp only [h, hslash, decide_false, Bool.or_self, Bool.false_eq_true, if_false]
    cases scanText rest <;> rfl
  · rintro rfl
    exact hquote rfl
  · rintro _ _ _ _ _ rfl -
    exact hslash rfl
  · rintro _ _ rfl -
    exact hslash rfl

/-- A code below the surrogates is that of a character. -/
theorem join?_unit {n : Nat} (h : n < 0xD800) (pieces : List Piece) :
    join? (.unit n :: pieces) = (join? pieces).map (Char.ofNat n :: ·) :=
  (join?.eq_def _).trans (if_pos (by simp [h]))

/-- **A character is read back from its escape**: as one piece, which spells it. -/
theorem exists_piece (c : Char) : ∃ p : Piece,
    (∀ rest, scanText (escape c ++ rest) =
      (scanText rest).map fun (pieces, rest) => (p :: pieces, rest)) ∧
    ∀ pieces, join? (p :: pieces) = (join? pieces).map (c :: ·) := by
  unfold escape
  -- seven characters have a letter
  iterate 7
    split
    · rename_i heq
      subst heq
      exact ⟨.char _, scanText_letter rfl (by decide), fun _ => rfl⟩
  split
  · rename_i hcontrol
    refine ⟨.unit c.toNat, scanText_control hcontrol, fun pieces => ?_⟩
    rw [join?_unit (by omega), Char.ofNat_toNat]
  · exact ⟨.char c, scanText_plain ‹_› ‹_› ‹_›, fun _ => rfl⟩

/-- Escaped characters are read up to the closing quote. -/
theorem exists_pieces (cs rest : List Char) : ∃ pieces,
    scanText (cs.flatMap escape ++ '"' :: rest) = some (pieces, rest) ∧ join? pieces = some cs := by
  induction cs with
  | nil => exact ⟨[], by rw [List.flatMap_nil, List.nil_append, scanText], rfl⟩
  | cons c cs ih =>
    obtain ⟨p, hscan, hjoin⟩ := exists_piece c
    obtain ⟨pieces, hpieces, hcs⟩ := ih
    refine ⟨p :: pieces, ?_, by rw [hjoin, hcs, Option.map_some]⟩
    rw [List.flatMap_cons, List.append_assoc, hscan, hpieces, Option.map_some]

/-- **A text is read back from its quotation**, and so is one without characters. -/
theorem scan_quote (s : Option String) (rest : List Char) :
    scan (quote s ++ rest) = (scan rest).map (.text s :: ·) := by
  cases s with
  | none => exact scan_cons rfl rfl
  | some s =>
    obtain ⟨pieces, hscan, hjoin⟩ := exists_pieces s.toList rest
    have hquoted : scanQuoted (s.toList.flatMap escape ++ '"' :: rest) =
        some (.text (some s), rest) := by
      simp only [scanQuoted, hscan, Option.bind_eq_bind, Option.bind_some, hjoin, Option.map_some,
        String.ofList_toList]
      rfl
    have htext : quote (some s) ++ rest = '"' :: (s.toList.flatMap escape ++ '"' :: rest) := by
      simp [quote]
    rw [htext]
    exact scan_cons rfl hquoted

/-! ## Numbers -/

/-- Nothing that would continue a number stands here. -/
def EndsNumber (cs : List Char) : Prop :=
  ∀ c ∈ cs.head?, c.isDigit = false ∧ c ≠ '.' ∧ c ≠ 'e' ∧ c ≠ 'E'

theorem endsNumber_nil : EndsNumber [] := fun _ h => nomatch h

theorem endsNumber_cons {c : Char} (h : c.isDigit = false ∧ c ≠ '.' ∧ c ≠ 'e' ∧ c ≠ 'E')
    (cs : List Char) : EndsNumber (c :: cs) := by
  intro d hd
  cases hd
  exact h

/-- Behind the end of a number there is no exponent. -/
theorem scanExponent_of_endsNumber (h : EndsNumber rest) :
    scanExponent rest = some (false, rest) := by
  cases rest with
  | nil => rfl
  | cons c rest =>
    obtain ⟨-, -, hlower, hupper⟩ := h c rfl
    simp [scanExponent, hlower, hupper]

/-- Behind the end of a number there is no fraction. -/
theorem scanFraction_of_endsNumber (h : EndsNumber rest) :
    scanFraction rest = some (false, rest) := by
  have hexponent := scanExponent_of_endsNumber h
  cases rest with
  | nil => rfl
  | cons c rest =>
    obtain ⟨-, hpoint, -⟩ := h c rfl
    rw [scanFraction, hexponent]
    rintro _ heq
    exact hpoint (List.cons.inj heq).1

/-- A numeral is taken off whole. -/
theorem scanDigits?_toDigits (n : Nat) (h : EndsNumber rest) :
    scanDigits? (Nat.toDigits 10 n ++ rest) = some (Nat.toDigits 10 n, rest) := by
  have hdigits : ∀ c ∈ Nat.toDigits 10 n, c.isDigit = true := fun c hc =>
    Nat.isDigit_of_mem_toDigits (by omega) (by omega) hc
  have hrest : rest.takeWhile Char.isDigit = [] ∧ rest.dropWhile Char.isDigit = rest := by
    cases rest with
    | nil => exact ⟨rfl, rfl⟩
    | cons c rest =>
      have hc : ¬c.isDigit = true := by simp [(h c rfl).1]
      exact ⟨List.takeWhile_cons_of_neg hc, List.dropWhile_cons_of_neg hc⟩
  simp only [scanDigits?, List.takeWhile_append_of_pos hdigits,
    List.dropWhile_append_of_pos hdigits, hrest.1, hrest.2, List.append_nil]
  rw [if_neg Nat.toDigits_ne_nil]

/-- A number is read back from its numeral, with a sign if it is not zero. -/
theorem scanNumber_toDigits (negative : Bool) {n : Nat} (hsign : negative = true → n ≠ 0)
    (h : EndsNumber rest) : scanNumber negative (Nat.toDigits 10 n ++ rest) =
      some (.integer (if negative then -(n : Int) else n), rest) := by
  have hvalue : value (Nat.toDigits 10 n) = n := Numeral.value_toDigits n
  -- only zero itself begins with a zero, and it has one digit
  have hplain : ¬(((Nat.toDigits 10 n).head? = some '0' &&
      (Nat.toDigits 10 n).length > 1) = true) := by
    rcases eq_or_ne n 0 with rfl | hn
    · decide
    · simp [Numeral.head?_toDigits hn]
  have hinteger : ¬((false || (negative && n = 0)) = true) := by
    simpa using hsign
  simp only [scanNumber, scanDigits?_toDigits n h, Option.bind_eq_bind, Option.bind_some,
    if_neg hplain, scanFraction_of_endsNumber h, hvalue, if_neg hinteger]
  rfl

/-- A digit begins a number. -/
theorem scanOne_of_isDigit {c : Char} (h : c.isDigit = true) (cs : List Char) :
    isBlank c = false ∧ scanOne c cs = scanNumber false (c :: cs) := by
  have hne {d : Char} (hd : d.isDigit = false) : c ≠ d := by
    rintro rfl
    rw [h] at hd
    cases hd
  have hmark : mark? c = none := by
    unfold mark?
    split
    case h_7 => rfl
    -- no mark is a digit
    all_goals exact absurd h (by decide)
  constructor
  · simp [isBlank, hne]
  · simp [scanOne, hmark, hne, h]

/-- **An integer is read back from its text.** -/
theorem scan_integerText (n : Int) (h : EndsNumber rest) :
    scan (integerText n ++ rest) = (scan rest).map (.integer n :: ·) := by
  cases n with
  | ofNat n =>
    have hnumber := scanNumber_toDigits false (n := n) (by simp) h
    simp only [Bool.false_eq_true, if_false] at hnumber
    rw [integerText]
    cases hdigits : Nat.toDigits 10 n with
    | nil => exact absurd hdigits Nat.toDigits_ne_nil
    | cons c cs =>
      have hc : c.isDigit = true :=
        Nat.isDigit_of_mem_toDigits (n := n) (by omega) (by omega) (hdigits ▸ List.mem_cons_self)
      obtain ⟨hblank, hscan⟩ := scanOne_of_isDigit hc (cs ++ rest)
      rw [hdigits] at hnumber
      exact scan_cons hblank (hscan.trans hnumber)
  | negSucc n =>
    have hnumber := scanNumber_toDigits true (n := n + 1) (by simp) h
    exact scan_cons rfl hnumber

/-- A number with a fraction is read back as one. -/
theorem scan_fraction (h : EndsNumber rest) :
    scan ('0' :: '.' :: '0' :: rest) = (scan rest).map (.fraction :: ·) := by
  have hzero : scanDigits? ('0' :: rest) = some (['0'], rest) :=
    Nat.toDigits_zero 10 ▸ scanDigits?_toDigits 0 h
  have hfraction : scanFraction ('.' :: '0' :: rest) = some (true, rest) := by
    simp only [scanFraction, hzero, Option.bind_eq_bind, Option.bind_some,
      scanExponent_of_endsNumber h]
    rfl
  have hnumber : scanNumber false ('0' :: '.' :: '0' :: rest) = some (.fraction, rest) := by
    have hdigits : scanDigits? ('0' :: '.' :: '0' :: rest) = some (['0'], '.' :: '0' :: rest) := rfl
    simp only [scanNumber, hdigits, Option.bind_eq_bind, Option.bind_some, hfraction]
    rfl
  exact scan_cons rfl hnumber

end Token

/-! ## Documents -/

open Token

/-- No number goes on behind the items of an array. -/
theorem endsNumber_itemChars (xs : List Json) (rest : List Char) :
    EndsNumber (itemChars xs ++ rest) := by
  cases xs <;> exact endsNumber_cons (by decide) _

/-- No number goes on behind the members of an object. -/
theorem endsNumber_memberChars (ms : List (Option String × Json)) (rest : List Char) :
    EndsNumber (memberChars ms ++ rest) := by
  rcases ms with _ | ⟨⟨k, v⟩, ms⟩ <;> exact endsNumber_cons (by decide) _

mutual

/-- **The text of a document is cut into its tokens**, before anything that ends a number. -/
theorem scan_chars (j : Json) {rest : List Char} (h : EndsNumber rest) :
    scan (j.chars ++ rest) = (scan rest).map (j.tokens ++ ·) := by
  match j with
  | .null => exact scan_cons rfl rfl
  | .bool true => exact scan_cons rfl rfl
  | .bool false => exact scan_cons rfl rfl
  | .integer n => exact scan_integerText n h
  | .fraction => exact scan_fraction h
  | .text s => exact scan_quote s rest
  | .array [] =>
    simp only [chars, List.cons_append, List.nil_append, scan_mark (c := '[') rfl,
      scan_mark (c := ']') rfl, Option.map_map]
    rfl
  | .array (x :: xs) =>
    have hx := scan_chars x (endsNumber_itemChars xs rest)
    simp only [chars, List.cons_append, List.append_assoc, scan_mark (c := '[') rfl, hx,
      scan_itemChars xs rest, Option.map_map, tokens, Function.comp_def]
  | .object [] =>
    simp only [chars, List.cons_append, List.nil_append, scan_mark (c := '\x7b') rfl,
      scan_mark (c := '\x7d') rfl, Option.map_map]
    rfl
  | .object ((k, v) :: ms) =>
    have hv := scan_chars v (endsNumber_memberChars ms rest)
    simp only [chars, List.cons_append, List.append_assoc, scan_mark (c := '\x7b') rfl,
      scan_quote, scan_mark (c := ':') rfl, hv, scan_memberChars ms rest, Option.map_map, tokens,
      Function.comp_def]

/-- The items behind the first are cut into their tokens. -/
theorem scan_itemChars (xs : List Json) (rest : List Char) :
    scan (itemChars xs ++ rest) = (scan rest).map (itemTokens xs ++ ·) := by
  match xs with
  | [] => exact scan_mark rfl rest
  | x :: xs =>
    have hx := scan_chars x (endsNumber_itemChars xs rest)
    simp only [itemChars, List.cons_append, List.append_assoc, scan_mark (c := ',') rfl, hx,
      scan_itemChars xs rest, Option.map_map, itemTokens, Function.comp_def]

/-- The members behind the first are cut into their tokens. -/
theorem scan_memberChars (ms : List (Option String × Json)) (rest : List Char) :
    scan (memberChars ms ++ rest) = (scan rest).map (memberTokens ms ++ ·) := by
  match ms with
  | [] => exact scan_mark rfl rest
  | (k, v) :: ms =>
    have hv := scan_chars v (endsNumber_memberChars ms rest)
    simp only [memberChars, List.cons_append, List.append_assoc, scan_mark (c := ',') rfl,
      scan_quote, scan_mark (c := ':') rfl, hv, scan_memberChars ms rest, Option.map_map,
      memberTokens, Function.comp_def]

end

/-- A text is cut into the tokens of the document that it was written for. -/
theorem scan_render (j : Json) : scan j.render.toList = some j.tokens := by
  have h := scan_chars j endsNumber_nil
  rw [List.append_nil, scan, Option.map_some, List.append_nil] at h
  rwa [render, String.toList_ofList]

end Json

end ChainKit
