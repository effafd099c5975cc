import ChainKit.Proofs.Keys.Path
import Mathlib
/-!
# Which texts are paths

A text is read as a path if it is the root and, each behind a slash,
components: digits of a number of 31 bits, maybe in front of an apostrophe,
which hardens the index, and maybe behind a plus sign, which says nothing
(`ofText_iff_written`). Every other text is refused, and the error says
where it leaves the grammar. Paths are noted without plus signs, so the
texts of that notation are those that are read and hold none.
-/

namespace ChainKit

open Text

namespace Keys

/-- A component as it may be written: digits of a number of 31 bits, maybe behind a plus sign and
maybe in front of an apostrophe. -/
structure Component where
  plus : Bool
  digits : List Char
  apostrophe : Bool
  isDigits : Numeral.isDigits digits = true
  value_lt : Numeral.value digits < 2 ^ 31

namespace Component

/-- The digits with their sign. -/
def body (c : Component) : List Char := (if c.plus then ['+'] else []) ++ c.digits

/-- The characters of a component. -/
def text (c : Component) : List Char := c.body ++ if c.apostrophe then ['\x27'] else []

/-- The component stands for this index: its digits for the number, its apostrophe for the
hardening. -/
def Spells (c : Component) (i : Index) : Prop :=
  Numeral.value c.digits = i.number.toNat ∧ c.apostrophe = i.isHardened

variable (c : Component)

/-- What a component consists of. -/
theorem mem_text {d : Char} (h : d ∈ c.text) :
    d = '+' ∧ c.plus = true ∨ d.isDigit = true ∨ d = '\x27' := by
  rcases List.mem_append.1 h with hbody | hmark
  · rcases List.mem_append.1 hbody with hsign | hdigit
    · split at hsign
      · rename_i hplus
        exact .inl ⟨List.mem_singleton.1 hsign, hplus⟩
      · cases hsign
    · exact .inr (.inl ((Numeral.isDigits_iff.1 c.isDigits).2 d hdigit))
  · split at hmark
    · exact .inr (.inr (List.mem_singleton.1 hmark))
    · cases hmark

/-- No slash stands in a component. -/
theorem isSlash_of_mem_text : ∀ d ∈ c.text, decide (d = '/') = false := by
  intro d hd
  rw [decide_eq_false_iff_not]
  rintro rfl
  rcases c.mem_text hd with ⟨h, -⟩ | h | h <;> exact absurd h (by decide)

/-- A plus sign has no place but in front of the digits. -/
theorem plus_mem_text : '+' ∈ c.text ↔ c.plus = true := by
  constructor
  · intro h
    rcases c.mem_text h with ⟨-, hplus⟩ | h | h
    · exact hplus
    · exact absurd h (by decide)
    · exact absurd h (by decide)
  · intro h
    simp [text, body, h]

/-- The last character tells whether a component is hardened. -/
theorem getLast?_text : c.text.getLast? = some '\x27' ↔ c.apostrophe = true := by
  by_cases h : c.apostrophe = true
  · simp [text, h]
  · obtain ⟨hne, hdigits⟩ := Numeral.isDigits_iff.1 c.isDigits
    rw [text, if_neg h, List.append_nil, body, List.getLast?_append_of_ne_nil _ hne]
    refine iff_of_false (fun hlast => ?_) h
    exact absurd (hdigits _ (List.mem_of_getLast? hlast)) (by decide)

variable {c} {i : Index}

/-- The digits are read as the number, whatever their sign. -/
theorem Spells.uint32?_body (h : c.Spells i) : Numeral.uint32? c.body = some i.number := by
  refine Numeral.uint32?_eq_some.2 ⟨c.digits, ?_, c.isDigits, h.1⟩
  by_cases hplus : c.plus = true <;> simp [body, hplus]

/-- What is read as the number of an index is the body of a component for it. -/
theorem exists_spells_of_uint32? {cs : List Char} (h : Numeral.uint32? cs = some i.number) :
    ∃ c : Component, c.text = cs ++ (if i.isHardened then ['\x27'] else []) ∧ c.Spells i := by
  obtain ⟨digits, hcs, hdigits, hvalue⟩ := Numeral.uint32?_eq_some.1 h
  have hlt : Numeral.value digits < 2 ^ 31 := by
    rw [hvalue, Index.toNat_number]
    omega
  rcases hcs with rfl | rfl
  · exact ⟨⟨false, cs, i.isHardened, hdigits, hlt⟩, rfl, hvalue, rfl⟩
  · exact ⟨⟨true, digits, i.isHardened, hdigits, hlt⟩, rfl, hvalue, rfl⟩

/-- Every component stands for an index. -/
theorem exists_spells (c : Component) : ∃ i, c.Spells i := by
  have hword : (UInt32.ofNat (Numeral.value c.digits)).toNat = Numeral.value c.digits :=
    UInt32.toNat_ofNat_of_lt' (c.value_lt.trans (by decide))
  have hlt := hword.symm ▸ c.value_lt
  cases happly : c.apostrophe with
  | true =>
    obtain ⟨i, hi⟩ := Index.exists_hardened_iff.2 hlt
    obtain ⟨hnumber, hhardened⟩ := Index.hardened_eq_ok.1 hi
    exact ⟨i, by rw [hnumber, hword], by rw [happly, hhardened]⟩
  | false =>
    obtain ⟨i, hi⟩ := Index.exists_normal_iff.2 hlt
    obtain ⟨hnumber, hhardened⟩ := Index.normal_eq_ok.1 hi
    exact ⟨i, by rw [hnumber, hword], by rw [happly, hhardened]⟩

end Component

/-- **An index is read from the components that stand for it**, and from nothing else. -/
theorem Index.ofPart_eq_ok {within : String} {part : List Char} {i : Index} :
    ofPart within part = .ok i ↔ ∃ c : Component, c.text = part ∧ c.Spells i := by
  constructor
  · intro h
    by_cases hlast : part.getLast? = some '\x27'
    · simp only [ofPart, hlast, if_true] at h
      split at h
      · cases h
      · rename_i n hn
        obtain ⟨rfl, hhardened⟩ := hardened_eq_ok.1 h
        obtain ⟨c, htext, hspells⟩ := Component.exists_spells_of_uint32? hn
        rw [if_pos hhardened, List.dropLast_append_getLast? _ hlast] at htext
        exact ⟨c, htext, hspells⟩
    · simp only [ofPart, hlast, if_false] at h
      split at h
      · cases h
      · rename_i n hn
        obtain ⟨rfl, hhardened⟩ := normal_eq_ok.1 h
        obtain ⟨c, htext, hspells⟩ := Component.exists_spells_of_uint32? hn
        rw [hhardened, if_neg Bool.false_ne_true, List.append_nil] at htext
        exact ⟨c, htext, hspells⟩
  · rintro ⟨c, rfl, hspells⟩
    have hbody := hspells.uint32?_body
    by_cases hmark : c.apostrophe = true
    · have hfront : c.text.dropLast = c.body := by
        rw [Component.text, if_pos hmark, List.dropLast_concat]
      simp only [ofPart, c.getLast?_text.2 hmark, if_true, hfront, hbody]
      exact hardened_eq_ok.2 ⟨rfl, hspells.2.symm.trans hmark⟩
    · have hall : c.text = c.body := by
        rw [Component.text, if_neg hmark, List.append_nil]
      have hlast := c.getLast?_text.not.2 hmark
      rw [hall] at hlast ⊢
      simp only [ofPart, hlast, if_false, hbody]
      exact normal_eq_ok.2 ⟨rfl, hspells.2.symm.trans (Bool.eq_false_of_not_eq_true hmark)⟩

/-- The text of components: the root, and each component behind a slash. -/
def written (cs : List Component) : String :=
  String.ofList ('m' :: cs.flatMap fun c => '/' :: c.text)

/-- The pieces of a text that is written are its components, behind the root. -/
theorem pieces_written (cs : List Component) :
    pieces (· = '/') (written cs).toList = ['m'] :: cs.map Component.text := by
  have htext : (written cs).toList = ['m'] ++ (cs.map Component.text).flatMap ('/' :: ·) := by
    rw [written, String.toList_ofList, List.flatMap_map, List.singleton_append]
  rw [htext]
  refine pieces_flatMap rfl (by simp) ?_
  rw [List.forall_mem_map]
  exact fun c _ => c.isSlash_of_mem_text

/-- A text is written with plus signs if one of its components is. -/
theorem plus_mem_written {cs : List Component} :
    '+' ∈ (written cs).toList ↔ ∃ c ∈ cs, c.plus = true := by
  have hslash (c : Component) : '+' ∈ '/' :: c.text ↔ c.plus = true := by
    rw [List.mem_cons, or_iff_right (by decide), c.plus_mem_text]
  rw [written, String.toList_ofList, List.mem_cons, or_iff_right (by decide), List.mem_flatMap]
  simp only [hslash]

/-- What is wrong with a text: it has not the root, or it has a piece that is no component, or a
number above 31 bits. -/
def PathError.Blames (text : String) : PathError → Prop
  | noRoot within => within = text ∧ ∀ parts, pieces (· = '/') text.toList ≠ ['m'] :: parts
  | component part within => within = text ∧ part.toList ∈ pieces (· = '/') text.toList ∧
      ∀ c : Component, c.text ≠ part.toList
  | indexRange n => 2 ^ 31 ≤ n.toNat
  | notHardened _ _ => False

/-- A piece that is refused is no component, or has a number above 31 bits. -/
theorem Index.blames_of_ofPart {text : String} {part : List Char} {e : PathError}
    (hpart : part ∈ pieces (· = '/') text.toList) (h : ofPart text part = .error e) :
    e.Blames text := by
  have hrange {n : UInt32} (hn : inRange n = .error e) : e.Blames text := by
    unfold inRange at hn
    split at hn
    · cases hn
    · rename_i hlt
      cases hn
      exact Nat.le_of_not_lt fun hlow => hlt (UInt32.lt_iff_toNat_lt.2 hlow)
  have hno (c : Component) : c.text ≠ part := by
    intro hc
    obtain ⟨i, hi⟩ := c.exists_spells
    rw [ofPart_eq_ok.2 ⟨c, hc, hi⟩] at h
    cases h
  simp only [ofPart] at h
  split at h
  · cases h
    exact ⟨rfl, by rwa [String.toList_ofList], by simpa only [String.toList_ofList] using hno⟩
  · split at h
    · exact hrange (Outcome.map_eq_error.1 h)
    · exact hrange (Outcome.map_eq_error.1 h)

namespace Path

variable {text : String} {p : Path}

/-- A path is read from the pieces behind the root, one index from each. -/
theorem ofText_eq_ok : ofText text = .ok p ↔ ∃ parts,
    pieces (· = '/') text.toList = ['m'] :: parts ∧
      List.Forall₂ (fun part i => Index.ofPart text part = .ok i) parts p := by
  unfold ofText
  split
  · rename_i parts hpieces
    simp [hpieces, Outcome.mapM_eq_ok_iff_forall₂]
  · rename_i hno
    refine iff_of_false (fun h => nomatch h) ?_
    rintro ⟨parts, hpieces, -⟩
    exact hno parts hpieces

/-- **A path is read from the components that stand for its indices.** -/
theorem ofText_eq_ok_iff_written :
    ofText text = .ok p ↔ ∃ cs, text = written cs ∧ List.Forall₂ Component.Spells cs p := by
  rw [ofText_eq_ok]
  constructor
  · rintro ⟨parts, hpieces, hparts⟩
    -- each piece is the text of a component
    have hcomponents : ∃ cs : List Component,
        cs.map Component.text = parts ∧ List.Forall₂ Component.Spells cs p := by
      clear hpieces
      induction hparts with
      | nil => exact ⟨[], rfl, .nil⟩
      | cons hpart _ ih =>
        obtain ⟨c, rfl, hspells⟩ := Index.ofPart_eq_ok.1 hpart
        obtain ⟨cs, rfl, hrest⟩ := ih
        exact ⟨c :: cs, rfl, .cons hspells hrest⟩
    obtain ⟨cs, rfl, hspells⟩ := hcomponents
    obtain ⟨w, ws, hcut, htext⟩ := exists_pieces_eq '/' text.toList
    obtain ⟨rfl, rfl⟩ := List.cons.inj (hcut.symm.trans hpieces)
    refine ⟨cs, ?_, hspells⟩
    rw [← String.toList_inj, htext, written, String.toList_ofList, List.flatMap_map,
      List.singleton_append]
  · rintro ⟨cs, rfl, hspells⟩
    refine ⟨_, pieces_written cs, ?_⟩
    rw [List.forall₂_map_left_iff]
    exact hspells.imp fun c i hi => Index.ofPart_eq_ok.2 ⟨c, rfl, hi⟩

/-- Every text that is written is read. -/
theorem exists_ofText_iff : (∃ p, ofText text = .ok p) ↔ ∃ cs, text = written cs := by
  simp only [ofText_eq_ok_iff_written]
  constructor
  · rintro ⟨p, cs, htext, -⟩
    exact ⟨cs, htext⟩
  · rintro ⟨cs, htext⟩
    have hspelled : ∃ p, List.Forall₂ Component.Spells cs p := by
      induction cs generalizing text with
      | nil => exact ⟨[], .nil⟩
      | cons c cs ih =>
        obtain ⟨i, hi⟩ := c.exists_spells
        obtain ⟨p, hp⟩ := ih rfl
        exact ⟨i :: p, .cons hi hp⟩
    obtain ⟨p, hp⟩ := hspelled
    exact ⟨p, cs, htext, hp⟩

/-- What is refused is refused for a reason that is found in the text. -/
theorem blames_of_ofText {e : PathError} (h : ofText text = .error e) : e.Blames text := by
  unfold ofText at h
  split at h
  · rename_i parts hpieces
    obtain ⟨part, hmem, hpart⟩ := Outcome.exists_mem_of_mapM_eq_error h
    exact Index.blames_of_ofPart (hpieces ▸ List.mem_cons_of_mem _ hmem) hpart
  · rename_i hno
    cases h
    exact ⟨rfl, hno⟩

/-- **The texts that are paths are the root with components behind it**, which stand for the
indices of the path one by one. Those without a plus sign are the notation of paths, and all other
texts are refused. -/
theorem ofText_iff_written (text : String) (p : Path) :
    (ofText text = .ok p ↔ ∃ cs, text = written cs ∧ List.Forall₂ Component.Spells cs p) ∧
      ((∃ cs, text = written cs ∧ ∀ c ∈ cs, c.plus = false) ↔
        (∃ q, ofText text = .ok q) ∧ '+' ∉ text.toList) ∧
      ((∃ e, ofText text = .error e ∧ e.Blames text) ↔ ∀ cs, text ≠ written cs) := by
  refine ⟨ofText_eq_ok_iff_written, ?_, ?_⟩
  · rw [exists_ofText_iff, ← exists_and_right]
    refine exists_congr fun cs => and_congr_right ?_
    rintro rfl
    simp [plus_mem_written]
  · rw [← not_exists, ← exists_ofText_iff]
    constructor
    · rintro ⟨e, he, -⟩ ⟨q, hq⟩
      rw [he] at hq
      cases hq
    · intro hno
      cases hread : ofText text with
      | error e => exact ⟨e, rfl, blames_of_ofText hread⟩
      | ok q => exact absurd ⟨q, hread⟩ hno

/-- A plus sign in front of a number is read over, although no path is noted with one. -/
theorem ofText_signed : ofText "m/+44'" = .ok [⟨0x8000002C⟩] ∧
    ¬∃ cs, "m/+44'" = written cs ∧ ∀ c ∈ cs, c.plus = false := by
  refine ⟨by decide, ?_⟩
  rintro ⟨cs, htext, hplain⟩
  have hplus : '+' ∈ (written cs).toList := by
    rw [← htext]
    decide
  obtain ⟨c, hc, hsign⟩ := plus_mem_written.1 hplus
  rw [hplain c hc] at hsign
  cases hsign

end Path

end Keys

end ChainKit
