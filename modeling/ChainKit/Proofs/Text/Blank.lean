import ChainKit.Text.Folding
import Mathlib
/-!
# Words between blanks

Words that hold no blank are read back from the text in which single
blanks stand between them (`words_intercalate`), and a text without
blanks at its ends is its own trimming. Lowercase letters and spaces
stand for themselves, so their folding changes nothing.
-/

namespace ChainKit

namespace Text

variable {isSeparator : Char → Bool} {cs w : List Char} {ws : List (List Char)}

/-- A text without a separator is one piece. -/
theorem pieces_of_forall (h : ∀ c ∈ cs, isSeparator c = false) : pieces isSeparator cs = [cs] := by
  induction cs with
  | nil => rfl
  | cons c cs ih =>
    rw [pieces, h c List.mem_cons_self, ih fun d hd => h d (List.mem_cons_of_mem _ hd)]
    rfl

/-- A separator ends a piece. -/
theorem pieces_append (h : ∀ c ∈ w, isSeparator c = false) {s : Char} (hs : isSeparator s = true)
    (cs : List Char) : pieces isSeparator (w ++ s :: cs) = w :: pieces isSeparator cs := by
  induction w with
  | nil => rw [List.nil_append, pieces, if_pos hs]
  | cons c w ih =>
    rw [List.cons_append, pieces, h c List.mem_cons_self,
      ih fun d hd => h d (List.mem_cons_of_mem _ hd)]
    rfl

/-- Pieces that stand behind a separator each come back. -/
theorem pieces_flatMap {s : Char} (hs : isSeparator s = true)
    (hw : ∀ c ∈ w, isSeparator c = false) (h : ∀ v ∈ ws, ∀ c ∈ v, isSeparator c = false) :
    pieces isSeparator (w ++ ws.flatMap (s :: ·)) = w :: ws := by
  induction ws generalizing w with
  | nil => rw [List.flatMap_nil, List.append_nil, pieces_of_forall hw]
  | cons v ws ih =>
    have hrest := ih (h v List.mem_cons_self) fun u hu => h u (List.mem_cons_of_mem _ hu)
    rw [List.flatMap_cons, List.cons_append, pieces_append hw hs, hrest]

/-- A text is put together again from its pieces. -/
theorem exists_pieces_eq (s : Char) (cs : List Char) : ∃ w ws,
    pieces (· = s) cs = w :: ws ∧ cs = w ++ ws.flatMap (s :: ·) := by
  induction cs with
  | nil => exact ⟨[], [], rfl, rfl⟩
  | cons c cs ih =>
    obtain ⟨w, ws, hpieces, hcs⟩ := ih
    by_cases hc : c = s
    · subst hc
      refine ⟨[], w :: ws, ?_, ?_⟩
      · rw [pieces, if_pos (decide_eq_true rfl), hpieces]
      · rw [List.nil_append, List.flatMap_cons, List.cons_append, ← hcs]
    · refine ⟨c :: w, ws, ?_, ?_⟩
      · rw [pieces, if_neg (by simpa using hc), hpieces]
      · rw [List.cons_append, ← hcs]

/-- The pieces that a separator was put between come back. -/
theorem pieces_intercalate {s : Char} (hs : isSeparator s = true) (hne : ws ≠ [])
    (h : ∀ w ∈ ws, ∀ c ∈ w, isSeparator c = false) :
    pieces isSeparator (List.intercalate [s] ws) = ws := by
  induction ws with
  | nil => exact absurd rfl hne
  | cons w ws ih =>
    have hw := h w List.mem_cons_self
    cases ws with
    | nil => rw [List.intercalate_singleton, pieces_of_forall hw]
    | cons v ws =>
      have hrest := ih (List.cons_ne_nil _ _) fun u hu => h u (List.mem_cons_of_mem _ hu)
      rw [List.intercalate_cons_cons, List.append_assoc, List.singleton_append,
        pieces_append hw hs, hrest]

/-- **The words that single spaces were put between come back.** -/
theorem words_intercalate (hne : ∀ w ∈ ws, w ≠ []) (h : ∀ w ∈ ws, ∀ c ∈ w, isBlank c = false) :
    words (List.intercalate [' '] ws) = ws := by
  rcases eq_or_ne ws [] with rfl | hws
  · rfl
  · rw [words, pieces_intercalate rfl hws h, List.filter_eq_self]
    intro w hw
    simpa using hne w hw

/-- A text without blanks is its own trimming. -/
theorem trim_of_forall (h : ∀ c ∈ cs, isBlank c = false) : trim cs = cs := by
  have hdrop {cs : List Char} (h : ∀ c ∈ cs, isBlank c = false) : cs.dropWhile isBlank = cs := by
    cases cs with
    | nil => rfl
    | cons c cs => rw [List.dropWhile_cons_of_neg (by simp [h c List.mem_cons_self])]
  rw [trim, hdrop h, hdrop fun c hc => h c (List.mem_reverse.1 hc), List.reverse_reverse]

namespace Folding

/-- A lowercase letter of the alphabet. -/
def IsLetter (c : Char) : Prop := 97 ≤ c.toNat ∧ c.toNat ≤ 122

theorem isBlank_of_isLetter {c : Char} (h : IsLetter c) : isBlank c = false := by
  obtain ⟨hlow, hhigh⟩ := h
  simp only [isBlank, Bool.or_eq_false_iff, Bool.and_eq_false_iff, decide_eq_false_iff_not]
  omega

/-- A lowercase letter stands for itself. -/
theorem fold_of_isLetter {c : Char} (h : IsLetter c) : fold c = [c] := by
  obtain ⟨hlow, hhigh⟩ := h
  rw [← Char.ofNat_toNat c]
  generalize c.toNat = n at hlow hhigh
  interval_cases n <;> rfl

/-- **Words of lowercase letters come back**, between single spaces. -/
theorem words_intercalate_letters (hne : ∀ w ∈ ws, w ≠ []) (h : ∀ w ∈ ws, ∀ c ∈ w, IsLetter c) :
    words (List.intercalate [' '] ws) = ws := by
  have hfold : (List.intercalate [' '] ws).flatMap fold = List.intercalate [' '] ws := by
    have hletters {w : List Char} (hw : ∀ c ∈ w, IsLetter c) : w.flatMap fold = w := by
      rw [List.flatMap_congr fun c hc => fold_of_isLetter (hw c hc), List.flatMap_singleton']
    induction ws with
    | nil => rfl
    | cons w ws ih =>
      have hw := hletters (h w List.mem_cons_self)
      have hrest := ih (fun v hv => hne v (List.mem_cons_of_mem _ hv))
        fun v hv => h v (List.mem_cons_of_mem _ hv)
      cases ws with
      | nil => rw [List.intercalate_singleton, hw]
      | cons v ws =>
        rw [List.intercalate_cons_cons, List.flatMap_append, List.flatMap_append, hw, hrest]
        rfl
  rw [words, hfold]
  exact Text.words_intercalate hne fun w hw c hc => isBlank_of_isLetter (h w hw c hc)

end Folding

end Text

end ChainKit
