import ChainKit.Amount
import ChainKit.Text.Numeral
import Mathlib
/-!
# Numerals read back what they write

The value of the numeral of a number is the number
(`value_toDigits`), and a run of digits without a superfluous zero is the
numeral of its value (`toDigits_value`). So a quantity that passes its
check is determined by its value, however it is cut and put together.
Underscores and a plus sign are admitted around the digits at some places
(`grouped?_eq_some`), a plus sign alone at others (`uint32?_eq_some`).
-/

namespace ChainKit

namespace Text

namespace Numeral

variable {cs ds : List Char}

theorem valueFrom_eq_ofDigitChars (n : Nat) (cs : List Char) :
    valueFrom n cs = Nat.ofDigitChars 10 cs n := by
  simp [valueFrom, Nat.ofDigitChars, Nat.mul_comm]

@[simp] theorem value_nil : value [] = 0 := rfl

/-- The value of the numeral of a number. -/
@[simp] theorem value_toDigits (n : Nat) : value (Nat.toDigits 10 n) = n := by
  rw [value, valueFrom_eq_ofDigitChars, Nat.ofDigitChars_ten_toDigits]

/-- The numeral of a positive number does not begin with a zero. -/
theorem head?_toDigits {n : Nat} (hn : n ≠ 0) : (Nat.toDigits 10 n).head? ≠ some '0' := by
  induction n using Nat.strongRecOn with
  | ind n ih =>
    by_cases hlt : n < 10
    · rw [Nat.toDigits_of_lt_base hlt, List.head?_cons, Ne, Option.some.injEq,
        Nat.digitChar_eq_zero]
      exact hn
    · rw [Nat.toDigits_of_base_le (by omega) (by omega),
        List.head?_append_of_ne_nil _ Nat.toDigits_ne_nil]
      exact ih (n / 10) (by omega) (by omega)

/-- The numeral of a number has no superfluous zero in front. -/
theorem no_leading_zero (n : Nat) :
    1 < (Nat.toDigits 10 n).length → (Nat.toDigits 10 n).head? ≠ some '0' := by
  intro hlength
  refine head?_toDigits ?_
  rintro rfl
  -- zero is written with one digit
  simp at hlength

/-- The digits in front count by as many tens as there are digits behind. -/
theorem value_append (cs ds : List Char) :
    value (cs ++ ds) = value cs * 10 ^ ds.length + value ds := by
  simp only [value, valueFrom_eq_ofDigitChars, Nat.ofDigitChars_append]
  rw [Nat.ofDigitChars_eq_ofDigitChars_zero, Nat.mul_comm]

/-- A zero behind digits counts for ten. -/
theorem value_append_zeros (cs : List Char) (n : Nat) :
    value (cs ++ List.replicate n '0') = value cs * 10 ^ n := by
  rw [value_append, List.length_replicate, Nat.add_eq_left]
  simp only [value, valueFrom_eq_ofDigitChars, Nat.ofDigitChars_replicate_zero, Nat.mul_zero]

/-- A zero in front of digits counts for nothing. -/
theorem value_zeros_append (n : Nat) (cs : List Char) :
    value (List.replicate n '0' ++ cs) = value cs := by
  have hzeros := value_append_zeros [] n
  rw [List.nil_append, value_nil, Nat.zero_mul] at hzeros
  rw [value_append, hzeros, Nat.zero_mul, Nat.zero_add]

theorem isDigits_iff : isDigits cs = true ↔ cs ≠ [] ∧ ∀ c ∈ cs, c.isDigit = true := by
  simp [isDigits]

/-- A numeral consists of digits. -/
theorem isDigits_toDigits (n : Nat) : isDigits (Nat.toDigits 10 n) = true :=
  isDigits_iff.2 ⟨Nat.toDigits_ne_nil, fun _ hc =>
    Nat.isDigit_of_mem_toDigits (by omega) (by omega) hc⟩

/-- Zeros are digits. -/
theorem isDigit_zeros (n : Nat) : ∀ c ∈ List.replicate n '0', c.isDigit = true := by
  intro c hc
  rw [List.eq_of_mem_replicate hc]
  rfl

/-- A digit is worth less than ten. -/
theorem toNat_of_isDigit {c : Char} (h : c.isDigit = true) : 48 ≤ c.toNat ∧ c.toNat < 58 := by
  simp only [Char.isDigit, Bool.and_eq_true, decide_eq_true_eq, ge_iff_le, UInt32.le_iff_toNat_le]
    at h
  have hlow : 48 ≤ c.toNat := h.1
  have hhigh : c.toNat ≤ 57 := h.2
  omega

/-- The digit of a digit's value. -/
theorem digitChar_of_isDigit {c : Char} (h : c.isDigit = true) :
    Nat.digitChar (c.toNat - 48) = c := by
  obtain ⟨hlow, hhigh⟩ := toNat_of_isDigit h
  rw [← Char.ofNat_toNat c]
  generalize c.toNat = n at hlow hhigh
  interval_cases n <;> rfl

/-- Digits are worth less than the tens they count up to. -/
theorem value_lt (h : ∀ c ∈ cs, c.isDigit = true) : value cs < 10 ^ cs.length := by
  -- the last digit is split off, since it alone counts for itself
  induction cs using List.reverseRecOn with
  | nil => simp
  | append_singleton cs c ih =>
    have hcs := ih fun d hd => h d (List.mem_append_left _ hd)
    have hc := toNat_of_isDigit (h c (by simp))
    have hvalue : value [c] = c.toNat - 48 := by simp [value, valueFrom]
    rw [value_append, hvalue, List.length_append, List.length_singleton, Nat.pow_succ]
    omega

/-- Digits behind a number that is not zero complete its numeral. -/
theorem toDigits_valueFrom {n : Nat} (hn : 0 < n) (h : ∀ c ∈ cs, c.isDigit = true) :
    Nat.toDigits 10 (valueFrom n cs) = Nat.toDigits 10 n ++ cs := by
  induction cs generalizing n with
  | nil => simp [valueFrom]
  | cons c cs ih =>
    have hc := h c List.mem_cons_self
    have hdigit := toNat_of_isDigit hc
    have hnext : Nat.toDigits 10 (n * 10 + (c.toNat - 48)) = Nat.toDigits 10 n ++ [c] := by
      rw [Nat.mul_comm, ← Nat.toDigits_append_toDigits (by omega) hn (by omega),
        Nat.toDigits_of_lt_base (n := c.toNat - 48) (by omega), digitChar_of_isDigit hc]
    have hrest := ih (n := n * 10 + (c.toNat - 48)) (by omega)
      fun d hd => h d (List.mem_cons_of_mem _ hd)
    rw [hnext, List.append_assoc, List.singleton_append] at hrest
    exact hrest

/-- **Digits without a superfluous zero are the numeral of their value.** -/
theorem toDigits_value (h : isDigits cs = true) (hzero : 1 < cs.length → cs.head? ≠ some '0') :
    Nat.toDigits 10 (value cs) = cs := by
  obtain ⟨hne, hdigits⟩ := isDigits_iff.1 h
  cases cs with
  | nil => exact absurd rfl hne
  | cons c cs =>
    have hc := hdigits c List.mem_cons_self
    have hdigit := toNat_of_isDigit hc
    have hhead : Nat.toDigits 10 (c.toNat - 48) = [c] := by
      rw [Nat.toDigits_of_lt_base (by omega), digitChar_of_isDigit hc]
    have hvalue : value (c :: cs) = valueFrom (c.toNat - 48) cs := by simp [value, valueFrom]
    rw [hvalue]
    rcases Nat.eq_zero_or_pos (c.toNat - 48) with hc0 | hc0
    · -- a zero stands alone
      have hcs : cs = [] := by
        rcases cs with _ | ⟨d, cs⟩
        · rfl
        · refine absurd ?_ (hzero (by simp))
          rw [← digitChar_of_isDigit hc, hc0]
          rfl
      subst hcs
      exact hhead
    · rw [toDigits_valueFrom hc0 fun d hd => hdigits d (List.mem_cons_of_mem _ hd), hhead,
        List.singleton_append]

/-- As many digits of the same value are the same digits. -/
theorem eq_of_value_eq (hcs : ∀ c ∈ cs, c.isDigit = true) (hds : ∀ d ∈ ds, d.isDigit = true)
    (hlength : cs.length = ds.length) (hvalue : value cs = value ds) : cs = ds := by
  -- behind a digit that is not zero, they are the numeral of their value
  have hnumeral {es : List Char} (hes : ∀ e ∈ es, e.isDigit = true) :
      Nat.toDigits 10 (value ('1' :: es)) = '1' :: es := by
    refine toDigits_value (isDigits_iff.2 ⟨List.cons_ne_nil _ _, ?_⟩) fun _ => by simp
    exact List.forall_mem_cons.2 ⟨rfl, hes⟩
  have hone : value ('1' :: cs) = value ('1' :: ds) := by
    rw [← List.singleton_append, ← List.singleton_append (l := ds), value_append, value_append,
      hlength, hvalue]
  rw [← List.cons_inj_right '1', ← hnumeral hcs, ← hnumeral hds, hone]

/-! ## Groups -/

/-- A digit, and behind it digits and underscores. -/
def Groups (cs : List Char) : Prop :=
  ∃ c rest, cs = c :: rest ∧ c.isDigit = true ∧ ∀ d ∈ rest, d.isDigit = true ∨ d = '_'

theorem filter_of_groups (h : Groups cs) : cs.filter (· ≠ '_') = cs.filter Char.isDigit := by
  obtain ⟨c, rest, rfl, hc, hrest⟩ := h
  refine List.filter_congr fun d hd => ?_
  have hd : d.isDigit = true ∨ d = '_' := by
    rcases List.mem_cons.1 hd with rfl | hd
    · exact .inl hc
    · exact hrest d hd
  rcases hd with hd | rfl
  · rw [hd, decide_eq_true_eq]
    rintro rfl
    exact absurd hd (by decide)
  · rfl

/-- **A grouped numeral is a digit with digits and underscores behind it, maybe behind a plus
sign**, of which the digits count. -/
theorem grouped?_eq_some {n : Nat} : grouped? cs = some n ↔
    ∃ body, (cs = body ∨ cs = '+' :: body) ∧ Groups body ∧
      value (body.filter Char.isDigit) = n := by
  constructor
  · intro h
    unfold grouped? at h
    extract_lets body at h
    have hbody : cs = body ∨ cs = '+' :: body := by
      unfold body
      split
      · exact .inr rfl
      · exact .inl rfl
    clear_value body
    split at h
    · cases h
    · cases h
    · rename_i hnil hunderscore
      rw [Option.ite_none_right_eq_some, Option.some.injEq, List.all_eq_true] at h
      obtain ⟨hall, h⟩ := h
      obtain ⟨c, rest, rfl⟩ := List.exists_cons_of_ne_nil hnil
      simp only [Bool.or_eq_true, decide_eq_true_eq, List.forall_mem_cons] at hall
      have hfirst : c.isDigit = true :=
        hall.1.resolve_right fun hc => hunderscore rest (congrArg (· :: rest) hc)
      have hgroups : Groups (c :: rest) := ⟨c, rest, rfl, hfirst, hall.2⟩
      exact ⟨_, hbody, hgroups, filter_of_groups hgroups ▸ h⟩
  · rintro ⟨body, hcs, hgroups, rfl⟩
    rw [← filter_of_groups hgroups]
    obtain ⟨c, rest, rfl, hc, hrest⟩ := hgroups
    have hplus : c ≠ '+' := by
      rintro rfl
      exact absurd hc (by decide)
    have hunderscore : c ≠ '_' := by
      rintro rfl
      exact absurd hc (by decide)
    have hall : ((c :: rest).all fun c => c.isDigit || c = '_') = true := by
      simpa [hc] using hrest
    -- no sign is taken off the digits, and the first of them is no underscore
    rcases hcs with rfl | rfl
    · simp [grouped?, hplus, hunderscore, hall]
    · simp [grouped?, hunderscore, hall]

/-- Digits alone are read without groups or a sign. -/
theorem grouped?_of_isDigits (h : isDigits cs = true) : grouped? cs = some (value cs) := by
  obtain ⟨hne, hdigits⟩ := isDigits_iff.1 h
  obtain ⟨c, rest, rfl⟩ := List.exists_cons_of_ne_nil hne
  have hgroups : Groups (c :: rest) := ⟨c, rest, rfl, hdigits c List.mem_cons_self,
    fun d hd => .inl (hdigits d (List.mem_cons_of_mem _ hd))⟩
  exact grouped?_eq_some.2 ⟨_, .inl rfl, hgroups, by rw [List.filter_eq_self.2 hdigits]⟩

/-- A numeral is read back, although groups and a sign would be admitted. -/
@[simp] theorem grouped?_ofNat (n : Nat) : grouped? (ofNat n).toList = some n := by
  rw [ofNat, String.toList_ofList, grouped?_of_isDigits (isDigits_toDigits n), value_toDigits]

/-! ## Words -/

/-- An unsigned numeral is a run of digits, maybe behind a plus sign. -/
theorem unsigned?_eq_some {n : Nat} : unsigned? cs = some n ↔
    ∃ body, (cs = body ∨ cs = '+' :: body) ∧ isDigits body = true ∧ value body = n := by
  have hplus (body : List Char) : isDigits ('+' :: body) = false := by simp [isDigits]
  have hdigits (body : List Char) :
      digits? body = some n ↔ isDigits body = true ∧ value body = n := by
    rw [digits?, Option.ite_none_right_eq_some, Option.some.injEq]
  unfold unsigned?
  split
  · -- what begins with a plus sign is no run of digits itself
    rename_i rest
    rw [hdigits]
    constructor
    · rintro ⟨hrest, hvalue⟩
      exact ⟨rest, .inr rfl, hrest, hvalue⟩
    · rintro ⟨body, rfl | hbody, hall, hvalue⟩
      · rw [hplus] at hall
        cases hall
      · obtain rfl := (List.cons.inj hbody).2
        exact ⟨hall, hvalue⟩
  · rename_i hno
    rw [hdigits]
    constructor
    · rintro ⟨hall, hvalue⟩
      exact ⟨_, .inl rfl, hall, hvalue⟩
    · rintro ⟨body, rfl | hbody, hall, hvalue⟩
      · exact ⟨hall, hvalue⟩
      · exact absurd hbody (hno body)

/-- **A numeral of a word is a run of digits of its value**, maybe behind a plus sign. -/
theorem uint32?_eq_some {n : UInt32} : uint32? cs = some n ↔
    ∃ body, (cs = body ∨ cs = '+' :: body) ∧ isDigits body = true ∧ value body = n.toNat := by
  rw [← unsigned?_eq_some, uint32?, Option.bind_eq_bind, Option.bind_eq_some_iff]
  constructor
  · rintro ⟨m, hm, hword⟩
    rw [Option.ite_none_right_eq_some, Option.some.injEq] at hword
    obtain ⟨hlt, rfl⟩ := hword
    rw [hm, UInt32.toNat_ofNat_of_lt' hlt]
  · intro h
    exact ⟨_, h, by rw [if_pos n.toNat_lt, UInt32.ofNat_toNat]⟩

/-- The numeral of a word is read back. -/
theorem uint32?_toDigits (n : UInt32) : uint32? (Nat.toDigits 10 n.toNat) = some n :=
  uint32?_eq_some.2 ⟨_, .inl rfl, isDigits_toDigits n.toNat, value_toDigits n.toNat⟩

end Numeral

end Text

/-! ## Quantities -/

open Text

/-- A quantity that passes its check consists of digits. -/
theorem Decimal.isDigits_of_checkQuantity {q : String} (h : Decimal.checkQuantity q = .ok ()) :
    Numeral.isDigits q.toList = true := by
  simp only [Decimal.checkQuantity] at h
  split at h
  · cases h
  · rename_i hdigits
    simpa using hdigits

/-- **A quantity that passes its check is the numeral of its value.** -/
theorem Decimal.ofNat_of_checkQuantity {q : String} (h : Decimal.checkQuantity q = .ok ()) :
    Numeral.ofNat (Numeral.value q.toList) = q := by
  have hdigits := isDigits_of_checkQuantity h
  simp only [Decimal.checkQuantity, hdigits, Bool.not_true, Bool.false_eq_true, if_false] at h
  have hzero : 1 < q.toList.length → q.toList.head? ≠ some '0' := by
    intro hlength hhead
    rw [if_pos (by simp only [hhead, decide_true, Bool.and_true, decide_eq_true_eq]; omega)] at h
    cases h
  rw [Numeral.ofNat, Numeral.toDigits_value hdigits hzero, String.ofList_toList]

/-- The numeral of a number passes the check of quantities. -/
theorem Decimal.checkQuantity_ofNat (n : Nat) :
    Decimal.checkQuantity (Numeral.ofNat n) = .ok () := by
  have hdigits : Numeral.isDigits (Nat.toDigits 10 n) = true := Numeral.isDigits_toDigits n
  have hzero : ¬(1 < (Nat.toDigits 10 n).length ∧ (Nat.toDigits 10 n).head? = some '0') :=
    fun ⟨hlength, hhead⟩ => Numeral.no_leading_zero n hlength hhead
  simp only [checkQuantity, Numeral.ofNat, String.toList_ofList, hdigits, Bool.not_true,
    Bool.false_eq_true, if_false, Bool.and_eq_true, decide_eq_true_eq]
  rw [if_neg hzero]

/-- The quantity of an amount passes its check. -/
def Amount.Canonical (a : Amount) : Prop := Decimal.checkQuantity a.quantity = .ok ()

instance (a : Amount) : Decidable a.Canonical :=
  inferInstanceAs (Decidable (Decimal.checkQuantity a.quantity = .ok ()))

end ChainKit
