import ChainKit.Bns.Coin
import ChainKit.Proofs.Outcome
import ChainKit.Proofs.Text.Numeral
import Mathlib
/-!
# Coins keep amounts

An amount is cut in front of its last nine digits. Both halves are
numbers below `2 ^ 63`, the second below `10 ^ 9`, and put together they
make the value that was cut; a canonical quantity is the numeral of it.
A coin whose halves are in range is told by its amount, so it is written
again from it. `lossless_split` says for which amounts and coins the two
ways are open, and what comes out of each.
-/

namespace ChainKit

open Text

namespace Bns

/-- The half of a coin is the value of its digits, and not negative. -/
theorem toInt_of_coinPart {part : CoinPart} {digits : List Char} {n : Int64}
    (h : coinPart part digits = .ok n) : n.toInt = (Numeral.value digits : Int) := by
  simp only [coinPart] at h
  split at h
  · rename_i hlt
    cases h
    rw [Int64.toInt_ofNat_of_lt (by omega)]
  · cases h

/-- Digits make the half of a coin exactly if their value is below `2 ^ 63`. -/
theorem exists_coinPart_iff {part : CoinPart} {digits : List Char} :
    (∃ n, coinPart part digits = .ok n) ↔ Numeral.value digits < 0x8000000000000000 := by
  simp only [coinPart]
  split
  · rename_i hlt
    exact iff_of_true ⟨_, rfl⟩ hlt
  · rename_i hge
    exact iff_of_false (by simp) hge

/-- The last nine digits are worth less than a token. -/
theorem value_drop_lt {digits : List Char} (hall : ∀ c ∈ digits, c.isDigit = true) :
    Numeral.value (digits.drop (digits.length - 9)) < unitsPerToken := by
  have hlength : (digits.drop (digits.length - 9)).length ≤ 9 := by
    rw [List.length_drop]
    omega
  have hdrop : ∀ c ∈ digits.drop (digits.length - 9), c.isDigit = true := by
    intro c hc
    exact hall c (List.mem_of_mem_drop hc)
  have hlt := Numeral.value_lt hdrop
  have hpow := Nat.pow_le_pow_right (n := 10) (by omega) hlength
  unfold unitsPerToken
  omega

/-- Whole tokens and the units behind them make up the quantity. -/
theorem value_take_add_value_drop (digits : List Char) :
    Numeral.value (digits.take (digits.length - 9)) * unitsPerToken +
      Numeral.value (digits.drop (digits.length - 9)) = Numeral.value digits := by
  conv_rhs => rw [← List.take_append_drop (digits.length - 9) digits, Numeral.value_append]
  rcases Nat.lt_or_ge digits.length 9 with hshort | hlong
  · -- less than a token, so nothing stands in front
    have htake : digits.take (digits.length - 9) = [] := by
      rw [Nat.sub_eq_zero_of_le (by omega), List.take_zero]
    simp [htake]
  · rw [List.length_drop, show digits.length - (digits.length - 9) = 9 by omega]
    rfl

namespace Schema

namespace Coin

/-- The whole tokens of a quantity are what stands in front of its last nine digits. -/
theorem value_take_eq_div {digits : List Char} (hall : ∀ c ∈ digits, c.isDigit = true) :
    Numeral.value (digits.take (digits.length - 9)) = Numeral.value digits / unitsPerToken := by
  have hcut := value_take_add_value_drop digits
  have hsmall := value_drop_lt hall
  unfold unitsPerToken at *
  omega

/-- **An amount has a coin exactly if** it has nine fractional digits, its quantity is a run of
digits, and its whole tokens are a signed word. -/
theorem exists_ofAmount_iff {a : Amount} :
    (∃ c, ofAmount a = .ok c) ↔ a.fractionalDigits = fractionalDigits ∧
      Numeral.isDigits a.quantity.toList = true ∧
      Numeral.value a.quantity.toList / unitsPerToken < 0x8000000000000000 := by
  simp only [ofAmount, Outcome.ite_error_eq_ok, not_not, Bool.not_eq_true', Bool.not_eq_false,
    Outcome.bind_eq_ok, exists_and_left]
  refine and_congr_right fun _ => and_congr_right fun hdigits => ?_
  have hall := (Numeral.isDigits_iff.1 hdigits).2
  rw [← value_take_eq_div hall]
  constructor
  · rintro ⟨c, whole, hwhole, -⟩
    exact exists_coinPart_iff.1 ⟨whole, hwhole⟩
  · intro hfront
    -- the digits behind are less than a token, so they are a word in any case
    have hsmall := value_drop_lt hall
    have hword : Numeral.value (a.quantity.toList.drop (a.quantity.toList.length - 9)) <
        0x8000000000000000 := by
      unfold unitsPerToken at hsmall
      omega
    obtain ⟨whole, hwhole⟩ := exists_coinPart_iff.2 hfront
    obtain ⟨fractional, hfractional⟩ := exists_coinPart_iff.2 hword
    exact ⟨_, whole, hwhole, fractional, hfractional, rfl⟩

/-- **The halves of a coin make up the quantity**, the second of them less than a token. -/
theorem halves_of_ofAmount {a : Amount} {c : Coin} (h : ofAmount a = .ok c) :
    0 ≤ c.whole.toInt ∧ 0 ≤ c.fractional.toInt ∧ c.fractional.toInt < unitsPerToken ∧
      c.whole.toInt * unitsPerToken + c.fractional.toInt =
        (Numeral.value a.quantity.toList : Int) ∧ c.ticker = a.ticker := by
  simp only [ofAmount, Outcome.ite_error_eq_ok, Outcome.bind_eq_ok] at h
  obtain ⟨-, hquantity, whole, hwhole, fractional, hfractional, h⟩ := h
  cases Outcome.pure_eq_ok.1 h
  have hall := (Numeral.isDigits_iff.1 (by simpa using hquantity)).2
  have hsmall := value_drop_lt hall
  have hunits := value_take_add_value_drop a.quantity.toList
  rw [toInt_of_coinPart hwhole, toInt_of_coinPart hfractional]
  unfold unitsPerToken at *
  refine ⟨?_, ?_, ?_, ?_, rfl⟩ <;> omega

/-- **A coin is read exactly if** neither half is negative and the second is less than a token. -/
theorem toAmount_eq_ok {a : Amount} {c : Coin} : c.toAmount = .ok a ↔
    0 ≤ c.whole.toInt ∧ 0 ≤ c.fractional.toInt ∧ c.fractional.toInt < unitsPerToken ∧
      a = ⟨Numeral.ofNat (c.whole.toInt * unitsPerToken + c.fractional.toInt).toNat,
        fractionalDigits, c.ticker⟩ := by
  simp only [toAmount, Outcome.ite_error_eq_ok, Int64.lt_iff_toInt_lt, Int64.toInt_zero,
    Int.not_lt, Except.ok.injEq, Nat.not_le, eq_comm (a := a)]
  refine and_congr_right fun hwhole => and_congr_right fun hfractional => ?_
  have hunits : (c.whole.toInt * unitsPerToken + c.fractional.toInt).toNat =
      c.whole.toInt.toNat * unitsPerToken + c.fractional.toInt.toNat := by
    unfold unitsPerToken
    omega
  rw [hunits]
  refine and_congr_left fun _ => ?_
  omega

/-- **A coin is read as the value of its amount**, written without superfluous zeros. -/
theorem toAmount_of_ofAmount {a : Amount} {c : Coin} (h : ofAmount a = .ok c) :
    c.toAmount = .ok { a with quantity := Numeral.ofNat (Numeral.value a.quantity.toList) } := by
  obtain ⟨hwhole, hfractional, hsmall, hunits, hticker⟩ := halves_of_ofAmount h
  refine toAmount_eq_ok.2 ⟨hwhole, hfractional, hsmall, ?_⟩
  rw [hunits, Int.toNat_natCast, hticker, ← (exists_ofAmount_iff.1 ⟨c, h⟩).1]

/-- **An amount is read back from its coin**, if its quantity is canonical. -/
theorem toAmount_ofAmount {a : Amount} {c : Coin} (hcanonical : a.Canonical)
    (h : ofAmount a = .ok c) : c.toAmount = .ok a := by
  rw [toAmount_of_ofAmount h, Decimal.ofNat_of_checkQuantity hcanonical]

/-- A coin is told by its amount. -/
theorem eq_of_toAmount {a : Amount} {c d : Coin} (hc : c.toAmount = .ok a)
    (hd : d.toAmount = .ok a) : c = d := by
  obtain ⟨hcw, hcf, hcsmall, rfl⟩ := toAmount_eq_ok.1 hc
  obtain ⟨hdw, hdf, hdsmall, hsame⟩ := toAmount_eq_ok.1 hd
  obtain ⟨hquantity, -, hticker⟩ := Amount.mk.injEq .. ▸ hsame
  have hunits := congrArg (fun q : String => Numeral.grouped? q.toList) hquantity
  simp only [Numeral.grouped?_ofNat, Option.some.injEq] at hunits
  -- both halves follow from the units, the second being less than a token
  unfold unitsPerToken at *
  have hwhole : c.whole = d.whole := by
    apply Int64.toInt_inj.1
    omega
  have hfractional : c.fractional = d.fractional := by
    apply Int64.toInt_inj.1
    omega
  cases c
  cases d
  simp_all

/-- **The amount of a coin is canonical, and written as the coin again.** -/
theorem canonical_of_toAmount {a : Amount} {c : Coin} (h : c.toAmount = .ok a) :
    a.Canonical ∧ ofAmount a = .ok c := by
  have hcanonical : a.Canonical := by
    obtain ⟨-, -, -, rfl⟩ := toAmount_eq_ok.1 h
    exact Decimal.checkQuantity_ofNat _
  have hcoin : ∃ d, ofAmount a = .ok d := by
    obtain ⟨hwhole, hfractional, hsmall, rfl⟩ := toAmount_eq_ok.1 h
    refine exists_ofAmount_iff.2 ⟨rfl, ?_, ?_⟩
    · rw [Numeral.ofNat, String.toList_ofList]
      exact Numeral.isDigits_toDigits _
    · rw [Numeral.ofNat, String.toList_ofList, Numeral.value_toDigits]
      have hword := Int64.toInt_lt c.whole
      unfold unitsPerToken at *
      omega
  obtain ⟨d, hd⟩ := hcoin
  rw [eq_of_toAmount h (toAmount_ofAmount hcanonical hd)]
  exact ⟨hcanonical, hd⟩

/-- **Amounts are split and put together without loss.** An amount has a coin exactly if it has
nine fractional digits, its quantity is a run of digits and its whole tokens are a signed word of 64
bits. The halves of the coin make up the value, the second of them less than a token, and the coin
is read as the numeral of the value, so as the amount itself exactly if its quantity is canonical.
A coin is read exactly if its halves are in range, and written again from what is read. -/
theorem lossless_split (a : Amount) (c : Coin) :
    ((∃ d, ofAmount a = .ok d) ↔ a.fractionalDigits = 9 ∧
      (a.quantity.toList ≠ [] ∧ ∀ digit ∈ a.quantity.toList, digit.isDigit = true) ∧
      Numeral.value a.quantity.toList / 10 ^ 9 ≤ 2 ^ 63 - 1) ∧
    (ofAmount a = .ok c →
      0 ≤ c.fractional.toInt ∧ c.fractional.toInt < 10 ^ 9 ∧
      c.whole.toInt * 10 ^ 9 + c.fractional.toInt = (Numeral.value a.quantity.toList : Int) ∧
      c.toAmount = .ok ⟨Numeral.ofNat (Numeral.value a.quantity.toList), 9, a.ticker⟩ ∧
      (c.toAmount = .ok a ↔ Decimal.checkQuantity a.quantity = .ok ())) ∧
    ((∃ b, c.toAmount = .ok b) ↔
      0 ≤ c.whole.toInt ∧ 0 ≤ c.fractional.toInt ∧ c.fractional.toInt < 10 ^ 9) ∧
    (c.toAmount = .ok a → ofAmount a = .ok c) := by
  refine ⟨?_, fun h => ?_, ?_, fun h => (canonical_of_toAmount h).2⟩
  · rw [exists_ofAmount_iff, Numeral.isDigits_iff]
    refine and_congr_right fun _ => and_congr_right fun _ => ?_
    unfold unitsPerToken
    omega
  · obtain ⟨-, hfractional, hsmall, hunits, -⟩ := halves_of_ofAmount h
    have hdigits := (exists_ofAmount_iff.1 ⟨c, h⟩).1
    have hread := toAmount_of_ofAmount h
    rw [hdigits] at hread
    refine ⟨hfractional, hsmall, hunits, hread, fun hsame => ?_, fun hcanonical => ?_⟩
    · exact (canonical_of_toAmount hsame).1
    · exact toAmount_ofAmount hcanonical h
  · constructor
    · rintro ⟨b, hb⟩
      obtain ⟨hwhole, hfractional, hsmall, -⟩ := toAmount_eq_ok.1 hb
      exact ⟨hwhole, hfractional, hsmall⟩
    · rintro ⟨hwhole, hfractional, hsmall⟩
      exact ⟨_, toAmount_eq_ok.2 ⟨hwhole, hfractional, hsmall, rfl⟩⟩

/-- Twelve tokens and a few units behind seven zeros: the zeros in front do not come back. -/
theorem lossless_split_padded :
    ofAmount ⟨"00012000000345", 9, "IOV"⟩ = .ok ⟨12, 345, "IOV"⟩ ∧
      toAmount ⟨12, 345, "IOV"⟩ = .ok ⟨"12000000345", 9, "IOV"⟩ ∧
      ofAmount ⟨"12000000345", 9, "IOV"⟩ = .ok ⟨12, 345, "IOV"⟩ ∧
      toAmount ⟨12, 345, "IOV"⟩ ≠ .ok ⟨"00012000000345", 9, "IOV"⟩ := by
  have hpadded : ofAmount ⟨"00012000000345", 9, "IOV"⟩ = .ok ⟨12, 345, "IOV"⟩ := by decide +kernel
  obtain ⟨-, -, -, hread, hsame⟩ := (lossless_split _ _).2.1 hpadded
  have hread' : toAmount ⟨12, 345, "IOV"⟩ = .ok ⟨"12000000345", 9, "IOV"⟩ := hread
  refine ⟨hpadded, hread', (lossless_split _ _).2.2.2 hread', fun h => ?_⟩
  exact absurd (hsame.1 h) (by decide +kernel)

end Coin

end Schema

end Bns

end ChainKit
