import ChainKit.Bytes.Lemmas
import ChainKit.Ethereum.Call
import ChainKit.Proofs.Outcome
import Mathlib
/-!
# Contract calls are read back

Words stand side by side, 32 bytes each, so every word is found at its
place (`list_flatMap`). A call is told by its selector, and its arguments
are the words that were written. Nothing else is read as a call: bytes
that are read are the bytes of what they are read as.
-/

namespace ChainKit

namespace Ethereum

namespace Word

variable {a : Account} {w : Word} {n : Nat}

/-! ## Single words -/

theorem ext_data {v w : Word} (h : v.data = w.data) : v = w := by
  cases v
  cases w
  cases h
  rfl

/-- A number below the range of a word is read back. -/
theorem toNat_ofNat (h : n < 2 ^ 256) : (ofNat n).toNat = n := by
  have hfits : n < 256 ^ 32 := by simpa using h
  exact Bytes.toNat_ofNat_of_lt hfits

/-- A number of 64 bits is read back. -/
theorem toNat_ofUint64 (n : UInt64) : (ofUint64 n).toNat = n.toNat :=
  toNat_ofNat (Nat.lt_trans n.toNat_lt (by decide))

/-- A number that fits is the number of its word. -/
theorem toNat_of_ofUint256 (h : ofUint256 n = .ok w) : w.toNat = n := by
  rw [ofUint256] at h
  split at h
  · rename_i hlt
    rw [← Except.ok.inj h]
    exact toNat_ofNat (by simpa using hlt)
  · cases h

/-- An account is read back from its word. -/
theorem toAccount_ofAccount (a : Account) : (ofAccount a).toAccount = .ok a := by
  have hzeros : (Bytes.zeros 12).length = 12 := by simp [Bytes.zeros]
  have htake : (ofAccount a).data.take 12 = Bytes.zeros 12 := by
    rw [ofAccount, List.take_left' hzeros]
  have hdrop : (ofAccount a).data.drop 12 = a.data := by
    rw [ofAccount, List.drop_left' hzeros]
  unfold toAccount
  rw [if_pos htake]
  obtain ⟨data, hdata⟩ := a
  simp only [Except.ok.injEq, Account.mk.injEq]
  exact hdrop

/-- A field that fills a word is its data. -/
theorem data_of_ofField {field : String} {b : Bytes} (h : ofField field b = .ok w) :
    w.data = b := by
  unfold ofField ofBytes? at h
  split at h
  · rename_i v hv
    cases h
    split at hv
    · cases hv
      rfl
    · cases hv
  · cases h

/-- A word is the word of its number. -/
theorem ofNat_toNat (w : Word) : ofNat w.toNat = w := by
  apply ext_data
  have := Bytes.ofNat_toNat w.data
  rwa [w.length_data] at this

/-- The number of a word fits in one. -/
theorem ofUint256_toNat (w : Word) : ofUint256 w.toNat = .ok w := by
  have hlt := Bytes.toNat_lt w.data
  rw [w.length_data] at hlt
  rw [ofUint256, if_pos (by simpa [toNat] using hlt), ofNat_toNat]

/-- A word that is read as an account is its word. -/
theorem ofAccount_of_toAccount (h : w.toAccount = .ok a) : ofAccount a = w := by
  unfold toAccount at h
  split at h
  · rename_i hzeros
    cases h
    apply ext_data
    show Bytes.zeros 12 ++ w.data.drop 12 = w.data
    rw [← hzeros, List.take_append_drop]
  · cases h

/-- The data of a word fills one. -/
theorem ofField_data (field : String) (w : Word) : ofField field w.data = .ok w := by
  rw [ofField, ofBytes?, dif_pos w.length_data]

theorem ofField_eq_ok {field : String} {b : Bytes} : ofField field b = .ok w ↔ w.data = b := by
  constructor
  · exact data_of_ofField
  · rintro rfl
    exact ofField_data field w

/-- Bytes are a word exactly if they fill one. -/
theorem exists_data_iff {b : Bytes} : (∃ w : Word, w.data = b) ↔ b.length = 32 := by
  constructor
  · rintro ⟨w, rfl⟩
    exact w.length_data
  · intro h
    exact ⟨⟨b, h⟩, rfl⟩

theorem ofUint256_eq_ok : ofUint256 n = .ok w ↔ w.toNat = n := by
  constructor
  · exact toNat_of_ofUint256
  · rintro rfl
    exact ofUint256_toNat w

/-- A number fits in a word exactly if it is below 2²⁵⁶. -/
theorem exists_toNat_iff : (∃ w : Word, w.toNat = n) ↔ n < 2 ^ 256 := by
  constructor
  · rintro ⟨w, rfl⟩
    have hlt := Bytes.toNat_lt w.data
    rwa [w.length_data] at hlt
  · intro h
    exact ⟨ofNat n, toNat_ofNat h⟩

/-- A number is refused exactly if it does not fit in a word. -/
theorem exists_ofUint256_eq_error : (∃ e, ofUint256 n = .error e) ↔ 2 ^ 256 ≤ n := by
  rw [← not_lt, ← exists_toNat_iff]
  simp only [← ofUint256_eq_ok]
  cases ofUint256 n <;> simp

/-! ## Words side by side -/

theorem length_flatMap (ws : List Word) : (ws.flatMap data).length = 32 * ws.length := by
  induction ws with
  | nil => rfl
  | cons w ws ih =>
    rw [List.flatMap_cons, List.length_append, ih, w.length_data, List.length_cons]
    omega

/-- The word at a place is found there. -/
theorem take_drop_flatMap {ws : List Word} {i : Nat} (h : i < ws.length) :
    ((ws.flatMap data).drop (32 * i)).take 32 = ws[i].data := by
  induction ws generalizing i with
  | nil => cases h
  | cons w ws ih =>
    rw [List.flatMap_cons]
    cases i with
    | zero =>
      rw [Nat.mul_zero, List.drop_zero, List.take_left' w.length_data, List.getElem_cons_zero]
    | succ i =>
      -- one word is skipped, and the rest is the place in the words behind it
      have hskip : (w.data ++ ws.flatMap data).drop (32 * (i + 1)) =
          (ws.flatMap data).drop (32 * i) := by
        rw [show 32 * (i + 1) = w.data.length + 32 * i by rw [w.length_data]; omega,
          List.drop_append]
        simp
      rw [hskip, ih (by simpa using h), List.getElem_cons_succ]

/-- **Words are read back in order.** -/
theorem list_flatMap {count : Nat} (ws : Vector Word count) :
    list count (ws.toList.flatMap data) = .ok ws := by
  have hlength : (ws.toList.flatMap data).length = 32 * count := by
    rw [length_flatMap, Vector.length_toList]
  rw [list, dif_pos hlength]
  congr 1
  refine Vector.ext fun i hi => ext_data ?_
  have hplace : i < ws.toList.length := by simpa using hi
  have hword := take_drop_flatMap hplace
  rw [Vector.getElem_toList] at hword
  rw [Vector.getElem_ofFn]
  exact hword

/-- The words of bytes spell them. -/
theorem flatMap_nth {count : Nat} {b : Bytes} (h : b.length = 32 * count) :
    (List.ofFn fun i : Fin count => nth b i (by omega)).flatMap data = b := by
  induction count generalizing b with
  | zero => simpa using (List.length_eq_zero_iff.1 h).symm
  | succ count ih =>
    have hrest : (b.drop 32).length = 32 * count := by
      rw [List.length_drop]
      omega
    have hnext (i : Fin count) : nth b i.succ (by have := i.isLt; simp; omega) =
        nth (b.drop 32) i (by omega) := by
      apply ext_data
      simp only [nth, Fin.val_succ, List.drop_drop]
      rw [show 32 * (i.val + 1) = 32 + 32 * i.val by omega]
    rw [List.ofFn_succ, List.flatMap_cons]
    simp only [hnext]
    rw [ih hrest]
    exact List.take_append_drop 32 b

/-- Bytes that are read as words are theirs. -/
theorem flatMap_of_list {count : Nat} {b : Bytes} {ws : Vector Word count}
    (h : list count b = .ok ws) : (List.ofFn fun i => ws[i]).flatMap data = b := by
  unfold list at h
  split at h
  · rename_i hlength
    cases h
    simp only [Fin.getElem_fin, Vector.getElem_ofFn]
    exact flatMap_nth hlength
  · cases h

end Word

/-! ## Calls -/

/-- A selector of four bytes is told from the front of a call. -/
theorem Selector.arguments?_append {selector : Bytes} (arguments : Bytes)
    (h : selector.length = 4) : arguments? selector (selector ++ arguments) = some arguments := by
  rw [arguments?, List.take_left' h, if_pos rfl, List.drop_left' h]

/-- Other selectors do not match. -/
theorem Selector.arguments?_of_ne {selector other : Bytes} (arguments : Bytes)
    (h : other.length = 4) (hne : other ≠ selector) :
    arguments? selector (other ++ arguments) = none := by
  rw [arguments?, List.take_left' h, if_neg hne]

/-- The front of a call that a selector matches is the selector. -/
theorem Selector.append_of_arguments? {selector data arguments : Bytes}
    (h : arguments? selector data = some arguments) : selector ++ arguments = data := by
  unfold arguments? at h
  split at h
  · rename_i hfront
    cases h
    rw [← hfront, List.take_append_drop]
  · cases h

/-- **A transfer of tokens is read back from its call.** -/
theorem TokenTransfer.decode_encode (t : TokenTransfer) : decode t.encode = .ok (some t) := by
  have hwords := Word.list_flatMap #v[Word.ofAccount t.recipient, t.quantity]
  have hencode : t.encode = Selector.transfer ++
      #v[Word.ofAccount t.recipient, t.quantity].toList.flatMap Word.data := by
    simp [encode]
  rw [decode, hencode, Selector.arguments?_append _ rfl]
  simp only [hwords, Outcome.ok_bind]
  rw [show #v[Word.ofAccount t.recipient, t.quantity][0] = Word.ofAccount t.recipient from rfl,
    Word.toAccount_ofAccount]
  rfl

/-- **A call of the contract for swaps is read back.** -/
theorem SwapCall.decode_encode (call : SwapCall) : decode call.encode = .ok (some call) := by
  cases call with
  | offer id recipient hash height =>
    have hwords := Word.list_flatMap #v[id, Word.ofAccount recipient, hash, Word.ofUint64 height]
    have hencode : (offer id recipient hash height).encode = Selector.offer ++
        #v[id, Word.ofAccount recipient, hash, Word.ofUint64 height].toList.flatMap Word.data := by
      simp [encode]
    rw [decode, hencode, Selector.arguments?_append _ rfl]
    simp only [offerOf, hwords, Outcome.ok_bind]
    rw [show #v[id, Word.ofAccount recipient, hash, Word.ofUint64 height][1] =
        Word.ofAccount recipient from rfl, Word.toAccount_ofAccount,
      show #v[id, Word.ofAccount recipient, hash, Word.ofUint64 height][3] =
        Word.ofUint64 height from rfl, Word.toNat_ofUint64]
    simp only [Outcome.ok_bind, UInt64.size, height.toNat_lt, if_true, UInt64.ofNat_toNat]
    rfl
  | claim id preimage =>
    have hwords := Word.list_flatMap #v[id, preimage]
    have hencode : (claim id preimage).encode =
        Selector.claim ++ #v[id, preimage].toList.flatMap Word.data := by
      simp [encode]
    -- it is not taken for an offer
    rw [decode, hencode, Selector.arguments?_of_ne _ rfl (by decide),
      Selector.arguments?_append _ rfl]
    simp only [claimOf, hwords, Outcome.ok_bind]
    rfl
  | abort id =>
    have hwords := Word.list_flatMap #v[id]
    have hencode : (abort id).encode = Selector.abort ++ #v[id].toList.flatMap Word.data := by
      simp [encode]
    rw [decode, hencode, Selector.arguments?_of_ne _ rfl (by decide),
      Selector.arguments?_of_ne _ rfl (by decide), Selector.arguments?_append _ rfl]
    simp only [abortOf, hwords, Outcome.ok_bind]
    rfl

/-! ## Written again -/

/-- **Bytes that are read as a transfer of tokens are its call.** -/
theorem TokenTransfer.encode_of_decode {b : Bytes} {t : TokenTransfer}
    (h : decode b = .ok (some t)) : t.encode = b := by
  unfold decode at h
  split at h
  · cases h
  · rename_i arguments harguments
    simp only [Outcome.bind_eq_ok] at h
    obtain ⟨ws, hws, recipient, hrecipient, h⟩ := h
    cases Outcome.pure_eq_ok.1 h
    rw [← Selector.append_of_arguments? harguments, ← Word.flatMap_of_list hws, encode,
      Word.ofAccount_of_toAccount hrecipient]
    simp [List.ofFn_succ]

namespace SwapCall

variable {arguments : Bytes} {call : SwapCall}

theorem encode_of_offerOf (h : offerOf arguments = .ok call) :
    call.encode = Selector.offer ++ arguments := by
  simp only [offerOf, Outcome.bind_eq_ok] at h
  obtain ⟨ws, hws, recipient, hrecipient, h⟩ := h
  split at h
  · rename_i hlt
    cases Outcome.pure_eq_ok.1 h
    have hheight : Word.ofUint64 (UInt64.ofNat ws[3].toNat) = ws[3] := by
      rw [Word.ofUint64, UInt64.toNat_ofNat_of_lt' hlt, Word.ofNat_toNat]
    rw [← Word.flatMap_of_list hws, encode, Word.ofAccount_of_toAccount hrecipient, hheight]
    simp [List.ofFn_succ]
  · cases h

theorem encode_of_claimOf (h : claimOf arguments = .ok call) :
    call.encode = Selector.claim ++ arguments := by
  obtain ⟨ws, hws, h⟩ := Outcome.bind_eq_ok.1 h
  cases Outcome.pure_eq_ok.1 h
  rw [← Word.flatMap_of_list hws, encode]
  simp [List.ofFn_succ]

theorem encode_of_abortOf (h : abortOf arguments = .ok call) :
    call.encode = Selector.abort ++ arguments := by
  obtain ⟨ws, hws, h⟩ := Outcome.bind_eq_ok.1 h
  cases Outcome.pure_eq_ok.1 h
  rw [← Word.flatMap_of_list hws, encode]
  simp [List.ofFn_succ]

/-- **Bytes that are read as a call of the contract for swaps are that call.** -/
theorem encode_of_decode {b : Bytes} (h : decode b = .ok (some call)) : call.encode = b := by
  have hsome {x : Except AbiError SwapCall} (h : x.map some = .ok (some call)) : x = .ok call := by
    obtain ⟨c, hc, hcall⟩ := Outcome.map_eq_ok.1 h
    rw [hc, Option.some.inj hcall]
  unfold decode at h
  split at h
  · rename_i harguments
    rw [encode_of_offerOf (hsome h), Selector.append_of_arguments? harguments]
  · split at h
    · rename_i harguments
      rw [encode_of_claimOf (hsome h), Selector.append_of_arguments? harguments]
    · split at h
      · rename_i harguments
        rw [encode_of_abortOf (hsome h), Selector.append_of_arguments? harguments]
      · cases h

end SwapCall

end Ethereum

end ChainKit
