import ChainKit.Proofs.Ethereum.RoundTrip
import Mathlib
/-!
# What was read is written again, but for ether that is sent along

A payload that is read as a request is written again from it: the recipient
and the data to the last byte, since a memo, a transfer and a call for
swaps have one spelling each. Its value is written again as well if the
request names an amount of ether, which a send of ether and an offer do.
A transfer, a claim and an abort do not, and ether that came with their
calls is not seen (`ofRequest_iff_of_toRequest`).
-/

namespace ChainKit

open Text

namespace Ethereum

variable {o : Options} {p : Payload} {sender : Address}

/-! ## Contracts -/

/-- An account that is taken for the contract for swaps is its account. -/
theorem swapAccount_of_isSwapContract {a : Account} (hoptions : o.WellFormed)
    (h : o.isSwapContract a.address = true) : o.swapAccount = .ok a := by
  obtain ⟨c, hc, hread⟩ := (isSwapContract_iff hoptions).1 h
  rw [Options.swapAccount, Option.mem_def.1 hc]
  exact ofAbi_eq_ok.2 (Account.ofAddress_eq_ok.2 hread)

/-- An account that is taken for the contract of a token is its account. -/
theorem mem_of_tokenOf? {a : Account} {token : Token} (hoptions : o.WellFormed)
    (h : o.tokenOf? a.address = some token) :
    (token.symbol, token) ∈ o.tokens.entries ∧ Account.ofAddress token.contract = .ok a := by
  rw [Options.tokenOf?] at h
  obtain ⟨e, he, rfl⟩ := List.mem_map.1 (List.mem_of_find?_eq_some h)
  obtain ⟨b, hb⟩ := ofAddress?_of_isAddress (hoptions.tokens e he)
  have hsame : Options.sameContract e.2.contract a.address = true := by
    simpa using List.find?_some h
  have hba := (Account.sameContract_iff hb (Account.ofAddress?_address a)).1 hsame
  refine ⟨?_, Account.ofAddress_eq_ok.2 (hba ▸ hb)⟩
  rw [hoptions.symbols e he]
  exact he

/-! ## Requests -/

/-- Whether a request names the ether that it moves. -/
def movesEther : Request → Bool
  | .send s => s.amount.ticker = etherTicker
  | .offerSwap _ => true
  | _ => false

namespace Payload

/-- A memo that was read is written again. -/
theorem encode_of_memo {data : Bytes} {m : Option String} (h : memo data = .ok m) :
    Utf8.encode (m.getD "") = data := by
  unfold memo at h
  split at h
  · rename_i hnil
    cases h
    rw [hnil]
    rfl
  · split at h
    · rename_i text htext
      cases h
      exact Utf8.encode_of_decode htext
    · cases h

/-- A send of ether that was read is written again. -/
theorem ofRequest_of_toEtherSend {s : Send} (h : p.toEtherSend sender = .ok s) :
    ofRequest o (.send s) = .ok p ∧ movesEther (.send s) = true := by
  obtain ⟨hmemo, hs⟩ := toEtherSend_eq_ok.1 h
  have hticker : s.amount.ticker = etherTicker := by
    rw [hs]
    rfl
  have hdata := encode_of_memo hmemo
  refine ⟨?_, by simpa [movesEther] using hticker⟩
  rw [ofRequest, ofSend, if_pos hticker, ofEtherSend, hs]
  simp only [Account.ofAddress_address, Result.ofAbi, Outcome.ok_bind, etherOf_ether, hdata]
  rfl

/-- A transfer of a token that was read is written again, without any ether. -/
theorem ofRequest_of_toTokenSend {s : Send} {token : Token}
    (hfind : o.tokens.find? token.symbol = some token) (hticker : token.symbol ≠ etherTicker)
    (hcontract : Account.ofAddress token.contract = .ok p.recipient)
    (h : p.toTokenSend token sender = .ok s) :
    ofRequest o (.send s) = .ok { p with value := 0 } ∧ movesEther (.send s) = false := by
  obtain ⟨transfer, htransfer, h⟩ := Outcome.bind_eq_ok.1 h
  cases transfer with
  | none => cases h
  | some t =>
    have hs := Outcome.pure_eq_ok.1 h
    have hdata := TokenTransfer.encode_of_decode (ofAbi_eq_ok.1 htransfer)
    have hto : TokenTransfer.ofAddress s.recipient t.quantity.toNat = .ok t := by
      rw [TokenTransfer.ofAddress, ← hs, Account.ofAddress_address, Outcome.ok_bind,
        Word.ofUint256_toNat]
      rfl
    have hamount : s.amount = ⟨Numeral.ofNat t.quantity.toNat, token.decimals, token.symbol⟩ := by
      rw [← hs]
    refine ⟨?_, by simpa [movesEther, hamount] using hticker⟩
    have hsend := ofSend_of_token (s := s) (by rwa [hamount]) (by rwa [hamount])
      (by rw [hamount]) (by rw [← hs]) (by rw [hamount, quantityOf_ofNat]) hto hcontract
    rw [ofRequest, hsend, hdata]

/-- A call of the contract for swaps that was read is written again; only an offer takes the ether
along. -/
theorem ofRequest_of_toSwapRequest {r : Request} (hswap : o.swapAccount = .ok p.recipient)
    (h : p.toSwapRequest = .ok r) :
    ofRequest o r = .ok { p with value := if movesEther r then p.value else 0 } := by
  obtain ⟨call, hcall, h⟩ := Outcome.bind_eq_ok.1 h
  cases call with
  | none => cases h
  | some call =>
    have hdata := SwapCall.encode_of_decode (ofAbi_eq_ok.1 hcall)
    cases call with
    | offer id recipient hash height =>
      cases Outcome.pure_eq_ok.1 h
      simp only [ofRequest, ofOffer, hswap, theSwapId, theAmount, theHeight, SwapCall.ofOffer,
        Word.ofField_data, Account.ofAddress_address, Outcome.ok_bind, etherOf_ether]
      rw [← hdata]
      rfl
    | claim id preimage =>
      cases Outcome.pure_eq_ok.1 h
      simp only [ofRequest, ofClaim, hswap, SwapCall.ofClaim, Word.ofField_data, Outcome.ok_bind]
      rw [← hdata]
      rfl
    | abort id =>
      cases Outcome.pure_eq_ok.1 h
      simp only [ofRequest, ofAbort, hswap, SwapCall.ofAbort, Word.ofField_data, Outcome.ok_bind]
      rw [← hdata]
      rfl

/-- What was read is written again, with the ether that its request names. -/
theorem ofRequest_of_toRequest {r : Request} (hoptions : o.WellFormed)
    (hether : ∀ e ∈ o.tokens.entries, e.1 ≠ etherTicker) (h : p.toRequest o sender = .ok r) :
    ofRequest o r = .ok { p with value := if movesEther r then p.value else 0 } := by
  unfold toRequest at h
  split at h
  · rename_i hswap
    exact ofRequest_of_toSwapRequest (swapAccount_of_isSwapContract hoptions hswap) h
  · split at h
    · rename_i token htoken
      obtain ⟨hmem, hcontract⟩ := mem_of_tokenOf? hoptions htoken
      obtain ⟨s, hs, rfl⟩ := Outcome.map_eq_ok.1 h
      obtain ⟨hwritten, hmoves⟩ := ofRequest_of_toTokenSend (o := o)
        (TextMap.find?_of_mem hmem) (hether _ hmem) hcontract hs
      rw [hwritten, hmoves]
      rfl
    · obtain ⟨s, hs, rfl⟩ := Outcome.map_eq_ok.1 h
      obtain ⟨hwritten, hmoves⟩ := ofRequest_of_toEtherSend (o := o) hs
      rw [hwritten, hmoves]
      rfl

/-- **A payload that was read is written again, but for ether that its request does not name**:
recipient and data are written to the last byte, and the whole payload exactly if the request
names the ether or there is none. -/
theorem ofRequest_iff_of_toRequest {r : Request} (hoptions : o.WellFormed)
    (hether : ∀ e ∈ o.tokens.entries, e.1 ≠ etherTicker) (h : p.toRequest o sender = .ok r) :
    ofRequest o r = .ok { p with value := if movesEther r then p.value else 0 } ∧
      (ofRequest o r = .ok p ↔ movesEther r = true ∨ p.value = 0) := by
  have hwritten := ofRequest_of_toRequest hoptions hether h
  refine ⟨hwritten, ?_⟩
  rw [hwritten, Except.ok.injEq]
  obtain ⟨recipient, value, data⟩ := p
  cases movesEther r with
  | true => simp
  | false => simp [eq_comm]

/-! ## An abort that brings ether -/

/-- The abort of a swap, with some ether. -/
def sampleAbort (value : Nat) : Payload :=
  ⟨Codec.sampleSwapContract, value, (SwapCall.abort Codec.sampleSwapId).encode⟩

/-- The abort is read, whatever ether it brings. -/
theorem toRequest_sampleAbort (value : Nat) (sender : Address) :
    (sampleAbort value).toRequest Codec.sampleOptions sender =
      .ok (.abortSwap Codec.sampleSwapId.data) := by
  have hswap := (toSwapRequest_ofAbort Codec.ofRequest_sampleAbort).1
  rw [toRequest_swap (p := sampleAbort value) Codec.wellFormed_sampleOptions hswap]
  simp only [toSwapRequest, sampleAbort, SwapCall.decode_encode, Result.ofAbi, Outcome.ok_bind]
  rfl

/-- An abort that brings ether is read, but written again without it. -/
theorem ofRequest_ne_sampleAbort :
    Codec.sampleOptions.WellFormed ∧
      (∀ e ∈ Codec.sampleOptions.tokens.entries, e.1 ≠ etherTicker) ∧
      ∃ r, (sampleAbort 1).toRequest Codec.sampleOptions "" = .ok r ∧
        ofRequest Codec.sampleOptions r = .ok (sampleAbort 0) ∧
        ofRequest Codec.sampleOptions r ≠ .ok (sampleAbort 1) := by
  have hwritten : ofRequest Codec.sampleOptions (.abortSwap Codec.sampleSwapId.data) =
      .ok (sampleAbort 0) := Codec.ofRequest_sampleAbort
  refine ⟨Codec.wellFormed_sampleOptions, by decide, _, toRequest_sampleAbort 1 "", hwritten, ?_⟩
  rw [hwritten]
  decide

/-- An abort that brings none is written again. -/
theorem ofRequest_iff_of_toRequest_sampleAbort :
    ∃ r, (sampleAbort 0).toRequest Codec.sampleOptions "" = .ok r ∧
      ofRequest Codec.sampleOptions r = .ok (sampleAbort 0) := by
  have hread := toRequest_sampleAbort 0 ""
  have hwritten := ofRequest_iff_of_toRequest Codec.wellFormed_sampleOptions (by decide) hread
  exact ⟨_, hread, hwritten.2.2 (.inr rfl)⟩

end Payload

end Ethereum

end ChainKit
