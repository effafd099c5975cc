import ChainKit.Proofs.Ethereum.Readable
import Mathlib
/-!
# A memo is never a call

A memo and the data of a call stand in the same field, and nothing tells
them apart but how they begin. No text begins like a call, so the methods
of both contracts are found in no text (`TokenTransfer.decode_text`,
`SwapCall.decode_text`). Whoever reads ether that was sent with a memo, and
whatever contracts they know, reads ether with that memo or refuses it
(`Payload.toRequest_of_text`).
-/

namespace ChainKit

open Text

namespace Ethereum

variable {text : String}

/-! ## Calls -/

/-- A text has no arguments of a call. -/
theorem Selector.arguments?_text {selector : Bytes} (hknown : selector ∈ known) (text : String) :
    arguments? selector (Utf8.encode text) = none := by
  cases h : arguments? selector (Utf8.encode text) with
  | none => rfl
  | some arguments =>
    exact absurd (take_mem_known hknown h) (take_not_mem_known (Utf8.decode_encode text))

/-- **No text is a transfer of tokens.** -/
theorem TokenTransfer.decode_text (text : String) : decode (Utf8.encode text) = .ok none := by
  rw [decode, Selector.arguments?_text (by decide)]

/-- **No text is a call of the contract for swaps.** -/
theorem SwapCall.decode_text (text : String) : decode (Utf8.encode text) = .ok none := by
  rw [decode, Selector.arguments?_text (by decide), Selector.arguments?_text (by decide),
    Selector.arguments?_text (by decide)]

/-! ## Payloads -/

namespace Payload

variable {o : Options} {p : Payload} {s : Send} {sender : Address}

/-- The data of a send of ether is its memo. -/
theorem data_of_ofSend (hticker : s.amount.ticker = etherTicker) (hmemo : s.memo = some text)
    (h : ofSend o s = .ok p) : p.data = Utf8.encode text := by
  rw [ofSend, if_pos hticker] at h
  simp only [ofEtherSend, Outcome.bind_eq_ok] at h
  obtain ⟨recipient, -, value, -, h⟩ := h
  cases Outcome.pure_eq_ok.1 h
  rw [hmemo, Option.getD_some]

/-- A text is refused as a call of a token's contract. -/
theorem toTokenSend_of_text (hdata : p.data = Utf8.encode text) (token : Token)
    (sender : Address) : p.toTokenSend token sender =
      .error (.unsupportedOperation s!"unknown ERC20 method on {p.recipient.address}") := by
  rw [toTokenSend, hdata, TokenTransfer.decode_text]
  rfl

/-- A text is refused as a call of the contract for swaps. -/
theorem toSwapRequest_of_text (hdata : p.data = Utf8.encode text) :
    p.toSwapRequest = .error (.invalid .swapMethod) := by
  rw [toSwapRequest, hdata, SwapCall.decode_text]
  rfl

/-- **Data that is a text is refused by a known contract and is a memo for anyone else.** -/
theorem toRequest_of_text (hdata : p.data = Utf8.encode text) (o : Options) (sender : Address) :
    p.toRequest o sender =
      if o.isSwapContract p.recipient.address then .error (.invalid .swapMethod)
      else if (o.tokenOf? p.recipient.address).isSome then
        .error (.unsupportedOperation s!"unknown ERC20 method on {p.recipient.address}")
      else .ok (.send ⟨sender, p.recipient.address, ether p.value,
        if text = "" then none else some text⟩) := by
  rw [toRequest, toSwapRequest_of_text hdata]
  cases o.tokenOf? p.recipient.address with
  | some token =>
    dsimp only
    rw [toTokenSend_of_text hdata]
    rfl
  | none =>
    dsimp only
    rw [toEtherSend_of_text hdata]
    rfl

/-- **A memo acts as no call.** No text is a call of either contract. Ether that is sent with a
memo, to whomever, is read by no one as a transfer of a token or a request to the contract for
swaps: it is refused at a known contract, and else it is ether with the memo. -/
theorem memo_is_no_call (text : String) :
    TokenTransfer.decode (Utf8.encode text) = .ok none ∧
    SwapCall.decode (Utf8.encode text) = .ok none ∧
    ∀ (o o' : Options) (s : Send) (p : Payload) (sender : Address),
      s.amount.ticker = etherTicker → s.memo = some text → ofSend o s = .ok p →
      (∀ token t, p.toTokenSend token sender ≠ .ok t) ∧ (∀ r, p.toSwapRequest ≠ .ok r) ∧
      p.toRequest o' sender =
        if o'.isSwapContract p.recipient.address then .error (.invalid .swapMethod)
        else if (o'.tokenOf? p.recipient.address).isSome then
          .error (.unsupportedOperation s!"unknown ERC20 method on {p.recipient.address}")
        else .ok (.send ⟨sender, p.recipient.address, ether p.value,
          if text = "" then none else some text⟩) := by
  refine ⟨TokenTransfer.decode_text text, SwapCall.decode_text text, ?_⟩
  intro o o' s p sender hticker hmemo hsend
  have hdata := data_of_ofSend hticker hmemo hsend
  refine ⟨fun token t h => ?_, fun r h => ?_, toRequest_of_text hdata o' sender⟩
  · rw [toTokenSend_of_text hdata] at h
    cases h
  · rw [toSwapRequest_of_text hdata] at h
    cases h

/-- Ether with a memo for an account. -/
def sampleNote (a : Account) : Send where
  sender := Codec.sampleGift.sender
  recipient := a.address
  amount := ⟨"1500", 18, "ETH"⟩
  memo := some "rent"

/-- What the ether moves. -/
theorem ofSend_sampleNote (a : Account) : ofSend Codec.sampleOptions (sampleNote a) =
    .ok ⟨a, 1500, Utf8.encode "rent"⟩ := by
  have hvalue : etherOf ⟨"1500", 18, "ETH"⟩ = .ok 1500 := rfl
  have hticker : (sampleNote a).amount.ticker = etherTicker := rfl
  rw [ofSend, if_pos hticker, ofEtherSend, sampleNote, hvalue, Account.ofAddress_address]
  rfl

/-- Ether with a memo is refused at the token's contract, and read back by a stranger. -/
theorem memo_is_no_call_sampleNote :
    (∃ p, ofSend Codec.sampleOptions (sampleNote Codec.sampleContract) = .ok p ∧
      p.toRequest Codec.sampleOptions Codec.sampleGift.sender = .error (.unsupportedOperation
        s!"unknown ERC20 method on {Codec.sampleContract.address}")) ∧
    ∃ p, ofSend Codec.sampleOptions (sampleNote Codec.sampleRecipient) = .ok p ∧
      p.toRequest Codec.sampleOptions Codec.sampleGift.sender =
        .ok (.send (sampleNote Codec.sampleRecipient)) := by
  have hoptions := Codec.wellFormed_sampleOptions
  obtain ⟨-, -, hread⟩ := memo_is_no_call "rent"
  have hswap (a : Account) (hne : Codec.sampleSwapContract ≠ a) :
      Codec.sampleOptions.isSwapContract a.address = false := by
    rw [Bool.eq_false_iff, ne_eq, isSwapContract_iff hoptions]
    simpa [Codec.swapContract_sampleOptions] using hne
  refine ⟨⟨_, ofSend_sampleNote _, ?_⟩, _, ofSend_sampleNote _, ?_⟩
  · have htoken : Codec.sampleOptions.tokenOf? Codec.sampleContract.address =
        some Codec.sampleToken :=
      tokenOf?_eq_some hoptions (e := ("ASH", Codec.sampleToken))
        (by simp [Codec.entries_sampleOptions]) (Account.ofAddress?_address _)
    rw [(hread _ _ _ _ _ (by decide) rfl (ofSend_sampleNote _)).2.2, hswap _ (by decide), htoken]
    rfl
  · have htoken : Codec.sampleOptions.tokenOf? Codec.sampleRecipient.address = none := by
      have hne : Codec.sampleContract ≠ Codec.sampleRecipient := by decide
      refine tokenOf?_eq_none hoptions fun e he => ?_
      simp only [Codec.entries_sampleOptions, List.mem_singleton] at he
      simpa [he, Codec.sampleToken] using hne
    rw [(hread _ _ _ _ _ (by decide) rfl (ofSend_sampleNote _)).2.2, hswap _ (by decide), htoken]
    rfl

end Payload

end Ethereum

end ChainKit
