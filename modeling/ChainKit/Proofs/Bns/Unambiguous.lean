import ChainKit.Proofs.Commitment
import ChainKit.Proofs.Text.Utf8
import Mathlib
/-!
# What is signed names the transaction

The bytes to sign are the chain's name behind its length, the nonce in a
fixed width and the message, so each part is found again
(`signBytes_injective`). The message keeps a canonical request and its
fee. It does not name the creator, whose account stands in a send alone:
creators of one send have one address, so they read it alike
(`Action.toRequest_congr`). Equal bytes are therefore signed for equal
chains, nonces, fees and requests (`unambiguous_of_bytesToSign`).
-/

namespace ChainKit

open Text

namespace Bns

/-- A transaction that its message keeps, before it is signed. -/
structure CanonicalUnsigned (t : Transaction) : Prop where
  /-- No fee, or a canonical one in tokens. -/
  fee : t.fee = none ∨ ∃ a : Amount, a.Canonical ∧ t.fee = some (.ofTokens a)
  request : CanonicalRequest (.ofChain t.creator.chainId) t.request

namespace Schema

variable {c d : Identity}

/-- The creator of a send stands in its message by the address alone. -/
theorem CashSend.addressOfIdentity_congr {s t : Send} {m : CashSend}
    (hchain : c.chainId = d.chainId) (hs : ofSend c s = .ok m) (ht : ofSend d t = .ok m) :
    Account.addressOfIdentity c = Account.addressOfIdentity d := by
  simp only [ofSend, Outcome.bind_eq_ok, Outcome.ite_error_eq_ok, not_not] at hs ht
  obtain ⟨source, hsource, _, -, -, _, -, _, -, hs⟩ := hs
  obtain ⟨source', hsource', _, -, -, _, -, _, -, ht⟩ := ht
  have hdata : source.data = source'.data :=
    congrArg CashSend.source ((Outcome.pure_eq_ok.1 hs).trans (Outcome.pure_eq_ok.1 ht).symm)
  obtain ⟨-, haccount⟩ := Outcome.ite_error_eq_ok.1 hsource
  obtain ⟨-, haccount'⟩ := Outcome.ite_error_eq_ok.1 hsource'
  have hsame : source = source' := by
    cases haccount
    cases haccount'
    rw [Account.mk.injEq, hchain]
    exact ⟨rfl, hdata⟩
  rw [Account.addressOfIdentity, Account.addressOfIdentity, hsource, hsource', hsame]

/-- **An action is read alike for all that it was written for** on a chain. -/
theorem Action.toRequest_congr {r s : Request} {action : Action} (hchain : c.chainId = d.chainId)
    (hr : ofRequest c r = .ok action) (hs : ofRequest d s = .ok action) :
    action.toRequest c = action.toRequest d := by
  cases action with
  | cashSend m =>
    -- only a send is written as one
    cases r <;> simp only [ofRequest, Outcome.map_eq_ok, Except.ok.injEq, reduceCtorEq, and_false,
      exists_false] at hr
    cases s <;> simp only [ofRequest, Outcome.map_eq_ok, Except.ok.injEq, reduceCtorEq, and_false,
      exists_false] at hs
    obtain ⟨_, hr, heq⟩ := hr
    obtain ⟨_, hs, heq'⟩ := hs
    cases heq
    cases heq'
    simp only [toRequest, CashSend.toSend, CashSend.addressOfIdentity_congr hchain hr hs, hchain]
  | _ => simp only [toRequest, hchain]

namespace Tx

/-- A transaction is written as the one action of its request, and its fee. -/
theorem ofTransaction_eq_ok {t : Transaction} {tx : Tx} (h : ofTransaction t = .ok tx) :
    ∃ action, Action.ofRequest t.creator t.request = .ok action ∧ tx.theAction = .ok action ∧
      feeOf t.creator t.fee = .ok tx.fees ∧
      ∀ m, action = .proposalCreate m → tx.proposalCreate = some m := by
  simp only [ofTransaction, Outcome.bind_eq_ok] at h
  obtain ⟨action, haction, fees, hfees, h⟩ := h
  cases Outcome.pure_eq_ok.1 h
  refine ⟨action, haction, ?_, hfees, ?_⟩
  · cases action <;> rfl
  · rintro m rfl
    rfl

/-- **A message is written for one fee and one request** on a chain, if they are canonical and the
length of the message is a word. -/
theorem eq_of_ofTransaction {t u : Transaction} {tx : Tx} (ht : CanonicalUnsigned t)
    (hu : CanonicalUnsigned u) (hchain : t.creator.chainId = u.creator.chainId)
    (htx : ofTransaction t = .ok tx) (hux : ofTransaction u = .ok tx)
    (hlength : (Wire.Message.encode tx).length < Wire.wordSize) :
    t.fee = u.fee ∧ t.request = u.request := by
  obtain ⟨action, haction, hthe, hfees, hproposal⟩ := ofTransaction_eq_ok htx
  obtain ⟨action', haction', hthe', hfees', hproposal'⟩ := ofTransaction_eq_ok hux
  cases hthe.symm.trans hthe'
  constructor
  · have hfee := toFee_of_feeOf ht.fee hfees rfl
    have hfee' := toFee_of_feeOf hu.fee hfees' rfl
    exact Except.ok.inj (hfee.symm.trans hfee')
  · have hword : ∀ m, action = .proposalCreate m → m.rawOption.length < Wire.wordSize :=
      fun m hm => Nat.lt_of_le_of_lt (length_rawOption_le (hproposal m hm)) hlength
    have hrequest := Action.toRequest_ofRequest ht.request haction hword
    have hrequest' := Action.toRequest_ofRequest hu.request haction' hword
    rw [Action.toRequest_congr hchain haction haction'] at hrequest
    exact Except.ok.inj (hrequest.symm.trans hrequest')

end Tx

end Schema

namespace Codec

/-- Eight bytes tell a nonce. -/
theorem eq_of_nonceBytes {nonce nonce' : Nonce}
    (h : Bytes.ofNat 8 nonce.toUInt64.toNat = Bytes.ofNat 8 nonce'.toUInt64.toNat) :
    nonce = nonce' := by
  have hvalue := congrArg Bytes.toNat h
  have hlt : nonce.toUInt64.toNat < 256 ^ 8 := nonce.toUInt64.toNat_lt
  have hlt' : nonce'.toUInt64.toNat < 256 ^ 8 := nonce'.toUInt64.toNat_lt
  rw [Bytes.toNat_ofNat_of_lt hlt, Bytes.toNat_ofNat_of_lt hlt'] at hvalue
  exact congrArg Int64.ofUInt64 (UInt64.toNat_inj.1 hvalue)

/-- **The parts of what is signed are found again**: the chain, the nonce and the message. -/
theorem signBytes_injective {message message' : Bytes} {chainId chainId' : ChainId}
    {nonce nonce' : Nonce} {b : Bytes} (h : signBytes message chainId nonce = .ok b)
    (h' : signBytes message' chainId' nonce' = .ok b) :
    chainId = chainId' ∧ nonce = nonce' ∧ message = message' := by
  simp only [signBytes, Outcome.ite_error_eq_ok, not_le] at h h'
  obtain ⟨hlt, h⟩ := h
  obtain ⟨hlt', h'⟩ := h'
  have heq := (Except.ok.inj h).trans (Except.ok.inj h').symm
  simp only [List.append_assoc, List.cons_append, List.append_cancel_left_eq, List.cons.injEq]
    at heq
  obtain ⟨hcount, heq⟩ := heq
  -- the length of the name is below 256, so that its byte tells it
  have hlength : (Utf8.encode chainId).length = (Utf8.encode chainId').length := by
    have := congrArg UInt8.toNat hcount
    rwa [UInt8.toNat_ofNat_of_lt' hlt, UInt8.toNat_ofNat_of_lt' hlt'] at this
  obtain ⟨hchain, heq⟩ := List.append_inj heq hlength
  obtain ⟨hnonce, hmessage⟩ := List.append_inj heq (by simp)
  exact ⟨Utf8.encode_injective hchain, eq_of_nonceBytes hnonce, hmessage⟩

/-- The bytes to sign are more than those of the message. -/
theorem length_le_of_signBytes {message b : Bytes} {chainId : ChainId} {nonce : Nonce}
    (h : signBytes message chainId nonce = .ok b) : message.length ≤ b.length := by
  obtain ⟨-, h⟩ := Outcome.ite_error_eq_ok.1 h
  rw [← Except.ok.inj h, List.length_append]
  omega

/-- **What is signed names the transaction**: for canonical transactions equal bytes belong to one
chain, one nonce, one fee and one request. The bytes are counted in a word of 64 bits. -/
theorem unambiguous_of_bytesToSign {t u : Transaction} {m n : Nonce} {job job' : SigningJob}
    (ht : CanonicalUnsigned t) (hu : CanonicalUnsigned u) (hjob : bytesToSign t m = .ok job)
    (hjob' : bytesToSign u n = .ok job') (hbytes : job.bytes = job'.bytes)
    (hlength : job.bytes.length < Wire.wordSize) :
    t.creator.chainId = u.creator.chainId ∧ m = n ∧ t.fee = u.fee ∧ t.request = u.request := by
  obtain ⟨tx, b, htx, hsign, rfl⟩ := bytesToSign_eq_ok.1 hjob
  obtain ⟨tx', b', htx', hsign', rfl⟩ := bytesToSign_eq_ok.1 hjob'
  cases hbytes
  obtain ⟨hchain, hnonce, hmessage⟩ := signBytes_injective hsign hsign'
  have hword := Nat.lt_of_le_of_lt (length_le_of_signBytes hsign) hlength
  -- the message is read as one transaction only
  have hread : Wire.Message.decode? (Wire.Message.encode tx) = some tx :=
    Wire.decode?_encode (by decide) hword
  have hread' : Wire.Message.decode? (Wire.Message.encode tx') = some tx' :=
    Wire.decode?_encode (by decide) (hmessage ▸ hword)
  rw [hmessage, hread'] at hread
  obtain ⟨hfee, hrequest⟩ := Schema.Tx.eq_of_ofTransaction ht hu hchain htx
    (Option.some.inj hread ▸ htx') hword
  exact ⟨hchain, hnonce, hfee, hrequest⟩

/-- A vote of the account of a key, without a fee. -/
def sampleVote (key : Bytes) : Transaction where
  creator := ⟨"iov-lovenet", .ed25519, key⟩
  fee := none
  request := .vote 5 .yes

/-- Two accounts sign the same 43 bytes for the same vote: these name no creator, but all that
they ask for. -/
theorem unambiguous_of_bytesToSign_sampleVote :
    CanonicalUnsigned (sampleVote [7]) ∧ CanonicalUnsigned (sampleVote [8]) ∧
      ∃ job, bytesToSign (sampleVote [7]) 11 = .ok job ∧ bytesToSign (sampleVote [8]) 11 = .ok job ∧
        job.bytes.length = 43 ∧
        (sampleVote [7]).creator.chainId = (sampleVote [8]).creator.chainId ∧ (11 : Nonce) = 11 ∧
        (sampleVote [7]).fee = (sampleVote [8]).fee ∧
        (sampleVote [7]).request = (sampleVote [8]).request := by
  have hcanonical (key : Bytes) : CanonicalUnsigned (sampleVote key) := ⟨.inl rfl, trivial⟩
  have hsame : bytesToSign (sampleVote [7]) 11 = bytesToSign (sampleVote [8]) 11 := rfl
  have hlength : (bytesToSign (sampleVote [7]) 11).map (fun job => job.bytes.length) = .ok 43 := by
    decide +kernel
  obtain ⟨job, hjob, h43⟩ := Outcome.map_eq_ok.1 hlength
  exact ⟨hcanonical _, hcanonical _, job, hjob, hsame ▸ hjob, h43,
    unambiguous_of_bytesToSign (hcanonical _) (hcanonical _) hjob (hsame ▸ hjob) rfl
      (by rw [h43]; decide)⟩

end Codec

end Bns

end ChainKit
