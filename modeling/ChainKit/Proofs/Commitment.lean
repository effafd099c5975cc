import ChainKit.Proofs.Bns.RoundTrip
import ChainKit.Proofs.Ethereum.RoundTrip
import Mathlib
/-!
# What is posted commits to what was signed

A verifier has the posted bytes, the chain and, on the name service, the
nonce; the signer had the transaction. The verifier reads the message,
drops the signatures and writes it again (`signedBytes`). Both reach the
same bytes (`signedBytes_of_post`), whether or not the transaction itself
can be read back: nothing here asks for canonical amounts, addresses or
memos.
-/

namespace ChainKit

namespace Bns

namespace Codec

/-- The bytes that were signed, from what is posted: the message without its signatures. -/
def signedBytes (b : Bytes) (chainId : ChainId) (nonce : Nonce) : Result Bytes :=
  match Wire.Message.decode? (α := Schema.Tx) b with
  | some tx => signBytes (Wire.Message.encode { tx with signatures := [] }) chainId nonce
  | none => .error (.unreadable .malformed)

/-- A message without its signatures is the one that is signed. -/
theorem ofTransaction_of_ofSigned {t : SignedTransaction} {tx : Schema.Tx}
    (h : Schema.Tx.ofSigned t = .ok tx) :
    Schema.Tx.ofTransaction t.transaction = .ok { tx with signatures := [] } := by
  obtain ⟨action, fees, ss, haction, hfees, -, rfl⟩ := Schema.Tx.ofSigned_eq_ok h
  simp only [Schema.Tx.ofTransaction, haction, hfees, Outcome.ok_bind]
  -- no action writes signatures of its own
  cases action <;> rfl

theorem bytesToSign_eq_ok {t : Transaction} {nonce : Nonce} {job : SigningJob} :
    bytesToSign t nonce = .ok job ↔ ∃ tx bytes, Schema.Tx.ofTransaction t = .ok tx ∧
      signBytes (Wire.Message.encode tx) t.creator.chainId nonce = .ok bytes ∧
      ⟨bytes, .sha512⟩ = job := by
  simp only [bytesToSign, Outcome.bind_eq_ok]
  constructor
  · rintro ⟨tx, htx, bytes, hbytes, h⟩
    exact ⟨tx, bytes, htx, hbytes, Outcome.pure_eq_ok.1 h⟩
  · rintro ⟨tx, bytes, htx, hbytes, rfl⟩
    exact ⟨tx, htx, bytes, hbytes, rfl⟩

/-- A posted transaction of the name service commits to what its creator signed. -/
theorem signedBytes_of_bytesToPost {t : SignedTransaction} {b : Bytes} {job : SigningJob}
    (hpost : bytesToPost t = .ok b)
    (hsign : bytesToSign t.transaction t.primary.nonce = .ok job)
    (hlength : b.length < Wire.wordSize) :
    signedBytes b t.transaction.creator.chainId t.primary.nonce = .ok job.bytes := by
  -- the verifier's message is read, and the signer's is the same without signatures
  obtain ⟨tx, htx, -, hread⟩ := decode?_bytesToPost hpost hlength
  obtain ⟨bare, bytes, hbare, hbytes, rfl⟩ := bytesToSign_eq_ok.1 hsign
  have hsame : bare = { tx with signatures := [] } :=
    Except.ok.inj (hbare.symm.trans (ofTransaction_of_ofSigned htx))
  rw [hsame] at hbytes
  simp only [signedBytes, hread]
  exact hbytes

end Codec

end Bns

namespace Ethereum

namespace Codec

/-- The bytes that were signed, from what is posted: the message for the chain that its
signature names. -/
def signedBytes (b : Bytes) : Result Bytes := do
  let d ← SignedMessage.ofBytes b
  let (chain, _) ← splitV d.v
  return d.message.unsigned chain

/-- A posted message commits to what its creator signed, if the number that carries the chain and
the parity is a word. -/
theorem signedBytes_of_bytesToPost {o : Options} {t : SignedTransaction} {b : Bytes}
    {job : SigningJob} {chain : UInt64} {parts : SignatureParts}
    (hpost : bytesToPost o t = .ok b)
    (hsign : bytesToSign o t.transaction t.primary.nonce = .ok job)
    (hchain : Chain.number t.transaction.creator.chainId = .ok chain)
    (hparts : SignatureParts.ofBytes t.primary.data = .ok parts)
    (hword : 35 + 2 * chain.toNat + parts.recovery.toNat < 2 ^ 64)
    (hlength : b.length < 2 ^ 64) : signedBytes b = .ok job.bytes := by
  obtain ⟨chain', m, hchain', hm, rfl⟩ := bytesToSign_eq_ok.1 hsign
  cases hchain.symm.trans hchain'
  obtain ⟨v, hread, hsplit⟩ := ofBytes_bytesToPost hchain hm hparts hword hpost hlength
  simp only [signedBytes, hread, hsplit, Outcome.ok_bind]
  rfl

end Codec

end Ethereum

/-- **What is posted commits to what was signed**, with either codec and for every transaction
that can be signed and posted: the bytes to sign follow from those to post, the chain and the
nonce alone. The bytes are counted in a word of 64 bits. -/
theorem signedBytes_of_post :
    (∀ {t : SignedTransaction} {b : Bytes} {job : SigningJob},
      Bns.Codec.bytesToPost t = .ok b →
      Bns.Codec.bytesToSign t.transaction t.primary.nonce = .ok job →
      b.length < Wire.wordSize →
      Bns.Codec.signedBytes b t.transaction.creator.chainId t.primary.nonce = .ok job.bytes) ∧
    (∀ {o : Ethereum.Options} {t : SignedTransaction} {b : Bytes} {job : SigningJob}
      {chain : UInt64} {parts : Ethereum.SignatureParts},
      Ethereum.Codec.bytesToPost o t = .ok b →
      Ethereum.Codec.bytesToSign o t.transaction t.primary.nonce = .ok job →
      Ethereum.Chain.number t.transaction.creator.chainId = .ok chain →
      Ethereum.SignatureParts.ofBytes t.primary.data = .ok parts →
      35 + 2 * chain.toNat + parts.recovery.toNat < 2 ^ 64 →
      b.length < 2 ^ 64 →
      Ethereum.Codec.signedBytes b = .ok job.bytes) :=
  ⟨Bns.Codec.signedBytes_of_bytesToPost, Ethereum.Codec.signedBytes_of_bytesToPost⟩

open Ethereum.Codec in
/-- The proposal commits to the 193 bytes that its creator signed. So does the abort to what is
signed for it, although it is not read back. -/
theorem signedBytes_of_post_samples :
    (∃ b job, Bns.Codec.bytesToPost Bns.Codec.sampleProposal = .ok b ∧
      Bns.Codec.bytesToSign Bns.Codec.sampleProposal.transaction 11 = .ok job ∧
      job.bytes.length = 193 ∧ Bns.Codec.signedBytes b "iov-lovenet" 11 = .ok job.bytes) ∧
    (∃ b job, bytesToPost sampleOptions mislabelledAbort = .ok b ∧
      bytesToSign sampleOptions mislabelledAbort.transaction 26 = .ok job ∧
      signedBytes b = .ok job.bytes) := by
  constructor
  · have hsigned : (Bns.Codec.bytesToSign Bns.Codec.sampleProposal.transaction 11).map
        (fun job => job.bytes.length) = .ok 193 := by decide +kernel
    obtain ⟨b, hpost, h208⟩ := Bns.Codec.bytesToPost_sampleProposal
    obtain ⟨job, hsign, h193⟩ := Outcome.map_eq_ok.1 hsigned
    exact ⟨b, job, hpost, hsign, h193,
      signedBytes_of_post.1 hpost hsign (by rw [h208]; decide)⟩
  · obtain ⟨b, hpost, h140⟩ := bytesToPost_mislabelledAbort
    have hchain := number_sampleCreator .ed25519 abortKey
    have hmessage := ofTransaction_sampleSigned .ed25519 abortKey (.abortSwap sampleSwapId.data)
      abortParts ofRequest_sampleAbort
    have hparts : Ethereum.SignatureParts.ofBytes abortParts.toBytes = .ok abortParts :=
      Ethereum.SignatureParts.ofBytes_toBytes (by decide)
    have hsign := bytesToSign_eq_ok.2 ⟨_, _, hchain, hmessage, rfl⟩
    exact ⟨b, _, hpost, hsign, signedBytes_of_post.2 hpost hsign hchain hparts (by decide)
      (by rw [h140]; decide)⟩

end ChainKit
