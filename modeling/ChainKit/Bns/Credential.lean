import ChainKit.Bns.Field
import ChainKit.Bns.Schema.Basic

/-!
# Credentials — keys and signatures on the wire

Keys and signatures stand under the name of their scheme; only ed25519 is
known. A signature's place in its account's sequence is the nonce.
-/

namespace ChainKit

namespace Bns

namespace Schema

/-- The key on the wire. -/
def KeyData.ofPublicKey (k : PublicKey) : Result KeyData :=
  match k.algorithm with
  | .ed25519 => .ok ⟨some k.data⟩
  | other => .error (.invalid (.unsupportedAlgorithm other))

/-- The key of a message that holds one. -/
def KeyData.toPublicKey (k : KeyData) : Result PublicKey :=
  match k.ed25519 with
  | some data => .ok ⟨.ed25519, data⟩
  | none => .error (.invalid .unknownKeyAlgorithm)

/-- The bytes of a message that holds a signature. -/
def SignatureData.toBytes (s : SignatureData) : Result Bytes :=
  match s.ed25519 with
  | some data => .ok data
  | none => .error (.invalid .unknownSignatureAlgorithm)

/-- The signature on the wire. -/
def StdSignature.ofSignature (s : Signature) : Result StdSignature := do
  let key ← KeyData.ofPublicKey s.publicKey
  return { sequence := s.nonce, publicKey := some key, signature := some ⟨some s.data⟩ }

/-- The signature of a message that is complete. -/
def StdSignature.toSignature (s : StdSignature) : Result Signature := do
  let publicKey ← (← Field.present "pubkey" s.publicKey).toPublicKey
  let data ← (← Field.present "signature" s.signature).toBytes
  return { nonce := s.sequence, publicKey, data }

end Schema

end Bns

end ChainKit
