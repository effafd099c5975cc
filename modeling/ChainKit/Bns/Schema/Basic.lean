import ChainKit.Wire.Message

/-!
# The wire schema — coins, keys and signatures

Every message carries the version of the schema it was written for. Coins
are split into whole tokens and billionths.
-/

namespace ChainKit

namespace Bns

namespace Schema

open Wire

/-- The version of the schema that a message was written for. -/
structure Metadata where
  schema : Int32 := 0
  deriving DecidableEq

instance : Message Metadata where
  records m := int32 1 m.schema
  ofFields? f := do
    return {
      schema := ← f.int32? 1 }

/-- The version that messages are written for. -/
def Metadata.current : Option Metadata := some ⟨1⟩

/-- A quantity of a token: whole tokens and billionths of one. -/
structure Coin where
  whole : Int64 := 0
  fractional : Int64 := 0
  ticker : String := ""
  deriving DecidableEq

instance : Message Coin where
  records m := int64 1 m.whole ++ int64 2 m.fractional ++ text 3 m.ticker
  ofFields? f := do
    return {
      whole := ← f.int64? 1
      fractional := ← f.int64? 2
      ticker := ← f.text? 3 }

/-- A public key under the name of its scheme. -/
structure KeyData where
  ed25519 : Option Bytes := none
  deriving DecidableEq

instance : Message KeyData where
  records m := optionalBytes 1 m.ed25519
  ofFields? f := do
    return {
      ed25519 := ← f.optionalBytes? 1 }

/-- The bytes of a signature under the name of its scheme. -/
structure SignatureData where
  ed25519 : Option Bytes := none
  deriving DecidableEq

instance : Message SignatureData where
  records m := optionalBytes 1 m.ed25519
  ofFields? f := do
    return {
      ed25519 := ← f.optionalBytes? 1 }

/-- A signature with its key and its place in the account's sequence. -/
structure StdSignature where
  sequence : Int64 := 0
  publicKey : Option KeyData := none
  signature : Option SignatureData := none
  deriving DecidableEq

instance : Message StdSignature where
  records m := int64 1 m.sequence ++ message 2 m.publicKey ++ message 4 m.signature
  ofFields? f := do
    return {
      sequence := ← f.int64? 1
      publicKey := ← f.message? 2
      signature := ← f.message? 4 }

end Schema

end Bns

end ChainKit
