import ChainKit.Json.Record
import ChainKit.Text.Numeral

/-!
# Accounts — keys, the chains they belong to, and their signatures

An identity is a public key bound to one chain. A signature names the key
that made it and the nonce it was made for.
-/

namespace ChainKit

/-- The name of a chain, such as `ethereum-eip155-1`. -/
abbrev ChainId := String

/-- An account as its chain spells it. -/
abbrev Address := String

/-- The counter that keeps an account's transactions from being replayed. -/
abbrev Nonce := Int64

/-- A signature scheme. -/
inductive Algorithm where
  | ed25519
  | secp256k1
  deriving DecidableEq, Repr

namespace Algorithm

/-- The scheme's name. -/
def name : Algorithm → String
  | ed25519 => "ed25519"
  | secp256k1 => "secp256k1"

def toJson (a : Algorithm) : Json := .str a.name

def ofJson? : Json → Option Algorithm := Json.choice? name [ed25519, secp256k1]

end Algorithm

/-- A public key and the scheme it belongs to. -/
structure PublicKey where
  algorithm : Algorithm
  data : Bytes
  deriving DecidableEq, Repr

namespace PublicKey

/-- The key as logs show it. -/
def inspect (k : PublicKey) : String :=
  s!"PubkeyBundle({k.algorithm.name}:{Text.Hex.encode k.data})"

def toJson (k : PublicKey) : Json :=
  .record [("algo", k.algorithm.toJson), ("data", .hex k.data)]

def ofJson? (j : Json) : Option PublicKey := do
  let f ← j.fields? 2
  return {
    algorithm := ← f.required 0 "algo" Algorithm.ofJson?
    data := ← f.required 1 "data" Json.hex? }

end PublicKey

/-- A public key bound to one chain. -/
structure Identity where
  chainId : ChainId
  publicKey : PublicKey
  deriving DecidableEq, Repr

namespace Identity

def toJson (i : Identity) : Json :=
  .record [("chainId", .str i.chainId), ("pubkey", i.publicKey.toJson)]

def ofJson? (j : Json) : Option Identity := do
  let f ← j.fields? 2
  return {
    chainId := ← f.required 0 "chainId" Json.text?
    publicKey := ← f.required 1 "pubkey" PublicKey.ofJson? }

end Identity

/-- A signature with its key and the nonce it was made for. -/
structure Signature where
  nonce : Nonce
  publicKey : PublicKey
  data : Bytes
  deriving DecidableEq, Repr

namespace Signature

/-- The signature as logs show it. -/
def inspect (s : Signature) : String :=
  "FullSignature \x7b nonce: Nonce(" ++ Text.Numeral.ofInt s.nonce.toInt ++ "), pubkey: " ++
    s.publicKey.inspect ++ ", signature: " ++ Text.Quoted.text (Text.Hex.encode s.data) ++ " \x7d"

def toJson (s : Signature) : Json :=
  .record [("nonce", .integer s.nonce.toInt), ("pubkey", s.publicKey.toJson),
    ("signature", .hex s.data)]

def ofJson? (j : Json) : Option Signature := do
  let f ← j.fields? 3
  return {
    nonce := ← f.required 0 "nonce" Json.int64?
    publicKey := ← f.required 1 "pubkey" PublicKey.ofJson?
    data := ← f.required 2 "signature" Json.hex? }

end Signature

end ChainKit
