import ChainKit.Ethereum.Word
import ChainKit.Swap.Basic
import ChainKit.Text.Utf8

/-!
# Contract calls — token transfers and swaps

A call starts with the four bytes that select a method; its arguments
follow, one word each. Two contracts are known: tokens, of which only the
transfer is used, and the one for swaps of ether.
-/

namespace ChainKit

open Text

namespace Ethereum

namespace Selector

/-- The selector of a method: the front of a digest of its signature. -/
def ofSignature (signature : String) : Bytes :=
  (Keccak256.digest (Utf8.encode signature)).take 4

/-- The selector of `transfer(address,uint256)`. -/
def transfer : Bytes := [0xA9, 0x05, 0x9C, 0xBB]

/-- The selector of `open(bytes32,address,bytes32,uint256)`. -/
def offer : Bytes := [0x0E, 0xED, 0x85, 0x48]

/-- The selector of `claim(bytes32,bytes32)`. -/
def claim : Bytes := [0x84, 0xCC, 0x9D, 0xFB]

/-- The selector of `abort(bytes32)`. -/
def abort : Bytes := [0x09, 0xD6, 0xCE, 0x0E]

/-- The arguments of a call of the method. -/
def arguments? (selector data : Bytes) : Option Bytes :=
  if data.take 4 = selector then some (data.drop 4) else none

end Selector

/-- A transfer of tokens. -/
structure TokenTransfer where
  recipient : Account
  quantity : Word
  deriving DecidableEq

namespace TokenTransfer

/-- The transfer to an address. -/
def ofAddress (recipient : Address) (quantity : Nat) : Except AbiError TokenTransfer := do
  let recipient ← Account.ofAddress recipient
  let quantity ← Word.ofUint256 quantity
  return { recipient, quantity }

/-- The data of the call. -/
def encode (t : TokenTransfer) : Bytes :=
  Selector.transfer ++ (Word.ofAccount t.recipient).data ++ t.quantity.data

/-- The transfer that call data spells; none if another method is called. -/
def decode (data : Bytes) : Except AbiError (Option TokenTransfer) :=
  match Selector.arguments? Selector.transfer data with
  | none => .ok none
  | some arguments => do
    let words ← Word.list 2 arguments
    let recipient ← words[0].toAccount
    return some { recipient, quantity := words[1] }

end TokenTransfer

/-- A call of the contract for swaps. -/
inductive SwapCall where
  /-- Opens a swap. -/
  | offer (id : Word) (recipient : Account) (hash : Word) (height : UInt64)
  /-- Claims a swap. -/
  | claim (id preimage : Word)
  /-- Takes a swap back. -/
  | abort (id : Word)
  deriving DecidableEq

namespace SwapCall

/-- The call that opens a swap for an address. -/
def ofOffer (id : SwapId) (recipient : Address) (hash : Bytes) (height : UInt64) :
    Except AbiError SwapCall := do
  let id ← Word.ofField "swap id" id
  let recipient ← Account.ofAddress recipient
  let hash ← Word.ofField "hash" hash
  return offer id recipient hash height

/-- The call that claims a swap. -/
def ofClaim (id : SwapId) (preimage : Bytes) : Except AbiError SwapCall := do
  let id ← Word.ofField "swap id" id
  let preimage ← Word.ofField "preimage" preimage
  return claim id preimage

/-- The call that takes a swap back. -/
def ofAbort (id : SwapId) : Except AbiError SwapCall := do
  let id ← Word.ofField "swap id" id
  return abort id

/-- The data of the call. -/
def encode : SwapCall → Bytes
  | offer id recipient hash height =>
    Selector.offer ++ id.data ++ (Word.ofAccount recipient).data ++ hash.data ++
      (Word.ofUint64 height).data
  | claim id preimage => Selector.claim ++ id.data ++ preimage.data
  | abort id => Selector.abort ++ id.data

/-- Reads the arguments of an offer. -/
def offerOf (arguments : Bytes) : Except AbiError SwapCall := do
  let words ← Word.list 4 arguments
  let recipient ← words[1].toAccount
  let height := words[3].toNat
  if height < UInt64.size then return offer words[0] recipient words[2] (UInt64.ofNat height)
  else .error (.startOutOfRange height)

/-- Reads the arguments of a claim. -/
def claimOf (arguments : Bytes) : Except AbiError SwapCall := do
  let words ← Word.list 2 arguments
  return claim words[0] words[1]

/-- Reads the arguments of an abort. -/
def abortOf (arguments : Bytes) : Except AbiError SwapCall := do
  let words ← Word.list 1 arguments
  return abort words[0]

/-- The call that data spells; none if another method is called. -/
def decode (data : Bytes) : Except AbiError (Option SwapCall) :=
  match Selector.arguments? Selector.offer data with
  | some arguments => (offerOf arguments).map some
  | none =>
    match Selector.arguments? Selector.claim data with
    | some arguments => (claimOf arguments).map some
    | none =>
      match Selector.arguments? Selector.abort data with
      | some arguments => (abortOf arguments).map some
      | none => .ok none

end SwapCall

end Ethereum

end ChainKit
