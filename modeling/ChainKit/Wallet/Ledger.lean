import ChainKit.Wallet.Basic

/-!
# Wallets on a device

The keys stay on a device; the wallet knows the index of each. It asks the
device for public keys and signatures, and gives up on a device that stays
silent.
-/

namespace ChainKit

open Text Keys

namespace Wallet

/-- What a device replies. -/
inductive Reply where
  | bytes (data : Bytes)
  | refusal (error : DeviceError)
  | silence
  deriving DecidableEq

/-- What is made of a reply; silence ends by a cancellation or in time. -/
def Reply.settle (isCancelled : Bool) : Reply → Result Bytes
  | bytes data => .ok data
  | refusal error => .error (.device error)
  | silence => .error (.device (if isCancelled then .cancelled else .timeout))

/-- A device: whether it is plugged in, and what it replies. -/
structure Device where
  isConnected : Bool
  publicKey : UInt32 → Reply
  sign : UInt32 → Bytes → Reply

/-- How many milliseconds a device may stay silent. -/
structure Patience where
  sign : UInt64 := 120000
  publicKey : UInt64 := 10000
  deriving DecidableEq, Repr

/-- A duration in milliseconds as logs show it: in seconds from one second
on, without superfluous zeros. -/
def inspectMilliseconds (n : Nat) : String :=
  if n = 0 then "0ns"
  else if n < 1000 then s!"{n}ms"
  else
    let digits := ((Nat.toDigits 10 (1000 + n % 1000)).drop 1).reverse.dropWhile (· = '0')
    if digits = [] then s!"{n / 1000}s"
    else Numeral.ofNat (n / 1000) ++ "." ++ String.ofList digits.reverse ++ "s"

/-- A wallet on a device. -/
structure Ledger where
  base : Base UInt32
  patience : Patience := {}
  device : Option Device := none

namespace Ledger

/-- The name of the kind. -/
def kind : String := "ledger"

/-- A wallet without identities. -/
def new (id : WalletId) (device : Device) (patience : Patience) : Ledger :=
  { base := { id }, patience, device := some device }

/-- The wallet on another device. -/
def connect (w : Ledger) (device : Device) : Ledger := { w with device := some device }

/-- The wallet without a device. -/
def disconnect (w : Ledger) : Ledger := { w with device := none }

/-- The device, if it is plugged in. -/
def connectedDevice (w : Ledger) : Result Device :=
  match w.device with
  | some device => if device.isConnected then .ok device else .error (.device .notConnected)
  | none => .error (.device .notConnected)

/-- The public key that a reply spells. -/
def keyOfReply (reply : Reply) : Result PublicKey := do
  let data ← reply.settle false
  if data.length = 32 then return ⟨.ed25519, data⟩
  else .error (.device (.communication s!"expected 32 byte pubkey, got {data.length}"))

/-- Creates the identity of an index. -/
def createIdentity (w : Ledger) (chainId : ChainId) : Source → Result (LocalIdentity × Ledger)
  | .index index => do
    let device ← w.connectedDevice
    let publicKey ← keyOfReply (device.publicKey index)
    let holder : LocalIdentity := { identity := ⟨chainId, publicKey⟩ }
    let book ← w.base.book.insert holder index
    return (holder, { w with base := { w.base with book } })
  | _ => .error (.unsupportedOptions "ledger wallet needs a simple address index")

/-- Signs for an identity; the device hashes as it likes. -/
def sign (w : Ledger) (isCancelled : Bool) (i : Identity) (message : Bytes) : Result Bytes := do
  let index ← w.base.book.get i
  let device ← w.connectedDevice
  (device.sign index message).settle isCancelled

/-- The index of every identity, under its local identifier. -/
def indices (w : Ledger) : TextMap UInt32 :=
  .ofList (w.base.book.entries.map fun e => (e.holder.id, e.data))

/-- Reads a wallet, which has no device yet. -/
def ofText (text : String) : Drawing Ledger := do
  let read (j : Json) : Option (Stored UInt32) := do
    Stored.ofFields? (← j.fields? 3) 2 "simpleAddressIndex" Json.uint32?
  let stored ← readDocument read text
  let book ← stored.book fun _ index => .ok index
  return { base := { id := ← stored.identifier, label := stored.label, book } }

def toJson (w : Ledger) : Json :=
  w.base.toJson [] "simpleAddressIndex" fun index => .integer index.toNat

/-- The wallet as logs show it. -/
def inspect (w : Ledger) : String :=
  "Ledger(LedgerWallet \x7b " ++ w.base.inspectFront ++
    ", config: LedgerConfig \x7b sign_timeout: " ++
    inspectMilliseconds w.patience.sign.toNat ++ ", pubkey_timeout: " ++
    inspectMilliseconds w.patience.publicKey.toNat ++ " \x7d, connected: " ++
    (if w.device.isSome then "true" else "false") ++ ", identities: " ++
    Numeral.ofNat w.base.book.entries.length ++ " \x7d)"

end Ledger

end Wallet

end ChainKit
