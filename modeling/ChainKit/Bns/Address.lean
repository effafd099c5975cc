import ChainKit.Account
import ChainKit.Bns.Rejection
import ChainKit.Hash.Sha256

/-!
# BNS addresses

An account of the Blockchain Name Service is the first 20 bytes of a
digest of its key. It is spelled in bech32 behind a prefix that tells the
main network from all others.
-/

namespace ChainKit

open Text

namespace Bns

/-- The prefix of an address: one for the main network, one for the rest. -/
inductive Network where
  | main
  | test
  deriving DecidableEq, Repr

namespace Network

/-- The prefix as it stands in an address. -/
def hrp : Network → String
  | main => "iov"
  | test => "tiov"

/-- The network that a prefix names. -/
def ofHrp? (s : String) : Option Network :=
  if s = "iov" then some main else if s = "tiov" then some test else none

/-- The network that a chain belongs to. -/
def ofChain (chainId : ChainId) : Network :=
  if "iov-mainnet".toList.isPrefixOf chainId.toList then main else test

end Network

/-- An account: its network and its 20 bytes. -/
structure Account where
  network : Network
  data : Bytes
  deriving DecidableEq, Repr

namespace Account

/-- The number of bytes of an account. -/
def size : Nat := 20

/-- The address of 20 bytes on a network. -/
def address (network : Network) (data : Bytes) : Result Address :=
  if data.length ≠ size then .error (.invalid (.addressLength data.length))
  else .ok (Bech32.encode network.hrp data)

/-- The account that an address spells. -/
def ofAddress (address : Address) : Result Account :=
  match Bech32.decode address with
  | .error e => .error (.invalid (.notBech32 address e))
  | .ok (hrp, data) =>
    match Network.ofHrp? hrp with
    | none => .error (.invalid (.addressPrefix hrp))
    | some network =>
      if data.length ≠ size then .error (.invalid (.addressLength data.length))
      else .ok { network, data }

/-- Whether a text is an address. -/
def isAddress (s : String) : Bool := (ofAddress s).isOk

/-- The bytes of the account that an ed25519 key controls. -/
def bytesOfKey (key : Bytes) : Bytes :=
  (Sha256.digest (Utf8.encode "sigs/ed25519/" ++ key)).take size

/-- The account of an identity. -/
def ofIdentity (i : Identity) : Result Account :=
  if i.publicKey.algorithm ≠ .ed25519 then
    .error (.invalid (.unsupportedAlgorithm i.publicKey.algorithm))
  else .ok ⟨.ofChain i.chainId, bytesOfKey i.publicKey.data⟩

/-- The address of an identity. -/
def addressOfIdentity (i : Identity) : Result Address := do
  let account ← ofIdentity i
  address account.network account.data

/-- The bytes of an address of either network. -/
def bytesOfAddress (a : Address) : Result Bytes := (ofAddress a).map (·.data)

/-- The account of an address that has to belong to the chain's network. -/
def onChain (a : Address) (chainId : ChainId) : Result Account := do
  let account ← ofAddress a
  let expected := Network.ofChain chainId
  if account.network ≠ expected then
    .error (.invalid (.foreignAddress a account.network.hrp chainId expected.hrp))
  else return account

end Account

end Bns

end ChainKit
