import ChainKit.Bns.Field
import ChainKit.Bns.Schema.Accounts
import ChainKit.Transaction

/-!
# Usernames on the wire

A username needs its namespace when it is registered. Its targets name a
chain and an account there; neither name may be empty.
-/

namespace ChainKit

namespace Bns

namespace Schema

/-- The end of every username. -/
def usernameNamespace : List Char := ['*', 'i', 'o', 'v']

/-- Writes the targets of a username. -/
def ofTargets (targets : List ChainAddress) : List UsernameTarget :=
  targets.map fun t => { blockchainId := t.chainId, address := t.address }

/-- Reads one target, the one at `i`. -/
def toTarget (i : Nat) (t : UsernameTarget) : Result ChainAddress := do
  let chainId ← Field.text s!"targets.${i}.blockchainId" t.blockchainId
  let address ← Field.text s!"targets.${i}.address" t.address
  return { chainId, address }

/-- Reads the targets of a username. -/
def toTargets (targets : List UsernameTarget) : Result (List ChainAddress) :=
  mapIndexed toTarget 0 targets

/-- Writes the registration of a username. -/
def UsernameRegister.ofRegistration (username : String) (targets : List ChainAddress) :
    Result UsernameRegister :=
  if usernameNamespace.isSuffixOf username.toList then
    .ok { metadata := Metadata.current, username, targets := ofTargets targets }
  else .error (.invalid .usernameNamespace)

/-- Reads a registration: the username and its targets. -/
def UsernameRegister.toRegistration (m : UsernameRegister) :
    Result (String × List ChainAddress) := do
  let username ← Field.text "username" m.username
  let targets ← toTargets m.targets
  return (username, targets)

/-- Writes new targets of a username. -/
def UsernameChangeTargets.ofTargets (username : String) (targets : List ChainAddress) :
    UsernameChangeTargets :=
  { metadata := Metadata.current, username, newTargets := Schema.ofTargets targets }

/-- Reads new targets: the username and its targets. -/
def UsernameChangeTargets.toTargets (m : UsernameChangeTargets) :
    Result (String × List ChainAddress) := do
  let username ← Field.text "username" m.username
  let targets ← Schema.toTargets m.newTargets
  return (username, targets)

end Schema

end Bns

end ChainKit
