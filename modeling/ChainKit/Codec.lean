import ChainKit.Hash.Prehash
import ChainKit.Rejection
import ChainKit.Transaction

/-!
# Codecs — what every chain can do with a transaction

A chain's codec writes what is signed and what is posted, names a posted
transaction and reads it back, and knows the addresses of its accounts.
-/

namespace ChainKit

/-- What a chain can do with a transaction; its rules and the flaws of its
wire format are its own. -/
structure Codec (Rule Flaw : Type) where
  /-- The wording of a rejection. -/
  message : Rejection Rule Flaw → String
  /-- What the creator signs. -/
  bytesToSign : Transaction → Nonce → Except (Rejection Rule Flaw) SigningJob
  /-- What is posted. -/
  bytesToPost : SignedTransaction → Except (Rejection Rule Flaw) Bytes
  /-- The identifier of what is posted. -/
  identifier : SignedTransaction → Except (Rejection Rule Flaw) String
  /-- Reads what was posted to a chain. -/
  parse : Bytes → ChainId → Except (Rejection Rule Flaw) SignedTransaction
  /-- The address of an identity. -/
  addressOf : Identity → Except (Rejection Rule Flaw) Address
  /-- Whether a text is an address. -/
  isAddress : String → Bool

end ChainKit
