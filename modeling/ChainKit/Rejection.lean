/-!
# Rejections — why a codec refuses a transaction

A codec refuses a transaction because it breaks a rule of the chain, lacks
a field, asks for something the chain does not do, or cannot be read. The
rules of a chain and the flaws of its wire format are its own, hence the
type parameters; a rejection inside a nested structure names it.
-/

namespace ChainKit

/-- Why a codec refuses a transaction, for a chain with these rules and a
wire format with these flaws. -/
inductive Rejection (Rule Flaw : Type) where
  /-- A rule of the chain is broken. -/
  | invalid (rule : Rule)
  /-- A field is not there. -/
  | missing (field : String)
  /-- The transaction holds no known action. -/
  | unknownAction
  /-- The chain does not know requests of this kind. -/
  | unsupportedKind (kind : String)
  /-- The chain does not do this. -/
  | unsupportedOperation (operation : String)
  /-- The bytes cannot be read. -/
  | unreadable (flaw : Flaw)
  /-- The structure `part` is rejected. -/
  | within (part : String) (inner : Rejection Rule Flaw)
  deriving DecidableEq, Repr

namespace Rejection

variable {Rule Flaw : Type}

/-- The wording of a rejection, given the wording of rules and flaws. -/
def message (rule : Rule → String) (flaw : Flaw → String) : Rejection Rule Flaw → String
  | invalid r => s!"validation: {rule r}"
  | missing field => s!"missing {field}"
  | unknownAction => "unknown message type in transaction"
  | unsupportedKind kind => s!"unsupported transaction kind: {kind}"
  | unsupportedOperation operation => s!"unsupported operation: {operation}"
  | unreadable f => s!"decode: {flaw f}"
  | within part inner => s!"{part}: {inner.message rule flaw}"

/-- The innermost rejection. -/
def root : Rejection Rule Flaw → Rejection Rule Flaw
  | within _ inner => inner.root
  | r => r

end Rejection

end ChainKit
