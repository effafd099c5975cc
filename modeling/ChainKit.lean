import ChainKit.Bns.Codec
import ChainKit.Bns.Schema.Catalogue
import ChainKit.Bns.State
import ChainKit.Bytes.Lemmas
import ChainKit.Ethereum.Arguments
import ChainKit.Ethereum.Codec
import ChainKit.Keyring
import ChainKit.Proofs.Bns.Network
import ChainKit.Proofs.Bns.NumericId
import ChainKit.Proofs.Bns.Readable
import ChainKit.Proofs.Bns.Spender
import ChainKit.Proofs.Bns.Unambiguous
import ChainKit.Proofs.Bns.Writable
import ChainKit.Proofs.Commitment
import ChainKit.Proofs.Ethereum.Canonical
import ChainKit.Proofs.Ethereum.Readable
import ChainKit.Proofs.Ethereum.Unambiguous
import ChainKit.Proofs.Ethereum.Writable
import ChainKit.Proofs.Keyring.Unique
import ChainKit.Proofs.Quantity
import ChainKit.Proofs.Swap.Conservation
import ChainKit.Proofs.Swap.Isolation
import ChainKit.Proofs.Swap.Order
import ChainKit.Swap.Keyed
import ChainKit.Swap.Merger
import ChainKit.Proofs.Bns.Catalogue
import ChainKit.Proofs.Bns.Electors
import ChainKit.Proofs.Bns.Spelling
import ChainKit.Proofs.Bns.Username
import ChainKit.Proofs.Bns.Validators
import ChainKit.Proofs.Decimal.Atomics
import ChainKit.Proofs.Decimal.Display
import ChainKit.Proofs.Ethereum.Arguments
import ChainKit.Proofs.Ethereum.Checksum
import ChainKit.Proofs.Ethereum.ContractCall
import ChainKit.Proofs.Ethereum.Guarded
import ChainKit.Proofs.Ethereum.Memo
import ChainKit.Proofs.Ethereum.Storable
import ChainKit.Proofs.Ethereum.Strings
import ChainKit.Proofs.Ethereum.Unit
import ChainKit.Proofs.Keyring.Loading
import ChainKit.Proofs.Keys.Derivation
import ChainKit.Proofs.Keys.Grammar
import ChainKit.Proofs.Sender
import ChainKit.Proofs.Swap.Fifo
import ChainKit.Proofs.Wallet.Backing
import ChainKit.Proofs.Wallet.Bookkeeping
