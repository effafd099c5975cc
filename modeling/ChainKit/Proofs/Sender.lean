import ChainKit.Proofs.Bns.Spender
import ChainKit.Proofs.Commitment
import ChainKit.Proofs.Ethereum.Readable
import ChainKit.Proofs.Ethereum.Unambiguous
import Mathlib
/-!
# Who a send is from

A send names its sender, and its transaction the creator who signs it. On
the wire there is room for one of them. The name service signs a send only
if both are one account, however that is spelled; Ethereum does not look at
the sender at all, writes neither of the two and reads the signer instead.
So a send that names another account is refused by the one codec and signed
by the other, as a send of the creator (`sender_of_bytesToSign`).
-/

namespace ChainKit

open Text

/-- The transaction with this sender, if it is a send. -/
def Transaction.sentFrom (sender : Address) (t : Transaction) : Transaction :=
  { t with request := Ethereum.withSender sender t.request }

/-- The transaction as that of another key on its chain. -/
def Transaction.madeBy (key : PublicKey) (t : Transaction) : Transaction :=
  { t with creator := ⟨t.creator.chainId, key⟩ }

variable {t : Transaction} {s : Send} {sender : Address} {nonce : Nonce} {job : SigningJob}

/-- A send from another account stays a send. -/
theorem Transaction.request_sentFrom (hsend : t.request = .send s) :
    (t.sentFrom sender).request = .send { s with sender } := by
  rw [sentFrom, hsend]
  rfl

namespace Bns

/-! ## The name service -/

/-- The account of an identity has an address. -/
theorem Account.exists_addressOfIdentity {i : Identity} {account : Account}
    (h : ofIdentity i = .ok account) :
    ∃ a, addressOfIdentity i = .ok a ∧ ofAddress a = .ok account := by
  have hlength : account.data.length = 20 := by
    rw [data_of_ofIdentity h, bytesOfKey, List.length_take, Sha256.length_digest]
    decide
  obtain ⟨a, ha⟩ := exists_address account.network hlength
  exact ⟨a, by rw [addressOfIdentity, h, Outcome.ok_bind, ha], ofAddress_address ha⟩

namespace Schema

variable {creator : Identity}

/-- A send is written if its sender is the account of the creator. -/
theorem CashSend.account_of_ofSend {m : CashSend} (h : ofSend creator s = .ok m) :
    ∃ account, Account.ofIdentity creator = .ok account ∧
      Account.ofAddress s.sender = .ok account := by
  simp only [ofSend, Outcome.bind_eq_ok, Outcome.ite_error_eq_ok, not_not] at h
  obtain ⟨account, haccount, _, hsender, rfl, -⟩ := h
  exact ⟨_, haccount, (Account.onChain_eq_ok.1 hsender).1⟩

/-- It does not matter how the sender is spelled. -/
theorem CashSend.ofSend_respelled {m : CashSend} (h : ofSend creator s = .ok m)
    (hsame : Account.ofAddress sender = Account.ofAddress s.sender) :
    ofSend creator { s with sender } = .ok m := by
  simp only [ofSend, Outcome.bind_eq_ok, Account.onChain_eq_ok, hsame] at h ⊢
  exact h

end Schema

namespace Codec

/-- A send is signed if its sender is the account of the creator. -/
theorem account_of_bytesToSign (hsend : t.request = .send s) (h : bytesToSign t nonce = .ok job) :
    ∃ account, Account.ofIdentity t.creator = .ok account ∧
      Account.ofAddress s.sender = .ok account := by
  obtain ⟨tx, -, htx, -⟩ := bytesToSign_eq_ok.1 h
  obtain ⟨action, haction, -⟩ := Outcome.bind_eq_ok.1 htx
  rw [hsend] at haction
  obtain ⟨m, hm, -⟩ := Outcome.map_eq_ok.1 haction
  exact Schema.CashSend.account_of_ofSend hm

/-- What is signed is the same for every spelling of the sender. -/
theorem bytesToSign_respelled (hsend : t.request = .send s) (h : bytesToSign t nonce = .ok job)
    (hsame : Account.ofAddress sender = Account.ofAddress s.sender) :
    bytesToSign (t.sentFrom sender) nonce = .ok job := by
  obtain ⟨tx, bytes, htx, hbytes, hjob⟩ := bytesToSign_eq_ok.1 h
  obtain ⟨action, haction, hrest⟩ := Outcome.bind_eq_ok.1 htx
  rw [hsend] at haction
  obtain ⟨m, hm, rfl⟩ := Outcome.map_eq_ok.1 haction
  have hother : Schema.Action.ofRequest t.creator (t.sentFrom sender).request =
      .ok (.cashSend m) := by
    rw [Transaction.request_sentFrom hsend]
    exact Outcome.map_eq_ok.2 ⟨m, Schema.CashSend.ofSend_respelled hm hsame, rfl⟩
  exact bytesToSign_eq_ok.2 ⟨tx, bytes, Outcome.bind_eq_ok.2 ⟨_, hother, hrest⟩, hbytes, hjob⟩

/-- **A send is signed for its sender's account and no other.** -/
theorem bytesToSign_sentFrom_iff (hsend : t.request = .send s)
    (h : bytesToSign t nonce = .ok job) :
    ∃ account a, Account.ofIdentity t.creator = .ok account ∧
      Account.addressOfIdentity t.creator = .ok a ∧ Account.ofAddress a = .ok account ∧
      Account.ofAddress s.sender = .ok account ∧
      ∀ sender, bytesToSign (t.sentFrom sender) nonce = .ok job ↔
        Account.ofAddress sender = .ok account := by
  obtain ⟨account, hidentity, hsender⟩ := account_of_bytesToSign hsend h
  obtain ⟨a, ha, hread⟩ := Account.exists_addressOfIdentity hidentity
  refine ⟨account, a, hidentity, ha, hread, hsender, fun sender => ?_⟩
  constructor
  · intro hother
    obtain ⟨account', hidentity', hsender'⟩ :=
      account_of_bytesToSign (Transaction.request_sentFrom hsend) hother
    cases hidentity.symm.trans hidentity'
    exact hsender'
  · intro hspelled
    exact bytesToSign_respelled hsend h (hspelled.trans hsender.symm)

end Codec

end Bns

namespace Ethereum

/-! ## Ethereum -/

variable {o : Options} {u : SignedTransaction} {b : Bytes} {chainId : ChainId}

/-- A message is the same for every sender. -/
theorem Message.ofTransaction_sentFrom (o : Options) (t : Transaction) (nonce : Nonce)
    (sender : Address) : ofTransaction o (t.sentFrom sender) nonce = ofTransaction o t nonce := by
  simp only [ofTransaction, Transaction.sentFrom, Payload.ofRequest_withSender]

/-- What is read as a send is from the account that it is read for. -/
theorem Payload.sender_of_toRequest {p : Payload} (h : p.toRequest o sender = .ok (.send s)) :
    s.sender = sender := by
  unfold toRequest at h
  split at h
  · -- a call of the contract for swaps is no send
    unfold toSwapRequest at h
    obtain ⟨call, -, h⟩ := Outcome.bind_eq_ok.1 h
    split at h <;> cases h
  · split at h
    · obtain ⟨_, hread, heq⟩ := Outcome.map_eq_ok.1 h
      cases heq
      obtain ⟨transfer, -, hread⟩ := Outcome.bind_eq_ok.1 hread
      cases transfer with
      | none => cases hread
      | some transfer =>
        cases Outcome.pure_eq_ok.1 hread
        rfl
    · obtain ⟨_, hread, heq⟩ := Outcome.map_eq_ok.1 h
      cases heq
      exact congrArg Send.sender (toEtherSend_eq_ok.1 hread).2

namespace Codec

/-- **What is signed is the same for every sender and every key of the creator.** -/
theorem bytesToSign_sentFrom (o : Options) (t : Transaction) (nonce : Nonce) (sender : Address)
    (key : PublicKey) :
    bytesToSign o ((t.sentFrom sender).madeBy key) nonce = bytesToSign o t nonce := by
  have hmessage : Message.ofTransaction o ((t.sentFrom sender).madeBy key) nonce =
      Message.ofTransaction o t nonce := Message.ofTransaction_sentFrom o t nonce sender
  rw [bytesToSign, hmessage]
  rfl

/-- What is posted is the same for every sender. -/
theorem bytesToPost_sentFrom (o : Options) (u : SignedTransaction) (sender : Address) :
    bytesToPost o { u with transaction := u.transaction.sentFrom sender } = bytesToPost o u := by
  simp only [bytesToPost, Message.ofTransaction_sentFrom]
  rfl

/-- **What is read as a send is from the account of the key that signed**, which is taken for its
creator's. -/
theorem signer_of_parse (h : parse o b chainId = .ok u) (hsend : u.transaction.request = .send s) :
    ∃ key : Secp256k1.Point, u.transaction.creator.publicKey = ⟨.secp256k1, key.uncompressed⟩ ∧
      Account.ofAddress s.sender = .ok (.ofPoint key) ∧
      ∀ a, addressOf u.transaction.creator = .ok a → a = s.sender := by
  obtain ⟨key, m, hcreator, -, hrequest⟩ := message_of_parse h
  rw [hsend] at hrequest
  have hsender := Payload.sender_of_toRequest hrequest
  rw [hcreator]
  refine ⟨key, rfl, by rw [hsender, Account.ofAddress_address], fun a ha => ?_⟩
  rw [address_of_addressOf ha rfl, hsender]

end Codec

end Ethereum

/-! ## Both codecs -/

/-- **The name service signs a send for the account of its creator only**, however the sender
spells that account. **Ethereum signs it for any sender**, and posts it: neither the sender nor the
key of the creator is among the bytes, and what is read is from the account of the key that
signed. -/
theorem sender_of_bytesToSign (o : Ethereum.Options) (t : Transaction) (nonce : Nonce) :
    (∀ s job, t.request = .send s → Bns.Codec.bytesToSign t nonce = .ok job →
      ∃ account a, Bns.Account.ofIdentity t.creator = .ok account ∧
        Bns.Account.addressOfIdentity t.creator = .ok a ∧ Bns.Account.ofAddress a = .ok account ∧
        Bns.Account.ofAddress s.sender = .ok account ∧
        ∀ sender, Bns.Codec.bytesToSign (t.sentFrom sender) nonce = .ok job ↔
          Bns.Account.ofAddress sender = .ok account) ∧
    (∀ sender key, Ethereum.Codec.bytesToSign o ((t.sentFrom sender).madeBy key) nonce =
      Ethereum.Codec.bytesToSign o t nonce) ∧
    (∀ (u : SignedTransaction) sender, Ethereum.Codec.bytesToPost o
        { u with transaction := u.transaction.sentFrom sender } =
      Ethereum.Codec.bytesToPost o u) ∧
    ∀ b chainId u s, Ethereum.Codec.parse o b chainId = .ok u →
      u.transaction.request = .send s →
      ∃ key : Secp256k1.Point,
        u.transaction.creator.publicKey = ⟨.secp256k1, key.uncompressed⟩ ∧
        Ethereum.Account.ofAddress s.sender = .ok (.ofPoint key) ∧
        ∀ a, Ethereum.Codec.addressOf u.transaction.creator = .ok a → a = s.sender :=
  ⟨fun _ _ hsend h => Bns.Codec.bytesToSign_sentFrom_iff hsend h,
    fun sender key => Ethereum.Codec.bytesToSign_sentFrom o t nonce sender key,
    fun u sender => Ethereum.Codec.bytesToPost_sentFrom o u sender,
    fun _ _ _ _ h hsend => Ethereum.Codec.signer_of_parse h hsend⟩

/-- The send of the name service is signed. -/
theorem bytesToSign_sampleSend :
    ∃ job, Bns.Codec.bytesToSign Bns.Codec.sampleSend.transaction 11 = .ok job := by
  have hsigned : (Bns.Codec.bytesToSign Bns.Codec.sampleSend.transaction 11).toOption.isSome =
      true := by decide +kernel
  obtain ⟨job, hjob⟩ := Option.isSome_iff_exists.1 hsigned
  exact ⟨job, Outcome.toOption_eq_some.1 hjob⟩

open Ethereum.Codec in
/-- The transfer from the account that receives it, signed by the key it was from. -/
def foreignTransfer : SignedTransaction :=
  { signedTransfer with
    transaction := signedTransfer.transaction.sentFrom sampleRecipient.address }

open Ethereum.Codec in
/-- The transfer is posted in the name of its recipient and read in the name of its key. -/
theorem parse_foreignTransfer :
    ∃ b u, bytesToPost sampleOptions foreignTransfer = .ok b ∧
      parse sampleOptions b "ethereum-eip155-5777" = .ok u ∧
      u.transaction.request = .send sampleTransfer := by
  obtain ⟨b, u, hpost, hparse, hrequest⟩ := parse_signedTransfer
  exact ⟨b, u, by rw [foreignTransfer, bytesToPost_sentFrom, hpost], hparse, hrequest⟩

open Ethereum.Codec in
/-- A send of the name service is signed as before if its sender is spelled in capitals. A transfer
that is posted as that of its recipient is read as one of its key. -/
theorem sender_of_bytesToSign_samples :
    (∃ job, Bns.Codec.bytesToSign Bns.Codec.sampleSend.transaction 11 = .ok job ∧
      Bns.Codec.bytesToSign (Bns.Codec.sampleSend.transaction.sentFrom
        "TIOV1SS3G0ZLVURG862W5TE0K0H6SCUXQ5Y7LURLFDL") 11 = .ok job) ∧
    ∃ b u, bytesToPost sampleOptions foreignTransfer = .ok b ∧
      parse sampleOptions b "ethereum-eip155-5777" = .ok u ∧
      ∃ s, u.transaction.request = .send s ∧
        ∀ a, addressOf u.transaction.creator = .ok a → a = s.sender := by
  obtain ⟨job, hjob⟩ := bytesToSign_sampleSend
  obtain ⟨b, u, hpost, hparse, hrequest⟩ := parse_foreignTransfer
  obtain ⟨account, a, -, -, -, hsender, hspelled⟩ :=
    (sender_of_bytesToSign sampleOptions Bns.Codec.sampleSend.transaction 11).1 _ job rfl hjob
  obtain ⟨-, -, -, hread⟩ := sender_of_bytesToSign sampleOptions foreignTransfer.transaction 26
  obtain ⟨key, -, -, hcreator⟩ := hread b _ u _ hparse hrequest
  refine ⟨⟨job, hjob, (hspelled _).2 ?_⟩, b, u, hpost, hparse, _, hrequest, hcreator⟩
  rw [← hsender]
  decide +kernel

open Ethereum.Codec in
/-- Ethereum signs a transfer whose sender is not the account of its creator, for the same bytes as
one whose sender is. The name service refuses such a send. -/
theorem bytesToSign_foreignTransfer :
    (∃ job, bytesToSign sampleOptions foreignTransfer.transaction 26 = .ok job ∧
      bytesToSign sampleOptions signedTransfer.transaction 26 = .ok job) ∧
    foreignTransfer.transaction.request =
      .send { sampleTransfer with sender := sampleRecipient.address } ∧
    (∃ a, addressOf foreignTransfer.transaction.creator = .ok a ∧
      Ethereum.Account.ofAddress a ≠ .ok sampleRecipient) ∧
    Bns.Codec.bytesToSign (Bns.Codec.sampleSend.transaction.sentFrom
      (Bns.Codec.sampleElector 1)) 11 = .error (.invalid .senderNotCreator) := by
  have hsigned := bytesToSign_sampleSigned .secp256k1 transferKey _ transferParts
    ofRequest_sampleTransfer
  have hforeign := (bytesToSign_sentFrom sampleOptions signedTransfer.transaction 26
    sampleRecipient.address signedTransfer.transaction.creator.publicKey).trans hsigned
  have hother : Ethereum.Account.ofPoint transferKey ≠ sampleRecipient := by
    have hdata : (Keccak256.digest transferKey.coordinates).drop 12 ≠ sampleRecipient.data := by
      rw [Keccak256.digest_eq_gridDigest]
      decide +kernel
    exact fun h => hdata (congrArg Ethereum.Account.data h)
  refine ⟨⟨_, hforeign, hsigned⟩, rfl, ⟨_, canonicalSend_sampleTransfer.sender, ?_⟩,
    by decide +kernel⟩
  rw [sampleTransfer, Ethereum.Account.ofAddress_address]
  exact fun h => hother (Except.ok.inj h)

end ChainKit
