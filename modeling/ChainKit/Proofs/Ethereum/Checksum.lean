import ChainKit.Proofs.Ethereum.Address
import Mathlib
/-!
# The case of letters, under any digest

Which letters of an address are raised is up to a digest of its digits in
lowercase. Whatever digest that is, a check of the bytes and a reading of
the digits, made one after the other, accept `0x` and forty digits of an
account whose letters have one case or the case that the digest gives
them, and no other text (`accepts_iff`, `ofAddress_eq_ok`). With Keccak-256
the two steps are the reading of addresses (`ofAddress_keccak256`).
-/

namespace ChainKit

open Text

namespace Ethereum

/-- A rule for the case of letters: a digest of 32 bytes. -/
structure Checksum where
  digest : Bytes → Bytes
  length_digest : ∀ message, (digest message).length = 32

namespace Checksum

variable {C : Checksum} {s : Address} {a : Account} {cs : List Char}

/-! ## The two steps -/

/-- The rule that addresses follow. -/
def keccak256 : Checksum := ⟨Keccak256.digest, Keccak256.length_digest⟩

/-- The digits of an account, raised by the digest of their lowercase. -/
def digits (C : Checksum) (a : Account) : List Char :=
  let lower := Hex.digits a.data
  Account.raise lower (Account.nibbles (C.digest (lower.map fun c => UInt8.ofNat c.toNat)))

/-- The checksummed address of an account. -/
def address (C : Checksum) (a : Account) : Address := String.ofList ('0' :: 'x' :: C.digits a)

/-- The characters behind `0x`. -/
def body? (s : Address) : Option (List Char) :=
  match s.toList with
  | '0' :: 'x' :: body => some body
  | _ => none

/-- The account that the characters behind `0x` spell, whatever the case of letters. -/
def read (s : Address) : Except AbiError Account :=
  match (body? s).bind Account.ofDigits? with
  | some account => .ok account
  | none => .error .address

/-- A byte that is an uppercase letter. -/
def isUpper (b : UInt8) : Bool := 0x41 ≤ b && b ≤ 0x5A

/-- A byte that is a lowercase letter. -/
def isLower (b : UInt8) : Bool := 0x61 ≤ b && b ≤ 0x7A

/-- The check of a text: forty bytes that are digits, with letters of one case or as in the
checksummed address. -/
def accepts (C : Checksum) (s : Address) : Bool :=
  match body? s with
  | none => false
  | some body =>
    let bytes := Utf8.encode (String.ofList body)
    if bytes.length ≠ 40 || !bytes.all (fun b => (Hex.value? b).isSome) then false
    else if bytes.all (fun b => !isUpper b) || bytes.all (fun b => !isLower b) then true
    else match read s with
      | .ok account => C.address account = s
      | .error _ => false

/-- The account of a text that passes the check. -/
def ofAddress (C : Checksum) (s : Address) : Except AbiError Account :=
  if C.accepts s then read s else .error .address

/-- The text is `0x` and forty digits of the account, none of them in uppercase, none in
lowercase, or all in the case that the digest gives them. -/
def Spelled (C : Checksum) (s : Address) (a : Account) : Prop :=
  ∃ body, s.toList = '0' :: 'x' :: body ∧ body.length = 40 ∧ Hex.Spells body a.data ∧
    ((∀ c ∈ body, c.isUpper = false) ∨ (∀ c ∈ body, c.isLower = false) ∨ body = C.digits a)

/-! ## Bytes and characters -/

theorem isUpper_ofNat : ∀ c : Char, c.toNat < 128 →
    isUpper (UInt8.ofNat c.toNat) = c.isUpper :=
  Utf8.forall_ascii (by decide +kernel)

theorem isLower_ofNat : ∀ c : Char, c.toNat < 128 →
    isLower (UInt8.ofNat c.toNat) = c.isLower :=
  Utf8.forall_ascii (by decide +kernel)

/-- Bytes that are digits are those of characters that are. -/
theorem isSome_valueOf?_iff : (∀ b ∈ Utf8.encode (String.ofList cs), (Hex.value? b).isSome) ↔
    ∀ c ∈ cs, (Hex.valueOf? c).isSome := by
  constructor
  · intro h
    have hascii : ∀ b ∈ Utf8.encode (String.ofList cs), b.toNat < 128 := by
      intro b hb
      obtain ⟨n, hn⟩ := Option.isSome_iff_exists.1 (h b hb)
      exact (Hex.value?_eq_some hn).2
    have hcs := Utf8.toList_of_encode hascii
    rw [String.toList_ofList] at hcs
    intro c hc
    rw [hcs] at hc
    obtain ⟨b, hb, rfl⟩ := List.mem_map.1 hc
    obtain ⟨n, hn⟩ := Option.isSome_iff_exists.1 (h b hb)
    rw [Hex.valueOf?_of_byte hn, Option.isSome_some]
  · intro h
    have hvalue : ∀ c ∈ cs, c.toNat < 128 ∧ (Hex.value? (UInt8.ofNat c.toNat)).isSome := by
      intro c hc
      obtain ⟨n, hn⟩ := Option.isSome_iff_exists.1 (h c hc)
      obtain ⟨hlt, hbyte⟩ := Hex.value?_of_valueOf? hn
      exact ⟨hlt, by rw [hbyte, Option.isSome_some]⟩
    rw [Utf8.encode_ofList_of_lt fun c hc => (hvalue c hc).1]
    intro b hb
    obtain ⟨c, hc, rfl⟩ := List.mem_map.1 hb
    exact (hvalue c hc).2

theorem length_of_spells (h : Hex.Spells cs a.data) : cs.length = 40 := by
  rw [h.ascii.2, a.length_data]

/-- Forty bytes are digits exactly if they spell an account. -/
theorem exists_spells_iff : (∃ a : Account, Hex.Spells cs a.data) ↔
    (Utf8.encode (String.ofList cs)).length = 40 ∧
      ∀ b ∈ Utf8.encode (String.ofList cs), (Hex.value? b).isSome := by
  rw [isSome_valueOf?_iff]
  constructor
  · rintro ⟨a, h⟩
    rw [Utf8.encode_ofList_of_lt h.ascii.1, List.length_map, length_of_spells h]
    exact ⟨rfl, h.isSome_valueOf?⟩
  · rintro ⟨hlength, hdigits⟩
    have hascii : ∀ c ∈ cs, c.toNat < 128 := by
      intro c hc
      obtain ⟨n, hn⟩ := Option.isSome_iff_exists.1 (hdigits c hc)
      exact (Hex.value?_of_valueOf? hn).1
    rw [Utf8.encode_ofList_of_lt hascii, List.length_map] at hlength
    obtain ⟨data, hdata, hspells⟩ := Hex.exists_spells (by omega : cs.length = 2 * 20) hdigits
    exact ⟨⟨data, hdata⟩, hspells⟩

/-! ## Reading -/

theorem body?_eq_some {body : List Char} : body? s = some body ↔
    s.toList = '0' :: 'x' :: body := by
  unfold body?
  split
  · rename_i cs hcs
    rw [hcs, Option.some.injEq, List.cons.injEq, List.cons.injEq]
    simp only [true_and]
  · rename_i hne
    constructor
    · rintro ⟨⟩
    · intro h
      exact absurd h (hne _)

/-- What is read is the account that the digits behind `0x` spell. -/
theorem read_eq_ok : read s = .ok a ↔
    ∃ body, s.toList = '0' :: 'x' :: body ∧ Hex.Spells body a.data := by
  have hread : read s = .ok a ↔ (body? s).bind Account.ofDigits? = some a := by
    unfold read
    split <;> rename_i h <;> simp [h]
  simp only [hread, Option.bind_eq_some_iff, body?_eq_some, Account.ofDigits?_eq_some]

/-- A text is read as the account that it spells. -/
theorem Spelled.read (h : C.Spelled s a) : read s = .ok a := by
  obtain ⟨body, hbody, -, hspells, -⟩ := h
  exact read_eq_ok.2 ⟨body, hbody, hspells⟩

/-- The digits of an account spell its bytes, whichever letters the digest raises. -/
theorem spells_digits (C : Checksum) (a : Account) : Hex.Spells (C.digits a) a.data := by
  refine Account.spells_raise a.data ?_
  rw [Account.length_nibbles, C.length_digest, a.length_data]
  omega

theorem toList_address (C : Checksum) (a : Account) :
    (C.address a).toList = '0' :: 'x' :: C.digits a := by
  rw [address, String.toList_ofList]

/-- The checksummed address spells its account. -/
theorem spelled_address (C : Checksum) (a : Account) : C.Spelled (C.address a) a := by
  have hspells := C.spells_digits a
  exact ⟨C.digits a, C.toList_address a, length_of_spells hspells, hspells, .inr (.inr rfl)⟩

/-- The letters of digits have the case that their bytes have. -/
theorem all_bytes_iff {p : UInt8 → Bool} {q : Char → Bool}
    (h : ∀ c : Char, c.toNat < 128 → p (UInt8.ofNat c.toNat) = q c)
    (hascii : ∀ c ∈ cs, c.toNat < 128) :
    (Utf8.encode (String.ofList cs)).all (fun b => !p b) = true ↔ ∀ c ∈ cs, q c = false := by
  rw [Utf8.encode_ofList_of_lt hascii, List.all_map, List.all_eq_true]
  refine forall₂_congr fun c hc => ?_
  rw [Function.comp_apply, h c (hascii c hc), Bool.not_eq_true']

/-- A text that passes the check is `0x` and digits of an account. -/
theorem exists_spells_of_accepts (h : C.accepts s = true) :
    ∃ body, ∃ a : Account, s.toList = '0' :: 'x' :: body ∧ Hex.Spells body a.data := by
  unfold accepts at h
  split at h
  · cases h
  · rename_i body hbody
    dsimp only at h
    split at h
    · cases h
    · rename_i hdigits
      simp only [ne_eq, Bool.or_eq_true, decide_eq_true_eq, Bool.not_eq_true', not_or, not_not,
        Bool.not_eq_false, List.all_eq_true] at hdigits
      obtain ⟨a, ha⟩ := exists_spells_iff.2 hdigits
      exact ⟨body, a, body?_eq_some.1 hbody, ha⟩

/-- Digits of an account pass the check if the case of their letters does. -/
theorem accepts_of_spells {body : List Char} (hbody : s.toList = '0' :: 'x' :: body)
    (h : Hex.Spells body a.data) : C.accepts s = true ↔
      (∀ c ∈ body, c.isUpper = false) ∨ (∀ c ∈ body, c.isLower = false) ∨ body = C.digits a := by
  have haddress : C.address a = s ↔ body = C.digits a := by
    rw [← String.toList_inj, toList_address, hbody, List.cons.injEq, List.cons.injEq]
    simp only [true_and, eq_comm]
  have hdigits := exists_spells_iff.1 ⟨a, h⟩
  have hupper := all_bytes_iff isUpper_ofNat h.ascii.1
  have hlower := all_bytes_iff isLower_ofNat h.ascii.1
  unfold accepts
  rw [body?_eq_some.2 hbody, read_eq_ok.2 ⟨body, hbody, h⟩]
  dsimp only
  rw [if_neg (by
    simp only [ne_eq, Bool.or_eq_true, decide_eq_true_eq, Bool.not_eq_true', not_or, not_not,
      Bool.not_eq_false, List.all_eq_true]
    exact hdigits)]
  simp only [Bool.if_true_left, Bool.or_eq_true, hupper, hlower, haddress, decide_eq_true_eq,
    or_assoc]

/-- **A text passes the check exactly if it spells an account.** -/
theorem accepts_iff : C.accepts s = true ↔ ∃ a, C.Spelled s a := by
  constructor
  · intro h
    obtain ⟨body, a, hbody, hspells⟩ := exists_spells_of_accepts h
    exact ⟨a, body, hbody, length_of_spells hspells, hspells,
      (accepts_of_spells hbody hspells).1 h⟩
  · rintro ⟨a, body, hbody, -, hspells, hcase⟩
    exact (accepts_of_spells hbody hspells).2 hcase

/-- **What is read is the account that the text spells.** -/
theorem ofAddress_eq_ok : C.ofAddress s = .ok a ↔ C.Spelled s a := by
  constructor
  · intro h
    unfold ofAddress at h
    split at h
    · rename_i hpass
      obtain ⟨b, hb⟩ := accepts_iff.1 hpass
      cases hb.read.symm.trans h
      exact hb
    · cases h
  · intro h
    rw [ofAddress, if_pos (accepts_iff.2 ⟨a, h⟩), h.read]

/-! ## The digest of addresses -/

/-- An address is read as the account that it spells under Keccak-256. -/
theorem ofAddress?_eq_some : Account.ofAddress? s = some a ↔ keccak256.Spelled s a := by
  have hcase (body : List Char) : ((body.all fun c => !c.isUpper) ||
      (body.all fun c => !c.isLower) || decide (body = a.digits)) = true ↔
        (∀ c ∈ body, c.isUpper = false) ∨ (∀ c ∈ body, c.isLower = false) ∨ body = a.digits := by
    simp only [Bool.or_eq_true, List.all_eq_true, Bool.not_eq_true', decide_eq_true_eq, or_assoc]
  constructor
  · intro h
    unfold Account.ofAddress? at h
    split at h
    · rename_i body hbody
      obtain ⟨account, haccount, h⟩ := Option.bind_eq_some_iff.1 h
      split at h
      · rename_i hletters
        cases h
        have hspells := Account.ofDigits?_eq_some.1 haccount
        exact ⟨body, hbody, length_of_spells hspells, hspells, (hcase body).1 hletters⟩
      · cases h
    · cases h
  · rintro ⟨body, hbody, -, hspells, hletters⟩
    rw [Account.ofAddress?, hbody]
    simp only [Account.ofDigits?_eq_some.2 hspells, Option.bind_eq_bind, Option.bind_some]
    rw [if_pos ((hcase body).2 hletters)]

/-- The check with Keccak-256 is that of addresses. -/
theorem accepts_keccak256 : keccak256.accepts = Account.isAddress := by
  funext s
  rw [Bool.eq_iff_iff, accepts_iff, Account.isAddress, Option.isSome_iff_exists]
  simp only [ofAddress?_eq_some]

/-- Both steps with Keccak-256 are the reading of addresses. -/
theorem ofAddress_keccak256 : keccak256.ofAddress = Account.ofAddress := by
  funext s
  rcases hread : Account.ofAddress? s with _ | a
  · have hpass : keccak256.accepts s = false := by
      rw [accepts_keccak256, Account.isAddress, hread, Option.isSome_none]
    rw [ofAddress, hpass, Account.ofAddress, hread]
    rfl
  · rw [ofAddress_eq_ok.2 (ofAddress?_eq_some.1 hread), Account.ofAddress, hread]

/-- **Reading is exact, under every digest.** A text is read as an account exactly if it is `0x`
and forty digits of the account in an accepted case; it passes the check exactly if there is such
an account; a checksummed address is read as its account; and with Keccak-256 these are the
functions of addresses. -/
theorem read_exactly (C : Checksum) (s : Address) (a : Account) :
    (C.ofAddress s = .ok a ↔ C.Spelled s a) ∧
    (C.accepts s = true ↔ ∃ account, C.Spelled s account) ∧
    C.ofAddress (C.address a) = .ok a ∧
    keccak256.ofAddress = Account.ofAddress ∧ keccak256.accepts = Account.isAddress ∧
    keccak256.address = Account.address :=
  ⟨ofAddress_eq_ok, accepts_iff, ofAddress_eq_ok.2 (C.spelled_address a), ofAddress_keccak256,
    accepts_keccak256, rfl⟩

end Checksum

end Ethereum

end ChainKit
