import ChainKit.Proofs.Bns.Address
import Mathlib
/-!
# The spellings of an account

An address finds out when one of its characters is replaced
(`address_detects_replacement`). An account is read from its address and
from 32 longer texts: a symbol that stands in front of the checksum adds
five bits, which are no byte and are dropped (`ofAddress_eq_ok_iff`). So a
text that is read is the address of its account, up to the case of its
letters, exactly if it is as long (`respelled_iff_length`), and some are
not (`ofAddress_spareAddress`).
-/

namespace ChainKit

open Text

namespace Bns

namespace Account

variable {network : Network} {data : Bytes} {a : Address} {account : Account}

/-- The symbols of an account behind its network's prefix, maybe with one to spare, and their
checksum. -/
def spelling (account : Account) (spare : Option Bech32.Symbol) : List Char :=
  Bech32.spelled account.network.hrp.toList
    (Bech32.symbolsOfBits (account.data.flatMap Bech32.byteBits) ++ spare.toList)

/-! ## What is read -/

/-- Twenty bytes take 32 symbols. -/
theorem length_spelling (h : account.data.length = 20) (spare : Option Bech32.Symbol) :
    (account.spelling spare).length = account.network.hrp.length + 39 + spare.toList.length := by
  rw [spelling, Bech32.length_spelled, List.length_append, Bech32.length_symbolsOfBits,
    Bech32.length_flatMap_byteBits, h, String.length_toList]
  omega

/-- **An account is read from its symbols**, in letters of one case, maybe with a symbol to
spare. -/
theorem ofAddress_eq_ok_iff : ofAddress a = .ok account ↔
    account.data.length = 20 ∧ Bech32.isMixed a.toList = false ∧
      ∃ spare, a.toLower.toList = account.spelling spare := by
  rw [ofAddress_eq_ok, Bech32.decode_eq_ok_iff, String.toLower, String.toList_map]
  obtain ⟨hallowed, hshort, -⟩ := account.network.hrp_plain
  refine and_congr_right fun hlength => and_congr_right fun hmixed => ?_
  have hfive : 5 ∣ account.data.length := ⟨4, hlength⟩
  constructor
  · rintro ⟨-, -, payload, htext, hbytes⟩
    obtain ⟨spare, rfl⟩ := Bech32.exists_spare hfive hbytes
    exact ⟨spare, htext⟩
  · rintro ⟨spare, htext⟩
    have hlong := congrArg List.length htext
    rw [List.length_map, length_spelling hlength, ← String.length_toList] at hlong
    have hspare := Option.length_toList_le (o := spare)
    refine ⟨hallowed, ?_, _, htext, Bech32.bytesOfBits_spare hfive spare⟩
    rw [Bech32.maxLength]
    omega

theorem isAddress_iff : isAddress a = true ↔ ∃ account, ofAddress a = .ok account := by
  unfold isAddress
  cases ofAddress a with
  | error e => simp [Except.isOk, Except.toBool]
  | ok account => simp [Except.isOk, Except.toBool]

/-! ## What is written -/

/-- The address of an account has no symbol to spare. -/
theorem address_eq_ok_iff : address network data = .ok a ↔
    data.length = 20 ∧ a.toList = spelling ⟨network, data⟩ none := by
  rw [address_eq_ok, ← String.toList_inj, Bech32.toList_encode, spelling]
  simp [eq_comm]

/-- **An address finds out when one of its characters is replaced.** Exactly 20 bytes have an
address. It is read as they are, and no text is an address that differs from it in one character
behind the separator. -/
theorem address_detects_replacement (network : Network) (data : Bytes) :
    ((∃ a, address network data = .ok a) ↔ data.length = 20) ∧
      ∀ a, address network data = .ok a →
        ofAddress a = .ok ⟨network, data⟩ ∧
        ∀ i c d, network.hrp.length < i → a.toList[i]? = some d → c ∈ Bech32.alphabet → c ≠ d →
          isAddress (String.ofList (a.toList.set i c)) = false := by
  refine ⟨⟨?_, exists_address network⟩, fun a ha => ⟨ofAddress_address ha, ?_⟩⟩
  · rintro ⟨a, ha⟩
    exact (address_eq_ok.1 ha).1
  · intro i c d hi hd hc hne
    obtain ⟨-, -, hcase⟩ := network.hrp_plain
    obtain ⟨-, ha⟩ := address_eq_ok_iff.1 ha
    rw [ha, spelling] at hd
    rw [ha, spelling, Bool.eq_false_iff, ne_eq, isAddress_iff]
    rintro ⟨account, hread⟩
    exact Bech32.decode_set_ne_ok hcase (by rwa [String.length_toList]) hd hc hne _
      (ofAddress_eq_ok.1 hread).2

/-- The bytes of an account. -/
def sampleBytes : Bytes :=
  [0xf6, 0xca, 0xde, 0x22, 0x94, 0x08, 0xc9, 0x3a, 0x2a, 0x8d, 0x18, 0x1d, 0x62, 0xef, 0xce, 0x46,
    0xff, 0x60, 0xd2, 0x10]

/-- The address of these bytes on a test network. -/
theorem address_sampleBytes :
    address .test sampleBytes = .ok "tiov17m9dug55pryn525drqwk9m7wgmlkp5ss4j2mky" :=
  address_eq_ok_iff.2 ⟨rfl, by decide +kernel⟩

/-- The address with the last character of its checksum replaced is none. -/
theorem address_detects_replacement_sampleBytes :
    address .test sampleBytes = .ok "tiov17m9dug55pryn525drqwk9m7wgmlkp5ss4j2mky" ∧
      isAddress "tiov17m9dug55pryn525drqwk9m7wgmlkp5ss4j2mkq" = false := by
  refine ⟨address_sampleBytes, ?_⟩
  have htext : "tiov17m9dug55pryn525drqwk9m7wgmlkp5ss4j2mkq" = String.ofList
      ("tiov17m9dug55pryn525drqwk9m7wgmlkp5ss4j2mky".toList.set 42 'q') := by decide +kernel
  rw [htext]
  exact ((address_detects_replacement .test sampleBytes).2 _ address_sampleBytes).2 42 'q' 'y'
    (by decide +kernel) (by decide +kernel) (by decide +kernel) (by decide)

/-! ## Texts of one account -/

/-- **What is read is the address of its account, in lowercase, exactly if it is as long.** The
texts of an account are those of its 32 symbols and their checksum in letters of one case, maybe
with a symbol to spare. -/
theorem respelled_iff_length (h : ofAddress a = .ok account) :
    (address account.network account.data = .ok a.toLower ↔
      a.length = account.network.hrp.length + 39) ∧
      ∀ b, ofAddress b = .ok account ↔ Bech32.isMixed b.toList = false ∧
        ∃ spare, b.toLower.toList = account.spelling spare := by
  obtain ⟨hlength, hmixed, spare, htext⟩ := ofAddress_eq_ok_iff.1 h
  have hlong : a.length = account.network.hrp.length + 39 + spare.toList.length := by
    rw [← length_spelling hlength, ← htext, String.length_toList, String.toLower,
      String.length_map]
  refine ⟨?_, fun b => ?_⟩
  · rw [address_eq_ok_iff, htext]
    constructor
    · rintro ⟨-, hsame⟩
      have hnone := length_spelling hlength none
      rw [← hsame, length_spelling hlength] at hnone
      rw [hlong, hnone]
      rfl
    · intro hshort
      have hnone : spare = none := by
        rw [← Option.length_toList_eq_zero_iff]
        omega
      exact ⟨hlength, by rw [hnone]⟩
  · rw [ofAddress_eq_ok_iff]
    exact and_iff_right hlength

/-- The address in uppercase is read as well, and no longer than in lowercase. -/
theorem respelled_iff_length_uppercase :
    ofAddress "TIOV17M9DUG55PRYN525DRQWK9M7WGMLKP5SS4J2MKY" = .ok ⟨.test, sampleBytes⟩ ∧
      address .test sampleBytes = .ok "TIOV17M9DUG55PRYN525DRQWK9M7WGMLKP5SS4J2MKY".toLower := by
  have hread : ofAddress "TIOV17M9DUG55PRYN525DRQWK9M7WGMLKP5SS4J2MKY" =
      .ok ⟨.test, sampleBytes⟩ :=
    ofAddress_eq_ok_iff.2 ⟨rfl, by decide +kernel, none, by decide +kernel⟩
  exact ⟨hread, (respelled_iff_length hread).1.2 (by decide +kernel)⟩

/-- The account is read from a longer text too, whose last symbol in front of the checksum is to
spare. -/
theorem ofAddress_spareAddress :
    ofAddress "tiov17m9dug55pryn525drqwk9m7wgmlkp5ssllm7eg3" = .ok ⟨.test, sampleBytes⟩ ∧
      address .test sampleBytes ≠ .ok "tiov17m9dug55pryn525drqwk9m7wgmlkp5ssllm7eg3".toLower := by
  refine ⟨ofAddress_eq_ok_iff.2 ⟨rfl, by decide +kernel, some 31, by decide +kernel⟩, ?_⟩
  rw [address_sampleBytes, ne_eq, Except.ok.injEq]
  decide +kernel

end Account

end Bns

end ChainKit
