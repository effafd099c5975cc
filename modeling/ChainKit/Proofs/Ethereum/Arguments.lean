import ChainKit.Bytes.Lemmas
import ChainKit.Ethereum.Arguments
import ChainKit.Proofs.Ethereum.Call
import ChainKit.Proofs.Outcome
import Mathlib
/-!
# Arguments are laid out as a head and a tail

The head is a loop over words that checks one start after another
(`start_eq_ok`), so it is read exactly if the starts ascend through the
tail at whole words (`starts_eq_ok`). Cutting at such starts loses nothing
(`cut_spec`), and arguments that follow each other are cut apart where they
start (`cut_positions`). So data is read exactly if it is a head and a tail
(`laid_of_read`, `read_of_laid`).
-/

namespace ChainKit

namespace Ethereum

namespace Arguments

variable {data : Bytes} {a : Arguments} {head total n : Nat} {previous : Option Nat}

/-- Where the argument at place `i` starts: behind the head, which has one word for each argument,
and behind the arguments in front of it. -/
def startOf (tail : List Bytes) (i : Nat) : Nat :=
  32 * tail.length + ((tail.take i).map List.length).sum

/-- The words of the head with the arguments behind them. -/
def encode (a : Arguments) : Bytes := (a.head.map Word.ofNat).flatMap Word.data ++ a.tail.flatten

/-- The data is a head and a tail: at least one argument, each of them one or more whole words, and
in the head where each of them starts. -/
structure Laid (a : Arguments) (data : Bytes) : Prop where
  nonempty : a.tail ≠ []
  whole : ∀ b ∈ a.tail, b ≠ [] ∧ 32 ∣ b.length
  starts : a.head = (List.range a.tail.length).map (startOf a.tail)
  bytes : data = a.encode

theorem length_encode (a : Arguments) :
    a.encode.length = 32 * a.head.length + a.tail.flatten.length := by
  rw [encode, List.length_append, Word.length_flatMap, List.length_map]

/-! ## The head -/

theorem position_eq_ok {limit : Nat} {word : Bytes} :
    position limit word = .ok n ↔ n = Bytes.toNat word ∧ n ≤ limit := by
  unfold position
  split
  · rename_i hle
    rw [Except.ok.injEq]
    constructor
    · rintro rfl
      exact ⟨rfl, hle⟩
    · rintro ⟨rfl, -⟩
      rfl
  · rename_i hgt
    simp only [reduceCtorEq, false_iff, not_and]
    rintro rfl
    exact hgt

theorem headLength_eq_ok : headLength data = .ok n ↔
    n = Bytes.toNat (data.take 32) ∧ n ≠ 0 ∧ n % 32 = 0 ∧ n < data.length := by
  unfold headLength
  split
  · rename_i e herror
    simp only [reduceCtorEq, false_iff]
    rintro ⟨hn, -, -, hlt⟩
    have hok := position_eq_ok.2 ⟨hn, Nat.le_of_lt hlt⟩
    rw [herror] at hok
    cases hok
  · rename_i m hm
    obtain ⟨hm, -⟩ := position_eq_ok.1 hm
    rw [Outcome.ite_error_eq_ok, Except.ok.injEq]
    constructor
    · rintro ⟨hchecks, rfl⟩
      omega
    · rintro ⟨hn, hpos, haligned, hlt⟩
      have heq : m = n := by omega
      omega

/-- One start is the number of its word: in the tail, at a whole word and behind the start in front
of it. -/
theorem start_eq_ok {word : Bytes} : start head total previous word = .ok n ↔
    n = Bytes.toNat word ∧ (head ≤ n ∧ n < total ∧ n % 32 = 0) ∧ ∀ p ∈ previous, p < n := by
  simp only [start, Outcome.bind_eq_ok, position_eq_ok, Outcome.ite_error_eq_ok, Outcome.pure_eq_ok]
  constructor
  · rintro ⟨m, ⟨hm, -⟩, hhead, haligned, htotal, hprevious, rfl⟩
    refine ⟨hm, by omega, fun p hp => ?_⟩
    rw [Option.mem_def.1 hp, Option.any_some] at hprevious
    simpa using hprevious
  · rintro ⟨hn, hbounds, hprevious⟩
    refine ⟨n, ⟨hn, by omega⟩, by omega, by omega, by omega, ?_, rfl⟩
    cases previous with
    | none => simp
    | some p => simpa using hprevious p rfl

/-- **The starts are the numbers of the words**, ascending through the tail at whole words. -/
theorem starts_eq_ok {words : List Bytes} {ns : List Nat} :
    starts head total previous words = .ok ns ↔ ns = words.map Bytes.toNat ∧
      (∀ n ∈ ns, head ≤ n ∧ n < total ∧ n % 32 = 0) ∧
        (previous.toList ++ ns).IsChain (· < ·) := by
  induction words generalizing previous ns with
  | nil =>
    rw [starts, Except.ok.injEq, List.map_nil, eq_comm]
    constructor
    · rintro rfl
      cases previous <;> simp
    · exact And.left
  | cons word words ih =>
    simp only [starts, Outcome.bind_eq_ok, Outcome.pure_eq_ok, start_eq_ok, ih]
    -- all starts ascend if the first one does and those behind it do
    have hchain (n : Nat) (ns : List Nat) : (previous.toList ++ n :: ns).IsChain (· < ·) ↔
        (∀ p ∈ previous, p < n) ∧ (n :: ns).IsChain (· < ·) := by
      cases previous <;> simp
    constructor
    · rintro ⟨n, ⟨hn, hbounds, hprevious⟩, ms, ⟨hms, hall, hsteps⟩, rfl⟩
      exact ⟨by rw [List.map_cons, hn, hms], List.forall_mem_cons.2 ⟨hbounds, hall⟩,
        (hchain n ms).2 ⟨hprevious, hsteps⟩⟩
    · rintro ⟨rfl, hall, hsteps⟩
      rw [List.map_cons] at hall hsteps
      obtain ⟨hbounds, hall⟩ := List.forall_mem_cons.1 hall
      obtain ⟨hprevious, hsteps⟩ := (hchain _ _).1 hsteps
      exact ⟨_, ⟨rfl, hbounds, hprevious⟩, _, ⟨rfl, hall, hsteps⟩, rfl⟩

/-- Words are written again from their numbers. -/
theorem flatMap_ofNat_toNat {words : List Bytes} (h : ∀ word ∈ words, word.length = 32) :
    ((words.map Bytes.toNat).map Word.ofNat).flatMap Word.data = words.flatten := by
  induction words with
  | nil => rfl
  | cons word words ih =>
    obtain ⟨hword, hwords⟩ := List.forall_mem_cons.1 h
    have hdata : (Word.ofNat (Bytes.toNat word)).data = word :=
      congrArg Word.data (Word.ofNat_toNat ⟨word, hword⟩)
    rw [List.map_cons, List.map_cons, List.flatMap_cons, List.flatten_cons, hdata, ih hwords]

/-- Numbers that fit in words are read back from them. -/
theorem map_toNat_chunks {ns : List Nat} (h : ∀ n ∈ ns, n < 2 ^ 256) :
    (Bytes.chunks 32 ((ns.map Word.ofNat).flatMap Word.data)).map Bytes.toNat = ns := by
  have hsizes : ∀ word ∈ (ns.map Word.ofNat).map Word.data, word.length = 32 := by
    intro word hword
    obtain ⟨w, -, rfl⟩ := List.mem_map.1 hword
    exact w.length_data
  rw [List.flatMap_def, Bytes.chunks_flatten (by decide) hsizes, List.map_map, List.map_map]
  conv_rhs => rw [← List.map_id ns]
  refine List.map_congr_left fun n hn => ?_
  have hnumber := Word.toNat_ofNat (h n hn)
  rw [Word.toNat] at hnumber
  rw [Function.comp_apply, Function.comp_apply, hnumber, id_eq]

/-! ## The tail -/

/-- The starts of arguments that follow each other from a position on. -/
def positions (n : Nat) : List Bytes → List Nat
  | [] => []
  | b :: tail => n :: positions (n + b.length) tail

theorem positions_eq_map (n : Nat) (tail : List Bytes) : positions n tail =
    (List.range tail.length).map fun i => n + ((tail.take i).map List.length).sum := by
  induction tail generalizing n with
  | nil => rfl
  | cons b tail ih =>
    rw [positions, ih, List.length_cons, List.range_succ_eq_map, List.map_cons, List.map_map]
    congr 1
    refine List.map_congr_left fun i hi => ?_
    simp only [Function.comp_apply, Nat.succ_eq_add_one, List.take_succ_cons, List.map_cons,
      List.sum_cons]
    omega

/-- Behind a head, those are the starts of the arguments. -/
theorem positions_eq_startOf (tail : List Bytes) :
    positions (32 * tail.length) tail = (List.range tail.length).map (startOf tail) :=
  positions_eq_map _ tail

/-- Starts of arguments that are whole words ascend at whole words, in range. -/
theorem positions_spec {tail : List Bytes} (hwhole : ∀ b ∈ tail, b ≠ [] ∧ 32 ∣ b.length)
    (hn : n % 32 = 0) :
    (∀ m ∈ positions n tail, n ≤ m ∧ m < n + tail.flatten.length ∧ m % 32 = 0) ∧
      (positions n tail).IsChain (· < ·) := by
  induction tail generalizing n with
  | nil => simp [positions]
  | cons b tail ih =>
    obtain ⟨⟨hne, hb⟩, hwhole⟩ := List.forall_mem_cons.1 hwhole
    have hpos := List.length_pos_of_ne_nil hne
    obtain ⟨hall, hsteps⟩ := ih (n := n + b.length) hwhole (by omega)
    rw [positions, List.forall_mem_cons, List.flatten_cons, List.length_append]
    refine ⟨⟨by omega, fun m hm => ?_⟩, ?_⟩
    · have := hall m hm
      omega
    · refine List.isChain_cons.2 ⟨fun m hm => ?_, hsteps⟩
      have := hall m (List.mem_of_mem_head? hm)
      omega

/-- Arguments that are whole words are so side by side. -/
theorem dvd_length_flatten {tail : List Bytes} (hwhole : ∀ b ∈ tail, b ≠ [] ∧ 32 ∣ b.length) :
    32 ∣ tail.flatten.length := by
  rw [List.length_flatten]
  refine List.dvd_sum fun n hn => ?_
  obtain ⟨b, hb, rfl⟩ := List.mem_map.1 hn
  exact (hwhole b hb).2

/-- **Cutting at ascending starts loses nothing**: the arguments start where they were cut, side by
side they are the data from the first start on, and they are whole words. -/
theorem cut_spec {ns : List Nat} (hall : ∀ m ∈ n :: ns, m < data.length ∧ m % 32 = 0)
    (hsteps : (n :: ns).IsChain (· < ·)) (hdata : data.length % 32 = 0) :
    positions n (cut data (n :: ns)) = n :: ns ∧ (cut data (n :: ns)).flatten = data.drop n ∧
      ∀ b ∈ cut data (n :: ns), b ≠ [] ∧ 32 ∣ b.length := by
  induction ns generalizing n with
  | nil =>
    obtain ⟨hn, haligned⟩ := hall n List.mem_cons_self
    have hlength : (data.drop n).length = data.length - n := List.length_drop
    refine ⟨rfl, by simp [cut], fun b hb => ?_⟩
    rw [cut, List.mem_singleton] at hb
    rw [hb]
    exact ⟨List.ne_nil_of_length_pos (by omega), Nat.dvd_of_mod_eq_zero (by omega)⟩
  | cons next ns ih =>
    obtain ⟨⟨hn, haligned⟩, hall⟩ := List.forall_mem_cons.1 hall
    obtain ⟨hstep, hsteps⟩ := List.isChain_cons_cons.1 hsteps
    obtain ⟨hnext, hnextAligned⟩ := hall next List.mem_cons_self
    obtain ⟨hpositions, hflatten, hwhole⟩ := ih hall hsteps
    have hlength : ((data.drop n).take (next - n)).length = next - n := by
      rw [List.length_take, List.length_drop]
      omega
    refine ⟨?_, ?_, ?_⟩
    · rw [cut, positions, hlength, show n + (next - n) = next by omega, hpositions]
    · -- what is cut off ends where the next argument starts
      have hbehind : data.drop next = (data.drop n).drop (next - n) := by
        rw [List.drop_drop]
        congr 1
        omega
      rw [cut, List.flatten_cons, hflatten, hbehind, List.take_append_drop]
    · rw [cut, List.forall_mem_cons]
      exact ⟨⟨List.ne_nil_of_length_pos (by omega), Nat.dvd_of_mod_eq_zero (by omega)⟩, hwhole⟩

/-- Arguments that follow each other are cut apart at their starts. -/
theorem cut_positions (front : Bytes) (tail : List Bytes) :
    cut (front ++ tail.flatten) (positions front.length tail) = tail := by
  induction tail generalizing front with
  | nil => rfl
  | cons b tail ih =>
    have hrest := ih (front ++ b)
    rw [List.length_append, List.append_assoc] at hrest
    rw [List.flatten_cons, positions]
    cases tail with
    | nil => simp [positions, cut]
    | cons c tail =>
      rw [positions] at hrest ⊢
      rw [cut, hrest, List.drop_left' rfl, Nat.add_sub_cancel_left, List.take_left' rfl]

/-! ## Head and tail -/

/-- Reading is finding the length of the head, the starts and the arguments. -/
theorem read_eq_ok : read data = .ok a ↔ data ≠ [] ∧ data.length % 32 = 0 ∧
    ∃ length, headLength data = .ok length ∧
      starts length data.length none (Bytes.chunks 32 (data.take length)) = .ok a.head ∧
        cut data a.head = a.tail := by
  obtain ⟨head, tail⟩ := a
  simp only [read, Outcome.ite_error_eq_ok, Outcome.bind_eq_ok, Outcome.pure_eq_ok, mk.injEq,
    ne_eq, not_not]
  refine and_congr_right fun _ => and_congr_right fun _ => ?_
  constructor
  · rintro ⟨length, hlength, ns, hns, rfl, htail⟩
    exact ⟨length, hlength, hns, htail⟩
  · rintro ⟨length, hlength, hns, htail⟩
    exact ⟨length, hlength, head, hns, rfl, htail⟩

/-- **Data that is read is a head and a tail.** -/
theorem laid_of_read (h : read data = .ok a) : a.Laid data := by
  obtain ⟨-, hdata, length, hlength, hstarts, hcut⟩ := read_eq_ok.1 h
  obtain ⟨hfirst, hpos, haligned, hlt⟩ := headLength_eq_ok.1 hlength
  obtain ⟨hnumbers, hall, hsteps⟩ := starts_eq_ok.1 hstarts
  have hfront : (data.take length).length = length := by
    rw [List.length_take]
    omega
  have hsizes : ∀ word ∈ Bytes.chunks 32 (data.take length), word.length = 32 :=
    Bytes.length_of_mem_chunks (by decide) (by omega)
  -- the first word is in the head, so the first argument starts behind the head
  obtain ⟨ns, hns⟩ : ∃ ns, a.head = length :: ns := by
    rw [Bytes.chunks, dif_pos ⟨by decide, by omega⟩, List.map_cons, List.take_take,
      Nat.min_eq_left (by omega), ← hfirst] at hnumbers
    exact ⟨_, hnumbers⟩
  have hhead : (a.head.map Word.ofNat).flatMap Word.data = data.take length := by
    rw [hnumbers, flatMap_ofNat_toNat hsizes, Bytes.flatten_chunks (by decide)]
  rw [hns] at hall hsteps hcut
  obtain ⟨hpositions, htail, hwhole⟩ := cut_spec (fun m hm => (hall m hm).2) hsteps hdata
  rw [hcut] at hpositions htail hwhole
  have hcount : length = 32 * a.tail.length := by
    have hwords := congrArg List.length hhead
    have harguments := congrArg List.length hpositions
    rw [Word.length_flatMap, List.length_map, hfront, hns] at hwords
    rw [positions_eq_map, List.length_map, List.length_range] at harguments
    omega
  refine ⟨?_, hwhole, ?_, ?_⟩
  · intro hnil
    rw [hnil] at hpositions
    cases hpositions
  · rw [hns, ← hpositions, hcount, positions_eq_startOf]
  · rw [encode, hhead, htail, List.take_append_drop]

/-- **A head and a tail are read**, as long as the starts fit in words. -/
theorem read_of_laid (h : a.Laid data) (hlength : data.length < 2 ^ 256) : read data = .ok a := by
  obtain ⟨hne, hwhole, hstarts, rfl⟩ := h
  obtain ⟨head, tail⟩ := a
  dsimp only [encode] at *
  rw [← positions_eq_startOf] at hstarts
  set front := (head.map Word.ofNat).flatMap Word.data with hfront
  have hcount : 0 < tail.length := List.length_pos_of_ne_nil hne
  have hfrontLength : front.length = 32 * tail.length := by
    rw [hfront, Word.length_flatMap, List.length_map, hstarts, positions_eq_startOf,
      List.length_map, List.length_range]
  have htotal : (front ++ tail.flatten).length = 32 * tail.length + tail.flatten.length := by
    rw [List.length_append, hfrontLength]
  have htake : (front ++ tail.flatten).take (32 * tail.length) = front :=
    List.take_left' hfrontLength
  obtain ⟨hall, hsteps⟩ := positions_spec (n := 32 * tail.length) hwhole (by omega)
  rw [← hstarts] at hall hsteps
  have hnumbers : (Bytes.chunks 32 front).map Bytes.toNat = head := by
    refine map_toNat_chunks fun n hn => ?_
    have := hall n hn
    omega
  -- the first start is the length of the head, and something starts there
  obtain ⟨ns, hns⟩ : ∃ ns, head = 32 * tail.length :: ns := by
    cases tail with
    | nil => exact absurd rfl hne
    | cons b tail => exact ⟨_, hstarts⟩
  have hfirst : 32 * tail.length = Bytes.toNat ((front ++ tail.flatten).take 32) := by
    rw [List.take_append_of_le_length (by omega), hfront, hns, List.map_cons, List.flatMap_cons,
      List.take_left' (Word.length_data _)]
    exact (Word.toNat_ofNat (by omega)).symm
  have hbehind := hall (32 * tail.length) (by rw [hns]; exact List.mem_cons_self)
  have hwords := dvd_length_flatten hwhole
  refine read_eq_ok.2 ⟨List.ne_nil_of_length_pos (by omega), by omega, 32 * tail.length,
    headLength_eq_ok.2 ⟨hfirst, by omega, by omega, by omega⟩, ?_, ?_⟩
  · refine starts_eq_ok.2 ⟨by rw [htake, hnumbers], fun n hn => ?_, hsteps⟩
    have := hall n hn
    omega
  · rw [hstarts, ← hfrontLength]
    exact cut_positions front tail

end Arguments

end Ethereum

end ChainKit
