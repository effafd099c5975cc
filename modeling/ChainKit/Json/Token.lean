import ChainKit.Json.Basic

/-!
# JSON tokens — the words of a document

`Token.scan` cuts a text into brackets, marks, names, numbers and texts,
and drops the blanks between them. It refuses what can begin no token:
a number with a leading zero or plus sign, a control character inside a
text, an unknown escape. Whether the tokens form a document is not asked
here.
-/

namespace ChainKit

namespace Json

/-- A word of a document. -/
inductive Token where
  | openArray
  | closeArray
  | openObject
  | closeObject
  | colon
  | comma
  | null
  | bool (b : Bool)
  | integer (n : Int)
  | fraction
  | text (s : Option String)
  deriving DecidableEq, Repr

namespace Token

/-- A piece of a text: a character, or a code of sixteen bits spelled by an
escape. -/
inductive Piece where
  | char (c : Char)
  | unit (code : Nat)
  deriving DecidableEq, Repr

/-- The value of a hexadecimal digit. -/
def hexValue? (c : Char) : Option Nat :=
  if '0' ≤ c && c ≤ '9' then some (c.toNat - 0x30)
  else if 'a' ≤ c && c ≤ 'f' then some (c.toNat - 0x57)
  else if 'A' ≤ c && c ≤ 'F' then some (c.toNat - 0x37)
  else none

/-- The code that four hexadecimal digits spell. -/
def unit? (a b c d : Char) : Option Nat := do
  return (((← hexValue? a) * 16 + (← hexValue? b)) * 16 + (← hexValue? c)) * 16 + (← hexValue? d)

/-- The character that a letter stands for behind a backslash. -/
def unescape? (c : Char) : Option Char :=
  if c = '"' || c = '\\' || c = '/' then some c
  else if c = 'b' then some '\x08'
  else if c = 'f' then some '\x0c'
  else if c = 'n' then some '\n'
  else if c = 'r' then some '\r'
  else if c = 't' then some '\t'
  else none

/-- The pieces up to the closing quote, and what follows it. -/
def scanText : List Char → Option (List Piece × List Char)
  | [] => none
  | '"' :: rest => some ([], rest)
  | '\\' :: 'u' :: a :: b :: c :: d :: rest => do
    let code ← unit? a b c d
    let (pieces, rest) ← scanText rest
    return (.unit code :: pieces, rest)
  | '\\' :: e :: rest => do
    let c ← unescape? e
    let (pieces, rest) ← scanText rest
    return (.char c :: pieces, rest)
  | c :: rest =>
    if c.toNat < 0x20 || c = '\\' then none
    else do
      let (pieces, rest) ← scanText rest
      return (.char c :: pieces, rest)

/-- The characters of pieces: a code of the upper surrogates joins the code
of the lower ones right behind it, and neither stands alone. -/
def join? : List Piece → Option (List Char)
  | [] => some []
  | .char c :: rest => (join? rest).map (c :: ·)
  | .unit high :: rest =>
    if high < 0xD800 || 0xE000 ≤ high then (join? rest).map (Char.ofNat high :: ·)
    else match rest with
      | .unit low :: rest =>
        if high < 0xDC00 && 0xDC00 ≤ low && low < 0xE000 then
          (join? rest).map (Char.ofNat (0x10000 + (high - 0xD800) * 1024 + (low - 0xDC00)) :: ·)
        else none
      | _ => none

/-- The value of a run of digits. -/
def value (cs : List Char) : Nat := cs.foldl (fun n c => n * 10 + (c.toNat - 0x30)) 0

/-- A nonempty run of digits and what follows it. -/
def scanDigits? (cs : List Char) : Option (List Char × List Char) :=
  let digits := cs.takeWhile Char.isDigit
  if digits = [] then none else some (digits, cs.dropWhile Char.isDigit)

/-- Drops an exponent, if one begins here; tells whether it did. -/
def scanExponent : List Char → Option (Bool × List Char)
  | c :: rest =>
    if c = 'e' || c = 'E' then
      let rest := match rest with
        | '+' :: rest => rest
        | '-' :: rest => rest
        | rest => rest
      (scanDigits? rest).map fun (_, rest) => (true, rest)
    else some (false, c :: rest)
  | [] => some (false, [])

/-- Drops a fraction and an exponent, if they begin here; tells whether
either did. -/
def scanFraction : List Char → Option (Bool × List Char)
  | '.' :: rest => do
    let (_, rest) ← scanDigits? rest
    let (_, rest) ← scanExponent rest
    return (true, rest)
  | rest => scanExponent rest

/-- A number without its sign: a zero that no digit follows, or digits that
begin with another. Minus zero has no place among the integers. -/
def scanNumber (negative : Bool) (cs : List Char) : Option (Token × List Char) := do
  let (digits, rest) ← scanDigits? cs
  if digits.head? = some '0' && digits.length > 1 then none
  else
    let (broken, rest) ← scanFraction rest
    let n := value digits
    return (if broken || (negative && n = 0) then .fraction
      else .integer (if negative then -(n : Int) else n), rest)

/-- The name that stands at the start, taken off. -/
def scanName (name : List Char) (token : Token) (cs : List Char) : Option (Token × List Char) :=
  if name.isPrefixOf cs then some (token, cs.drop name.length) else none

/-- A text behind its opening quote. -/
def scanQuoted (cs : List Char) : Option (Token × List Char) := do
  let (pieces, rest) ← scanText cs
  return (.text ((join? pieces).map String.ofList), rest)

/-- The token that a bracket or a mark is. -/
def mark? : Char → Option Token
  | '[' => some .openArray
  | ']' => some .closeArray
  | '\x7b' => some .openObject
  | '\x7d' => some .closeObject
  | ':' => some .colon
  | ',' => some .comma
  | _ => none

/-- The name that begins with the character, taken off. -/
def scanWord (c : Char) (rest : List Char) : Option (Token × List Char) :=
  if c = 'n' then scanName ['u', 'l', 'l'] .null rest
  else if c = 't' then scanName ['r', 'u', 'e'] (.bool true) rest
  else if c = 'f' then scanName ['a', 'l', 's', 'e'] (.bool false) rest
  else none

/-- The token that begins with the character `c`, and what follows it. -/
def scanOne (c : Char) (rest : List Char) : Option (Token × List Char) :=
  match mark? c with
  | some token => some (token, rest)
  | none =>
    if c = '"' then scanQuoted rest
    else if c = '-' then scanNumber true rest
    else if c.isDigit then scanNumber false (c :: rest)
    else scanWord c rest

/-! ## What a scan leaves -/

theorem scanText_length {cs rest : List Char} {pieces : List Piece}
    (h : scanText cs = some (pieces, rest)) : rest.length < cs.length := by
  induction cs using scanText.induct generalizing pieces rest with
  | case1 => simp [scanText] at h
  | case2 r => simp only [scanText, Option.some.injEq, Prod.mk.injEq] at h; simp [h.2]
  | case3 a b c d r ih =>
    simp only [scanText, Option.bind_eq_bind, Option.bind_eq_some_iff] at h
    obtain ⟨_, _, ⟨p, q⟩, hp, h⟩ := h
    cases h
    have := ih hp
    simp only [List.length_cons]
    omega
  | case4 e r _ ih =>
    rw [scanText] at h
    · simp only [Option.bind_eq_bind, Option.bind_eq_some_iff] at h
      obtain ⟨_, _, ⟨p, q⟩, hp, h⟩ := h
      cases h
      have := ih hp
      simp only [List.length_cons]
      omega
    · assumption
  | case5 c r _ _ _ hc => rw [scanText] at h <;> simp_all
  | case6 c r _ _ _ hc ih =>
    rw [scanText] at h
    · simp only [hc, Bool.false_eq_true, if_false, Option.bind_eq_bind,
        Option.bind_eq_some_iff] at h
      obtain ⟨⟨p, q⟩, hp, h⟩ := h
      cases h
      have := ih hp
      simp only [List.length_cons]
      omega
    all_goals assumption

theorem scanDigits_length {cs rest digits : List Char}
    (h : scanDigits? cs = some (digits, rest)) : rest.length < cs.length := by
  unfold scanDigits? at h
  dsimp only at h
  split at h
  · cases h
  · rename_i hne
    cases h
    have := congrArg List.length (List.takeWhile_append_dropWhile (p := Char.isDigit) (l := cs))
    have := List.length_pos_iff.2 hne
    simp only [List.length_append] at *
    omega

theorem scanExponent_length {cs rest : List Char} {b : Bool}
    (h : scanExponent cs = some (b, rest)) : rest.length ≤ cs.length := by
  cases cs with
  | nil => simp only [scanExponent, Option.some.injEq, Prod.mk.injEq] at h; simp [← h.2]
  | cons c cs =>
    simp only [scanExponent] at h
    split at h
    · obtain ⟨⟨d, r⟩, hd, h⟩ := Option.map_eq_some_iff.1 h
      cases h
      have := scanDigits_length hd
      simp only [List.length_cons]
      split at this <;> simp only [List.length_cons] at * <;> omega
    · cases h
      exact Nat.le_refl _

theorem scanFraction_length {cs rest : List Char} {b : Bool}
    (h : scanFraction cs = some (b, rest)) : rest.length ≤ cs.length := by
  unfold scanFraction at h
  split at h
  · simp only [Option.bind_eq_bind, Option.bind_eq_some_iff] at h
    obtain ⟨⟨d, r⟩, hd, ⟨b', r'⟩, he, h⟩ := h
    cases h
    have := scanDigits_length hd
    have := scanExponent_length he
    simp only [List.length_cons]
    dsimp only at *
    omega
  · exact scanExponent_length h

theorem scanNumber_length {negative : Bool} {cs rest : List Char} {t : Token}
    (h : scanNumber negative cs = some (t, rest)) : rest.length < cs.length := by
  unfold scanNumber at h
  simp only [Option.bind_eq_bind, Option.bind_eq_some_iff] at h
  obtain ⟨⟨d, r⟩, hd, h⟩ := h
  dsimp only at h
  split at h
  · cases h
  · simp only [Option.bind_eq_some_iff] at h
    obtain ⟨⟨b, r'⟩, hf, h⟩ := h
    cases h
    have := scanDigits_length hd
    have := scanFraction_length hf
    dsimp only at *
    omega

theorem scanName_length {name cs rest : List Char} {token t : Token}
    (h : scanName name token cs = some (t, rest)) : rest.length ≤ cs.length := by
  unfold scanName at h
  split at h
  · cases h; simp
  · cases h

theorem scanWord_length {c : Char} {cs rest : List Char} {t : Token}
    (h : scanWord c cs = some (t, rest)) : rest.length ≤ cs.length := by
  unfold scanWord at h
  split at h
  · exact scanName_length h
  · split at h
    · exact scanName_length h
    · split at h
      · exact scanName_length h
      · cases h

theorem scanQuoted_length {cs rest : List Char} {t : Token}
    (h : scanQuoted cs = some (t, rest)) : rest.length < cs.length := by
  simp only [scanQuoted, Option.bind_eq_bind, Option.bind_eq_some_iff] at h
  obtain ⟨⟨p, q⟩, hp, h⟩ := h
  cases h
  exact scanText_length hp

/-- What follows a token is shorter than the text it begins. -/
theorem scanOne_length {c : Char} {cs rest : List Char} {t : Token}
    (h : scanOne c cs = some (t, rest)) : rest.length ≤ cs.length := by
  unfold scanOne at h
  split at h
  · cases h; exact Nat.le_refl _
  · split at h
    · exact Nat.le_of_lt (scanQuoted_length h)
    · split at h
      · exact Nat.le_of_lt (scanNumber_length h)
      · split at h
        · exact Nat.le_of_lt_succ (scanNumber_length h)
        · exact scanWord_length h

/-- Whether a character only separates tokens. -/
def isBlank (c : Char) : Bool := c = ' ' || c = '\n' || c = '\t' || c = '\r'

/-- The tokens of a text, if it holds nothing else. -/
def scan : List Char → Option (List Token)
  | [] => some []
  | c :: cs =>
    if isBlank c then scan cs
    else match h : scanOne c cs with
      | none => none
      | some (token, rest) =>
        have := scanOne_length h
        (scan rest).map (token :: ·)
termination_by cs => cs.length

end Token

end Json

end ChainKit
