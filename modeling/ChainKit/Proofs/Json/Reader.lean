import ChainKit.Json.Reader
import ChainKit.Proofs.Json.Token
import Mathlib
/-!
# Documents are read back

The reader keeps the arrays and objects still open on a stack. Reading the
tokens of a document leaves the stack as it was and the document as the
value read last (`foldlM_tokens`); what is open then takes its further
items or members up to its end. So every document is read back from its
text (`parse?_render`), whatever characters its texts are made of.
-/

namespace ChainKit

namespace Json

namespace Reading

/-- The first token of a document begins a value wherever one may stand. -/
theorem foldlM_itemOrEnd (j : Json) (frames : List Frame) :
    j.tokens.foldlM step ⟨.itemOrEnd, frames⟩ =
      j.tokens.foldlM step ⟨.value, .array [] :: frames⟩ := by
  match j with
  | .null | .bool _ | .integer _ | .fraction | .text _ | .array [] | .array (_ :: _) | .object []
  | .object ((_, _) :: _) => rfl

mutual

/-- **The tokens of a document are read as it**, and leave what is open as it was. -/
theorem foldlM_tokens (j : Json) (frames : List Frame) :
    j.tokens.foldlM step ⟨.value, frames⟩ = some ⟨.more j, frames⟩ := by
  match j with
  | .null | .bool _ | .integer _ | .fraction | .text _ | .array [] | .object [] => rfl
  | .array (x :: xs) =>
    have hx := foldlM_tokens x (.array [] :: frames)
    have hxs := foldlM_itemTokens xs x [] frames
    have hopen : step ⟨.value, frames⟩ .openArray = some ⟨.itemOrEnd, frames⟩ := rfl
    simp only [tokens, List.foldlM_cons, List.foldlM_append, hopen, Option.bind_eq_bind,
      Option.bind_some, foldlM_itemOrEnd, hx, hxs]
    rfl
  | .object ((k, v) :: ms) =>
    have hv := foldlM_tokens v (.object [] k :: frames)
    have hms := foldlM_memberTokens ms v [] k frames
    have hopen : step ⟨.value, frames⟩ .openObject = some ⟨.nameOrEnd [], frames⟩ := rfl
    have hname : step ⟨.nameOrEnd [], frames⟩ (.text k) = some ⟨.colon [] k, frames⟩ := rfl
    have hcolon : step ⟨.colon [] k, frames⟩ .colon = some ⟨.value, .object [] k :: frames⟩ := rfl
    simp only [tokens, List.foldlM_cons, List.foldlM_append, hopen, hname, hcolon,
      Option.bind_eq_bind, Option.bind_some, hv, hms]
    rfl

/-- An open array takes the items behind one, and is closed. -/
theorem foldlM_itemTokens (xs : List Json) (j : Json) (items : List Json) (frames : List Frame) :
    (itemTokens xs).foldlM step ⟨.more j, .array items :: frames⟩ =
      some ⟨.more (.array (items.reverse ++ j :: xs)), frames⟩ := by
  match xs with
  | [] => simp [itemTokens, step]
  | x :: xs =>
    have hx := foldlM_tokens x (.array (j :: items) :: frames)
    have hxs := foldlM_itemTokens xs x (j :: items) frames
    have hcomma : step ⟨.more j, .array items :: frames⟩ .comma =
      some ⟨.value, .array (j :: items) :: frames⟩ := rfl
    simp only [itemTokens, List.foldlM_cons, List.foldlM_append, hcomma, Option.bind_eq_bind,
      Option.bind_some, hx, hxs]
    simp

/-- An open object takes the members behind one, and is closed. -/
theorem foldlM_memberTokens (ms : List (Option String × Json)) (j : Json)
    (members : List (Option String × Json)) (name : Option String) (frames : List Frame) :
    (memberTokens ms).foldlM step ⟨.more j, .object members name :: frames⟩ =
      some ⟨.more (.object (members.reverse ++ (name, j) :: ms)), frames⟩ := by
  match ms with
  | [] => simp [memberTokens, step]
  | (k, v) :: ms =>
    have hv := foldlM_tokens v (.object ((name, j) :: members) k :: frames)
    have hms := foldlM_memberTokens ms v ((name, j) :: members) k frames
    have hcomma : step ⟨.more j, .object members name :: frames⟩ .comma =
      some ⟨.name ((name, j) :: members), frames⟩ := rfl
    have hname : step ⟨.name ((name, j) :: members), frames⟩ (.text k) =
      some ⟨.colon ((name, j) :: members) k, frames⟩ := rfl
    have hcolon : step ⟨.colon ((name, j) :: members) k, frames⟩ .colon =
      some ⟨.value, .object ((name, j) :: members) k :: frames⟩ := rfl
    simp only [memberTokens, List.foldlM_cons, List.foldlM_append, hcomma, hname, hcolon,
      Option.bind_eq_bind, Option.bind_some, hv, hms]
    simp

end

end Reading

/-- **A document is read back from its text.** -/
theorem parse?_render (j : Json) : parse? j.render = some j := by
  simp only [parse?, scan_render, Option.bind_some, ofTokens?, Reading.start,
    Reading.foldlM_tokens, Reading.result?]

end Json

end ChainKit
