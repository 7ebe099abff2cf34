import Dialogue.Reference
import Dialogue.Text.Slice
/-!
# `Dialogue.Reference.Span` — finding references by byte offsets.

A search takes the leftmost match of the pattern for references from an offset on, and cuts the reference out of it by
adding up lengths. Each piece of the text is a slice by offsets: where there is none, the search breaks down.
-/

namespace Dialogue

open Text.Utf8 (size)

namespace Reference

/-- **A match of the pattern for references:** an `@` and a body. -/
structure Match where
  /-- The offset of the `@`. -/
  start : Nat
  /-- The body. -/
  body : List Char
  deriving DecidableEq, Repr

/-- The offset of the body. -/
def Match.bodyStart (m : Match) : Nat := m.start + size ['@']

/-- The offset at the end of the match. -/
def Match.stop (m : Match) : Nat := m.bodyStart + size m.body

/-- **The leftmost match** in a text that begins at an offset. -/
def match? (offset : Nat) : List Char → Option Match
  | [] => none
  | c :: cs =>
    match if c = '@' then body? cs else none with
    | some (body, _) => some ⟨offset, body⟩
    | none => match? (offset + c.utf8Size) cs

/-- The text without the punctuation it ends with, and that punctuation. -/
def splitPunctuation? (cs : List Char) : Option (List Char × List Char) := do
  return (dropPunctuation cs, ← Text.from? cs (size (dropPunctuation cs)))

/-- The path in a body, and the text behind the first mark of a media type, if there is one. -/
def splitMark? (body : List Char) : Option (List Char × Option (List Char)) :=
  match (Text.cutAt? typeMark body).map (size ·.1) with
  | none => some (body, none)
  | some mark => do
    return (← Text.slice? body 0 mark, some (← Text.from? body (mark + size typeMark)))

/-- **A reference with its place in the text.** -/
structure Span where
  /-- The offset of the `@`. -/
  start : Nat
  /-- The offset at the end. -/
  stop : Nat
  /-- The reference. -/
  reference : Reference
  deriving DecidableEq, Repr

/-- The media type in the text behind its mark, unless it is nothing but punctuation. -/
def givenType? : Option (List Char) → Option (Option (List Char))
  | none => some none
  | some behind => do
    let (mediaType, _) ← splitPunctuation? (behind.takeWhile (· != ';'))
    return if mediaType = [] then none else some mediaType

/-- The reference in a match without a media type: it ends behind its path. -/
def Match.untyped? (m : Match) (path : List Char) : Option Span := do
  let (path, _) ← splitPunctuation? path
  return ⟨m.start, m.bodyStart + size path, ⟨path, none⟩⟩

/-- The reference in a match with a media type: it ends behind that. -/
def Match.typed (m : Match) (path mediaType : List Char) : Span :=
  ⟨m.start, m.bodyStart + size path + size typeMark + size mediaType, ⟨path, some mediaType⟩⟩

/-- **The reference in a match**, with its place in the text. -/
def Match.locate? (m : Match) : Option Span := do
  let (path, behind) ← splitMark? m.body
  match ← givenType? behind with
  | some mediaType => return m.typed path mediaType
  | none => m.untyped? path

/-- **What one pass of a search comes to.** -/
inductive Pass
  /-- There is no match. -/
  | nothing
  /-- The match names nothing, and the search goes on behind it. -/
  | skip (next : Nat)
  /-- There is a reference. -/
  | found (span : Span)
  deriving DecidableEq, Repr

/-- **One pass of a search** from an offset on. -/
def pass? (text : List Char) (cursor : Nat) : Option Pass := do
  match match? cursor (← Text.from? text cursor) with
  | none => return .nothing
  | some m =>
    let span ← m.locate?
    return if isBare span.reference.path then .skip m.stop else .found span

theorem le_start_of_match? {offset : Nat} {cs : List Char} {m : Match} (h : match? offset cs = some m) :
    offset ≤ m.start := by
  fun_induction match? offset cs with
  | case1 => cases h
  | case2 =>
    obtain rfl := Option.some.inj h
    exact Nat.le_refl _
  | case3 offset c cs _ ih => exact Nat.le_trans (Nat.le_add_right _ _) (ih h)

/-- **A pass that does not end the search** gets ahead. -/
theorem lt_of_pass?_skip {text : List Char} {cursor next : Nat} (h : pass? text cursor = some (.skip next)) :
    cursor < next := by
  obtain ⟨rest, -, h⟩ := Option.bind_eq_some_iff.mp h
  split at h
  · cases h
  · rename_i m found
    obtain ⟨span, -, h⟩ := Option.bind_eq_some_iff.mp h
    have ahead := le_start_of_match? found
    split at h
    · obtain rfl := Pass.skip.inj (Option.some.inj h)
      show cursor < m.start + 1 + size m.body
      omega
    · cases h

/-- **Search for the next reference** from an offset on; with it, the offset that the search has come to. -/
def next? (text : List Char) (cursor : Nat) : Option (Option Span × Nat) :=
  if cursor < size text then
    match h : pass? text cursor with
    | none => none
    | some .nothing => some (none, cursor)
    | some (.found span) => some (some span, cursor)
    | some (.skip next) =>
      have := lt_of_pass?_skip h
      next? text next
  else some (none, cursor)
termination_by size text - cursor

end Reference

end Dialogue
