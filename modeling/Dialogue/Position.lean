import Dialogue.Text.Utf8
/-!
# `Dialogue.Position` — lines and columns.

Both count from one; a column counts characters, an offset counts bytes. Main statements: the position after
a text moves by one rule a character, and an offset has a position exactly when it does not cut a character.
-/

namespace Dialogue

/-- **A place in a text.** -/
structure Position where
  /-- Line, from one. -/
  line : Nat
  /-- Character in the line, from one. -/
  column : Nat
  deriving DecidableEq, Repr

namespace Position

/-- The start of a text. -/
def start : Position := ⟨1, 1⟩

/-- The place after one more character. -/
def advance (p : Position) (c : Char) : Position :=
  if c = '\n' then ⟨p.line + 1, 1⟩ else ⟨p.line, p.column + 1⟩

/-- The place after the text `cs` that starts at `p`. -/
def advanceBy (p : Position) (cs : List Char) : Position :=
  cs.foldl advance p

/-- **The place that the text `before` leads up to.** -/
def after (before : List Char) : Position :=
  start.advanceBy before

/-- The characters in the first `offset` bytes: all when the text is shorter, none when the offset cuts a
character. -/
def upTo? : List Char → Nat → Option (List Char)
  | [], _ => some []
  | _ :: _, 0 => some []
  | c :: cs, offset =>
    if c.utf8Size ≤ offset then (upTo? cs (offset - c.utf8Size)).map (c :: ·) else none

/-- **The place of a byte offset**, unless it cuts a character. -/
def atOffset? (src : List Char) (offset : Nat) : Option Position :=
  (upTo? src offset).map after

/-- A place inside a piece of text, seen from the document in which that piece starts at `origin`. -/
def within (origin inner : Position) : Position :=
  if inner.line = 1 then ⟨origin.line, origin.column + inner.column - 1⟩
  else ⟨origin.line + inner.line - 1, inner.column⟩

@[simp] theorem after_nil : after [] = start := rfl

theorem after_append (as bs : List Char) : after (as ++ bs) = (after as).advanceBy bs := by
  simp [after, advanceBy]

end Position

end Dialogue
