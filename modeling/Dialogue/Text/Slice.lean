import Dialogue.Text.Utf8
/-!
# `Dialogue.Text.Slice` — pieces of a text by byte offsets.

An offset counts the bytes before a place. Where it cuts a character, or lies beyond the end, there is no such place,
and no piece of the text starts or ends there.
-/

namespace Dialogue.Text

/-- **A byte offset that cuts no character** of the text. -/
def IsBoundary (cs : List Char) (offset : Nat) : Prop :=
  ∃ before, before <+: cs ∧ Utf8.size before = offset

/-- **The text before and after a byte offset.** -/
def divide? : List Char → Nat → Option (List Char × List Char)
  | cs, 0 => some ([], cs)
  | [], _ + 1 => none
  | c :: cs, offset + 1 =>
    if c.utf8Size ≤ offset + 1 then
      (divide? cs (offset + 1 - c.utf8Size)).map fun (before, after) => (c :: before, after)
    else none

/-- The text from a byte offset on. -/
def from? (cs : List Char) (start : Nat) : Option (List Char) :=
  (divide? cs start).map Prod.snd

/-- **The text between two byte offsets.** -/
def slice? (cs : List Char) (start stop : Nat) : Option (List Char) := do
  let (before, _) ← divide? cs stop
  from? before start

end Dialogue.Text
