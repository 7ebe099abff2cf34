import Dialogue.Script.Operation
/-!
# `Dialogue.Script.Library.Outcome` — what the functions of the library yield.

A function yields a value, or fails. One that changes what it is called on also yields what that has become, and
so cannot be called on a constant.
-/

namespace Dialogue.Script.Library

/-- **What a function yields.** -/
structure Outcome where
  result : Value
  /-- What the first argument has become, if the function changes it. -/
  changed : Option Value := none

/-- The result of a function; `none` when it does not take these arguments. -/
abbrev Call := Option (Except Cause Outcome)

namespace Call

/-- A value. -/
def yields (v : Value) : Call := some (.ok ⟨v, none⟩)

/-- A text. -/
def text (s : String) : Call := yields (.str s)

/-- A whole number. -/
def count (n : Nat) : Call := yields (.int (Int64.ofNat n))

/-- A truth value. -/
def truth (b : Bool) : Call := yields (.bool b)

/-- A value, unless the function fails. -/
def attempt (r : Except Cause Value) : Call := some (r.map fun v => ⟨v, none⟩)

/-- The first argument has become another value. -/
def becomes (changed : Value) (v : Value) : Call := some (.ok ⟨v, some changed⟩)

/-- A function of something that not every argument has. -/
def given (a : Option α) (f : α → Call) : Call := a.bind f

end Call

/-- The place that an offset means in a sequence; a negative one counts from the end and stops at the start. -/
def offset (length : Nat) (n : Int64) : Nat :=
  let i := n.toInt
  if 0 ≤ i then i.toNat else length - (-i).toNat

theorem offset_le {length : Nat} {n : Int64} (h : n.toInt < 0) : offset length n ≤ length := by
  simp only [offset]
  split <;> omega

end Dialogue.Script.Library
