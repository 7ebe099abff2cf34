/-!
# `Dialogue.Clock` — the time that scripts can ask for.

A clock is given by all the readings that it will give. Work that comes in two pieces gives each of them readings of
its own, so that any readings that can be taken in the course of the work are those of some clock.
-/

namespace Dialogue

/-- **A moment**, in nanoseconds from a moment that nobody sees. -/
structure Instant where
  nanoseconds : Int
  deriving DecidableEq, Repr

/-- **The readings of a clock**, by where in the work they are taken: of two pieces of work, `false` leads into the
first, and `true` on to the second. -/
structure Clock where
  readingAt : List Bool → Instant

namespace Clock

/-- The next reading. -/
def reading (c : Clock) : Instant := c.readingAt []

/-- The readings for what is done first. -/
def first (c : Clock) : Clock := ⟨fun place => c.readingAt (false :: place)⟩

/-- The readings for what is done afterwards. -/
def rest (c : Clock) : Clock := ⟨fun place => c.readingAt (true :: place)⟩

/-- A clock that stands still. -/
def stopped : Clock := ⟨fun _ => ⟨0⟩⟩

end Clock

/-! ## Spans of time -/

namespace Instant

/-- How many nanoseconds a second has. -/
def second : Nat := 1000000000

/-- A number of nanoseconds in seconds. -/
def seconds (nanoseconds : Nat) : Float :=
  Float.ofNat (nanoseconds / second) + Float.ofNat (nanoseconds % second) / Float.ofNat second

/-- **The seconds from one moment to another**, negative if the other is earlier. -/
def until_ (earlier later : Instant) : Float :=
  if later.nanoseconds < earlier.nanoseconds then
    -(seconds (earlier.nanoseconds - later.nanoseconds).toNat)
  else seconds (later.nanoseconds - earlier.nanoseconds).toNat

/-- A moment so many nanoseconds later, if its seconds fit into a word. -/
def later? (t : Instant) (nanoseconds : Int) : Option Instant :=
  let moved := t.nanoseconds + nanoseconds
  let whole := moved.fdiv second
  if -Int.pow 2 63 ≤ whole ∧ whole < Int.pow 2 63 then some ⟨moved⟩ else none

end Instant

end Dialogue
