import Dialogue.Path
/-!
# `Dialogue.Include.Stack` — the files that are being included.

Entries stand in the order of inclusion, outermost first. Two entries are the same file when their paths have
the same components.
-/

namespace Dialogue.Include

/-- **The chain of text includes under way**, outermost first. -/
structure Stack where
  /-- The files. -/
  paths : List Path := []
  deriving DecidableEq

namespace Stack

/-- A stack of one file, or of none. -/
def seeded (file : Option Path) : Stack := ⟨file.toList⟩

/-- Is the file on the stack? -/
def contains (s : Stack) (p : Path) : Bool := s.paths.any (·.same p)

/-- The stack with one more file. -/
def extended (s : Stack) (p : Path) : Stack := ⟨s.paths ++ [p]⟩

/-- The spellings of the entries, and of the path that closes a cycle. -/
def chainWith (s : Stack) (closing : Path) : List String :=
  (s.paths ++ [closing]).map Path.toString

/-- How many files are on the stack. -/
def depth (s : Stack) : Nat := s.paths.length

@[simp] theorem paths_extended (s : Stack) (p : Path) : (s.extended p).paths = s.paths ++ [p] := rfl

theorem contains_iff {s : Stack} {p : Path} :
    s.contains p = true ↔ ∃ q ∈ s.paths, q.components = p.components := by
  simp [contains, Path.same]

end Stack

end Dialogue.Include
