import Dialogue.Text.Split
/-!
# `Dialogue.Path` — file paths, their components and their normal form.

A path keeps the text it was written with; what it means is its list of components. Two paths are the same
when their components are. Normalizing resolves `.` and `..` without looking at any file system; resolving
joins and normalizes.
-/

namespace Dialogue

/-- **One step of a path.** -/
inductive Path.Component
  /-- The root directory, first if at all. -/
  | root
  /-- A leading `.`. -/
  | here
  /-- A `..`. -/
  | up
  /-- A name. -/
  | name (text : List Char)
  deriving DecidableEq, Repr

/-- **A path as it was written.** -/
structure Path where
  /-- The spelling. -/
  text : List Char
  deriving DecidableEq, Repr

namespace Path

open Component

/-- The path spelled `s`. -/
def ofString (s : String) : Path := ⟨s.toList⟩

/-- The spelling as a string. -/
def toString (p : Path) : String := String.ofList p.text

/-- The root of all directories. -/
def rootDirectory : Path := ⟨['/']⟩

instance : ToString Path := ⟨Path.toString⟩

/-- Does the path start at the root? -/
def isAbsolute (p : Path) : Bool :=
  p.text.head? == some '/'

/-- What a piece between separators contributes: nothing when it is empty or a `.` inside the path. -/
def Component.ofPiece? (piece : List Char) : Option Component :=
  if piece = [] ∨ piece = ['.'] then none
  else if piece = ['.', '.'] then some up
  else some (name piece)

/-- **The components of a path.** Repeated and trailing separators and inner `.` do not count. -/
def components (p : Path) : List Component :=
  let pieces := Text.splitAt '/' p.text
  let body := pieces.filterMap ofPiece?
  if p.isAbsolute then root :: body
  else if pieces.head? = some ['.'] then here :: body
  else body

/-- Do two paths have the same components? -/
def same (p q : Path) : Bool :=
  p.components = q.components

/-- The spelling of a component. -/
def Component.text : Component → List Char
  | root => []
  | here => ['.']
  | up => ['.', '.']
  | name t => t

/-- The plainest path with the given components; `.` when there are none. -/
def ofComponents (cs : List Component) : Path :=
  match cs with
  | [] => ⟨['.']⟩
  | [root] => ⟨['/']⟩
  | cs => ⟨Text.joinWith '/' (cs.map Component.text)⟩

/-- One step of normalizing, on the components so far with the last one first. A `..` takes back a name,
stays at the root, and is kept where there is nothing to take back. -/
def normalStep (stack : List Component) (c : Component) : List Component :=
  match c, stack with
  | here, _ => stack
  | up, name _ :: below => below
  | up, root :: _ => stack
  | c, _ => c :: stack

/-- The components of the normal form. -/
def normalComponents (cs : List Component) : List Component :=
  (cs.foldl normalStep []).reverse

/-- **The normal form of a path.** -/
def normalize (p : Path) : Path :=
  ofComponents (normalComponents p.components)

/-- **`q` seen from `p`.** An absolute `q` stands for itself. -/
def join (p q : Path) : Path :=
  if q.isAbsolute then q
  else if p.text = [] ∨ p.text.getLast? = some '/' then ⟨p.text ++ q.text⟩
  else ⟨p.text ++ '/' :: q.text⟩

/-- The normal form of `q` seen from `p`. -/
def resolve (p q : Path) : Path :=
  (p.join q).normalize

/-- Is the piece at `index` (counted from the front) a component of its path? -/
def isStep (absolute : Bool) (index : Nat) (piece : List Char) : Bool :=
  (ofPiece? piece).isSome || (index = 0 && !absolute && piece = ['.'])

/-- Pieces, last first, from the last one on that is a component. -/
def dropFiller (absolute : Bool) : List (List Char) → List (List Char)
  | [] => []
  | piece :: before =>
    if isStep absolute before.length piece then piece :: before
    else dropFiller absolute before

/-- **The path without its last component**, spelled as far as it goes. The root and the empty path have no
parent. -/
def parent? (p : Path) : Option Path :=
  let absolute := p.isAbsolute
  match dropFiller absolute (Text.splitAt '/' p.text).reverse with
  | [] => none
  | _ :: before =>
    match dropFiller absolute before with
    | [] => some (if absolute then ⟨['/']⟩ else ⟨[]⟩)
    | kept => some ⟨Text.joinWith '/' kept.reverse⟩

/-- The last component, when it is a name. -/
def fileName? (p : Path) : Option (List Char) :=
  match p.components.getLast? with
  | some (name t) => some t
  | _ => none

/-- What follows the last dot of the file name; a name that only starts with a dot has no extension. -/
def extension? (p : Path) : Option (List Char) := do
  let file ← p.fileName?
  let pieces := Text.splitAt '.' file
  match pieces.reverse with
  | ext :: before =>
    if before = [] ∨ before = [[]] then none else some ext
  | [] => none

theorem same_iff {p q : Path} : p.same q = true ↔ p.components = q.components := by
  simp [same]

@[simp] theorem same_refl (p : Path) : p.same p = true := by simp [same]

end Path

end Dialogue
