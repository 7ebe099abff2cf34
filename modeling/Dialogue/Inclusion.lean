import Dialogue.Text.Utf8
/-!
# `Dialogue.Inclusion` — what an include yields.

A binary include is the bytes of a file; a text include is its literal text and the values of its
expressions, in source order, each of which may be an include again.
-/

namespace Dialogue

/-- **The outcome of an include.** -/
inductive Inclusion
  /-- The bytes of a file. -/
  | binary (filename mediaType : String) (data : Bytes)
  /-- Text and further includes. -/
  | composite (children : List (String ⊕ Inclusion))

namespace Inclusion

mutual

/-- **The text form:** literal text as it is, a binary include by its file name. -/
def text : Inclusion → String
  | binary filename _ _ => filename
  | composite children => childrenText children

/-- The text forms of children, one after the other. -/
def childrenText : List (String ⊕ Inclusion) → String
  | [] => ""
  | .inl t :: rest => t ++ childrenText rest
  | .inr i :: rest => i.text ++ childrenText rest

end

/-- **A leaf:** a text that is not empty, or a binary include. -/
inductive Leaf
  | text (t : String)
  | binary (filename mediaType : String) (data : Bytes)
  deriving DecidableEq

/-- The leaf of a literal text, unless it is empty. -/
def textLeaf (t : String) : List Leaf := if t.isEmpty then [] else [.text t]

mutual

/-- **The leaves from left to right.** -/
def leaves : Inclusion → List Leaf
  | binary filename mediaType data => [.binary filename mediaType data]
  | composite children => childrenLeaves children

/-- The leaves of children. -/
def childrenLeaves : List (String ⊕ Inclusion) → List Leaf
  | [] => []
  | .inl t :: rest => textLeaf t ++ childrenLeaves rest
  | .inr i :: rest => i.leaves ++ childrenLeaves rest

end

end Inclusion

end Dialogue
