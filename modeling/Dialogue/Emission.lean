import Dialogue.Inclusion
import Dialogue.Part
/-!
# `Dialogue.Emission` — collecting output.

A builder gathers parts in order. A value is nothing, a text, or an include; an include pushes its own parts
into the same builder, so that nesting disappears.
-/

namespace Dialogue

/-- **A part that was emitted**, before it is classified. -/
inductive Emitted
  | text (t : String)
  /-- A file, with the place of the expression that emitted it. -/
  | file (filename mediaType : String) (data : Bytes) (position : Option Position)
  deriving DecidableEq

/-- The part for an emitted part; a file name doubles as the text to fall back on. -/
def Part.ofEmitted : Emitted → Part
  | .text t => .text t
  | .file filename mediaType data _ => Part.ofFile filename filename mediaType data

/-- **What an expression hands over for output.** -/
inductive Emittable
  | absent
  | text (t : String)
  | inclusion (i : Inclusion)

/-- **A builder:** parts in order, the current position, and a list of diagnostics if it keeps one. -/
structure Emission where
  parts : List Emitted := []
  position : Option Position := none
  diagnostics : Option (List Diagnostic) := none

namespace Emission

/-- A builder that keeps diagnostics. -/
def withDiagnostics : Emission := { diagnostics := some [] }

/-- Append a text, unless it is empty. -/
def appendText (b : Emission) (t : String) : Emission :=
  if t.isEmpty then b else { b with parts := b.parts ++ [.text t] }

/-- Append a file at the current position. -/
def appendFile (b : Emission) (filename mediaType : String) (data : Bytes) : Emission :=
  { b with parts := b.parts ++ [.file filename mediaType data b.position] }

mutual

/-- Append what an include holds, from left to right. -/
def emitInclusion (b : Emission) : Inclusion → Emission
  | .binary filename mediaType data => b.appendFile filename mediaType data
  | .composite children => emitChildren b children

/-- Append children from left to right. -/
def emitChildren (b : Emission) : List (String ⊕ Inclusion) → Emission
  | [] => b
  | .inl t :: rest => emitChildren (b.appendText t) rest
  | .inr i :: rest => emitChildren (emitInclusion b i) rest

end

/-- **Append a value.** -/
def emit (b : Emission) : Emittable → Emission
  | .absent => b
  | .text t => b.appendText t
  | .inclusion i => b.emitInclusion i

/-- Record a diagnostic; the answer says whether the builder keeps any. -/
def pushDiagnostic (b : Emission) (d : Diagnostic) : Emission × Bool :=
  match b.diagnostics with
  | some ds => ({ b with diagnostics := some (ds ++ [d]) }, true)
  | none => (b, false)

/-- The diagnostics recorded so far. -/
def recorded (b : Emission) : List Diagnostic := b.diagnostics.getD []

end Emission

end Dialogue
