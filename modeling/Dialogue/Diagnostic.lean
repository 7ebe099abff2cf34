import Dialogue.Position
import Dialogue.Json
/-!
# `Dialogue.Diagnostic` — reports of what went wrong.

A diagnostic is one line of text or one JSON object. The object has two forms: with every field present, and
without the position when there is none.
-/

namespace Dialogue

/-- **What a diagnostic is about.** -/
inductive Diagnostic.Kind
  /-- A file reference in message text. -/
  | fileReference
  /-- An include. -/
  | include
  /-- A frontmatter block. -/
  | frontmatter
  /-- An expression. -/
  | expression
  /-- A file whose type cannot be sent on. -/
  | unsupportedFile
  deriving DecidableEq, Repr

/-- **A report.** -/
structure Diagnostic where
  /-- What it is about. -/
  kind : Diagnostic.Kind
  /-- The file it is against. -/
  file : String
  /-- The offending source text. -/
  raw : String
  /-- What went wrong. -/
  error : String
  /-- Where, when that is known. -/
  position : Option Position
  deriving DecidableEq, Repr

namespace Diagnostic

/-- The name of a kind. -/
def Kind.name : Kind → String
  | .fileReference => "file_reference"
  | .include => "include"
  | .frontmatter => "frontmatter"
  | .expression => "expression"
  | .unsupportedFile => "unsupported_file"

/-- The kind with a given name. -/
def Kind.ofName? (s : String) : Option Kind :=
  [.fileReference, .include, .frontmatter, .expression, .unsupportedFile].find? (·.name = s)

/-- **The report as one line.** -/
def text (d : Diagnostic) : String :=
  match d.position with
  | some p => s!"{d.file}:{p.line}:{p.column}: {d.error} ({d.raw})"
  | none => s!"{d.file}: {d.error} ({d.raw})"

/-- A position as an object, line first. -/
def positionJson (p : Position) : Json :=
  .obj [("line", .int p.line), ("column", .int p.column)]

/-- **The report as an object without absent fields**, in the order of the fields. -/
def json (d : Diagnostic) : Json :=
  .obj ([("type", .str d.kind.name), ("filename", .str d.file), ("raw", .str d.raw),
    ("error", .str d.error)] ++ (d.position.map fun p => ("position", positionJson p)).toList)

/-- **The report as an object with every field**, in alphabetical order. -/
def fullJson (d : Diagnostic) : Json :=
  .obj [
    ("error", .str d.error),
    ("filename", .str d.file),
    ("position", match d.position with
      | some p => .obj [("column", .int p.column), ("line", .int p.line)]
      | none => .null),
    ("raw", .str d.raw),
    ("type", .str d.kind.name)]

theorem Kind.ofName?_name (k : Kind) : Kind.ofName? k.name = some k := by
  cases k <;> decide

end Diagnostic

end Dialogue
