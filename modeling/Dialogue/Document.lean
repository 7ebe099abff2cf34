import Dialogue.Document.Failure
import Dialogue.Include.Resolver
import Dialogue.Part
/-!
# `Dialogue.Document` — chat documents made ready to send.

The script block of a document runs once; what it binds and defines is there in every message of the system or the
user, whose expressions are evaluated in place. File references count in the text of the user only. What the
assistant said is passed on as it is. The first script failure ends the preparation; a file that cannot be loaded
does not.
-/

namespace Dialogue.Document

open Script (Value Cell Function)

/-- **A message made ready.** -/
structure ReadyMessage where
  role : Role
  line : Nat
  parts : List Part

/-- **A document made ready.** -/
structure Prepared where
  messages : List ReadyMessage := []
  /-- The file references that could not be loaded. -/
  warnings : List Warning := []
  /-- The included files that cannot be sent on. -/
  diagnostics : List Diagnostic := []

/-- A message as a JSON object. -/
def ReadyMessage.json (m : ReadyMessage) : Json :=
  .obj [("role", .str m.role.name), ("line", .int m.line), ("parts", .arr (m.parts.map Part.json))]

/-- A document as a JSON object. -/
def Prepared.json (p : Prepared) : Json :=
  .obj [("messages", .arr (p.messages.map ReadyMessage.json)),
    ("warnings", .arr (p.warnings.map Warning.json)),
    ("diagnostics", .arr (p.diagnostics.map Diagnostic.json))]

/-- The language that script blocks are written in. -/
def scriptLanguage : String := "rhai"

/-- Work that uses files and shared cells. -/
abbrev Work := StateT (Array Cell) Logged

/-- **Run the script block** of a document, if it has one. It has the first readings of the clock. -/
def runFrontmatter (files : FileAccess) (file : String) (env : Environment) (t : Transcript) :
    Work (Except Failure (Bindings × Environment)) := do
  match t.frontmatter with
  | none => return .ok ([], env)
  | some block =>
    if block.language ≠ scriptLanguage then
      return .error (.unsupportedLanguage file block.language)
    let (r, env) ← env.executeAt files files.clock.first block.code
    match r with
    | .ok bindings => return .ok (bindings, env)
    | .error e => return .error (.frontmatter file e)

/-- **What the pieces of a message add up to.** -/
structure Gathered where
  parts : List Part := []
  warnings : List Warning := []
  diagnostics : List Diagnostic := []

/-- **A document that is being prepared:** its path, and what its script block left behind. -/
structure Setting where
  path : Path
  bindings : Bindings
  functions : List Function

/-- What the document is called in reports. -/
def Setting.file (s : Setting) : String := s.path.toString

/-- The environment of a document before its script block. -/
def bare (files : FileAccess) (path : Path) : Environment := .ofFile files.workingDirectory path

/-- A fresh environment for a message. -/
def Setting.environment (files : FileAccess) (s : Setting) : Environment :=
  ((bare files s.path).seed s.bindings).seedFunctions s.functions

/-- **Literal text of a message.** The system's is passed on as it is. -/
def literal (files : FileAccess) (s : Setting) (role : Role) (text : String) : Logged Gathered := do
  match role with
  | .system => return { parts := if text.isEmpty then [] else [.text text] }
  | _ =>
    let chunks ← Chunk.read files (bare files s.path).dir text
    let (parts, warnings) := Part.classify chunks
    return { parts, warnings }

/-- The report on an emitted file that cannot be sent on. -/
def unsupported? (file : String) (e : Emitted) : Option Diagnostic :=
  match e with
  | .text _ => none
  | .file name mediaType _ position =>
    if (Part.ofEmitted e).isUnsupported then
      some ⟨.unsupportedFile, file, name, s!"unsupported file type: {mediaType}", position⟩
    else none

/-- **A message that is being made ready:** its parts so far, what of its text could not be loaded, the builder that
its expressions emit into, and how many parts of the builder have been taken over. -/
structure Progress where
  parts : List Part := []
  warnings : List Warning := []
  builder : Emission := .withDiagnostics
  seen : Nat := 0

namespace Progress

/-- Literal text that was read. -/
def said (g : Progress) (read : Gathered) : Progress :=
  { g with parts := g.parts ++ read.parts, warnings := g.warnings ++ read.warnings }

/-- **Take over what the builder gained**, and record what of it cannot be sent on. -/
def drained (file : String) (g : Progress) : Progress :=
  let fresh := g.builder.parts.drop g.seen
  { g with
    parts := g.parts ++ fresh.map Part.ofEmitted
    builder := (fresh.filterMap (unsupported? file)).foldl (fun b d => (b.pushDiagnostic d).1) g.builder
    seen := g.builder.parts.length }

/-- **The value of an expression**, emitted at its position. -/
def shown (file : String) (position : Position) (g : Progress) (v : Value) : Progress :=
  { g with builder := { g.builder with position := some position }.emit (Environment.emittable v) }.drained file

/-- What the message has come to. -/
def gathered (g : Progress) : Gathered := ⟨g.parts, g.warnings, g.builder.recorded⟩

end Progress

/-- **The pieces of a message**, one after another, up to the first failure. Each expression has readings of the
clock of its own. -/
def collect (files : FileAccess) (s : Setting) (m : Message) (clock : Clock) (env : Environment) (g : Progress) :
    List (List Char × Segment) → Work (Except Failure Gathered)
  | [] => return .ok g.gathered
  | (_, .text t) :: rest => do
    let read ← literal files s m.role (String.ofList t)
    collect files s m clock env (g.said read) rest
  | (before, .expression code) :: rest => do
    let position := m.documentPosition before
    let (r, env) ← env.evaluateAt files clock.first (String.ofList code)
    match r with
    | .error e =>
      return .error (.expression s.file (String.ofList (Text.trim code)) position e)
    | .ok v => collect files s m clock.rest env (g.shown s.file position v) rest

/-- **A message made ready.** -/
def message (files : FileAccess) (s : Setting) (clock : Clock) (m : Message) : Work (Except Failure Gathered) := do
  match m.role with
  | .assistant => return .ok { parts := if m.content.isEmpty then [] else [.text m.content] }
  | _ =>
    collect files s m clock (s.environment files) {} (Segment.located [] (Segment.ofTemplate m.content.toList))

/-- Messages made ready, one after another. Each has readings of the clock of its own. -/
def messages (files : FileAccess) (s : Setting) (clock : Clock) :
    List Message → Work (Except Failure Prepared)
  | [] => return .ok {}
  | m :: rest => do
    match ← message files s clock.first m with
    | .error e => return .error e
    | .ok g =>
      return (← messages files s clock.rest rest).map fun p =>
        ⟨⟨m.role, m.line, g.parts⟩ :: p.messages, g.warnings ++ p.warnings,
          g.diagnostics ++ p.diagnostics⟩

/-- **Prepare a document**, whose text is `source`. -/
def prepare (files : FileAccess) (path : Path) (source : String) : Logged (Except Failure Prepared) :=
  let work : Work (Except Failure Prepared) := do
    match Transcript.parse source with
    | .error e => return .error (.transcript path.toString e)
    | .ok t =>
      match ← runFrontmatter files path.toString (bare files path) t with
      | .error e => return .error e
      | .ok (bindings, env) => messages files ⟨path, bindings, env.functions⟩ files.clock.rest t.messages
  return (← work.run #[]).1

/-- **The environment of a document** after its script block, for further expressions. -/
def environment (files : FileAccess) (path : Path) (source : String) :
    Work (Except Failure Environment) := do
  match Transcript.parse source with
  | .error e => return .error (.transcript path.toString e)
  | .ok t => return (← runFrontmatter files path.toString (bare files path) t).map (·.2)

end Dialogue.Document
