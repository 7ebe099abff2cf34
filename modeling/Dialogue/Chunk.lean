import Dialogue.Reference
import Dialogue.Text.Percent
import Dialogue.Files.Provider
import Dialogue.Diagnostic
/-!
# `Dialogue.Chunk` — message text cut into text, files and warnings.

A reader of chunks works on demand: each step looks only as far as it must to produce one chunk, and a file
is read inside the step that reaches its reference. What could not be loaded is reported once, at the end.
-/

namespace Dialogue

/-- **A reference that could not be loaded**, with the reason. -/
structure Warning where
  /-- The reference as it stands in the text. -/
  raw : String
  /-- The reason. -/
  error : String
  deriving DecidableEq, Repr

/-- The warning as one line. -/
def Warning.text (w : Warning) : String := s!"{w.raw}: {w.error}"

/-- The warning as a diagnostic against the document `file`. -/
def Warning.diagnostic (w : Warning) (file : String) : Diagnostic :=
  ⟨.fileReference, file, w.raw, w.error, none⟩

/-- The warning as a JSON object. -/
def Warning.json (w : Warning) : Json := .obj [("raw", .str w.raw), ("error", .str w.error)]

/-- **A file reference, loaded or not.** -/
structure FileChunk where
  /-- The path that the reference names. -/
  filename : String
  /-- The reference as it stands in the text. -/
  raw : String
  /-- The bytes of the file. -/
  content : Option Bytes
  /-- Its media type. -/
  mediaType : Option String
  /-- Was it loaded? -/
  readable : Bool
  /-- Why not. -/
  error : Option String
  deriving DecidableEq, Repr

/-- The warning that a reference gives rise to. -/
def FileChunk.warning? (f : FileChunk) : Option Warning :=
  f.error.map fun e => ⟨f.raw, e⟩

/-- The reference as a JSON object, without the bytes of the file. -/
def FileChunk.json (f : FileChunk) : Json :=
  .obj ([("type", .str "file"), ("filename", .str f.filename), ("raw_filename", .str f.raw),
    ("mime_type", (f.mediaType.map Json.str).getD .null), ("readable", .bool f.readable)] ++
    (f.error.map fun e => ("error", Json.str e)).toList)

/-- **One unit of message text.** -/
inductive Chunk
  /-- Text between references. -/
  | text (value : String)
  /-- A reference. -/
  | file (file : FileChunk)
  /-- All that could not be loaded. -/
  | warnings (entries : List Warning)
  deriving DecidableEq, Repr

namespace Chunk

/-- A chunk as a JSON object. -/
def json : Chunk → Json
  | .text value => .obj [("type", .str "text"), ("value", .str value)]
  | .file f => f.json
  | .warnings entries =>
    .obj [("type", .str "warnings"), ("entries", .arr (entries.map Warning.json))]

/-- The path to look at for a file named in a text that belongs to the directory `base`. -/
def target (base : Option Path) (filename : String) : Path :=
  match base with
  | some dir => dir.resolve (.ofString filename)
  | none => .ofString filename

/-- **Load the file at `p`:** its bytes and its media type, or what went wrong first. -/
def readFile (files : FileAccess) (p : Path) (override : Option String) :
    Logged (Except String (Bytes × String)) := do
  if !(← files.isReadable p) then
    return .error s!"file not readable: {p}"
  match files.detector.resolve p override with
  | none => return .error s!"could not determine MIME type of {p}"
  | some mediaType =>
    match ← files.readBytes p with
    | .error e => return .error s!"failed to read {p}: {e.message}"
    | .ok data => return .ok (data, mediaType)

/-- **Load a reference.** -/
def load (files : FileAccess) (base : Option Path) (r : Reference) : Logged FileChunk := do
  let raw := String.ofList r.raw
  let filename := Text.Percent.decode r.path
  match ← readFile files (target base filename) (r.override.map String.ofList) with
  | .ok (data, mediaType) => return ⟨filename, raw, some data, some mediaType, true, none⟩
  | .error e => return ⟨filename, raw, none, none, false, some e⟩

/-- A text chunk, unless there is no text. -/
def textChunk (cs : List Char) : List Chunk :=
  if cs = [] then [] else [.text (String.ofList cs)]

/-- The chunk of all warnings, unless there are none. -/
def warningChunk (ws : List Warning) : List Chunk :=
  if ws = [] then [] else [.warnings ws]

/-- **A reader of chunks**, between two steps. -/
structure Reader where
  /-- The text not yet looked at. -/
  rest : List Char
  /-- Chunks produced and not yet handed out. -/
  pending : List Chunk := []
  /-- What could not be loaded so far. -/
  failed : List Warning := []
  /-- Is the text used up? -/
  finished : Bool := false
  deriving Repr

/-- A reader at the start of `content`. -/
def Reader.start (content : String) : Reader := ⟨content.toList, [], [], false⟩

/-- Produce chunks from the next reference, or from the end of the text. -/
def Reader.fill (files : FileAccess) (base : Option Path) (r : Reader) : Logged Reader := do
  match Reference.find? r.rest with
  | some found =>
    let file ← load files base found.reference
    return ⟨found.after, textChunk found.before ++ [.file file],
      r.failed ++ file.warning?.toList, false⟩
  | none => return ⟨[], textChunk r.rest ++ warningChunk r.failed, [], true⟩

/-- **One step:** the next chunk, if there is one. -/
def Reader.next (files : FileAccess) (base : Option Path) (r : Reader) :
    Logged (Option Chunk × Reader) := do
  let ready ← if r.pending = [] ∧ r.finished = false then r.fill files base else pure r
  match ready.pending with
  | [] => return (none, ready)
  | c :: cs => return (some c, { ready with pending := cs })

/-- All chunks of a text, after the references in `failed` could not be loaded. -/
def readFrom (files : FileAccess) (base : Option Path) (failed : List Warning)
    (cs : List Char) : Logged (List Chunk) :=
  match h : Reference.find? cs with
  | none => pure (textChunk cs ++ warningChunk failed)
  | some found =>
    have := Reference.length_after_find? h
    do
      let file ← load files base found.reference
      let rest ← readFrom files base (failed ++ file.warning?.toList) found.after
      return textChunk found.before ++ .file file :: rest
termination_by cs.length

/-- **All chunks of a message.** References are seen from the directory `base`, if there is one. -/
def read (files : FileAccess) (base : Option Path) (content : String) : Logged (List Chunk) :=
  readFrom files base [] content.toList

end Chunk

end Dialogue
