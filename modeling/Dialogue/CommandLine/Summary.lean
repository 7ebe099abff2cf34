import Dialogue.Document
import Dialogue.Text.Quoted
/-!
# `Dialogue.CommandLine.Summary` — content in one line each.

A line names the kind of the content and what is to be said of it; text is quoted, and cut when it is long.
-/

namespace Dialogue.CommandLine

/-- The most characters of a text that are shown. -/
def previewLength : Nat := 60

/-- **A text in one line:** its beginning, in quotes. -/
def preview (s : String) : String :=
  let shown := s.toList.take previewLength
  let more := if previewLength < s.length then ['.', '.', '.'] else []
  Text.Quoted.text (String.ofList (shown ++ more))

/-- What is said of a file by its name, type and base64 payload. -/
def payloadSummary (filename mediaType data : String) : String :=
  s!"{filename} ({mediaType}, {data.length} base64 bytes)"

/-- **A part in one line.** -/
def partSummary : Part → String
  | .text t => "text        " ++ preview t
  | .image mediaType data _ filename => "image       " ++ payloadSummary filename mediaType data
  | .pdf mediaType data _ filename => "pdf         " ++ payloadSummary filename mediaType data
  | .textFile mediaType text filename =>
    "text_file   " ++ s!"{filename} ({mediaType}, {text.length} chars)"
  | .unsupported raw => "unsupported " ++ raw

/-- **A file reference in one line.** -/
def fileSummary (f : FileChunk) : String :=
  let found := match f.readable, f.mediaType with
    | true, some mediaType => mediaType
    | _, _ => "unreadable: " ++ f.error.getD "unknown error"
  s!"file  {f.raw} -> {f.filename} ({found})"

/-- **A chunk in one line.** Warnings have their own place. -/
def chunkSummary? : Chunk → Option String
  | .text value => some ("text  " ++ preview value)
  | .file f => some (fileSummary f)
  | .warnings _ => none

/-- **A message in a line of its own**, and a line for each part. -/
def messageSummary (m : Document.ReadyMessage) : List String :=
  s!"[{m.role.name}] line {m.line}" :: m.parts.map fun p => "  " ++ partSummary p

/-- Text is shown whole when it is short. -/
theorem preview_of_length_le (s : String) (h : s.length ≤ previewLength) :
    preview s = Text.Quoted.text s := by
  have hl : s.toList.length ≤ previewLength := by rw [String.length_toList]; exact h
  simp [preview, List.take_of_length_le hl, Nat.not_lt.2 h]

end Dialogue.CommandLine
