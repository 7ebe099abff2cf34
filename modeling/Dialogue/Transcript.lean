import Dialogue.Text.Blank
import Dialogue.Text.Split
import Dialogue.Position
/-!
# `Dialogue.Transcript` — chat documents.

A document may start with a fenced script block. After it come messages, each introduced by a role marker at
the start of a line; text before the first marker is a message of the user.
-/

namespace Dialogue

/-- **Who a message is from.** -/
inductive Role
  | system
  | you
  | assistant
  deriving DecidableEq, Repr

namespace Role

/-- The name of a role. -/
def name : Role → String
  | system => "system"
  | you => "you"
  | assistant => "assistant"

/-- The marker that introduces a message. -/
def marker : Role → List Char
  | system => "@System:".toList
  | you => "@You:".toList
  | assistant => "@Assistant:".toList

/-- The role whose marker a line starts with, and the rest of the line. -/
def ofLine? (line : List Char) : Option (Role × List Char) :=
  [system, you, assistant].findSome? fun r => (Text.after? r.marker line).map ((r, ·))

end Role

/-- **The script block at the top of a document.** -/
structure Frontmatter where
  /-- The word after the opening fence. -/
  language : String
  /-- The lines between the fences. -/
  code : String
  /-- The line of the opening fence. -/
  line : Nat
  deriving DecidableEq, Repr

/-- **A message.** -/
structure Message where
  role : Role
  /-- The text, trimmed. -/
  content : String
  /-- The line of the marker, or of the first line when there is none. -/
  line : Nat
  /-- Where the text starts. -/
  contentStart : Position
  deriving DecidableEq, Repr

/-- **A chat document.** -/
structure Transcript where
  frontmatter : Option Frontmatter
  messages : List Message
  deriving DecidableEq, Repr

/-- **Why a text is no chat document.** -/
inductive TranscriptError
  /-- The script block that starts at `line` has no closing fence. -/
  | unterminatedFrontmatter (line : Nat)
  deriving DecidableEq, Repr

/-- The wording of the error. -/
def TranscriptError.message : TranscriptError → String
  | .unterminatedFrontmatter line => s!"line {line}: frontmatter block is never closed"

namespace Transcript

/-- Three back-ticks. -/
def fence : List Char := ['`', '`', '`']

/-- The language of an opening fence. -/
def openingFence? (line : List Char) : Option (List Char) :=
  match Text.after? fence (Text.trimEnd line) with
  | none => none
  | some rest =>
    let language := Text.trim rest
    if language = [] then none else some language

/-- Is the line a closing fence? -/
def isClosingFence (line : List Char) : Bool :=
  Text.trimEnd line = fence

/-- The lines before the first closing fence, and those after it. -/
def toFence? : List (List Char) → Option (List (List Char) × List (List Char))
  | [] => none
  | line :: rest =>
    if isClosingFence line then some ([], rest)
    else (toFence? rest).map fun (code, after) => (line :: code, after)

/-- A message being read: its role, its text so far and where that starts. -/
structure Draft where
  role : Role
  raw : List Char
  start : Position

/-- **The finished message.** The text is trimmed, and the place of its first character is where trimming
leaves it. -/
def Draft.message (d : Draft) : Message where
  role := d.role
  content := String.ofList (Text.trim d.raw)
  line := d.start.line
  contentStart := d.start.advanceBy (d.raw.takeWhile Text.isBlank)

/-- The messages of the lines from line `number` on, with the message that is being read. -/
def messagesFrom (number : Nat) (draft : Draft) : List (List Char) → List Message
  | [] => [draft.message]
  | line :: rest =>
    match Role.ofLine? line with
    | some (role, raw) =>
      draft.message ::
        messagesFrom (number + 1) ⟨role, raw, ⟨number, role.marker.length + 1⟩⟩ rest
    | none => messagesFrom (number + 1) { draft with raw := draft.raw ++ line } rest

/-- **The messages of the lines from line `number` on.** Text before the first marker counts only when it is
not blank. -/
def bodyMessages (number : Nat) (lines : List (List Char)) : List Message :=
  let isText := fun line => (Role.ofLine? line).isNone
  let preamble := (lines.takeWhile isText).flatten
  let marked := lines.dropWhile isText
  let first := if Text.trim preamble = [] then [] else
    [(⟨.you, preamble, ⟨number, 1⟩⟩ : Draft).message]
  let number := number + (lines.takeWhile isText).length
  match marked with
  | [] => first
  | line :: rest =>
    match Role.ofLine? line with
    | none => first
    | some (role, raw) =>
      first ++ messagesFrom (number + 1) ⟨role, raw, ⟨number, role.marker.length + 1⟩⟩ rest

/-- **Read a document.** -/
def parse (src : String) : Except TranscriptError Transcript :=
  let lines := Text.lines src.toList
  match lines with
  | [] => .ok ⟨none, []⟩
  | first :: rest =>
    match openingFence? first with
    | none => .ok ⟨none, bodyMessages 1 lines⟩
    | some language =>
      match toFence? rest with
      | none => .error (.unterminatedFrontmatter 1)
      | some (code, after) =>
        .ok ⟨some ⟨String.ofList language, String.ofList code.flatten, 1⟩,
          bodyMessages (code.length + 3) after⟩

end Transcript

/-- The place in the document of the characters that `before` leads up to in a message. -/
def Message.documentPosition (m : Message) (before : List Char) : Position :=
  Position.within m.contentStart (Position.after before)

end Dialogue
