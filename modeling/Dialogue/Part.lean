import Dialogue.Chunk
import Dialogue.Text.Base64
/-!
# `Dialogue.Part` — the content sequence that is sent on.

A file becomes an image, a document or a text file by the essence of its media type; whatever fits none of
these stays as the text of its reference.
-/

namespace Dialogue

/-- **One unit of content.** -/
inductive Part
  | text (text : String)
  /-- An image: its type, its base64 payload, the payload as a data URL, its file name. -/
  | image (mediaType data dataUrl filename : String)
  /-- A PDF document, with the same fields. -/
  | pdf (mediaType data dataUrl filename : String)
  | textFile (mediaType text filename : String)
  /-- What could not be turned into content. -/
  | unsupported (raw : String)
  deriving DecidableEq, Repr

namespace Part

/-- The image types that are sent as images. -/
def imageTypes : List String := ["image/jpeg", "image/png", "image/webp", "image/gif"]

/-- A payload as a data URL. -/
def dataUrl (mediaType data : String) : String := s!"data:{mediaType};base64,{data}"

/-- Is this a part that could not be turned into content? -/
def isUnsupported : Part → Bool
  | .unsupported _ => true
  | _ => false

/-- Does the essence name a kind of text? -/
def isTextType (essence : String) : Bool :=
  (Text.after? ['t', 'e', 'x', 't', '/'] essence.toList).isSome

/-- **The part for a file.** -/
def ofFile (filename raw mediaType : String) (data : Bytes) : Part :=
  let essence := Media.essence mediaType
  let payload := Text.Base64.encodeString data
  if imageTypes.contains essence then
    .image essence payload (dataUrl essence payload) filename
  else if essence = "application/pdf" then
    .pdf essence payload (dataUrl essence payload) filename
  else if isTextType essence then
    match Text.Utf8.decode? data with
    | some content => .textFile essence content filename
    | none => .unsupported raw
  else .unsupported raw

/-- The part for a reference. -/
def ofFileChunk (f : FileChunk) : Part :=
  match f.readable, f.content, f.mediaType with
  | true, some data, some mediaType => ofFile f.filename f.raw mediaType data
  | _, _, _ => .unsupported f.raw

/-- The parts of one chunk. -/
def ofChunk : Chunk → List Part
  | .text value => if value.isEmpty then [] else [.text value]
  | .file f => [ofFileChunk f]
  | .warnings _ => []

/-- **The parts of a message, and its warnings**, both in order. -/
def classify (chunks : List Chunk) : List Part × List Warning :=
  (chunks.flatMap ofChunk,
   chunks.flatMap fun
    | .warnings entries => entries
    | _ => [])

/-- A part as a JSON object. -/
def json : Part → Json
  | .text t => .obj [("type", .str "text"), ("text", .str t)]
  | .image m d u f => .obj [("type", .str "image"), ("mime_type", .str m), ("data", .str d),
      ("data_url", .str u), ("filename", .str f)]
  | .pdf m d u f => .obj [("type", .str "pdf"), ("mime_type", .str m), ("data", .str d),
      ("data_url", .str u), ("filename", .str f)]
  | .textFile m t f => .obj [("type", .str "text_file"), ("mime_type", .str m), ("text", .str t),
      ("filename", .str f)]
  | .unsupported r => .obj [("type", .str "unsupported_file"), ("raw_filename", .str r)]

end Part

end Dialogue
