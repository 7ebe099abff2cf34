import Dialogue.Part
import Dialogue.Proofs.Media.Essence
import Dialogue.Proofs.Text.Base64
/-!
# `Dialogue.Proofs.Part` — what files and messages are sent as.

The essence of a media type and the bytes of a file decide what the file is sent as, and nothing of the bytes is lost in
a part. Main statement: a message is sent as one part for each of its references and each piece of text, in order, and how
the media type of a file is spelled makes no difference.
-/

namespace Dialogue

/-- **A file that was loaded**, with its bytes and its media type. -/
structure FileChunk.Holds (f : FileChunk) (data : Bytes) (mediaType : String) : Prop where
  readable : f.readable = true
  content : f.content = some data
  mediaType : f.mediaType = some mediaType

namespace Part

/-! ## §1 — files -/

/-- A kind of image that can be sent. -/
def IsImage (essence : String) : Prop :=
  essence = "image/jpeg" ∨ essence = "image/png" ∨ essence = "image/webp" ∨ essence = "image/gif"

/-- The kind of document that can be sent. -/
def IsPdf (essence : String) : Prop := essence = "application/pdf"

/-- A kind of text. -/
def IsText (essence : String) : Prop := "text/".toList <+: essence.toList

/-- **A payload**, by itself and as a URL. -/
structure Carries (essence data dataUrl : String) (bytes : Bytes) : Prop where
  decoded : Text.Base64.decode? data.toList = some bytes
  url : dataUrl = "data:" ++ essence ++ ";base64," ++ data

/-- **What a file is sent as**, by the essence of its media type. -/
inductive Sent (filename raw mediaType : String) (bytes : Bytes) : Part → Prop
  | image {data url : String} (kind : IsImage (Media.essence mediaType))
    (payload : Carries (Media.essence mediaType) data url bytes) :
    Sent filename raw mediaType bytes (.image (Media.essence mediaType) data url filename)
  | pdf {data url : String} (kind : IsPdf (Media.essence mediaType))
    (payload : Carries (Media.essence mediaType) data url bytes) :
    Sent filename raw mediaType bytes (.pdf (Media.essence mediaType) data url filename)
  | textFile {text : String} (kind : IsText (Media.essence mediaType)) (payload : Text.Utf8.encode text = bytes) :
    Sent filename raw mediaType bytes (.textFile (Media.essence mediaType) text filename)
  | unsupported (noImage : ¬ IsImage (Media.essence mediaType)) (noPdf : ¬ IsPdf (Media.essence mediaType))
    (noText : IsText (Media.essence mediaType) → ∀ text, Text.Utf8.encode text ≠ bytes) :
    Sent filename raw mediaType bytes (.unsupported raw)

theorem contains_imageTypes {essence : String} : imageTypes.contains essence = true ↔ IsImage essence := by
  simp [imageTypes, IsImage]

theorem isTextType_iff {essence : String} : isTextType essence = true ↔ IsText essence := by
  have letters : "text/".toList = ['t', 'e', 'x', 't', '/'] := rfl
  unfold isTextType IsText
  rw [Option.isSome_iff_exists, letters]
  exact exists_congr fun rest => Text.after?_eq_some_iff.trans eq_comm

/-- The payload of a file is its bytes in base64. -/
theorem carries_iff {essence data url : String} {bytes : Bytes} : Carries essence data url bytes ↔
    data = Text.Base64.encodeString bytes ∧ url = dataUrl essence data := by
  have named : dataUrl essence data = "data:" ++ essence ++ ";base64," ++ data := rfl
  rw [named, Text.Base64.encodeString, ← String.toList_inj, String.toList_ofList, ← Text.Base64.decode?_eq_some_iff]
  exact ⟨fun h => ⟨h.decoded, h.url⟩, fun h => ⟨h.1, h.2⟩⟩

/-- An image is no document and no text. -/
theorem IsImage.excludes {essence : String} (h : IsImage essence) : ¬ IsPdf essence ∧ ¬ IsText essence := by
  unfold IsPdf IsText
  rcases h with rfl | rfl | rfl | rfl <;> decide

theorem IsPdf.not_isText {essence : String} (h : IsPdf essence) : ¬ IsText essence := by
  unfold IsText
  rw [h]
  decide

section

variable {filename raw mediaType : String} {bytes : Bytes}

/-- **The part for a file** is one that it can be sent as. -/
theorem sent_ofFile : Sent filename raw mediaType bytes (ofFile filename raw mediaType bytes) := by
  unfold ofFile
  dsimp only
  -- the kinds are tried in this order, and each is known not to be one of those before it
  split
  · rename_i image
    exact .image (contains_imageTypes.mp image) (carries_iff.mpr ⟨rfl, rfl⟩)
  · rename_i noImage
    rw [contains_imageTypes] at noImage
    split
    · rename_i pdf
      exact .pdf pdf (carries_iff.mpr ⟨rfl, rfl⟩)
    · rename_i noPdf
      split
      · rename_i isText
        split
        · rename_i text decoded
          exact .textFile (isTextType_iff.mp isText) (Text.Utf8.decode?_eq_some_iff.mp decoded)
        · rename_i broken
          exact .unsupported noImage noPdf fun _ => Text.Utf8.decode?_eq_none_iff.mp broken
      · rename_i noText
        exact .unsupported noImage noPdf fun isText => absurd (isTextType_iff.mpr isText) noText

/-- **A file can be sent as one part only.** -/
theorem Sent.unique {p q : Part} (h : Sent filename raw mediaType bytes p) (h' : Sent filename raw mediaType bytes q) :
    p = q := by
  cases h with
  | image kind payload =>
    cases h' with
    | image _ payload' =>
      obtain ⟨rfl, rfl⟩ := carries_iff.mp payload
      obtain ⟨rfl, rfl⟩ := carries_iff.mp payload'
      rfl
    | pdf pdf => exact absurd pdf kind.excludes.1
    | textFile isText => exact absurd isText kind.excludes.2
    | unsupported noImage => exact absurd kind noImage
  | pdf kind payload =>
    cases h' with
    | image image => exact absurd kind image.excludes.1
    | pdf _ payload' =>
      obtain ⟨rfl, rfl⟩ := carries_iff.mp payload
      obtain ⟨rfl, rfl⟩ := carries_iff.mp payload'
      rfl
    | textFile isText => exact absurd isText kind.not_isText
    | unsupported _ noPdf => exact absurd kind noPdf
  | @textFile text kind payload =>
    cases h' with
    | image image => exact absurd kind image.excludes.2
    | pdf pdf => exact absurd kind pdf.not_isText
    | @textFile text' _ payload' =>
      have same := Text.Utf8.encode_injective (payload.trans payload'.symm)
      rw [same]
    | unsupported _ _ noText => exact absurd payload (noText kind text)
  | unsupported noImage noPdf noText =>
    cases h' with
    | image image => exact absurd image noImage
    | pdf pdf => exact absurd pdf noPdf
    | @textFile text isText payload => exact absurd payload (noText isText text)
    | unsupported => rfl

end

/-- The spelling of a media type does not matter, only its essence. -/
theorem ofFile_of_spells (filename raw : String) (bytes : Bytes) {type : List Char} {m m' : String}
    (h : Media.Spells type m) (h' : Media.Spells type m') :
    ofFile filename raw m bytes = ofFile filename raw m' bytes := by
  have same : Media.essence m = Media.essence m' := by
    rw [Media.essence_of_spells h, Media.essence_of_spells h']
  unfold ofFile
  rw [same]

/-! ## §2 — messages -/

/-- **The part for a reference:** what its file is sent as, or the reference itself when no file was loaded. -/
inductive ForFile (f : FileChunk) : Part → Prop
  | loaded {bytes : Bytes} {mediaType : String} {p : Part} (holds : f.Holds bytes mediaType)
    (sent : Sent f.filename f.raw mediaType bytes p) : ForFile f p
  | missing (nothing : ∀ bytes mediaType, ¬ f.Holds bytes mediaType) : ForFile f (.unsupported f.raw)

theorem forFile_ofFileChunk (f : FileChunk) : ForFile f (ofFileChunk f) := by
  unfold ofFileChunk
  split
  · rename_i data mediaType readable content known
    exact .loaded ⟨readable, content, known⟩ sent_ofFile
  · rename_i other
    exact .missing fun bytes mediaType holds => other bytes mediaType holds.readable holds.content holds.mediaType

/-- **There is one part for a reference.** -/
theorem forFile_iff {f : FileChunk} {p : Part} : ForFile f p ↔ ofFileChunk f = p := by
  refine ⟨fun h => ?_, fun h => h ▸ forFile_ofFileChunk f⟩
  -- any part for the reference is compared with the one that it gets
  have found := forFile_ofFileChunk f
  generalize ofFileChunk f = q at found
  cases found with
  | loaded holds sent =>
    cases h with
    | loaded holds' sent' =>
      obtain rfl := Option.some.inj (holds.content.symm.trans holds'.content)
      obtain rfl := Option.some.inj (holds.mediaType.symm.trans holds'.mediaType)
      exact sent.unique sent'
    | missing nothing => exact absurd holds (nothing _ _)
  | missing nothing =>
    cases h with
    | loaded holds => exact absurd holds (nothing _ _)
    | missing => rfl

/-- **The spelling of a media type** makes no difference to the part for a reference. -/
theorem ofFileChunk_of_spells (f : FileChunk) {type : List Char} {m m' : String} (h : Media.Spells type m)
    (h' : Media.Spells type m') :
    ofFileChunk { f with mediaType := some m } = ofFileChunk { f with mediaType := some m' } := by
  obtain ⟨filename, raw, content, mediaType, readable, error⟩ := f
  cases readable with
  | false => rfl
  | true =>
    cases content with
    | none => rfl
    | some data =>
      have part (m : String) :
          ofFileChunk ⟨filename, raw, some data, some m, true, error⟩ = ofFile filename raw m data := rfl
      dsimp only
      rw [part, part]
      exact ofFile_of_spells filename raw data h h'

/-- References have a part, and so has text if there is any. -/
def hasPart : Chunk → Bool
  | .text value => value ≠ ""
  | .file _ => true
  | .warnings _ => false

/-- The warnings in a chunk of warnings. -/
def entries? : Chunk → Option (List Warning)
  | .warnings entries => some entries
  | _ => none

/-- **The part for a chunk** that has one. -/
inductive ForChunk : Chunk → Part → Prop
  | text (value : String) : ForChunk (.text value) (.text value)
  | file {f : FileChunk} {p : Part} (part : ForFile f p) : ForChunk (.file f) p

/-- **One part for each chunk that has one**, in order. -/
theorem forall₂_ofChunk (chunks : List Chunk) :
    List.Forall₂ ForChunk (chunks.filter hasPart) (chunks.flatMap ofChunk) := by
  induction chunks with
  | nil => exact .nil
  | cons chunk rest ih =>
    cases chunk with
    | text value =>
      by_cases empty : value = ""
      · subst empty
        exact ih
      · have counts : hasPart (.text value) = true := decide_eq_true empty
        have part : ofChunk (.text value) = [.text value] := if_neg (by rwa [String.isEmpty_iff])
        rw [List.filter_cons_of_pos counts, List.flatMap_cons, part]
        exact .cons (.text value) ih
    | file f => exact .cons (.file (forFile_ofFileChunk f)) ih
    | warnings entries => exact ih

theorem flatten_entries (chunks : List Chunk) : (chunks.filterMap entries?).flatten = (classify chunks).2 := by
  induction chunks with
  | nil => rfl
  | cons chunk rest ih =>
    cases chunk with
    | text value => exact ih
    | file f => exact ih
    | warnings entries => exact congrArg (entries ++ ·) ih

/-- **A message is sent as it stands.** There is one part for each reference and each piece of text that is not empty, in
order, and the warnings are those of all chunks of warnings, in order. What a reference is sent as is fixed by the essence
of its media type: one of four kinds of image, a document or a kind of text, from whose payload the bytes of the file come
back, and in every other case the reference itself. The essence is the media type in lower case, without blanks around it
or parameters after it. So the spelling of a media type, in whatever case, between blanks and with any parameters, makes
no difference. -/
theorem classify_in_order (chunks : List Chunk) :
    List.Forall₂ ForChunk (chunks.filter hasPart) (classify chunks).1 ∧
    (classify chunks).2 = (chunks.filterMap entries?).flatten ∧
    (∀ (f : FileChunk) (p : Part), ForFile f p ↔ ofFileChunk f = p) ∧
    (∀ m, Media.Spells (Media.essence m).toList m ∧ ∀ type, Media.Spells type m →
      Media.essence m = String.ofList ((Text.trim type).map Char.toLower)) ∧
    ∀ (f : FileChunk) (type : List Char) (m m' : String), Media.Spells type m → Media.Spells type m' →
      ofFileChunk { f with mediaType := some m } = ofFileChunk { f with mediaType := some m' } :=
  ⟨forall₂_ofChunk chunks, (flatten_entries chunks).symm, fun _ _ => forFile_iff,
    fun m => ⟨Media.spells_essence m, fun _ => Media.essence_of_spells⟩, fun f _ _ _ h h' => ofFileChunk_of_spells f h h'⟩

/-- An image whose media type is written in capitals, with a blank before it and a parameter after it, between a text and
a file that is not there: it is sent as with the plain media type. -/
theorem shouted_image_in_order :
    let spelling := " Image/PNG ; q=1"
    let logo : FileChunk := ⟨"./logo", "@./logo;type=x", some [97, 98, 99], some spelling, true, none⟩
    let gone : FileChunk := ⟨"./gone", "@./gone", none, none, false, some "file not readable: ./gone"⟩
    let chunks : List Chunk := [.text "see ", .file logo, .text "", .file gone, .warnings [⟨"@./gone", "missing"⟩]]
    Media.Spells "image/png".toList spelling ∧ Media.Spells "image/png".toList "image/png" ∧
      List.Forall₂ ForChunk (chunks.filter hasPart)
        [.text "see ", .image "image/png" "YWJj" "data:image/png;base64,YWJj" "./logo", .unsupported "@./gone"] ∧
      ofFileChunk logo = ofFileChunk { logo with mediaType := some "image/png" } := by
  intro spelling logo gone chunks
  have blank : ∀ c ∈ [' '], Text.isBlank c = true := List.forall_mem_singleton.mpr rfl
  have whole : spelling = String.ofList ([' '] ++ "Image/PNG".toList ++ [' '] ++ "; q=1".toList) := rfl
  have shouted : Media.Spells "image/png".toList spelling := whole ▸
    @Media.Spells.intro _ [' '] "Image/PNG".toList [' '] "; q=1".toList blank (by decide) (by decide) blank (.inr rfl)
  have plain : Media.Spells "image/png".toList "image/png" := Media.spells_essence "image/png"
  have sent := (classify_in_order chunks).1
  have parts : (classify chunks).1 =
      [.text "see ", .image "image/png" "YWJj" "data:image/png;base64,YWJj" "./logo", .unsupported "@./gone"] := by decide
  rw [parts] at sent
  have same := (classify_in_order chunks).2.2.2.2 logo "image/png".toList spelling "image/png" shouted plain
  exact ⟨shouted, plain, sent, same⟩

end Part

end Dialogue
