import Dialogue.Files.Memory
import Dialogue.Include.Resolver
import Dialogue.Proofs.Chunk.Locality
import Dialogue.Proofs.Text.Percent
/-!
# `Dialogue.Proofs.Include.Binary` — a reference in a text is a binary include.

A file gets into a message in two ways: as a reference in its text, which degrades to a warning, and as a binary
include, which fails. Main statement: a text that is nothing but a reference to a path, and a binary include of that
path with the same media type, ask for the same files in the same order and come to the same end.
-/

namespace Dialogue

namespace Reference

open Text (asciiCount asciiCount_append)

/-! ## §1 — the reference that a text is -/

/-- What stands behind the path of a reference. -/
def suffix : Option (List Char) → List Char
  | none => []
  | some mediaType => typeMark ++ mediaType

theorem raw_eq (r : Reference) : r.raw = '@' :: (r.path ++ suffix r.override) := by
  obtain ⟨path, override⟩ := r
  cases override with
  | none => exact congrArg ('@' :: ·) (List.append_nil path).symm
  | some mediaType => exact congrArg ('@' :: ·) (List.append_assoc path typeMark mediaType)

theorem suffix_injective : Function.Injective suffix := by
  intro a b same
  match a, b, same with
  | none, none, _ => rfl
  | some _, some _, same => exact congrArg some (List.append_cancel_left same)

/-- **The mark of a media type** does not occur in a reference before its place. -/
theorem first_mark {cs : List Char} {f : Found} (h : find? cs = some f) :
    (f.reference.override = none → ¬ typeMark <:+: f.reference.path) ∧
      (f.reference.override ≠ none → ¬ typeMark <:+: f.reference.path ++ typeMark.dropLast) := by
  obtain ⟨body, -, same, -⟩ := body_of_find? h
  rw [same]
  rcases ofBody_cases body with ⟨path, made, -, absent⟩ | ⟨path, mediaType, made, -, first, -⟩
  · rw [made]
    exact ⟨fun _ inside => absent (inside.trans (dropPunctuation_isPrefix path).isInfix), fun other => absurd rfl other⟩
  · rw [made]
    exact ⟨fun none => (Option.some_ne_none _ none).elim, fun _ => first⟩

/-- **A text is one reference:** if it reads as one whose path, without its escapes, is the path that it spells, then
the path has no escapes and the mark of the media type stands where it is spelled. -/
theorem eq_of_raw_eq {cs : List Char} {f : Found} (h : find? cs = some f) {r : Reference}
    (whole : f.reference.raw = r.raw) (named : (Text.Percent.decode f.reference.path).toList = r.path) :
    f.reference = r := by
  rw [raw_eq, raw_eq] at whole
  have whole := (List.cons.inj whole).2
  suffices same : f.reference.path = r.path by
    rw [same] at whole
    have given := suffix_injective (List.append_cancel_left whole)
    calc f.reference = ⟨f.reference.path, f.reference.override⟩ := rfl
      _ = ⟨r.path, r.override⟩ := by rw [same, given]
  rcases List.append_eq_append_iff.mp whole with ⟨more, longer, rest⟩ | ⟨more, longer, rest⟩
  · -- a longer path has the `;` of the mark in it, and no escape can stand for it
    cases more with
    | nil => rw [longer, List.append_nil]
    | cons c more =>
      exfalso
      have mark : c = ';' := by
        unfold suffix at rest
        split at rest
        · cases rest
        · exact (List.cons.inj rest).1.symm
      have fewer := Text.Percent.asciiCount_decode_le f.reference.path
      have one : asciiCount (';' :: more) = 1 + asciiCount more := Text.asciiCount_cons ';' more
      rw [named, longer, mark, asciiCount_append, one] at fewer
      omega
  · -- a shorter path leaves the mark to the path that was found
    cases more with
    | nil => rw [longer, List.append_nil]
    | cons c more =>
      exfalso
      obtain ⟨plain, typed⟩ := first_mark h
      cases spelled : r.override with
      | none =>
        rw [spelled] at rest
        cases rest
      | some mediaType =>
        rw [spelled] at rest
        have start : typeMark <+: c :: more ++ suffix f.reference.override := ⟨mediaType, rest⟩
        cases given : f.reference.override with
        | none =>
          rw [given, suffix, List.append_nil] at start
          refine plain given (start.isInfix.trans ?_)
          rw [longer]
          exact (List.suffix_append _ _).isInfix
        | some own =>
          rw [given, suffix, ← List.append_assoc, List.cons_append, List.cons_append,
            Text.prefix_cons_append_iff typeMark_ne_nil] at start
          refine typed (given ▸ Option.some_ne_none own) (start.isInfix.trans ?_)
          rw [longer, List.append_assoc]
          exact (List.suffix_append _ _).isInfix

/-- **A reference as it is written:** the path, and the media type if one is given. -/
def written (path : String) : (mediaType : Option String) → String
  | none => "@" ++ path
  | some mediaType => "@" ++ path ++ ";type=" ++ mediaType

theorem ofList_raw (path : String) (mediaType : Option String) :
    String.ofList (raw ⟨path.toList, mediaType.map String.toList⟩) = written path mediaType := by
  rw [← String.toList_inj, String.toList_ofList]
  cases mediaType with
  | none =>
    unfold written
    rw [String.toList_append]
    rfl
  | some mediaType =>
    unfold written
    rw [String.toList_append, String.toList_append, String.toList_append]
    rfl

end Reference

/-! ## §2 — a file as a part -/

/-- **The text to fall back on** is the part of what is unsupported, and matters for nothing else. -/
theorem Part.ofFile_cases (filename raw raw' mediaType : String) (data : Bytes) :
    (ofFile filename raw mediaType data = ofFile filename raw' mediaType data ∧
        (ofFile filename raw mediaType data).isUnsupported = false) ∨
      (ofFile filename raw mediaType data = .unsupported raw ∧
        ofFile filename raw' mediaType data = .unsupported raw') := by
  unfold ofFile
  dsimp only
  split
  · exact .inl ⟨rfl, rfl⟩
  · split
    · exact .inl ⟨rfl, rfl⟩
    · split
      · split
        · exact .inl ⟨rfl, rfl⟩
        · exact .inr ⟨rfl, rfl⟩
      · exact .inr ⟨rfl, rfl⟩

namespace Include

/-! ## §3 — what comes of a file -/

/-- **What can be wrong with a file.** -/
inductive Fault
  /-- It is not readable. -/
  | missing
  /-- Nothing yields a media type for it. -/
  | untyped
  /-- Reading it failed. -/
  | unread (message : String)

namespace Fault

/-- What a reference to the file at `q` tells. -/
def wording (q : Path) : Fault → String
  | missing => s!"file not readable: {q}"
  | untyped => s!"could not determine MIME type of {q}"
  | unread message => s!"failed to read {q}: {message}"

/-- How an include of the file at `q` fails. -/
def failure (q : Path) : Fault → Failure
  | missing => .fileNotFound q.toString
  | untyped => .mimeUndetermined q.toString
  | unread message => .readFailure q.toString message

theorem wording_injective (q : Path) : Function.Injective (wording q) := by
  intro a b same
  have same := congrArg String.toList same
  -- wordings of different kinds differ within their first two characters
  cases a <;> cases b <;> unfold wording at same <;> simp only [String.toList_append] at same <;> try cases same
  · rfl
  · rfl
  · exact congrArg unread (String.toList_injective (List.append_cancel_left same))

theorem failure_injective (q : Path) : Function.Injective (failure q) := by
  intro a b same
  cases a <;> cases b <;> cases same <;> rfl

end Fault

/-- **What comes of the file at `q`**, named `path`: on the left for a reference that reads `raw`, on the right for a
binary include. -/
inductive Agree (path raw : String) (q : Path) : FileChunk → Answer → Prop
  | loaded (mediaType : String) (data : Bytes) :
    Agree path raw q ⟨path, raw, some data, some mediaType, true, none⟩ (.ok (.binary path mediaType data))
  | faulty (fault : Fault) :
    Agree path raw q ⟨path, raw, none, none, false, some (fault.wording q)⟩ (.error (fault.failure q))

/-- **Loading a reference and including its file** ask the same questions and agree. -/
theorem load_agree (files : FileAccess) (r : Resolver) (ref : Reference) :
    let path := Text.Percent.decode ref.path
    let answer := r.fetch files ⟨path, ⟨true, ref.override.map String.ofList⟩⟩
    (Chunk.load files r.dir ref).accesses = answer.accesses ∧
      Agree path (String.ofList ref.raw) (r.target path) (Chunk.load files r.dir ref).value answer.value := by
  intro path answer
  have same : Chunk.target r.dir path = r.target path := rfl
  have fetched : answer = files.isReadable (r.target path) >>= fun readable =>
      if !readable then pure (.error (.fileNotFound (r.target path).toString))
      else Resolver.binary files ⟨path, ⟨true, ref.override.map String.ofList⟩⟩ (r.target path) := rfl
  rw [fetched]
  unfold Chunk.load Chunk.readFile Resolver.binary FileAccess.isReadable FileAccess.readBytes Logged.ask
  dsimp only
  rw [same]
  cases readable : files.provider.isReadable (r.target path) with
  | false => exact ⟨rfl, .faulty .missing⟩
  | true =>
    cases typed : files.detector.resolve (r.target path) (ref.override.map String.ofList) with
    | none => exact ⟨rfl, .faulty .untyped⟩
    | some mediaType =>
      dsimp only
      cases read : files.provider.readBytes (r.target path) with
      | error e => exact ⟨rfl, .faulty (.unread e.message)⟩
      | ok data => exact ⟨rfl, .loaded mediaType data⟩

/-- **The same end** of a text `raw` that is one reference and of a binary include of `path`, both of which lead to the
file at `q`: the chunks of the text, the reference among them, and the answer to the include. -/
structure SameEnd (path raw : String) (q : Path) (chunks : List Chunk) (f : FileChunk) (answer : Answer) : Prop where
  /-- The reference is loaded with a media type and bytes just when these are included. -/
  loaded : ∀ mediaType data, (f.readable = true ∧ f.mediaType = some mediaType ∧ f.content = some data) ↔
    answer = .ok (.binary path mediaType data)
  /-- Nothing else is included. -/
  included : ∀ i, answer = .ok i → ∃ mediaType data, i = .binary path mediaType data
  /-- What is included is emitted as the part that the reference becomes, but for the text to fall back on. -/
  part : ∀ i, answer = .ok i → ∃ part, (Part.classify chunks).1 = [part] ∧
    ∀ b : Emission, ∃ e, (b.emit (.inclusion i)).parts = b.parts ++ [e] ∧
      ((part.isUnsupported = false ∧ Part.ofEmitted e = part) ∨
        (part = .unsupported raw ∧ Part.ofEmitted e = .unsupported path))
  /-- The reference tells what is wrong with the file just when the include fails for that. -/
  fault : ∀ fault : Fault, f.error = some (fault.wording q) ↔ answer = .error (fault.failure q)
  /-- Nothing else goes wrong, and what is wrong with the file leaves the reference unreadable. -/
  faulty : ∀ e, answer = .error e → f.readable = false ∧ ∃ fault : Fault, e = fault.failure q

theorem Agree.sameEnd {path raw : String} {q : Path} {f : FileChunk} {answer : Answer}
    (h : Agree path raw q f answer) (ws : List Warning) :
    SameEnd path raw q (.file f :: Chunk.warningChunk ws) f answer := by
  have parts : (Part.classify (.file f :: Chunk.warningChunk ws)).1 = [Part.ofFileChunk f] := by
    show Part.ofFileChunk f :: (Chunk.warningChunk ws).flatMap Part.ofChunk = _
    unfold Chunk.warningChunk
    split <;> rfl
  cases h with
  | loaded mediaType data =>
    refine ⟨fun m d => ⟨?_, ?_⟩, ?_, ?_, fun fault => ⟨nofun, nofun⟩, nofun⟩
    · rintro ⟨-, ⟨⟩, ⟨⟩⟩
      rfl
    · rintro ⟨⟩
      exact ⟨rfl, rfl, rfl⟩
    · rintro _ ⟨⟩
      exact ⟨mediaType, data, rfl⟩
    · rintro _ ⟨⟩
      refine ⟨_, parts, fun b => ⟨.file path mediaType data b.position, rfl, ?_⟩⟩
      rcases Part.ofFile_cases path raw path mediaType data with ⟨same, supported⟩ | unsupported
      · exact .inl ⟨supported, same.symm⟩
      · exact .inr unsupported
  | faulty fault =>
    refine ⟨fun m d => ⟨nofun, nofun⟩, nofun, nofun, fun other => ?_, ?_⟩
    · rw [Option.some_inj, (Fault.wording_injective q).eq_iff, Except.error.injEq, (Fault.failure_injective q).eq_iff]
    · rintro _ ⟨⟩
      exact ⟨rfl, fault, rfl⟩

/-! ## §4 — a text that is one reference -/

theorem load_filename (files : FileAccess) (dir : Option Path) (r : Reference) :
    (Chunk.load files dir r).value.filename = Text.Percent.decode r.path := by
  unfold Chunk.load
  rw [Logged.value_bind]
  split <;> rfl

/-- **A text that reads as one reference** whose path is the one that it spells is that reference. -/
theorem find?_written {files : FileAccess} {dir : Option Path} {path : String} {mediaType : Option String}
    {f : FileChunk} (one : Chunk.fileChunks (Chunk.read files dir (Reference.written path mediaType)).value = [f])
    (named : f.filename = path) (whole : f.raw = Reference.written path mediaType) :
    ∃ r : Reference, Reference.find? r.raw = some ⟨[], r, []⟩ ∧ String.ofList r.raw = Reference.written path mediaType ∧
      Text.Percent.decode r.path = path ∧ r.override.map String.ofList = mediaType ∧
      f = (Chunk.load files dir r).value := by
  have loaded := (Chunk.readFrom_references files dir [] (Reference.written path mediaType).toList).1
  unfold Chunk.read at one
  rw [one] at loaded
  cases h : Reference.find? (Reference.written path mediaType).toList with
  | none =>
    rw [Reference.inText_none h] at loaded
    cases loaded
  | some found =>
    rw [Reference.inText_some h, List.map_cons] at loaded
    have loaded : f = (Chunk.load files dir found.reference).value := (List.cons.inj loaded).1
    rw [loaded, load_filename] at named
    rw [loaded, (Chunk.load_settled files dir found.reference).2, ← Reference.ofList_raw, String.ofList_inj] at whole
    have same := Reference.eq_of_raw_eq h whole (congrArg String.toList named)
    refine ⟨found.reference, Reference.find?_raw h, ?_, named, ?_, loaded⟩
    · rw [whole, Reference.ofList_raw]
    · rw [same]
      cases mediaType with
      | none => rfl
      | some mediaType => exact congrArg some String.ofList_toList

/-- **A text that is one reference, and a binary include** of the path and with the media type that it spells, ask the
same questions in the same order and come to the same end. -/
theorem reference_agrees (files : FileAccess) (dir : Option Path) (stack : Stack) (path : String)
    (mediaType : Option String) {f : FileChunk}
    (one : Chunk.fileChunks (Chunk.read files dir (Reference.written path mediaType)).value = [f])
    (named : f.filename = path) (whole : f.raw = Reference.written path mediaType) :
    let chunks := Chunk.read files dir (Reference.written path mediaType)
    let resolver : Resolver := ⟨dir, stack⟩
    let answer := resolver.fetch files ⟨path, ⟨true, mediaType⟩⟩
    chunks.accesses = answer.accesses ∧
      SameEnd path (Reference.written path mediaType) (resolver.target path) chunks.value f answer.value := by
  intro chunks resolver answer
  obtain ⟨r, found, spelled, rfl, rfl, rfl⟩ := find?_written one named whole
  obtain ⟨asked, agree⟩ := load_agree files resolver r
  have read : chunks = ⟨.file (Chunk.load files dir r).value ::
      Chunk.warningChunk (Chunk.load files dir r).value.warning?.toList, (Chunk.load files dir r).accesses⟩ :=
    (congrArg (Chunk.read files dir) spelled.symm).trans (Chunk.read_raw files dir found)
  rw [read, ← spelled]
  exact ⟨asked, agree.sameEnd _⟩

/-- A reference with a media type of its own, to bytes that are no text. -/
theorem typed_reference_agrees :
    let m : Files.Memory := .ofList [(.ofString "/docs/a.bin", [0xFF])]
    let files : FileAccess := ⟨m.provider, .extensionTable, .rootDirectory, .stopped⟩
    let f : FileChunk := ⟨"./a.bin", "@./a.bin;type=text/plain", some [0xFF], some "text/plain", true, none⟩
    let chunks := Chunk.read files (some (.ofString "/docs")) (Reference.written "./a.bin" (some "text/plain"))
    let resolver : Resolver := ⟨some (.ofString "/docs"), {}⟩
    let answer := resolver.fetch files ⟨"./a.bin", ⟨true, some "text/plain"⟩⟩
    (Chunk.fileChunks chunks.value = [f] ∧ f.filename = "./a.bin" ∧
        f.raw = Reference.written "./a.bin" (some "text/plain")) ∧
      chunks.accesses = answer.accesses ∧
      SameEnd "./a.bin" (Reference.written "./a.bin" (some "text/plain")) (resolver.target "./a.bin") chunks.value f
        answer.value := by
  intro m files f chunks resolver answer
  have one : Chunk.fileChunks chunks.value = [f] ∧ f.filename = "./a.bin" ∧
      f.raw = Reference.written "./a.bin" (some "text/plain") := by decide +kernel
  exact ⟨one, reference_agrees files (some (.ofString "/docs")) {} "./a.bin" (some "text/plain") one.1 one.2.1 one.2.2⟩

end Include

end Dialogue
