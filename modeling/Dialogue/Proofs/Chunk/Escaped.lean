import Dialogue.Proofs.Chunk.Locality
import Dialogue.Proofs.Text.Spelling
/-!
# `Dialogue.Proofs.Chunk.Escaped` — every file name can be referenced.

A name whose bytes are all escaped holds no blank, no `;` and no `@`, and does not end in punctuation, whatever the name
itself holds. Between blanks it is therefore one reference from its first character to its last. Main statement: spellings
are decoded to the name they spell, and a text in which a name stands escaped has a chunk for the file of that name.
-/

namespace Dialogue

/-! ## §1 — an escaped name in text -/

namespace Reference

open Text (isBlank)
open Text.Percent (IsDigit Escapes)

section

variable {bytes : Bytes} {written : List Char}

/-- A digit may stand anywhere in a name, the end included. -/
theorem isRunChar_of_isDigit {value : Nat} {c : Char} (h : IsDigit value c) (small : value < 16) :
    isRunChar c = true ∧ isPunctuation c = false := by
  have all : ∀ v : Fin 16, [Nat.digitChar v, (Nat.digitChar v).toUpper].all (fun c =>
      isRunChar c = true ∧ isPunctuation c = false) := by
    decide
  exact of_decide_eq_true (List.all_eq_true.mp (all ⟨value, small⟩) c (by simpa [IsDigit] using h))

theorem isRunChar_of_escapes (h : Escapes bytes written) : ∀ c ∈ written, isRunChar c = true := by
  induction h with
  | nil => exact List.forall_mem_nil _
  | @cons b _ _ _ _ first second _ ih =>
    have high := (isRunChar_of_isDigit first (by have := b.toNat_lt; omega)).1
    have low := (isRunChar_of_isDigit second (Nat.mod_lt _ (by decide))).1
    exact List.forall_mem_cons.mpr ⟨by decide, List.forall_mem_cons.mpr ⟨high, List.forall_mem_cons.mpr ⟨low, ih⟩⟩⟩

/-- The last character is a digit, and so no punctuation. -/
theorem dropPunctuation_escapes (h : Escapes bytes written) (some : bytes ≠ []) (front : List Char) :
    dropPunctuation (front ++ written) = front ++ written := by
  -- the escapes before the last one go over to what stands in front
  induction h generalizing front with
  | nil => exact absurd rfl some
  | @cons b bytes high low written first second rest ih =>
    cases rest with
    | nil =>
      have digit := (isRunChar_of_isDigit second (Nat.mod_lt _ (by decide))).2
      have last : front ++ ['%', high, low] = (front ++ ['%', high]) ++ [low] := by simp
      rw [last]
      exact List.rdropWhile_concat_neg isPunctuation _ _ (by simp [digit])
    | cons =>
      have further := ih (List.cons_ne_nil _ _) (front ++ ['%', high, low])
      rwa [List.append_assoc] at further

/-- **The body of an escaped name** is the whole of it. -/
theorem body_escapes (h : Escapes bytes written) (some : bytes ≠ []) : Body ('.' :: '/' :: written) := by
  have more : written ≠ [] := by
    cases h with
    | nil => exact absurd rfl some
    | cons => exact List.cons_ne_nil _ _
  have whole : Body (['.', '/'] ++ (written ++ [])) := .mk (.inl rfl) more (isRunChar_of_escapes h) .nil
  rwa [List.append_nil] at whole

theorem ofBody_escapes (h : Escapes bytes written) (some : bytes ≠ []) :
    ofBody ('.' :: '/' :: written) = ⟨'.' :: '/' :: written, none⟩ := by
  have absent : ¬ typeMark <:+: '.' :: '/' :: written := by
    intro inside
    have mem : ';' ∈ '.' :: '/' :: written := inside.mem (by decide)
    have mem : ';' ∈ written := by simpa using mem
    exact absurd (isRunChar_of_escapes h ';' mem) (by decide)
  rw [ofBody_of_no_mark absent]
  exact congrArg (Reference.mk · none) (dropPunctuation_escapes h some ['.', '/'])

theorem isBare_escapes (h : Escapes bytes written) (some : bytes ≠ []) : isBare ('.' :: '/' :: written) = false := by
  cases h with
  | nil => exact absurd rfl some
  | cons => rfl

/-- **An escaped name is a reference from its first character to its last.** -/
theorem find?_escapes (h : Escapes bytes written) (some : bytes ≠ []) {post : List Char} (ends : Ends post) :
    find? ('@' :: '.' :: '/' :: written ++ post) = .some ⟨[], ⟨'.' :: '/' :: written, none⟩, post⟩ := by
  have same := ofBody_escapes h some
  have read : body? ('.' :: '/' :: written ++ post) = .some ('.' :: '/' :: written, post) :=
    body?_eq_some_iff.mpr ⟨rfl, body_escapes h some, ends⟩
  have found := find?_named read (by rw [same]; exact isBare_escapes h some)
  have rest : (raw ⟨'.' :: '/' :: written, none⟩ ++ post).drop (raw ⟨'.' :: '/' :: written, none⟩).length = post :=
    List.drop_left
  rw [same] at found
  exact found.trans (congrArg (fun after => Option.some (Found.mk [] _ after)) rest)

/-- **Between blanks** an escaped name is one reference, after those before it and before those behind it. -/
theorem inText_escapes (h : Escapes bytes written) (some : bytes ≠ []) {pre post : List Char}
    (before : ∀ c ∈ pre.getLast?, isBlank c = true) (behind : ∀ c ∈ post.head?, isBlank c = true) :
    inText (pre ++ '@' :: '.' :: '/' :: written ++ post) =
      inText pre ++ ⟨'.' :: '/' :: written, none⟩ :: inText post := by
  have ends : Ends post := by
    cases post with
    | nil => exact .nil
    | cons c post => exact .blank (behind c rfl) post
  have here : inText ('@' :: '.' :: '/' :: written ++ post) = ⟨'.' :: '/' :: written, none⟩ :: inText post :=
    inText_some (find?_escapes h some ends)
  rw [List.append_assoc]
  rcases List.eq_nil_or_concat' pre with rfl | ⟨front, c, rfl⟩
  · rw [inText_none find?_nil]
    exact here
  · have blank : isBlank c = true := before c List.getLast?_concat
    rw [List.append_assoc, List.singleton_append, inText_append_blank blank, inText_append_blank blank,
      inText_none find?_nil, List.append_nil, ← here]

end

end Reference

/-! ## §2 — the chunk of an escaped name -/

/-- **The chunk of a reference** whose file is read with the given outcome. -/
def FileChunk.ofOutcome (filename raw : String) : Except String (Bytes × String) → FileChunk
  | .ok (data, mediaType) => ⟨filename, raw, some data, some mediaType, true, none⟩
  | .error e => ⟨filename, raw, none, none, false, some e⟩

namespace Chunk

open Text (isBlank)
open Text.Percent (Escapes Spells decode decode_spelling)

/-- A reference is loaded by reading the file that it names. -/
theorem load_eq (files : FileAccess) (base : Option Path) (r : Reference) :
    let reading := readFile files (target base (decode r.path)) (r.override.map String.ofList)
    load files base r = ⟨.ofOutcome (decode r.path) (String.ofList r.raw) reading.value, reading.accesses⟩ := by
  intro reading
  unfold load
  dsimp only
  show reading >>= _ = _
  generalize reading = outcome
  obtain ⟨value | ⟨data, mediaType⟩, accesses⟩ := outcome
  · exact congrArg (Logged.mk _) (List.append_nil accesses)
  · exact congrArg (Logged.mk _) (List.append_nil accesses)

theorem mem_fileChunks {chunks : List Chunk} {f : FileChunk} : f ∈ fileChunks chunks ↔ .file f ∈ chunks := by
  unfold fileChunks
  rw [List.mem_filterMap]
  constructor
  · rintro ⟨c, mem, same⟩
    cases c with
    | file g => exact Option.some.inj same ▸ mem
    | text | warnings => cases same
  · intro mem
    exact ⟨.file f, mem, rfl⟩

section

variable {name written : String}

theorem decode_escapes (h : Escapes (Text.Utf8.encode name) written.toList) :
    decode ('.' :: '/' :: written.toList) = "./" ++ name := by
  have spelled : Spells ('.' :: '/' :: name.toList) ('.' :: '/' :: written.toList) :=
    .itself (by decide) (.itself (by decide) h.spells)
  rw [decode_spelling spelled]
  exact String.toList_inj.mp (by simp)

/-- The reference of an escaped name is loaded by reading the file of that name. -/
theorem load_escapes (files : FileAccess) (base : Option Path) (h : Escapes (Text.Utf8.encode name) written.toList) :
    let reading := readFile files (target base ("./" ++ name)) none
    load files base ⟨'.' :: '/' :: written.toList, none⟩ =
      ⟨.ofOutcome ("./" ++ name) ("@./" ++ written) reading.value, reading.accesses⟩ := by
  have raw : String.ofList (Reference.raw ⟨'.' :: '/' :: written.toList, none⟩) = "@./" ++ written := by
    show String.ofList ('@' :: '.' :: '/' :: written.toList) = "@./" ++ written
    exact String.toList_inj.mp (by simp)
  rw [load_eq]
  dsimp only
  rw [decode_escapes h, raw]
  rfl

end

/-- **Every file name can be referenced.** Whatever spelling of a name is chosen, it is decoded to the name. And where a
name stands in a text with all its bytes escaped, set off by blanks, the text has a chunk for the file of that name in the
given directory: it is read as part of the text, after the files before it and before those behind it. -/
theorem read_escaped (files : FileAccess) (dir : Path) :
    (∀ name written : String, Spells name.toList written.toList → decode written.toList = name) ∧
      ∀ name written pre post : String, name ≠ "" → Escapes (Text.Utf8.encode name) written.toList →
        (∀ c ∈ pre.toList.getLast?, isBlank c = true) → (∀ c ∈ post.toList.head?, isBlank c = true) →
        let text := read files (some dir) (pre ++ "@./" ++ written ++ post)
        let reading := readFile files (dir.resolve (.ofString ("./" ++ name))) none
        let file : FileChunk := .ofOutcome ("./" ++ name) ("@./" ++ written) reading.value
        .file file ∈ text.value ∧
          fileChunks text.value = fileChunks (read files (some dir) pre).value ++
            file :: fileChunks (read files (some dir) post).value ∧
          text.accesses = (read files (some dir) pre).accesses ++ reading.accesses ++
            (read files (some dir) post).accesses := by
  constructor
  · intro name written spelled
    rw [decode_spelling spelled, String.ofList_toList]
  · intro name written pre post some escaped before behind text reading file
    have loaded : load files (.some dir) ⟨'.' :: '/' :: written.toList, none⟩ = ⟨file, reading.accesses⟩ :=
      load_escapes files (.some dir) escaped
    have whole : (pre ++ "@./" ++ written ++ post).toList =
        pre.toList ++ '@' :: '.' :: '/' :: written.toList ++ post.toList := by
      simp
    have references := Reference.inText_escapes escaped (Text.Utf8.encode_ne_nil some) before behind
    rw [← whole] at references
    have told (content : String) : fileChunks (read files (.some dir) content).value =
          (Reference.inText content.toList).map (fun r => (load files (.some dir) r).value) ∧
        (read files (.some dir) content).accesses =
          (Reference.inText content.toList).flatMap fun r => (load files (.some dir) r).accesses :=
      readFrom_references files (.some dir) [] content.toList
    obtain ⟨chunks, accesses⟩ := told (pre ++ "@./" ++ written ++ post)
    rw [references, List.map_append, List.map_cons, loaded, ← (told pre).1, ← (told post).1] at chunks
    rw [references, List.flatMap_append, List.flatMap_cons, loaded, ← (told pre).2, ← (told post).2] at accesses
    refine ⟨mem_fileChunks.mp ?_, chunks, ?_⟩
    · show file ∈ fileChunks text.value
      rw [chunks]
      exact List.mem_append_right _ List.mem_cons_self
    · rw [List.append_assoc]
      exact accesses

/-- A name with a blank, a mark of a media type, an `@` and punctuation at its end, in a text between two others. -/
theorem read_escaped_hostile_name :
    let m : Files.Memory := .ofList [(.ofString "/d/ ;type=@é!", Text.Utf8.encode "E")]
    let files : FileAccess := ⟨m.provider, .extensionTable, .rootDirectory, .stopped⟩
    let dir : Path := .ofString "/d"
    let name := " ;type=@é!"
    let written := "%20%3b%74%79%70%65%3D%40%c3%A9%21"
    let reading := readFile files (dir.resolve (.ofString ("./" ++ name))) none
    let file : FileChunk := .ofOutcome ("./" ++ name) ("@./" ++ written) reading.value
    (Spells name.toList "+;type=@%C3%a9!".toList ∧ decode "+;type=@%C3%a9!".toList = name) ∧
      (name ≠ "" ∧ Escapes (Text.Utf8.encode name) written.toList ∧
        (∀ c ∈ "see ".toList.getLast?, isBlank c = true) ∧ ∀ c ∈ "\n@./b.md".toList.head?, isBlank c = true) ∧
      .file file ∈ (read files (some dir) ("see " ++ "@./" ++ written ++ "\n@./b.md")).value ∧
      (read files (some dir) ("see " ++ "@./" ++ written ++ "\n@./b.md")).accesses =
        (read files (some dir) "see ").accesses ++ reading.accesses ++
          (read files (some dir) "\n@./b.md").accesses := by
  intro m files dir name written reading file
  obtain ⟨decoded, chunk⟩ := read_escaped files dir
  have mixed : Spells name.toList "+;type=@%C3%a9!".toList := by
    have accent : Escapes (String.utf8EncodeChar 'é') ['%', 'C', '3', '%', 'a', '9'] := by
      have bytes : String.utf8EncodeChar 'é' = [0xC3, 0xA9] := by decide
      rw [bytes]
      exact .cons (by decide) (by decide) (.cons (by decide) (by decide) .nil)
    have letters : name.toList = [' ', ';', 't', 'y', 'p', 'e', '=', '@', 'é', '!'] := by decide
    have signs : "+;type=@%C3%a9!".toList =
        '+' :: ';' :: 't' :: 'y' :: 'p' :: 'e' :: '=' :: '@' :: (['%', 'C', '3', '%', 'a', '9'] ++ ['!']) := by decide
    rw [letters, signs]
    refine .space ?_
    iterate 7 refine .itself (by decide) ?_
    exact .escaped accent (.itself (by decide) .nil)
  have all : Escapes (Text.Utf8.encode name) written.toList := by
    have bytes : Text.Utf8.encode name =
        [0x20, 0x3B, 0x74, 0x79, 0x70, 0x65, 0x3D, 0x40, 0xC3, 0xA9, 0x21] := by decide
    have signs : written.toList = ['%', '2', '0', '%', '3', 'b', '%', '7', '4', '%', '7', '9', '%', '7', '0', '%', '6', '5',
        '%', '3', 'D', '%', '4', '0', '%', 'c', '3', '%', 'A', '9', '%', '2', '1'] := by decide
    rw [bytes, signs]
    iterate 11 refine .cons (by decide) (by decide) ?_
    exact .nil
  have before : ∀ c ∈ "see ".toList.getLast?, isBlank c = true := by
    have last : "see ".toList.getLast? = some ' ' := by decide
    rw [last]
    exact fun c same => Option.some.inj same ▸ rfl
  have behind : ∀ c ∈ "\n@./b.md".toList.head?, isBlank c = true := by
    have first : "\n@./b.md".toList.head? = some '\n' := by decide
    rw [first]
    exact fun c same => Option.some.inj same ▸ rfl
  have given : name ≠ "" := by decide
  obtain ⟨mem, -, accesses⟩ := chunk name written "see " "\n@./b.md" given all before behind
  exact ⟨⟨mixed, decoded name _ mixed⟩, ⟨given, all, before, behind⟩, mem, accesses⟩

end Chunk

end Dialogue
