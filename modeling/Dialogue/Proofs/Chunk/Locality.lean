import Dialogue.Files.Memory
import Dialogue.Proofs.Chunk
import Dialogue.Proofs.Reference.Search
/-!
# `Dialogue.Proofs.Chunk.Locality` — chunks do not depend on what stands around them.

What is loaded, told and asked while a text is read is what its references give rise to, one after another. Main
statements: two texts with blanks between them are read as the first and then the second; and each piece of a text that
was read is read in the same way when it stands alone.
-/

namespace Dialogue

namespace Chunk

/-- The entries of warnings among chunks, in order. -/
def entries (chunks : List Chunk) : List Warning :=
  chunks.flatMap fun
    | .warnings ws => ws
    | _ => []

theorem entries_append (as bs : List Chunk) : entries (as ++ bs) = entries as ++ entries bs := List.flatMap_append

theorem entries_warningChunk (ws : List Warning) : entries (warningChunk ws) = ws := by
  unfold warningChunk
  split
  · rename_i none
    rw [none]
    rfl
  · exact List.append_nil ws

theorem fileChunks_append (as bs : List Chunk) : fileChunks (as ++ bs) = fileChunks as ++ fileChunks bs :=
  List.filterMap_append

theorem fileChunks_warningChunk (ws : List Warning) : fileChunks (warningChunk ws) = [] := by
  unfold warningChunk
  split <;> rfl

section Reading

variable (files : FileAccess) (base : Option Path)

/-! ## §1 — references tell all -/

/-- **What is loaded and asked** while a text is read comes from its references alone. -/
theorem readFrom_references (failed : List Warning) (cs : List Char) :
    fileChunks (readFrom files base failed cs).value =
        (Reference.inText cs).map (fun r => (load files base r).value) ∧
      (readFrom files base failed cs).accesses =
        (Reference.inText cs).flatMap fun r => (load files base r).accesses := by
  induction hn : cs.length using Nat.strongRecOn generalizing cs failed with
  | ind n ih =>
    cases h : Reference.find? cs with
    | none =>
      rw [readFrom_none h, Reference.inText_none h]
      exact ⟨(fileChunks_textChunk cs _).trans (fileChunks_warningChunk failed), rfl⟩
    | some found =>
      have shorter := Reference.length_after_find? h
      obtain ⟨loaded, asked⟩ := ih found.after.length (hn ▸ shorter)
        (failed ++ (load files base found.reference).value.warning?.toList) found.after rfl
      rw [readFrom_some h, Reference.inText_some h, List.map_cons, List.flatMap_cons, ← loaded, ← asked]
      exact ⟨fileChunks_textChunk found.before _, rfl⟩

/-- **What is told** comes from the references that are read. -/
theorem entries_read (content : String) :
    entries (read files base content).value = warningsOf (read files base content).value := by
  obtain ⟨body, cut, read⟩ := readFrom_cut files base [] content.toList
  have none : entries body = [] := by
    refine List.flatMap_eq_nil_iff.mpr fun c mem => ?_
    rcases cut.cases_of_mem mem with ⟨_, rfl, -⟩ | ⟨_, rfl, -⟩ <;> rfl
  have same : warningsOf (body ++ warningChunk (warningsOf body)) = warningsOf body := by
    rw [warningsOf, fileChunks_append, fileChunks_warningChunk, List.append_nil]
    rfl
  rw [List.nil_append] at read
  unfold Chunk.read
  rw [read, entries_append, none, entries_warningChunk, same]
  rfl

/-! ## §2 — texts with blanks between them -/

/-- **Two texts with blanks between them** are read as the first and then the second: the references are those of the
first and those of the second, and so are the warnings and the questions. -/
theorem read_append_blanks (first second : String) {blanks : String} (some : blanks ≠ "")
    (blank : ∀ c ∈ blanks.toList, Text.isBlank c = true) :
    fileChunks (read files base (first ++ blanks ++ second)).value =
        fileChunks (read files base first).value ++ fileChunks (read files base second).value ∧
      entries (read files base (first ++ blanks ++ second)).value =
        entries (read files base first).value ++ entries (read files base second).value ∧
      (read files base (first ++ blanks ++ second)).accesses =
        (read files base first).accesses ++ (read files base second).accesses := by
  have there : blanks.toList ≠ [] := fun none => some (String.toList_eq_nil_iff.mp none)
  have apart : Reference.inText (first ++ blanks ++ second).toList =
      Reference.inText first.toList ++ Reference.inText second.toList := by
    rw [String.toList_append, String.toList_append]
    exact Reference.inText_append_blanks there blank _ _
  have loaded : fileChunks (read files base (first ++ blanks ++ second)).value =
      fileChunks (read files base first).value ++ fileChunks (read files base second).value := by
    unfold read
    simp only [readFrom_references, apart, List.map_append]
  refine ⟨loaded, ?_, ?_⟩
  · rw [entries_read, entries_read, entries_read]
    unfold warningsOf
    rw [loaded, List.filterMap_append]
  · unfold read
    simp only [readFrom_references, apart, List.flatMap_append]

end Reading

/-- Two references with an ideographic space between them, the first of them in brackets and missing. -/
theorem read_append_ideographic_space :
    let m : Files.Memory := .ofList [(.ofString "/b.md", Text.Utf8.encode "B")]
    let files : FileAccess := ⟨m.provider, .extensionTable, .rootDirectory, .stopped⟩
    ("\u3000" ≠ "" ∧ ∀ c ∈ "\u3000".toList, Text.isBlank c = true) ∧
      fileChunks (read files (some .rootDirectory) ("(@./a.md)" ++ "\u3000" ++ "@./b.md")).value =
        fileChunks (read files (some .rootDirectory) "(@./a.md)").value ++
          fileChunks (read files (some .rootDirectory) "@./b.md").value ∧
      entries (read files (some .rootDirectory) ("(@./a.md)" ++ "\u3000" ++ "@./b.md")).value =
        entries (read files (some .rootDirectory) "(@./a.md)").value ++
          entries (read files (some .rootDirectory) "@./b.md").value ∧
      (read files (some .rootDirectory) ("(@./a.md)" ++ "\u3000" ++ "@./b.md")).accesses =
        (read files (some .rootDirectory) "(@./a.md)").accesses ++
          (read files (some .rootDirectory) "@./b.md").accesses := by
  intro m files
  have space : "\u3000" ≠ "" ∧ ∀ c ∈ "\u3000".toList, Text.isBlank c = true :=
    ⟨by decide, List.all_eq_true.mp (by decide +kernel)⟩
  exact ⟨space, read_append_blanks files (some .rootDirectory) "(@./a.md)" "@./b.md" space.1 space.2⟩

/-! ## §3 — pieces on their own -/

section Alone

variable (files : FileAccess) (base : Option Path)

/-- **The chunks of a text:** text without references, references that are found on their own, and warnings. -/
theorem cases_of_mem_readFrom {failed : List Warning} {cs : List Char} {c : Chunk}
    (mem : c ∈ (readFrom files base failed cs).value) :
    (∃ text, c = .text (String.ofList text) ∧ text ≠ [] ∧ Reference.find? text = none) ∨
      (∃ r, c = .file (load files base r).value ∧ Reference.find? r.raw = some ⟨[], r, []⟩) ∨ c.IsWarnings := by
  induction hn : cs.length using Nat.strongRecOn generalizing cs failed with
  | ind n ih =>
    cases h : Reference.find? cs with
    | none =>
      rw [readFrom_none h] at mem
      rcases List.mem_append.mp mem with text | told
      · obtain ⟨rfl, some⟩ := Cut.eq_of_mem_textChunk text
        exact .inl ⟨cs, rfl, some, h⟩
      · unfold warningChunk at told
        split at told
        · cases told
        · obtain rfl := List.mem_singleton.mp told
          exact .inr (.inr trivial)
    | some found =>
      rw [readFrom_some h] at mem
      rcases List.mem_append.mp mem with text | mem
      · obtain ⟨rfl, some⟩ := Cut.eq_of_mem_textChunk text
        exact .inl ⟨found.before, rfl, some, Reference.find?_before h⟩
      · rcases List.mem_cons.mp mem with rfl | later
        · exact .inr (.inl ⟨found.reference, rfl, Reference.find?_raw h⟩)
        · have shorter := Reference.length_after_find? h
          exact ih found.after.length (hn ▸ shorter) later rfl

theorem read_text {text : List Char} (some : text ≠ []) (none : Reference.find? text = none) :
    read files base (String.ofList text) = ⟨[.text (String.ofList text)], []⟩ := by
  unfold read
  rw [String.toList_ofList, readFrom_none none]
  unfold textChunk
  rw [if_neg some]
  rfl

/-- **A text that is one reference** is read by loading it. -/
theorem read_raw {r : Reference} (found : Reference.find? r.raw = some ⟨[], r, []⟩) :
    read files base (String.ofList r.raw) =
      ⟨.file (load files base r).value :: warningChunk (load files base r).value.warning?.toList,
        (load files base r).accesses⟩ := by
  unfold read
  rw [String.toList_ofList, readFrom_some found]
  dsimp only
  rw [readFrom_none Reference.find?_nil, List.append_nil]
  rfl

/-- **No piece of a text is read differently when it is cut out:** a text chunk is read as itself, without a question;
a reference is read as the same reference, and followed by its warning when it could not be loaded. -/
theorem read_alone (content : String) :
    (∀ value, .text value ∈ (read files base content).value → read files base value = ⟨[.text value], []⟩) ∧
      ∀ f, .file f ∈ (read files base content).value →
        (f.readable = true → (read files base f.raw).value = [.file f]) ∧
        (f.readable = false → ∃ e, f.error = some e ∧
          (read files base f.raw).value = [.file f, .warnings [⟨f.raw, e⟩]]) := by
  refine ⟨fun value mem => ?_, fun f mem => ?_⟩
  · rcases cases_of_mem_readFrom files base mem with ⟨text, same, some, none⟩ | ⟨r, other, -⟩ | other
    · obtain rfl := Chunk.text.inj same
      exact read_text files base some none
    · cases other
    · cases other
  · rcases cases_of_mem_readFrom files base mem with ⟨text, other, -, -⟩ | ⟨r, same, found⟩ | other
    · cases other
    · obtain rfl := Chunk.file.inj same
      obtain ⟨⟨-, -, settled⟩, raw⟩ := load_settled files base r
      have alone := read_raw files base found
      rw [← raw] at alone
      rw [alone]
      unfold FileChunk.warning?
      cases told : (load files base r).value.error with
      | none =>
        rw [told] at settled
        refine ⟨fun _ => rfl, fun unreadable => ?_⟩
        rw [unreadable] at settled
        cases settled
      | some e =>
        rw [told] at settled
        refine ⟨fun readable => ?_, fun _ => ⟨e, rfl, rfl⟩⟩
        rw [readable] at settled
        cases settled
    · cases other

end Alone

/-- The text between two references, and a reference without its file. -/
theorem read_alone_in_brackets :
    let m : Files.Memory := .ofList [(.ofString "/b.md", Text.Utf8.encode "B")]
    let files : FileAccess := ⟨m.provider, .extensionTable, .rootDirectory, .stopped⟩
    let missing : FileChunk := ⟨"./a.md", "@./a.md", none, none, false, some "file not readable: /a.md"⟩
    (.text ");\n" ∈ (read files (some .rootDirectory) "(@./a.md);\n@./b.md").value ∧
        .file missing ∈ (read files (some .rootDirectory) "(@./a.md);\n@./b.md").value ∧ missing.readable = false) ∧
      read files (some .rootDirectory) ");\n" = ⟨[.text ");\n"], []⟩ ∧
      ∃ e, missing.error = some e ∧
        (read files (some .rootDirectory) "@./a.md").value = [.file missing, .warnings [⟨"@./a.md", e⟩]] := by
  intro m files missing
  have pieces : .text ");\n" ∈ (read files (some .rootDirectory) "(@./a.md);\n@./b.md").value ∧
      .file missing ∈ (read files (some .rootDirectory) "(@./a.md);\n@./b.md").value ∧ missing.readable = false := by
    decide +kernel
  obtain ⟨texts, references⟩ := read_alone files (some .rootDirectory) "(@./a.md);\n@./b.md"
  exact ⟨pieces, texts _ pieces.1, (references missing pieces.2.1).2 pieces.2.2⟩

end Chunk

end Dialogue
