import Dialogue.Proofs.Chunk.Locality
/-!
# `Dialogue.Proofs.Chunk.Demand` — a reader of chunks looks no further than it is asked to.

Files are asked for reference by reference, in the order of the text. Main statement: after any number of steps, the
questions that were asked are those of the references handed out, and of the next one if the text directly before it was
handed out last; so they are the first of the questions that a drained reader has asked.
-/

namespace Dialogue

namespace Chunk

/-! ## §1 — one reference -/

/-- **The questions that a reference gives rise to:** is its path readable? If so, and if its media type is known, what
are the bytes at that path? -/
def lookups (files : FileAccess) (base : Option Path) (r : Reference) : List Access :=
  let p := target base (Text.Percent.decode r.path)
  .isReadable p ::
    if files.provider.isReadable p ∧ (files.detector.resolve p (r.override.map String.ofList)).isSome then
      [.readBytes p]
    else []

theorem accesses_readFile (files : FileAccess) (p : Path) (override : Option String) :
    (readFile files p override).accesses = .isReadable p ::
      if files.provider.isReadable p ∧ (files.detector.resolve p override).isSome then [.readBytes p] else [] := by
  unfold readFile
  rw [Logged.accesses_bind]
  refine congrArg (Access.isReadable p :: ·) ?_
  show Logged.accesses (if (!files.provider.isReadable p) = true then _ else _) = _
  cases files.provider.isReadable p with
  | false => rfl
  | true =>
    rw [if_neg (by simp)]
    cases files.detector.resolve p override with
    | none => rfl
    | some mediaType =>
      show Logged.accesses (files.readBytes p >>= _) = _
      rw [Logged.accesses_bind]
      refine congrArg (Access.readBytes p :: ·) ?_
      split <;> rfl

theorem accesses_load (files : FileAccess) (base : Option Path) (r : Reference) :
    (load files base r).accesses = lookups files base r := by
  refine Eq.trans ?_ (accesses_readFile files (target base (Text.Percent.decode r.path)) (r.override.map String.ofList))
  unfold load
  rw [Logged.accesses_bind]
  generalize readFile files _ _ = loaded
  obtain ⟨value, asked⟩ := loaded
  cases value <;> exact List.append_nil asked

/-! ## §2 — references begun -/

/-- The reference that is looked up before it is handed out: the text directly before it was handed out last. -/
def ahead (chunks : List Chunk) : Nat → Nat
  | 0 => 0
  | n + 1 =>
    match chunks[n]?, chunks[n + 1]? with
    | some (.text _), some (.file _) => 1
    | _, _ => 0

/-- **How many references are looked up** in handing out the first `n` chunks. -/
def begun (chunks : List Chunk) (n : Nat) : Nat := (fileChunks (chunks.take n)).length + ahead chunks n

theorem begun_file (f : FileChunk) (rest : List Chunk) (n : Nat) :
    begun (.file f :: rest) (n + 1) = begun rest n + 1 := by
  have same : ahead (.file f :: rest) (n + 1) = ahead rest n := by cases n <;> rfl
  show (fileChunks (rest.take n)).length + 1 + _ = _
  rw [same, begun]
  omega

theorem begun_text (value : String) (rest : List Chunk) (n : Nat) :
    begun (.text value :: rest) (n + 2) = begun rest (n + 1) := rfl

namespace Reader

variable {files : FileAccess} {base : Option Path} {r : Reader}

theorem calls_succ {c : Option Chunk} {r' : Reader} {asked : List Access} (step : r.next files base = ⟨(c, r'), asked⟩)
    (n : Nat) : calls files base (n + 1) r =
      ⟨c :: (calls files base n r').value, asked ++ (calls files base n r').accesses⟩ := by
  show (r.next files base >>= _) = _
  rw [step]
  exact congrArg (Logged.mk _) (congrArg (asked ++ ·) (List.append_nil _))

/-- **Some steps** hand out the first of what is outstanding, and then nothing. -/
theorem value_calls (n : Nat) (r : Reader) :
    (calls files base n r).value = ((outstanding files base r).value.take n).map some ++
      List.replicate (n - (outstanding files base r).value.length) none := by
  induction n generalizing r with
  | zero => simp [calls]
  | succ n ih =>
    rcases next_spec files base r with ⟨c, r', asked, step, left⟩ | ⟨r', step, left, later⟩
    · rw [calls_succ step, ih, left]
      simp
    · rw [calls_succ step, ih, left, later]
      simp [List.replicate_succ]

/-- Some steps ask the first of the questions outstanding. -/
theorem calls_isPrefix (n : Nat) (r : Reader) :
    (calls files base n r).accesses <+: (outstanding files base r).accesses := by
  induction n generalizing r with
  | zero => exact List.nil_prefix
  | succ n ih =>
    rcases next_spec files base r with ⟨c, r', asked, step, left⟩ | ⟨r', step, left, later⟩
    · rw [calls_succ step, left]
      exact (List.prefix_append_right_inj asked).mpr (ih r')
    · rw [calls_succ step, left, ← later]
      exact ih r'

/-- **Between two references**, the next one is looked up when a chunk is asked for. -/
theorem next_reference {cs : List Char} {found : Reference.Found} (h : Reference.find? cs = some found)
    (failed : List Warning) :
    let file := load files base found.reference
    let later : Reader := ⟨found.after, [], failed ++ file.value.warning?.toList, false⟩
    Reader.next files base ⟨cs, [], failed, false⟩ =
      match textChunk found.before with
      | [] => ⟨(some (.file file.value), later), file.accesses⟩
      | c :: cs => ⟨(some c, { later with pending := cs ++ [.file file.value] }), file.accesses⟩ := by
  intro file later
  have filled : Reader.fill files base ⟨cs, [], failed, false⟩ =
      ⟨{ later with pending := textChunk found.before ++ [.file file.value] }, file.accesses⟩ := by
    unfold Reader.fill
    rw [h]
    exact congrArg (Logged.mk _) (List.append_nil _)
  rw [next_fill rfl rfl filled]
  cases textChunk found.before <;> rfl

theorem textChunk_cases (cs : List Char) : textChunk cs = [] ∨ ∃ value, textChunk cs = [.text value] := by
  unfold textChunk
  split
  · exact .inl rfl
  · exact .inr ⟨_, rfl⟩

/-- **The questions asked in some steps** by a reader that has handed out all it has produced. -/
theorem accesses_calls (cs : List Char) (failed : List Warning) (n : Nat) :
    (calls files base n ⟨cs, [], failed, false⟩).accesses =
      ((Reference.inText cs).take (begun (readFrom files base failed cs).value n)).flatMap (lookups files base) := by
  -- on the length of the text, since what comes after a reference is shorter
  induction hn : cs.length using Nat.strongRecOn generalizing cs failed n with
  | ind size ih =>
    cases n with
    | zero => rfl
    | succ n =>
      cases h : Reference.find? cs with
      | none =>
        have nothing : (outstanding files base ⟨cs, [], failed, false⟩).accesses = [] := by
          show (readFrom files base failed cs).accesses = []
          rw [readFrom_none h]
        have asked : (calls files base (n + 1) ⟨cs, [], failed, false⟩).accesses <+: [] :=
          nothing ▸ calls_isPrefix (n + 1) _
        rw [List.prefix_nil.mp asked, Reference.inText_none h, List.take_nil]
        rfl
      | some found =>
        have shorter := Reference.length_after_find? h
        have later := fun n => ih found.after.length (hn ▸ shorter) found.after
          (failed ++ (load files base found.reference).value.warning?.toList) n rfl
        have step := @next_reference files base cs found h failed
        rw [Reference.inText_some h, readFrom_some h]
        dsimp only at step ⊢
        rcases textChunk_cases found.before with none | ⟨value, text⟩
        · -- the reference is handed out at once
          rw [none] at step ⊢
          rw [calls_succ step, List.nil_append, begun_file, List.take_succ_cons, List.flatMap_cons, accesses_load, later]
        · -- the text before it is handed out first, with the reference already looked up
          rw [text] at step ⊢
          rw [calls_succ step, accesses_load]
          cases n with
          | zero => rfl
          | succ n =>
            rw [calls_succ (next_pending rfl)]
            show _ ++ ([] ++ (calls files base n _).accesses) = _
            rw [later, List.nil_append, List.cons_append, List.nil_append, begun_text, begun_file,
              List.take_succ_cons, List.flatMap_cons]

end Reader

/-- **A reader asks no more than it must.** The references of a text are looked up in its order: is the path readable,
and if so, and if its media type is known, what are its bytes? However often a chunk has been asked for, the references
looked up are those handed out among the first chunks, and the next one if the text directly before it was handed out
last. So the questions asked are the first of those that a drained reader has asked. -/
theorem calls_on_demand (files : FileAccess) (base : Option Path) (content : String) (n : Nat) :
    let references := Reference.inText content.toList
    let chunks := (read files base content).value
    let steps := Reader.calls files base n (.start content)
    fileChunks chunks = references.map (fun r => (load files base r).value) ∧
      steps.value = (chunks.take n).map some ++ List.replicate (n - chunks.length) none ∧
      steps.accesses = (references.take (begun chunks n)).flatMap (lookups files base) ∧
      steps.accesses <+: (read files base content).accesses ∧
      ∀ more, (Reader.calls files base (chunks.length + more) (.start content)).accesses =
        (read files base content).accesses := by
  intro references chunks steps
  have left : Reader.outstanding files base (.start content) = ⟨chunks, (read files base content).accesses⟩ := rfl
  refine ⟨(readFrom_references files base [] content.toList).1, ?_, Reader.accesses_calls content.toList [] n, ?_,
    fun more => ?_⟩
  · exact Reader.value_calls n (.start content)
  · exact Reader.calls_isPrefix n (.start content)
  · exact congrArg Logged.accesses (Reader.calls_eq left more)

end Chunk

end Dialogue
