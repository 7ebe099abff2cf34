import Dialogue.Chunk
import Mathlib.Data.List.Chain
/-!
# `Dialogue.Proofs.Chunk` — cutting a text into chunks loses nothing.

However files answer, the chunks of a text are a cut of it: pieces of text and references by turns, which together
are the text. A reader that works on demand hands out just these chunks, and then nothing, without looking at
files again.
-/

namespace Dialogue

namespace FileChunk

/-- **Loaded or not, nothing in between:** bytes and media type are there just when the file was readable, and an
error just when it was not. -/
structure Settled (f : FileChunk) : Prop where
  content : f.content.isSome = f.readable
  mediaType : f.mediaType.isSome = f.readable
  error : f.error.isNone = f.readable

end FileChunk

namespace Chunk

/-- **The piece of text that a chunk stands for.** Warnings stand for none. -/
def source : Chunk → List Char
  | .text value => value.toList
  | .file f => f.raw.toList
  | .warnings _ => []

def file? : Chunk → Option FileChunk
  | .file f => some f
  | _ => none

def IsText : Chunk → Prop
  | .text _ => True
  | _ => False

def IsWarnings : Chunk → Prop
  | .warnings _ => True
  | _ => False

/-- The references among chunks, in order. -/
def fileChunks (chunks : List Chunk) : List FileChunk := chunks.filterMap file?

/-- The warnings that references give rise to, in order. -/
def warningsOf (chunks : List Chunk) : List Warning := (fileChunks chunks).filterMap FileChunk.warning?

/-! ## §1 — cuts -/

/-- **A text cut at its references.** Text stands before, between and after them where there is any. -/
inductive Cut : List Char → List Chunk → Prop
  | done (cs : List Char) : Cut cs (textChunk cs)
  | file {before after : List Char} {f : FileChunk} {rest : List Chunk} (settled : f.Settled)
    (later : Cut after rest) : Cut (before ++ f.raw.toList ++ after) (textChunk before ++ .file f :: rest)

theorem load_settled (files : FileAccess) (base : Option Path) (r : Reference) :
    (load files base r).value.Settled ∧ (load files base r).value.raw = String.ofList r.raw := by
  unfold load
  rw [Logged.value_bind]
  split
  · exact ⟨⟨rfl, rfl, rfl⟩, rfl⟩
  · exact ⟨⟨rfl, rfl, rfl⟩, rfl⟩

section Reading

variable {files : FileAccess} {base : Option Path} {failed : List Warning} {cs : List Char}

theorem readFrom_none (h : Reference.find? cs = none) :
    readFrom files base failed cs = ⟨textChunk cs ++ warningChunk failed, []⟩ := by
  unfold readFrom
  split
  · rfl
  · rename_i found
    rw [found] at h
    cases h

theorem readFrom_some {found : Reference.Found} (h : Reference.find? cs = some found) :
    readFrom files base failed cs =
      let file := load files base found.reference
      let rest := readFrom files base (failed ++ file.value.warning?.toList) found.after
      ⟨textChunk found.before ++ .file file.value :: rest.value, file.accesses ++ rest.accesses⟩ := by
  rw [readFrom.eq_def]
  split
  · rename_i none
    rw [none] at h
    cases h
  · rename_i found' h'
    obtain rfl : found' = found := Option.some.inj (h'.symm.trans h)
    show (⟨_, (load files base found'.reference).accesses ++ (_ ++ [])⟩ : Logged (List Chunk)) = _
    rw [List.append_nil]
    rfl

end Reading

theorem fileChunks_textChunk (cs : List Char) (rest : List Chunk) :
    fileChunks (textChunk cs ++ rest) = fileChunks rest := by
  unfold textChunk
  split <;> rfl

/-- **Reading a text cuts it;** what could not be loaded, now or before, is told at the end. -/
theorem readFrom_cut (files : FileAccess) (base : Option Path) (failed : List Warning) (cs : List Char) :
    ∃ body, Cut cs body ∧
      (readFrom files base failed cs).value = body ++ warningChunk (failed ++ warningsOf body) := by
  -- on the length of the text, since what comes after a reference is shorter
  induction hn : cs.length using Nat.strongRecOn generalizing cs failed with
  | ind n ih =>
    cases h : Reference.find? cs with
    | none =>
      have nothing : warningsOf (textChunk cs) = [] := by
        have none := fileChunks_textChunk cs []
        rw [List.append_nil] at none
        unfold warningsOf
        rw [none]
        rfl
      refine ⟨textChunk cs, .done cs, ?_⟩
      rw [readFrom_none h, nothing, List.append_nil]
    | some found =>
      obtain ⟨settled, raw⟩ := load_settled files base found.reference
      have shorter := Reference.length_after_find? h
      obtain ⟨body, cut, read⟩ := ih found.after.length (hn ▸ shorter)
        (failed ++ (load files base found.reference).value.warning?.toList) found.after rfl
      refine ⟨textChunk found.before ++ .file (load files base found.reference).value :: body, ?_, ?_⟩
      · have whole := Reference.eq_of_find? h
        have text : (load files base found.reference).value.raw.toList = found.reference.raw := by
          rw [raw, String.toList_ofList]
        rw [← text] at whole
        rw [whole]
        exact .file settled cut
      · rw [readFrom_some h]
        dsimp only
        rw [read]
        have first : warningsOf (textChunk found.before ++ .file (load files base found.reference).value :: body) =
            (load files base found.reference).value.warning?.toList ++ warningsOf body := by
          unfold warningsOf
          rw [fileChunks_textChunk]
          show List.filterMap FileChunk.warning? ((load files base found.reference).value :: fileChunks body) = _
          rw [List.filterMap_cons]
          cases (load files base found.reference).value.warning? <;> rfl
        rw [first]
        simp only [List.append_assoc, List.cons_append]

namespace Cut

variable {cs : List Char} {body : List Chunk}

/-! ## §2 — what a cut is -/

theorem flatMap_source_textChunk (cs : List Char) : (textChunk cs).flatMap source = cs := by
  unfold textChunk
  split
  · rename_i none
    rw [none]
    rfl
  · simp [source]

/-- **Nothing is lost.** -/
theorem flatMap_source (h : Cut cs body) : body.flatMap source = cs := by
  induction h with
  | done cs => exact flatMap_source_textChunk cs
  | file _ _ ih =>
    rw [List.flatMap_append, List.flatMap_cons, ih, flatMap_source_textChunk, List.append_assoc]
    rfl

theorem eq_of_mem_textChunk {cs : List Char} {c : Chunk} (mem : c ∈ textChunk cs) :
    c = .text (String.ofList cs) ∧ cs ≠ [] := by
  unfold textChunk at mem
  split at mem
  · cases mem
  · rename_i some
    exact ⟨List.mem_singleton.mp mem, some⟩

/-- **A chunk of a cut** is a text that is not empty, or a reference that was settled. -/
theorem cases_of_mem (h : Cut cs body) {c : Chunk} (mem : c ∈ body) :
    (∃ value, c = .text value ∧ value ≠ "") ∨ ∃ f, c = .file f ∧ f.Settled := by
  have text {cs : List Char} (mem : c ∈ textChunk cs) : ∃ value, c = .text value ∧ value ≠ "" := by
    obtain ⟨rfl, some⟩ := eq_of_mem_textChunk mem
    refine ⟨_, rfl, fun none => some ?_⟩
    exact String.ofList_eq_empty_iff.mp none
  induction h with
  | done cs => exact .inl (text mem)
  | @file before after f rest settled _ ih =>
    -- the text before a reference, the reference, or what comes after it
    rcases List.mem_append.mp mem with first | later
    · exact .inl (text first)
    · rcases List.mem_cons.mp later with rfl | later
      · exact .inr ⟨f, rfl, settled⟩
      · exact ih later

/-- **No two texts in a row:** after a text there is a reference or nothing. -/
theorem isChain (h : Cut cs body) : List.IsChain (fun a b => ¬ (a.IsText ∧ b.IsText)) body := by
  have before (cs : List Char) (f : FileChunk) {rest : List Chunk}
      (chain : List.IsChain (fun a b : Chunk => ¬ (a.IsText ∧ b.IsText)) (.file f :: rest)) :
      List.IsChain (fun a b => ¬ (a.IsText ∧ b.IsText)) (textChunk cs ++ .file f :: rest) := by
    unfold textChunk
    split
    · exact chain
    · exact List.isChain_cons_cons.mpr ⟨fun both => both.2, chain⟩
  induction h with
  | done cs =>
    unfold textChunk
    split
    · exact .nil
    · exact .singleton _
  | @file cs after f rest _ _ ih =>
    refine before cs f (List.isChain_cons.mpr ⟨fun _ _ both => both.1, ih⟩)

/-- A reference of a cut is settled. -/
theorem settled (h : Cut cs body) {f : FileChunk} (mem : .file f ∈ body) : f.Settled := by
  rcases h.cases_of_mem mem with ⟨_, other, -⟩ | ⟨g, same, settled⟩
  · cases other
  · obtain rfl := Chunk.file.inj same
    exact settled

theorem not_isWarnings (h : Cut cs body) {c : Chunk} (mem : c ∈ body) : ¬ c.IsWarnings := by
  rcases h.cases_of_mem mem with ⟨_, rfl, -⟩ | ⟨_, rfl, -⟩ <;> exact id

end Cut

theorem mem_of_mem_fileChunks {chunks : List Chunk} {f : FileChunk} (mem : f ∈ fileChunks chunks) :
    .file f ∈ chunks := by
  obtain ⟨c, hc, found⟩ := List.mem_filterMap.mp mem
  cases c with
  | file g =>
    obtain rfl := Option.some.inj found
    exact hc
  | text => cases found
  | warnings => cases found

/-- **What is told of settled references** are those that were not readable, each with its error. -/
theorem map_warning? {fs : List FileChunk} (settled : ∀ f ∈ fs, f.Settled) :
    (fs.filterMap FileChunk.warning?).map (fun w => (w.raw, some w.error)) =
      (fs.filter fun f => !f.readable).map fun f => (f.raw, f.error) := by
  induction fs with
  | nil => rfl
  | cons f fs ih =>
    have rest := ih fun g hg => settled g (List.mem_cons_of_mem _ hg)
    have here := (settled f List.mem_cons_self).error
    rw [List.filterMap_cons, List.filter_cons, ← here]
    unfold FileChunk.warning?
    cases he : f.error with
    | none => exact rest
    | some e =>
      show (f.raw, some e) :: _ = (f.raw, f.error) :: _
      rw [he]
      exact congrArg _ rest

theorem mem_append_warningChunk {body : List Chunk} {ws : List Warning} {c : Chunk}
    (mem : c ∈ body ++ warningChunk ws) (other : ¬ c.IsWarnings) : c ∈ body := by
  rcases List.mem_append.mp mem with first | last
  · exact first
  · unfold warningChunk at last
    split at last
    · cases last
    · obtain rfl := List.mem_singleton.mp last
      exact absurd trivial other

/-! ## §3 — reading on demand -/

namespace Reader

variable {files : FileAccess} {base : Option Path} {r : Reader}

/-- **Several steps in a row**, each with what it hands out. -/
def calls (files : FileAccess) (base : Option Path) : Nat → Reader → Logged (List (Option Chunk))
  | 0, _ => return []
  | n + 1, r => do
    let (c, r) ← r.next files base
    return c :: (← calls files base n r)

/-- **What a reader has still to hand out**, and the questions it has still to ask. -/
def outstanding (files : FileAccess) (base : Option Path) (r : Reader) : Logged (List Chunk) :=
  if r.finished then ⟨r.pending, []⟩
  else
    let rest := readFrom files base r.failed r.rest
    ⟨r.pending ++ rest.value, rest.accesses⟩

/-- A chunk that was produced before is handed out without any question. -/
theorem next_pending {c : Chunk} {cs : List Chunk} (h : r.pending = c :: cs) :
    r.next files base = ⟨(some c, { r with pending := cs }), []⟩ := by
  obtain ⟨rest, pending, failed, finished⟩ := r
  obtain rfl : pending = c :: cs := h
  unfold Reader.next
  dsimp only
  rw [if_neg (by simp)]
  rfl

theorem next_finished (h : r.pending = []) (finished : r.finished = true) :
    r.next files base = ⟨(none, r), []⟩ := by
  obtain ⟨rest, pending, failed, done⟩ := r
  obtain rfl : pending = [] := h
  obtain rfl : done = true := finished
  rfl

/-- Where nothing is at hand, more is produced first. -/
theorem next_fill {ready : Reader} {asked : List Access} (h : r.pending = []) (more : r.finished = false)
    (filled : r.fill files base = ⟨ready, asked⟩) :
    r.next files base = match ready.pending with
      | [] => ⟨(none, ready), asked⟩
      | c :: cs => ⟨(some c, { ready with pending := cs }), asked⟩ := by
  unfold Reader.next
  dsimp only
  rw [if_pos ⟨h, more⟩, filled]
  obtain ⟨rest, pending, failed, finished⟩ := ready
  cases pending with
  | nil => exact congrArg (Logged.mk _) (List.append_nil asked)
  | cons c cs => exact congrArg (Logged.mk _) (List.append_nil asked)

/-- **One step** hands out the first of what is outstanding, if there is anything, and leaves the others. -/
theorem next_spec (files : FileAccess) (base : Option Path) (r : Reader) :
    (∃ c r' asked, r.next files base = ⟨(some c, r'), asked⟩ ∧ outstanding files base r =
      ⟨c :: (outstanding files base r').value, asked ++ (outstanding files base r').accesses⟩) ∨
    ∃ r', r.next files base = ⟨(none, r'), []⟩ ∧ outstanding files base r = ⟨[], []⟩ ∧
      outstanding files base r' = ⟨[], []⟩ := by
  obtain ⟨rest, pending, failed, finished⟩ := r
  cases pending with
  | cons c cs =>
    refine .inl ⟨c, ⟨rest, cs, failed, finished⟩, [], next_pending rfl, ?_⟩
    cases finished <;> rfl
  | nil =>
    cases finished with
    | true => exact .inr ⟨_, next_finished rfl rfl, rfl, rfl⟩
    | false =>
      cases h : Reference.find? rest with
      | none =>
        have filled : Reader.fill files base ⟨rest, [], failed, false⟩ =
            ⟨⟨[], textChunk rest ++ warningChunk failed, [], true⟩, []⟩ := by
          unfold Reader.fill
          rw [h]
          rfl
        have step := next_fill rfl rfl filled
        have left : outstanding files base ⟨rest, [], failed, false⟩ = ⟨textChunk rest ++ warningChunk failed, []⟩ := by
          unfold outstanding
          rw [readFrom_none h]
          rfl
        rw [left]
        dsimp only at step
        cases hp : textChunk rest ++ warningChunk failed with
        | nil =>
          rw [hp] at step
          exact .inr ⟨_, step, rfl, rfl⟩
        | cons c cs =>
          rw [hp] at step
          exact .inl ⟨c, _, [], step, rfl⟩
      | some found =>
        -- the text before the reference and the reference are produced together
        have filled : Reader.fill files base ⟨rest, [], failed, false⟩ =
            ⟨⟨found.after, textChunk found.before ++ [.file (load files base found.reference).value],
              failed ++ (load files base found.reference).value.warning?.toList, false⟩,
              (load files base found.reference).accesses⟩ := by
          unfold Reader.fill
          rw [h]
          exact congrArg (Logged.mk _) (List.append_nil _)
        have step := next_fill rfl rfl filled
        have left : outstanding files base ⟨rest, [], failed, false⟩ = readFrom files base failed rest := rfl
        rw [left, readFrom_some h]
        dsimp only at step ⊢
        rw [List.append_cons]
        cases hp : textChunk found.before ++ [.file (load files base found.reference).value] with
        | nil => exact absurd (List.append_eq_nil_iff.mp hp).2 (List.cons_ne_nil _ _)
        | cons c cs =>
          rw [hp] at step
          exact .inl ⟨c, _, _, step, rfl⟩

/-- Where nothing is outstanding, nothing is handed out and nothing asked. -/
theorem calls_nil (h : outstanding files base r = ⟨[], []⟩) (n : Nat) :
    calls files base n r = ⟨List.replicate n none, []⟩ := by
  induction n generalizing r with
  | zero => rfl
  | succ n ih =>
    rcases next_spec files base r with ⟨c, r', asked, -, more⟩ | ⟨r', step, -, later⟩
    · rw [h] at more
      cases more
    · unfold calls
      rw [step]
      show (⟨_ :: (calls files base n r').value, [] ++ ((calls files base n r').accesses ++ [])⟩ : Logged _) = _
      rw [ih later]
      rfl

/-- **A reader hands out what is outstanding, and then nothing more**, with no question but those outstanding. -/
theorem calls_eq {chunks : List Chunk} {asked : List Access} (h : outstanding files base r = ⟨chunks, asked⟩)
    (n : Nat) : calls files base (chunks.length + n) r = ⟨chunks.map some ++ List.replicate n none, asked⟩ := by
  induction chunks generalizing r asked with
  | nil =>
    rcases next_spec files base r with ⟨c, r', first, -, more⟩ | ⟨r', -, none, -⟩
    · rw [h] at more
      cases more
    · rw [h] at none
      obtain rfl : asked = [] := congrArg Logged.accesses none
      rw [List.length_nil, Nat.zero_add]
      exact calls_nil h n
  | cons c cs ih =>
    rcases next_spec files base r with ⟨c', r', first, step, more⟩ | ⟨r', -, none, -⟩
    · rw [h] at more
      have value := congrArg Logged.value more
      have accesses := congrArg Logged.accesses more
      dsimp only at value accesses
      obtain ⟨rfl, rest⟩ := List.cons.inj value
      subst accesses
      rw [List.length_cons, Nat.succ_add]
      unfold calls
      rw [step]
      have later : calls files base (cs.length + n) r' =
          ⟨cs.map some ++ List.replicate n none, (outstanding files base r').accesses⟩ := by
        rw [rest]
        rw [rest] at ih
        exact ih rfl
      show (⟨_ :: (calls files base _ r').value, first ++ ((calls files base _ r').accesses ++ [])⟩ : Logged _) = _
      rw [later, List.append_nil]
      rfl
    · rw [h] at none
      cases none

end Reader

/-- **Reading is lossless, and asks no more than it must.** Drained, a reader hands out finitely many chunks and then
nothing, without another question. Together the texts and references are the content; texts are not empty, and no two
of them come in a row; what could not be loaded is told once, in order, at the end, and not at all if everything was
loaded; a reference is loaded or not, nothing in between. -/
theorem read_lossless (files : FileAccess) (base : Option Path) (content : String) :
    ∃ chunks asked,
      (∀ n, Reader.calls files base (chunks.length + n) (.start content) =
        ⟨chunks.map some ++ List.replicate n none, asked⟩) ∧
      chunks.flatMap source = content.toList ∧
      (∀ value, .text value ∈ chunks → value ≠ "") ∧
      List.IsChain (fun a b => ¬ (a.IsText ∧ b.IsText)) chunks ∧
      (∃ body entries, chunks = body ++ (if entries = [] then [] else [.warnings entries]) ∧
        (∀ c ∈ body, ¬ c.IsWarnings) ∧
        entries.map (fun w => (w.raw, some w.error)) =
          ((fileChunks body).filter fun f => !f.readable).map fun f => (f.raw, f.error)) ∧
      ∀ f, .file f ∈ chunks → f.Settled := by
  obtain ⟨body, cut, read⟩ := readFrom_cut files base [] content.toList
  have left : Reader.outstanding files base (.start content) = readFrom files base [] content.toList := rfl
  have drained := Reader.calls_eq (left.trans rfl)
  rw [List.nil_append] at read
  refine ⟨_, _, drained, ?_⟩
  rw [read]
  refine ⟨?_, fun value mem => ?_, ?_, ?_, fun f mem => cut.settled (mem_append_warningChunk mem id)⟩
  · rw [List.flatMap_append, cut.flatMap_source]
    unfold warningChunk
    split <;> exact List.append_nil _
  · rcases cut.cases_of_mem (mem_append_warningChunk mem id) with ⟨_, same, some⟩ | ⟨_, other, -⟩
    · obtain rfl := Chunk.text.inj same
      exact some
    · cases other
  · refine List.isChain_append.mpr ⟨cut.isChain, ?_, fun _ _ y hy both => ?_⟩
    · unfold warningChunk
      split
      · exact .nil
      · exact .singleton _
    · unfold warningChunk at hy
      split at hy
      · cases hy
      · obtain rfl := Option.some.inj hy
        exact both.2
  · refine ⟨body, warningsOf body, rfl, fun c => cut.not_isWarnings, ?_⟩
    exact map_warning? fun f mem => cut.settled (mem_of_mem_fileChunks mem)

end Chunk

end Dialogue
