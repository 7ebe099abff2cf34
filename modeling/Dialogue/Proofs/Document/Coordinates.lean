import Dialogue.Proofs.Document.Course
/-!
# `Dialogue.Proofs.Document.Coordinates` — where reports on a document point to.

A report on an expression carries the place where its message counts the expression from. Messages are slices of the
document, so that place is the place of the opening braces in the document.
-/

namespace Dialogue.Document

open Text.Utf8 (size)

variable {files : FileAccess} {s : Setting} {m : Message} {ms : List Message}

/-! ## §1 — what is emitted -/

/-- **A report on what an expression emits** carries the place of the expression. -/
theorem position_of_mem_emitted {file : String} {position : Position} {v : Script.Value} {d : Diagnostic}
    (h : d ∈ (emitted file position v).diagnostics) : d.position = some position := by
  obtain ⟨e, mem, report⟩ := List.mem_filterMap.mp h
  rw [Emission.emit_eq] at mem
  -- all files of a value are emitted where the expression stands
  obtain ⟨l, -, rfl⟩ := List.mem_map.mp mem
  unfold unsupported? at report
  cases l with
  | text t => cases report
  | binary filename mediaType data =>
    obtain ⟨-, report⟩ := Option.ite_none_right_eq_some.mp report
    obtain rfl := Option.some.inj report
    rfl

/-! ## §2 — the expressions that are reached -/

/-- **Pieces that come to an expression**, which follows the text `before`, all pieces before it having gone through.
It has the result `r`. -/
inductive PiecesReach (files : FileAccess) (s : Setting) (m : Message) (x : Place) :
    List (List Char × Segment) → List Char → List Char → Except Dialogue.Failure Script.Value → Prop
  | intro {y z : Place} {earlier later : List (List Char × Segment)} {before code : List Char} {g : Gathered}
    {r : Except Dialogue.Failure Script.Value} {asked last : List Access} (goes : Goes files s m x earlier g asked y)
    (evaluates : Evaluates files y code r last z) :
    PiecesReach files s m x (earlier ++ (before, .expression code) :: later) before code r

/-- **Messages that come to an expression** of the message `m`, all messages before it being ready. -/
inductive MessagesReach (files : FileAccess) (s : Setting) (x : Stage) :
    List Message → Message → List Char → List Char → Except Dialogue.Failure Script.Value → Prop
  | intro {y : Stage} {earlier later : List Message} {m : Message} {gs : List Gathered} {asked : List Access}
    {before code : List Char} {r : Except Dialogue.Failure Script.Value} (ready : Ready files s x earlier gs asked y)
    (role : m.role ≠ .assistant) (reach : PiecesReach files s m (s.start files y) (pieces m) before code r) :
    MessagesReach files s x (earlier ++ m :: later) m before code r

/-- **A document whose preparation comes to an expression** of the message `m`, which follows the text `before` of that
message and has the result `r`. -/
inductive Reaches (files : FileAccess) (path : Path) (source : String) (m : Message) (before code : List Char)
    (r : Except Dialogue.Failure Script.Value) : Prop
  | intro {s : Setting} {x : Stage} {ms : List Message} {first : List Access}
    (begins : Begins files path source s x ms first) (reach : MessagesReach files s x ms m before code r) :
    Reaches files path source m before code r

theorem PiecesReach.mem {x : Place} {all : List (List Char × Segment)} {before code : List Char}
    {r : Except Dialogue.Failure Script.Value} (h : PiecesReach files s m x all before code r) :
    (before, Segment.expression code) ∈ all := by
  obtain ⟨goes, evaluates⟩ := h
  exact List.mem_append_right _ List.mem_cons_self

theorem PiecesReach.cons {x y : Place} {piece : List Char × Segment} {rest : List (List Char × Segment)} {g : Gathered}
    {asked : List Access} {before code : List Char} {r : Except Dialogue.Failure Script.Value}
    (adds : Adds files s m x piece g asked y) (h : PiecesReach files s m y rest before code r) :
    PiecesReach files s m x (piece :: rest) before code r := by
  obtain ⟨goes, evaluates⟩ := h
  exact .intro (.cons adds goes) evaluates

theorem MessagesReach.mem {x : Stage} {before code : List Char} {r : Except Dialogue.Failure Script.Value}
    (h : MessagesReach files s x ms m before code r) :
    m ∈ ms ∧ (before, Segment.expression code) ∈ pieces m := by
  obtain ⟨ready, role, reach⟩ := h
  exact ⟨List.mem_append_right _ List.mem_cons_self, reach.mem⟩

theorem MessagesReach.after {x y : Stage} {n : Message} {before code : List Char}
    {r : Except Dialogue.Failure Script.Value}
    (ready : ∀ {ms gs later z}, Ready files s y ms gs later z → ∃ gs asked, Ready files s x (n :: ms) gs asked z)
    (h : MessagesReach files s y ms m before code r) : MessagesReach files s x (n :: ms) m before code r := by
  obtain ⟨earlier, role, reach⟩ := h
  obtain ⟨gs, asked, earlier⟩ := ready earlier
  exact .intro earlier role reach

theorem Begins.parsed {path : Path} {source : String} {x : Stage} {first : List Access}
    (h : Begins files path source s x ms first) :
    s.path = path ∧ ∃ t, Transcript.parse source = .ok t ∧ t.messages = ms := by
  cases h with
  | plain parsed => exact ⟨rfl, _, parsed, rfl⟩
  | block parsed => exact ⟨rfl, _, parsed, rfl⟩

/-- **A document that fails at an expression** is one whose preparation comes to an expression that fails. -/
theorem Fails.reaches {path : Path} {source file code : String} {position : Position} {cause : Dialogue.Failure}
    {asked : List Access} (h : Fails files path source (.expression file code position cause) asked) :
    ∃ m before raw, Reaches files path source m before raw (.error cause) ∧ file = path.toString ∧
      code = String.ofList (Text.trim raw) ∧ position = m.documentPosition before := by
  cases h with
  | @expression s x ms _ first last begins breaks =>
    obtain ⟨rfl, -⟩ := begins.parsed
    generalize failure : Failure.expression file code position cause = e at breaks
    obtain @⟨y, earlier, later, m, gs, e, asked, last, ready, role, stops⟩ := breaks
    generalize all : pieces m = segments at stops
    obtain @⟨y', z, front, back, before, raw, g, _, _, cause', goes, fails⟩ := stops
    cases failure
    exact ⟨m, before, raw, .intro begins (.intro ready role (all ▸ .intro goes fails)), rfl, rfl, rfl⟩

/-- **A preparation that fails at an expression** comes to an expression that fails. -/
theorem reaches_of_failed {path : Path} {source file code : String} {position : Position} {cause : Dialogue.Failure}
    (failed : (prepare files path source).value = .error (.expression file code position cause)) :
    ∃ m before raw, Reaches files path source m before raw (.error cause) ∧ file = path.toString ∧
      code = String.ofList (Text.trim raw) ∧ position = m.documentPosition before := by
  rcases succeeds_or_fails files path source with ⟨p, asked, succeeds⟩ | ⟨e, asked, fails⟩
  · rw [succeeds.run] at failed
    cases failed
  · rw [fails.run] at failed
    obtain rfl := Except.error.inj failed
    exact fails.reaches

/-- **What is reported on pieces** comes from one of their expressions. -/
theorem Goes.reaches {x y : Place} {all : List (List Char × Segment)} {g : Gathered} {asked : List Access}
    (h : Goes files s m x all g asked y) {d : Diagnostic} (hd : d ∈ g.diagnostics) :
    ∃ before code v, PiecesReach files s m x all before code (.ok v) ∧
      d ∈ (emitted s.file (m.documentPosition before) v).diagnostics := by
  induction h with
  | nil => cases hd
  | cons adds goes ih =>
    rcases List.mem_append.mp hd with here | there
    · cases adds with
      | system => cases here
      | you => cases here
      | @expression _ before code v _ value =>
        refine ⟨before, code, v, .intro .nil value, ?_⟩
        rw [emitted_eq]
        exact here
    · obtain ⟨before, code, v, reach, reported⟩ := ih there
      exact ⟨before, code, v, reach.cons adds, reported⟩

/-- **What is reported on messages** comes from an expression of one of them. -/
theorem Ready.reaches {x y : Stage} {gs : List Gathered} {asked : List Access} (h : Ready files s x ms gs asked y)
    {d : Diagnostic} (hd : d ∈ gs.flatMap (·.diagnostics)) :
    ∃ m before code v, MessagesReach files s x ms m before code (.ok v) ∧
      d ∈ (emitted s.file (m.documentPosition before) v).diagnostics := by
  induction h with
  | nil => cases hd
  | assistant role ready ih =>
    obtain ⟨m, before, code, v, reach, reported⟩ := ih hd
    exact ⟨m, before, code, v, reach.after fun ready => ⟨_, _, .assistant role ready⟩, reported⟩
  | @spoken x z m y rest g gs asked later role goes ready ih =>
    rcases List.mem_append.mp hd with here | there
    · obtain ⟨before, code, v, reach, reported⟩ := goes.reaches here
      exact ⟨m, before, code, v, .intro .nil role reach, reported⟩
    · obtain ⟨m', before, code, v, reach, reported⟩ := ih there
      exact ⟨m', before, code, v, reach.after fun ready => ⟨_, _, .spoken role goes ready⟩, reported⟩

/-- **What a preparation reports** comes from an expression that it comes to. -/
theorem reaches_of_ready {path : Path} {source : String} {p : Prepared}
    (made : (prepare files path source).value = .ok p) {d : Diagnostic} (hd : d ∈ p.diagnostics) :
    ∃ m before code v, Reaches files path source m before code (.ok v) ∧
      d ∈ (emitted path.toString (m.documentPosition before) v).diagnostics := by
  rcases succeeds_or_fails files path source with ⟨p', asked, succeeds⟩ | ⟨e, asked, fails⟩
  · rw [succeeds.run] at made
    obtain rfl := Except.ok.inj made
    obtain ⟨begins, ready⟩ := succeeds
    obtain ⟨rfl, -⟩ := begins.parsed
    obtain ⟨m, before, code, v, reach, reported⟩ := ready.reaches hd
    exact ⟨m, before, code, v, .intro begins reach, reported⟩
  · rw [fails.run] at made
    cases made

/-! ## §3 — places of reports -/

/-- **An expression of a message of a document**, which follows the text `before` of the message, and whose opening
braces stand at `position` in the document. -/
def ExpressionAt (source : String) (ms : List Message) (m : Message) (before code : List Char) (position : Position) :
    Prop :=
  m ∈ ms ∧ (before, Segment.expression code) ∈ pieces m ∧ ∃ start rest,
    source.toList = start ++ before ++ Segment.opening ++ code ++ Segment.closing ++ rest ∧
    Position.atOffset? source.toList (size (start ++ before)) = some position

/-- Messages in order stand in their document. -/
theorem stands_of_inOrder {src front : List Char} {low : Nat} (h : Transcript.InOrder src front low ms) {m : Message}
    (mem : m ∈ ms) : ∃ before, m.Stands src front before := by
  induction h with
  | nil => cases mem
  | cons _ here _ ih =>
    rcases List.mem_cons.mp mem with rfl | there
    · exact ⟨_, here⟩
    · exact ih there

/-- **Where a message counts an expression from** is where its opening braces stand in the document. -/
theorem expressionAt_of_located {source : String} {t : Transcript} (parsed : Transcript.parse source = .ok t)
    (mem : m ∈ t.messages) {before code : List Char} (located : (before, Segment.expression code) ∈ pieces m) :
    ExpressionAt source t.messages m before code (m.documentPosition before) := by
  obtain ⟨front, -, order⟩ := Transcript.parse_inOrder parsed
  obtain ⟨start, slice, -, -, inside⟩ := stands_of_inOrder order mem
  obtain ⟨after, cut⟩ := Segment.eq_of_mem_located located
  obtain ⟨rest, slice⟩ := slice
  refine ⟨mem, located, start, after ++ rest, ?_, ?_⟩
  · rw [slice, cut]
    simp only [Segment.raw, List.append_assoc]
  · rw [Text.Utf8.size_append]
    rw [List.append_assoc] at cut
    exact inside before _ cut

theorem Reaches.parsed {path : Path} {source : String} {before code : List Char}
    {r : Except Dialogue.Failure Script.Value} (h : Reaches files path source m before code r) :
    ∃ t, Transcript.parse source = .ok t ∧ m ∈ t.messages ∧ (before, Segment.expression code) ∈ pieces m := by
  obtain ⟨begins, reach⟩ := h
  obtain ⟨-, t, parsed, rfl⟩ := begins.parsed
  exact ⟨t, parsed, reach.mem⟩

/-- **An expression that a preparation comes to** stands in the document where its message counts it from. -/
theorem Reaches.expressionAt {path : Path} {source : String} {t : Transcript} {before code : List Char}
    {r : Except Dialogue.Failure Script.Value} (h : Reaches files path source m before code r)
    (parsed : Transcript.parse source = .ok t) :
    ExpressionAt source t.messages m before code (m.documentPosition before) := by
  obtain ⟨t', parsed', mem, located⟩ := h.parsed
  obtain rfl : t' = t := Except.ok.inj (parsed'.symm.trans parsed)
  exact expressionAt_of_located parsed mem located

/-- **Exact coordinates.** The messages of a document are slices of it, one after another; each knows its line and
where its text starts, and a place counted in its text is the place in the document. Counted in 32 bits these do
not wrap when the document has less than `UInt32.size - 1` bytes. So the failure of an expression that the preparation
comes to, and every report on a file that such an expression emits, points to the opening braces of that expression in
the document. -/
theorem prepare_coordinates {source : String} {t : Transcript} (parsed : Transcript.parse source = .ok t) :
    (∃ front, Transcript.Fronts front t.frontmatter ∧
      Transcript.InOrder source.toList front 0 t.messages) ∧
    (size source.toList < UInt32.size - 1 → ∀ offset position,
      Position.atOffset? source.toList offset = some position →
        position.line < UInt32.size ∧ position.column < UInt32.size) ∧
    ∀ files path,
      (∀ file code position cause,
        (prepare files path source).value = .error (.expression file code position cause) →
          ∃ m before raw, Reaches files path source m before raw (.error cause) ∧ file = path.toString ∧
            code = String.ofList (Text.trim raw) ∧ ExpressionAt source t.messages m before raw position) ∧
      ∀ p, (prepare files path source).value = .ok p → ∀ d ∈ p.diagnostics,
        ∃ m before raw v position, Reaches files path source m before raw (.ok v) ∧ d.position = some position ∧
          d ∈ (emitted path.toString position v).diagnostics ∧ ExpressionAt source t.messages m before raw position := by
  refine ⟨Transcript.parse_inOrder parsed, ?_, fun files path => ?_⟩
  · intro small offset position h
    obtain ⟨line, column⟩ := Position.atOffset?_le h
    unfold UInt32.size at small ⊢
    omega
  · refine ⟨fun file code position cause failed => ?_, fun p ready d hd => ?_⟩
    · obtain ⟨m, before, raw, reaches, called, text, rfl⟩ := reaches_of_failed failed
      exact ⟨m, before, raw, reaches, called, text, reaches.expressionAt parsed⟩
    · obtain ⟨m, before, raw, v, reaches, reported⟩ := reaches_of_ready ready hd
      exact ⟨m, before, raw, v, _, reaches, position_of_mem_emitted reported, reported, reaches.expressionAt parsed⟩

/-- A blank first line and text of several bytes a character before the expression. -/
theorem prepare_coordinates_blank_line :
    Transcript.parse "@You:\n  é {{ x }}" = .ok ⟨none, [⟨.you, "é {{ x }}", 1, ⟨2, 3⟩⟩]⟩ ∧
      ∃ front, Transcript.Fronts front none ∧
        Transcript.InOrder "@You:\n  é {{ x }}".toList front 0 [⟨.you, "é {{ x }}", 1, ⟨2, 3⟩⟩] :=
  have parsed : Transcript.parse "@You:\n  é {{ x }}" = .ok ⟨none, [⟨.you, "é {{ x }}", 1, ⟨2, 3⟩⟩]⟩ := by
    decide +kernel
  ⟨parsed, (prepare_coordinates parsed).1⟩

end Dialogue.Document
