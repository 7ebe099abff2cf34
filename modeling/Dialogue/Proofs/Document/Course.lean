import Dialogue.Files.Memory
import Dialogue.Proofs.Document.Steps
import Dialogue.Proofs.Include.Leaves
import Dialogue.Proofs.Transcript.Coordinates
/-!
# `Dialogue.Proofs.Document.Course` — the course of a preparation.

A document told step by step: what each piece of a message adds and asks for, one piece after another and one message
after another, up to the first expression that fails. Nothing here collects or drains; a piece adds what it adds in any
message. Main statements: a document becomes ready exactly where this course goes through, with exactly the parts,
reports and questions of its steps, and it fails exactly where the course stops, with what was asked until then.
-/

namespace Dialogue.Document

open Script (Value Cell)

/-! ## §1 — the course of a message -/

/-- **Where an expression is evaluated:** its environment and the cells, and the readings of the clock from there on. -/
structure Place where
  clock : Clock
  env : Environment
  cells : Array Cell

/-- **An expression comes to `r`**, with the questions it asks and the place it leaves. -/
def Evaluates (files : FileAccess) (x : Place) (code : List Char) (r : Except Dialogue.Failure Value)
    (asked : List Access) (y : Place) : Prop :=
  (x.env.evaluateAt files x.clock.first (String.ofList code)).run x.cells = ⟨((r, y.env), y.cells), asked⟩ ∧
    y.clock = x.clock.rest

/-- **A leaf of a value as a part:** a text as it is, whatever stands in it, and a file by its media type. -/
def leafPart : Inclusion.Leaf → Part
  | .text t => .text t
  | .binary filename mediaType data => Part.ofFile filename filename mediaType data

/-- The report on a leaf that cannot be sent on. -/
def leafReport? (file : String) (position : Position) : Inclusion.Leaf → Option Diagnostic
  | .text _ => none
  | .binary filename mediaType data =>
    if (Part.ofFile filename filename mediaType data).isUnsupported then
      some ⟨.unsupportedFile, file, filename, s!"unsupported file type: {mediaType}", some position⟩
    else none

/-- The pieces of a message, each with the text before it. -/
abbrev pieces (m : Message) : List (List Char × Segment) :=
  Segment.located [] (Segment.ofTemplate m.content.toList)

section Relations

variable (files : FileAccess) (s : Setting) (m : Message)

/-- **What one piece of a message adds**, with the questions it asks and the place it leaves. -/
inductive Adds : Place → List Char × Segment → Gathered → List Access → Place → Prop
  /-- Text of the system is one part. -/
  | system {x : Place} {before text : List Char} (role : m.role = .system) (solid : text ≠ []) :
    Adds x (before, .text text) ⟨[.text (String.ofList text)], [], []⟩ [] x
  /-- Text of the user is chunked and classified. -/
  | you {x : Place} {before text : List Char} {chunks : List Chunk} {asked : List Access} (role : m.role = .you)
    (read : Chunk.read files (bare files s.path).dir (String.ofList text) = ⟨chunks, asked⟩) :
    Adds x (before, .text text) ⟨(Part.classify chunks).1, (Part.classify chunks).2, []⟩ asked x
  /-- An expression adds the leaves of its value, and the reports on them point to it. -/
  | expression {x y : Place} {before code : List Char} {v : Value} {asked : List Access}
    (value : Evaluates files x code (.ok v) asked y) :
    Adds x (before, .expression code)
      ⟨(Environment.emittable v).leaves.map leafPart, [],
        (Environment.emittable v).leaves.filterMap (leafReport? s.file (m.documentPosition before))⟩ asked y

/-- **Pieces one after another.** -/
inductive Goes : Place → List (List Char × Segment) → Gathered → List Access → Place → Prop
  | nil {x : Place} : Goes x [] {} [] x
  | cons {x y z : Place} {piece : List Char × Segment} {rest : List (List Char × Segment)} {g h : Gathered}
    {asked later : List Access} (adds : Adds files s m x piece g asked y) (goes : Goes y rest h later z) :
    Goes x (piece :: rest) (g.append h) (asked ++ later) z

/-- **Pieces up to the first expression that fails.** -/
inductive Stops (x : Place) : List (List Char × Segment) → Failure → List Access → Prop
  | intro {y z : Place} {earlier later : List (List Char × Segment)} {before code : List Char} {g : Gathered}
    {asked last : List Access} {cause : Dialogue.Failure} (goes : Goes files s m x earlier g asked y)
    (fails : Evaluates files y code (.error cause) last z) :
    Stops x (earlier ++ (before, .expression code) :: later)
      (.expression s.file (String.ofList (Text.trim code)) (m.documentPosition before) cause) (asked ++ last)

end Relations

variable {files : FileAccess} {s : Setting} {m : Message}

theorem emitted_eq (file : String) (position : Position) (v : Value) :
    emitted file position v = ⟨(Environment.emittable v).leaves.map leafPart, [],
      (Environment.emittable v).leaves.filterMap (leafReport? file position)⟩ := by
  have parts : Part.ofEmitted ∘ Emitted.ofLeaf (some position) = leafPart := by
    funext l
    cases l <;> simp only [Function.comp, Emitted.ofLeaf, Part.ofEmitted, leafPart]
  have reports : unsupported? file ∘ Emitted.ofLeaf (some position) = leafReport? file position := by
    funext l
    cases l with
    | text t => rfl
    | binary filename mediaType data =>
      unfold leafReport? Function.comp Emitted.ofLeaf unsupported?
      rfl
  unfold emitted
  dsimp only
  rw [Emission.emit_eq]
  show (⟨((Environment.emittable v).leaves.map _).map _, [], ((Environment.emittable v).leaves.map _).filterMap _⟩ :
    Gathered) = _
  rw [List.map_map, List.filterMap_map, parts, reports]

theorem literal_system {text : List Char} (solid : text ≠ []) :
    literal files s .system (String.ofList text) = ⟨⟨[.text (String.ofList text)], [], []⟩, []⟩ := by
  unfold literal
  dsimp only
  rw [if_neg (Segment.not_isEmpty_ofList solid)]
  rfl

theorem literal_you {text : List Char} {chunks : List Chunk} {asked : List Access}
    (read : Chunk.read files (bare files s.path).dir (String.ofList text) = ⟨chunks, asked⟩) :
    literal files s .you (String.ofList text) =
      ⟨⟨(Part.classify chunks).1, (Part.classify chunks).2, []⟩, asked⟩ := by
  unfold literal
  dsimp only
  rw [read, Logged.mk_bind]
  show (⟨_, asked ++ []⟩ : Logged _) = _
  rw [List.append_nil]
  rfl

/-- **What a piece adds** goes before what the pieces after it come to. -/
theorem Adds.run {x y : Place} {piece : List Char × Segment} {g : Gathered} {asked : List Access}
    (h : Adds files s m x piece g asked y) (rest : List (List Char × Segment)) :
    (gather files s m x.clock x.env (piece :: rest)).run x.cells =
      following g.append asked ((gather files s m y.clock y.env rest).run y.cells) := by
  cases h with
  | system role solid => rw [gather_text, role, literal_system solid]
  | you role read => rw [gather_text, role, literal_you read]
  | expression value => rw [gather_ok value.1, emitted_eq, value.2]

/-- **Pieces that go through** go before what the pieces after them come to. -/
theorem Goes.run {x y : Place} {earlier : List (List Char × Segment)} {g : Gathered} {asked : List Access}
    (h : Goes files s m x earlier g asked y) (rest : List (List Char × Segment)) :
    (gather files s m x.clock x.env (earlier ++ rest)).run x.cells =
      following g.append asked ((gather files s m y.clock y.env rest).run y.cells) := by
  induction h with
  | nil =>
    have none : Gathered.append {} = id := funext Gathered.empty_append
    rw [none, following_id]
    rfl
  | cons adds goes ih => rw [List.cons_append, adds.run, ih, following_following, ← Gathered.append_append]

theorem Goes.run_all {x y : Place} {all : List (List Char × Segment)} {g : Gathered} {asked : List Access}
    (h : Goes files s m x all g asked y) :
    (gather files s m x.clock x.env all).run x.cells = ⟨(.ok g, y.cells), asked⟩ := by
  have run := h.run []
  rw [List.append_nil] at run
  rw [run]
  show (⟨(.ok (g.append {}), y.cells), asked ++ []⟩ : Logged (Except Failure Gathered × Array Cell)) = _
  rw [Gathered.append_empty, List.append_nil]

/-- **Pieces that stop** fail with the first failure, and ask for nothing after it. -/
theorem Stops.run {x : Place} {all : List (List Char × Segment)} {e : Failure} {asked : List Access}
    (h : Stops files s m x all e asked) :
    ∃ cells, (gather files s m x.clock x.env all).run x.cells = ⟨(.error e, cells), asked⟩ := by
  cases h with
  | @intro y z earlier later before code g asked last cause goes fails =>
    refine ⟨z.cells, ?_⟩
    rw [goes.run, gather_error fails.1]
    rfl

theorem Stops.cons {x y : Place} {piece : List Char × Segment} {rest : List (List Char × Segment)} {g : Gathered}
    {e : Failure} {asked later : List Access} (adds : Adds files s m x piece g asked y)
    (h : Stops files s m y rest e later) : Stops files s m x (piece :: rest) e (asked ++ later) := by
  obtain ⟨goes, fails⟩ := h
  rw [← List.append_assoc]
  exact .intro (.cons adds goes) fails

/-- A piece adds something, or it is an expression that fails. -/
theorem adds_or_stops (spoken : m.role ≠ .assistant) (x : Place) {piece : List Char × Segment}
    (solid : piece.2 ≠ .text []) (rest : List (List Char × Segment)) :
    (∃ g asked y, Adds files s m x piece g asked y) ∨ ∃ e asked, Stops files s m x (piece :: rest) e asked := by
  obtain ⟨before, text | code⟩ := piece
  · left
    cases role : m.role with
    | system => exact ⟨_, _, _, .system role fun none => solid (congrArg Segment.text none)⟩
    | you => exact ⟨_, _, _, .you role rfl⟩
    | assistant => exact absurd role spoken
  · rcases evaluated : (x.env.evaluateAt files x.clock.first (String.ofList code)).run x.cells with
      ⟨⟨⟨r, env⟩, cells⟩, asked⟩
    have comes : Evaluates files x code r asked ⟨x.clock.rest, env, cells⟩ := ⟨evaluated, rfl⟩
    cases r with
    | ok v => exact .inl ⟨_, _, _, .expression comes⟩
    | error cause => exact .inr ⟨_, _, .intro .nil comes⟩

/-- **Pieces go through or stop** at one of them. -/
theorem goes_or_stops (spoken : m.role ≠ .assistant) (x : Place) {all : List (List Char × Segment)}
    (solid : ∀ piece ∈ all, piece.2 ≠ .text []) :
    (∃ g asked y, Goes files s m x all g asked y) ∨ ∃ e asked, Stops files s m x all e asked := by
  induction all generalizing x with
  | nil => exact .inl ⟨_, _, _, .nil⟩
  | cons piece rest ih =>
    obtain ⟨here, later⟩ := List.forall_mem_cons.mp solid
    rcases adds_or_stops spoken x here rest with ⟨g, asked, y, adds⟩ | stops
    · rcases ih y later with ⟨h, asked', z, goes⟩ | ⟨e, asked', stops⟩
      · exact .inl ⟨_, _, _, .cons adds goes⟩
      · exact .inr ⟨_, _, stops.cons adds⟩
    · exact .inr stops

/-- No literal piece of a message is empty. -/
theorem solid_pieces (m : Message) : ∀ piece ∈ pieces m, piece.2 ≠ .text [] := by
  intro piece mem none
  obtain ⟨earlier, later, all, -⟩ := Segment.mem_located mem
  refine Segment.text_not_mem_ofTemplate m.content.toList ?_
  rw [all, none]
  exact List.mem_append_right _ List.mem_cons_self

/-! ## §2 — the course of a document -/

/-- What a message that is passed on as it is comes to. -/
def passedOn (m : Message) : Gathered := { parts := if m.content.isEmpty then [] else [.text m.content] }

/-- **Where a message starts:** the cells, and the readings of the clock from there on. -/
structure Stage where
  clock : Clock
  cells : Array Cell

/-- **The first place in a message**, which starts in a fresh environment. -/
def Setting.start (files : FileAccess) (s : Setting) (x : Stage) : Place :=
  ⟨x.clock.first, s.environment files, x.cells⟩

/-- **Messages one after another**, from the cells that the script block left. What the assistant said is not evaluated;
any other message starts in a fresh environment. -/
inductive Ready (files : FileAccess) (s : Setting) :
    Stage → List Message → List Gathered → List Access → Stage → Prop
  | nil {x : Stage} : Ready files s x [] [] [] x
  | assistant {x z : Stage} {m : Message} {rest : List Message} {gs : List Gathered} {asked : List Access}
    (role : m.role = .assistant) (ready : Ready files s ⟨x.clock.rest, x.cells⟩ rest gs asked z) :
    Ready files s x (m :: rest) (passedOn m :: gs) asked z
  | spoken {x z : Stage} {m : Message} {y : Place} {rest : List Message} {g : Gathered} {gs : List Gathered}
    {asked later : List Access} (role : m.role ≠ .assistant) (goes : Goes files s m (s.start files x) (pieces m) g asked y)
    (ready : Ready files s ⟨x.clock.rest, y.cells⟩ rest gs later z) :
    Ready files s x (m :: rest) (g :: gs) (asked ++ later) z

/-- **Messages up to the first that stops** at an expression. -/
inductive Breaks (files : FileAccess) (s : Setting) (x : Stage) : List Message → Failure → List Access → Prop
  | intro {y : Stage} {earlier later : List Message} {m : Message} {gs : List Gathered} {e : Failure}
    {asked last : List Access} (ready : Ready files s x earlier gs asked y) (role : m.role ≠ .assistant)
    (stops : Stops files s m (s.start files y) (pieces m) e last) :
    Breaks files s x (earlier ++ m :: later) e (asked ++ last)

/-- **The start of a document:** what its script block leaves for its messages, with the questions it asks. -/
inductive Begins (files : FileAccess) (path : Path) (source : String) :
    Setting → Stage → List Message → List Access → Prop
  | plain {ms : List Message} (parsed : Transcript.parse source = .ok ⟨none, ms⟩) :
    Begins files path source ⟨path, [], []⟩ ⟨files.clock.rest, #[]⟩ ms []
  | block {block : Frontmatter} {ms : List Message} {bindings : Bindings} {env : Environment} {cells : Array Cell}
    {asked : List Access} (parsed : Transcript.parse source = .ok ⟨some block, ms⟩)
    (language : block.language = scriptLanguage)
    (ran : ((bare files path).executeAt files files.clock.first block.code).run #[] =
      ⟨((.ok bindings, env), cells), asked⟩) :
    Begins files path source ⟨path, bindings, env.functions⟩ ⟨files.clock.rest, cells⟩ ms asked

/-- **A document that becomes ready**, with everything it asks for. -/
inductive Succeeds (files : FileAccess) (path : Path) (source : String) : Prepared → List Access → Prop
  | intro {s : Setting} {x y : Stage} {ms : List Message} {gs : List Gathered} {first asked : List Access}
    (begins : Begins files path source s x ms first) (ready : Ready files s x ms gs asked y) :
    Succeeds files path source (.assembled ms gs) (first ++ asked)

/-- **A document that fails**, with everything it asks for until then: its script block is not closed, is in another
language or fails, or an expression of a message fails, after all the messages and pieces before it went through. -/
inductive Fails (files : FileAccess) (path : Path) (source : String) : Failure → List Access → Prop
  | unclosed (open_ : Transcript.Unclosed (Text.lines source.toList)) :
    Fails files path source (.transcript path.toString (.unterminatedFrontmatter 1)) []
  | language {block : Frontmatter} {ms : List Message} (parsed : Transcript.parse source = .ok ⟨some block, ms⟩)
    (other : block.language ≠ scriptLanguage) :
    Fails files path source (.unsupportedLanguage path.toString block.language) []
  | block {block : Frontmatter} {ms : List Message} {cause : Dialogue.Failure} {env : Environment}
    {cells : Array Cell} {asked : List Access} (parsed : Transcript.parse source = .ok ⟨some block, ms⟩)
    (language : block.language = scriptLanguage)
    (failed : ((bare files path).executeAt files files.clock.first block.code).run #[] =
      ⟨((.error cause, env), cells), asked⟩) :
    Fails files path source (.frontmatter path.toString cause) asked
  | expression {s : Setting} {x : Stage} {ms : List Message} {e : Failure} {first asked : List Access}
    (begins : Begins files path source s x ms first) (breaks : Breaks files s x ms e asked) :
    Fails files path source e (first ++ asked)

/-! ## §3 — the preparation takes its course -/

/-- One document after another. -/
def Prepared.append (p q : Prepared) : Prepared :=
  ⟨p.messages ++ q.messages, p.warnings ++ q.warnings, p.diagnostics ++ q.diagnostics⟩

theorem Prepared.assembled_nil_append : (Prepared.assembled [] []).append = id := rfl

theorem Prepared.assembled_cons_append (m : Message) (ms : List Message) (g : Gathered) (gs : List Gathered) :
    (fun p : Prepared => (⟨⟨m.role, m.line, g.parts⟩ :: p.messages, g.warnings ++ p.warnings,
      g.diagnostics ++ p.diagnostics⟩ : Prepared)) ∘ (assembled ms gs).append =
      (assembled (m :: ms) (g :: gs)).append := by
  funext p
  simp [assembled, append]

theorem Prepared.append_empty (p : Prepared) : p.append {} = p := by
  simp [append]

theorem run_message_assistant {clock : Clock} {cells : Array Cell} (role : m.role = .assistant) :
    (message files s clock m).run cells = ⟨(.ok (passedOn m), cells), []⟩ := by
  unfold message
  rw [role]
  rfl

theorem message_of_spoken (spoken : m.role ≠ .assistant) (clock : Clock) :
    message files s clock m = gather files s m clock (s.environment files) (pieces m) := by
  rw [message_eq]
  cases role : m.role with
  | assistant => exact absurd role spoken
  | system => rfl
  | you => rfl

/-- **Messages that are ready** go before what the messages after them come to. -/
theorem Ready.run {x y : Stage} {earlier : List Message} {gs : List Gathered} {asked : List Access}
    (h : Ready files s x earlier gs asked y) (rest : List Message) :
    (messages files s x.clock (earlier ++ rest)).run x.cells =
      following (Prepared.assembled earlier gs).append asked ((messages files s y.clock rest).run y.cells) := by
  induction h with
  | nil =>
    rw [Prepared.assembled_nil_append, following_id]
    rfl
  | assistant role ready ih =>
    rw [List.cons_append, messages_ok (run_message_assistant role), ih, following_following, List.nil_append,
      Prepared.assembled_cons_append]
  | @spoken x z m y rest' g gs asked later role goes ready ih =>
    have first : (message files s x.clock.first m).run x.cells = ⟨(.ok g, y.cells), asked⟩ := by
      rw [message_of_spoken role]
      exact goes.run_all
    rw [List.cons_append, messages_ok first, ih, following_following, Prepared.assembled_cons_append]

theorem Ready.run_all {x y : Stage} {ms : List Message} {gs : List Gathered} {asked : List Access}
    (h : Ready files s x ms gs asked y) :
    (messages files s x.clock ms).run x.cells = ⟨(.ok (.assembled ms gs), y.cells), asked⟩ := by
  have run := h.run []
  rw [List.append_nil] at run
  rw [run]
  show (⟨(.ok ((Prepared.assembled ms gs).append {}), y.cells), asked ++ []⟩ :
    Logged (Except Failure Prepared × Array Cell)) = _
  rw [Prepared.append_empty, List.append_nil]

/-- **Messages that break** fail with the first failure, and ask for nothing after it. -/
theorem Breaks.run {x : Stage} {ms : List Message} {e : Failure} {asked : List Access}
    (h : Breaks files s x ms e asked) :
    ∃ cells, (messages files s x.clock ms).run x.cells = ⟨(.error e, cells), asked⟩ := by
  obtain @⟨y, earlier, later, m, gs, e, asked, last, ready, role, stops⟩ := h
  obtain ⟨left, run⟩ := stops.run
  have broken : (message files s y.clock.first m).run y.cells = ⟨(.error e, left), last⟩ := by
    rw [message_of_spoken role]
    exact run
  refine ⟨left, ?_⟩
  rw [ready.run, messages_error broken]
  rfl

theorem Breaks.after {x y : Stage} {m : Message} {ms : List Message} {g : Gathered} {e : Failure}
    {asked later : List Access} (ready : ∀ {ms gs later z}, Ready files s y ms gs later z →
      Ready files s x (m :: ms) (g :: gs) (asked ++ later) z)
    (h : Breaks files s y ms e later) : Breaks files s x (m :: ms) e (asked ++ later) := by
  obtain ⟨goes, role, stops⟩ := h
  rw [← List.append_assoc]
  exact .intro (ready goes) role stops

/-- **Messages become ready or break** at one of them. -/
theorem ready_or_breaks (s : Setting) (x : Stage) (ms : List Message) :
    (∃ gs asked y, Ready files s x ms gs asked y) ∨ ∃ e asked, Breaks files s x ms e asked := by
  induction ms generalizing x with
  | nil => exact .inl ⟨_, _, _, .nil⟩
  | cons m rest ih =>
    by_cases role : m.role = .assistant
    · rcases ih ⟨x.clock.rest, x.cells⟩ with ⟨gs, asked, left, ready⟩ | ⟨e, asked, breaks⟩
      · exact .inl ⟨_, _, _, .assistant role ready⟩
      · have on : Breaks files s x (m :: rest) e ([] ++ asked) := breaks.after fun ready => .assistant role ready
        exact .inr ⟨_, _, on⟩
    · rcases goes_or_stops role (s.start files x) (solid_pieces m) with ⟨g, asked, y, goes⟩ | ⟨e, asked, stops⟩
      · rcases ih ⟨x.clock.rest, y.cells⟩ with ⟨gs, later, left, ready⟩ | ⟨e, later, breaks⟩
        · exact .inl ⟨_, _, _, .spoken role goes ready⟩
        · exact .inr ⟨_, _, breaks.after fun ready => .spoken role goes ready⟩
      · exact .inr ⟨_, _, .intro .nil role stops⟩

/-- **What a document begins with** goes before what its messages come to. -/
theorem Begins.run {path : Path} {source : String} {x : Stage} {ms : List Message} {first : List Access}
    (h : Begins files path source s x ms first) : prepare files path source =
      ⟨((messages files s x.clock ms).run x.cells).value.1,
        first ++ ((messages files s x.clock ms).run x.cells).accesses⟩ := by
  cases h with
  | plain parsed => exact prepare_of_ran parsed rfl
  | block parsed language ran => exact prepare_of_ran parsed (runFrontmatter_block language ran)

theorem Succeeds.run {path : Path} {source : String} {p : Prepared} {asked : List Access}
    (h : Succeeds files path source p asked) : prepare files path source = ⟨.ok p, asked⟩ := by
  obtain ⟨begins, ready⟩ := h
  rw [begins.run, ready.run_all]

theorem Fails.run {path : Path} {source : String} {e : Failure} {asked : List Access}
    (h : Fails files path source e asked) : prepare files path source = ⟨.error e, asked⟩ := by
  cases h with
  | unclosed never =>
    have parsed : Transcript.parse source = .error (.unterminatedFrontmatter 1) :=
      Transcript.parse_eq_error_iff.mpr ⟨rfl, never⟩
    unfold prepare
    rw [parsed]
    rfl
  | language parsed other => exact prepare_of_stopped parsed (runFrontmatter_foreign other)
  | block parsed language failed => exact prepare_of_stopped parsed (runFrontmatter_block language failed)
  | expression begins breaks =>
    obtain ⟨left, run⟩ := breaks.run
    rw [begins.run, run]

/-- **A document begins or fails** at its script block. -/
theorem begins_or_fails (files : FileAccess) (path : Path) (source : String) :
    (∃ s x ms first, Begins files path source s x ms first) ∨ ∃ e asked, Fails files path source e asked := by
  cases parsed : Transcript.parse source with
  | error e =>
    obtain ⟨-, never⟩ := Transcript.parse_eq_error_iff.mp parsed
    exact .inr ⟨_, _, .unclosed never⟩
  | ok t =>
    obtain ⟨_ | block, ms⟩ := t
    · exact .inl ⟨_, _, _, _, .plain parsed⟩
    · by_cases language : block.language = scriptLanguage
      · rcases ran : ((bare files path).executeAt files files.clock.first block.code).run #[] with
          ⟨⟨⟨r, env⟩, cells⟩, asked⟩
        cases r with
        | error cause => exact .inr ⟨_, _, .block parsed language ran⟩
        | ok bindings => exact .inl ⟨_, _, _, _, .block parsed language ran⟩
      · exact .inr ⟨_, _, .language parsed language⟩

/-- **A document succeeds or fails.** -/
theorem succeeds_or_fails (files : FileAccess) (path : Path) (source : String) :
    (∃ p asked, Succeeds files path source p asked) ∨ ∃ e asked, Fails files path source e asked := by
  rcases begins_or_fails files path source with ⟨s, x, ms, first, begins⟩ | fails
  · rcases ready_or_breaks s x ms with ⟨gs, asked, left, ready⟩ | ⟨e, asked, breaks⟩
    · exact .inl ⟨_, _, .intro begins ready⟩
    · exact .inr ⟨_, _, .expression begins breaks⟩
  · exact .inr fails

/-! ## §4 — failing fast, and in source order -/

/-- **A preparation fails for reasons of scripts only, and at once.** It fails exactly when the script block is not
closed, is in another language or fails, or when an expression of a message of the system or the user fails; of these
expressions the first counts. The failure is that of the expression, unchanged, and nothing was asked that is not asked
by the script block and the pieces up to that expression. -/
theorem prepare_error_iff (files : FileAccess) (path : Path) (source : String) (e : Failure) (asked : List Access) :
    prepare files path source = ⟨.error e, asked⟩ ↔ Fails files path source e asked := by
  refine ⟨fun failed => ?_, Fails.run⟩
  rcases succeeds_or_fails files path source with ⟨p, asked', succeeds⟩ | ⟨e', asked', fails⟩
  · rw [succeeds.run] at failed
    cases failed
  · rw [fails.run] at failed
    cases failed
    exact fails

/-- The expression that a preparation failed at: its document, its code and its position. -/
def failedAt? : Except Failure Prepared → Option (String × String × Position)
  | .error (.expression file code position _) => some (file, code, position)
  | _ => none

theorem eq_of_failedAt? {r : Except Failure Prepared} {file code : String} {position : Position}
    (h : failedAt? r = some (file, code, position)) : ∃ cause, r = .error (.expression file code position cause) := by
  unfold failedAt? at h
  split at h
  · cases h
    exact ⟨_, rfl⟩
  · cases h

/-- What the assistant said has an expression that would fail, the user's message one after a reference that cannot be
read: it is the user's that fails, and the reference after it is not looked at. -/
theorem prepare_error_after_reference :
    let files : FileAccess := ⟨(Files.Memory.ofList []).provider, .extensionTable, .rootDirectory, .stopped⟩
    let source := "@Assistant: \x7b\x7b x \x7d\x7d\n@You: @./gone.txt \x7b\x7b y \x7d\x7d \x7b\x7b z \x7d\x7d @./later.txt"
    ∃ cause, Fails files (.ofString "/docs/chat.md") source (.expression "/docs/chat.md" "y" ⟨2, 19⟩ cause)
      [.isReadable (.ofString "/docs/gone.txt")] := by
  intro files source
  have run : failedAt? (prepare files (.ofString "/docs/chat.md") source).value =
        some ("/docs/chat.md", "y", ⟨2, 19⟩) ∧
      (prepare files (.ofString "/docs/chat.md") source).accesses = [.isReadable (.ofString "/docs/gone.txt")] := by
    decide +kernel
  obtain ⟨failed, asked⟩ := run
  obtain ⟨cause, failed⟩ := eq_of_failedAt? failed
  refine ⟨cause, (prepare_error_iff _ _ _ _ _).mp ?_⟩
  rw [← failed, ← asked]

/-- **A message comes in source order, and nothing of it is scanned twice.** A document is ready exactly when its course
goes through, with exactly the parts, warnings and reports of the pieces of its messages, and exactly their questions;
the leaves of a value are parts as they stand. What a text include hands over is no exception: the literal text of the
file is a leaf as it stands, and the expressions in it are evaluated once, while it is included. -/
theorem prepare_in_source_order (files : FileAccess) (path : Path) (source : String) :
    (∀ p asked, prepare files path source = ⟨.ok p, asked⟩ ↔ Succeeds files path source p asked) ∧
      ∀ r clock q i asked, q.options.binary = false → Include.Resolver.fetchAt files r clock q = ⟨.ok i, asked⟩ →
        Include.Resolver.TextHandsOver files clock r q i.leaves asked := by
  refine ⟨fun p asked => ⟨fun ready => ?_, Succeeds.run⟩, fun r clock q i asked => Include.Resolver.fetchAt_handsOver⟩
  rcases succeeds_or_fails files path source with ⟨p', asked', succeeds⟩ | ⟨e', asked', fails⟩
  · rw [succeeds.run] at ready
    cases ready
    exact succeeds
  · rw [fails.run] at ready
    cases ready

/-- An included file and the value of an expression hold what looks like references and like an expression. They are not
looked at again: nothing is asked but for the included file. -/
theorem prepare_emitted_verbatim :
    let files : FileAccess := ⟨(Files.Memory.ofList [(.ofString "/docs/notes.md",
      Text.Utf8.encode "see @./a.md \x7b\x7b \"@./c\" \x7d\x7d \x7b\x7b")]).provider, .extensionTable, .rootDirectory, .stopped⟩
    let source := "@You: \x7b\x7b include(\"notes.md\") \x7d\x7d \x7b\x7b \"@./b \x7b\" + \"\x7b x \x7d\" + \"\x7d\" \x7d\x7d"
    ∃ p, Succeeds files (.ofString "/docs/chat.md") source p
        [.isReadable (.ofString "/docs/notes.md"), .readText (.ofString "/docs/notes.md")] ∧
      p.messages.map (·.parts) =
        [[.text "see @./a.md ", .text "@./c", .text " \x7b\x7b", .text " ", .text "@./b \x7b\x7b x \x7d\x7d"]] := by
  intro files source
  have run : (prepare files (.ofString "/docs/chat.md") source).value.toOption.map
        (fun p => p.messages.map (·.parts)) = some [[.text "see @./a.md ", .text "@./c", .text " \x7b\x7b", .text " ",
          .text "@./b \x7b\x7b x \x7d\x7d"]] ∧
      (prepare files (.ofString "/docs/chat.md") source).accesses =
        [.isReadable (.ofString "/docs/notes.md"), .readText (.ofString "/docs/notes.md")] := by
    decide +kernel
  obtain ⟨parts, asked⟩ := run
  obtain ⟨p, ready, parts⟩ := Option.map_eq_some_iff.mp parts
  have value : (prepare files (.ofString "/docs/chat.md") source).value = .ok p := by
    generalize (prepare files (.ofString "/docs/chat.md") source).value = r at ready
    cases r with
    | error e => cases ready
    | ok p' => exact congrArg Except.ok (Option.some.inj ready)
  refine ⟨p, ((prepare_in_source_order _ _ _).1 _ _).mp ?_, parts⟩
  rw [← asked, ← value]

end Dialogue.Document
