import Dialogue.Proofs.Document.Coordinates
import Dialogue.Proofs.Environment.Remnants
import Dialogue.Proofs.Include.Foreign
/-!
# `Dialogue.Proofs.Document.Naming` — what a failure says of the expression it happened at.

The wording of a failure starts with the place of an expression in the document. A fault of an include does not name an
expression, so the one of the document is added; words on the expression itself name it already. But what was said of an
expression in an included text is passed on as it is, and it names that expression instead. Main statement: these are
the three ways in which an expression of a document fails, and only in the third is it not named.
-/

namespace Dialogue.Document

open Script (Cell CellsGenuine)
open Include (Foreign SaidOfText)

variable {files : FileAccess} {s : Setting} {m : Message}

/-! ## §1 — failures that are kept -/

/-- **A setting that holds failures of includes only**. -/
structure Setting.Genuine (files : FileAccess) (s : Setting) : Prop where
  bindings : ∀ b ∈ s.bindings, b.2.Genuine (Foreign files)
  functions : ∀ f ∈ s.functions, f.Genuine (Foreign files)

/-- **A place that holds failures of includes only**, under the name of the document. -/
structure Place.Genuine (files : FileAccess) (s : Setting) (x : Place) : Prop where
  kept : x.env.Genuine (Foreign files) x.cells
  name : x.env.name = (bare files s.path).name

/-- A message starts with what the setting and the cells hold. -/
theorem Setting.Genuine.start (h : s.Genuine files) {x : Stage} (hc : CellsGenuine (Foreign files) x.cells) :
    (s.start files x).Genuine files s := by
  have start : (bare files s.path).Genuine (Foreign files) x.cells :=
    have new := Environment.genuine_ofPath (files.workingDirectory.resolve s.path)
    ⟨new.scope, new.functions, hc⟩
  exact ⟨(start.seed h.bindings).seedFunctions h.functions, ((bare files s.path).later_seed s.bindings).name⟩

/-- **An expression** fails with what comes from includes or in words that name it, and keeps no other failures. -/
theorem Place.Genuine.evaluates {x y : Place} (h : x.Genuine files s) {code : List Char}
    {r : Except Dialogue.Failure Script.Value} {asked : List Access} (evaluates : Evaluates files x code r asked y) :
    y.Genuine files s ∧ ∀ e, r = .error e → Environment.OrSaid (Foreign files)
      (.evaluation (bare files s.path).name (Text.trimmed (String.ofList code))) e := by
  have ran : ((x.env.evaluateAt files x.clock.first (String.ofList code)).run x.cells).value = ((r, y.env), y.cells) :=
    congrArg Logged.value evaluates.1
  have ends := h.kept.evaluateAt_foreign x.clock.first (String.ofList code)
  have moved := x.env.later_evaluateWith (Include.Resolver.fetchAt files (.ofEnvironment x.env)) x.clock.first
    (String.ofList code) x.cells
  rw [ran, h.name] at ends
  unfold Environment.evaluateAt at ran
  rw [ran] at moved
  exact ⟨⟨ends.left, moved.name.trans h.name⟩, ends.failure⟩

theorem Goes.genuine {x y : Place} {all : List (List Char × Segment)} {g : Gathered} {asked : List Access}
    (h : Goes files s m x all g asked y) (start : x.Genuine files s) : y.Genuine files s := by
  induction h with
  | nil => exact start
  | cons adds goes ih =>
    cases adds with
    | system => exact ih start
    | you => exact ih start
    | expression value => exact ih (start.evaluates value).1

theorem Ready.genuine {x y : Stage} {ms : List Message} {gs : List Gathered} {asked : List Access}
    (h : Ready files s x ms gs asked y) (setting : s.Genuine files)
    (start : CellsGenuine (Foreign files) x.cells) : CellsGenuine (Foreign files) y.cells := by
  induction h with
  | nil => exact start
  | assistant _ _ ih => exact ih start
  | spoken _ goes _ ih => exact ih (goes.genuine (setting.start start)).kept.cells

/-- **A script block leaves failures of includes only**, if it goes through. -/
theorem Begins.genuine {path : Path} {source : String} {x : Stage} {ms : List Message} {first : List Access}
    (h : Begins files path source s x ms first) : s.Genuine files ∧ CellsGenuine (Foreign files) x.cells := by
  have start := Environment.genuine_ofPath (P := Foreign files) (files.workingDirectory.resolve path)
  cases h with
  | plain => exact ⟨⟨List.forall_mem_nil _, List.forall_mem_nil _⟩, start.cells⟩
  | @block block _ bindings env cells _ _ _ ran =>
    have ran : (((bare files path).executeAt files files.clock.first block.code).run #[]).value =
        ((.ok bindings, env), cells) := congrArg Logged.value ran
    obtain ⟨-, rfl⟩ := Environment.executeAt_ok ran
    have left := start.executeAt_foreign ran
    exact ⟨⟨left.bindingsAfter _, left.functions⟩, left.cells⟩

/-! ## §2 — failures of expressions -/

/-- **An expression that the pieces of a message come to** fails for what comes from includes, or in words that name
it. -/
theorem PiecesReach.foreign_or_said {x : Place} {all : List (List Char × Segment)} {before code : List Char}
    {cause : Dialogue.Failure} (h : PiecesReach files s m x all before code (.error cause)) (start : x.Genuine files s) :
    Environment.OrSaid (Foreign files) (.evaluation (bare files s.path).name (String.ofList (Text.trim code))) cause := by
  obtain ⟨goes, evaluates⟩ := h
  have said := ((goes.genuine start).evaluates evaluates).2 cause rfl
  rwa [Text.trimmed, String.toList_ofList] at said

/-- **An expression that a preparation comes to** fails for what comes from includes, or in words that name it. -/
theorem Reaches.foreign_or_said {path : Path} {source : String} {before code : List Char} {cause : Dialogue.Failure}
    (h : Reaches files path source m before code (.error cause)) :
    Environment.OrSaid (Foreign files) (.evaluation (bare files path).name (String.ofList (Text.trim code))) cause := by
  obtain ⟨begins, ready, role, reach⟩ := h
  obtain ⟨rfl, -⟩ := begins.parsed
  obtain ⟨setting, cells⟩ := begins.genuine
  exact reach.foreign_or_said (setting.start (ready.genuine setting cells))

/-- The place that the wording of a failure starts with. -/
def placed (path : Path) (position : Position) : String := s!"{path.toString}:{position.line}:{position.column}: "

theorem infix_between (before code after : String) : code.toList <:+: (before ++ code ++ after).toList := by
  rw [String.toList_append, String.toList_append]
  exact List.infix_append _ _ _

/-- **What a failure says of the expression it happened at.** Its wording starts with the document and the line and the
column of that expression, which count from 1. If an include is at fault, the trimmed text of the expression follows,
and what the include says; and if the expression itself is, its trimmed text stands in the words on it. But what was said
of an expression in the text of an included file, now or earlier, follows as it is, and is all there is. So a failure
that does not contain the trimmed text of the expression was said of another one, in a text that was included. -/
theorem prepare_names (files : FileAccess) (path : Path) (source : String) {file code : String} {position : Position}
    {cause : Dialogue.Failure}
    (failed : (prepare files path source).value = .error (.expression file code position cause)) :
    let said := (Failure.expression file code position cause).message
    (∃ t m before raw, Transcript.parse source = .ok t ∧ Reaches files path source m before raw (.error cause) ∧
      code = String.ofList (Text.trim raw) ∧ ExpressionAt source t.messages m before raw position) ∧
    (cause.isIncludeFault = true ∧ said = placed path position ++ s!"failed to evaluate `{code}`: " ++ cause.message ∨
      (∃ text : String,
        said = placed path position ++ s!"failed to evaluate `{code}` in {(bare files path).name}: {text}") ∨
      SaidOfText files cause ∧ said = placed path position ++ cause.message) ∧
    (¬ SaidOfText files cause → code.toList <:+: said.toList) := by
  intro said
  obtain ⟨m, before, raw, reaches, rfl, text, here⟩ := reaches_of_failed failed
  obtain ⟨t, parsed, -⟩ := reaches.parsed
  refine ⟨⟨t, m, before, raw, parsed, reaches, text, here ▸ reaches.expressionAt parsed⟩, ?_⟩
  have origin := reaches.foreign_or_said
  rw [← text] at origin
  rcases origin with (fault | inner) | ⟨text, rfl⟩
  · have added : Failure.expressionMessage code cause = s!"failed to evaluate `{code}`: " ++ cause.message :=
      if_pos fault
    have whole : said = placed path position ++ s!"failed to evaluate `{code}`: " ++ cause.message :=
      (congrArg (placed path position ++ ·) added).trans (String.append_assoc ..).symm
    refine ⟨.inl ⟨fault, whole⟩, fun _ => ?_⟩
    have named := infix_between (placed path position ++ "failed to evaluate `") code ("`: " ++ cause.message)
    rw [whole]
    simp only [String.append_assoc] at named ⊢
    exact named
  · refine ⟨.inr (.inr ⟨inner, ?_⟩), fun other => absurd inner other⟩
    obtain ⟨p, text, raw, reason, -, -, rfl⟩ := inner
    rfl
  · refine ⟨.inr (.inl ⟨text, rfl⟩), fun _ => ?_⟩
    have named := infix_between (placed path position ++ "failed to evaluate `") code
      (s!"` in {(bare files path).name}: {text}")
    show code.toList <:+: (placed path position ++
      s!"failed to evaluate `{code}` in {(bare files path).name}: {text}").toList
    simp only [String.append_assoc] at named ⊢
    exact named

/-- What a preparation failed for. -/
def failedFor? : Except Failure Prepared → Option Dialogue.Failure
  | .error e => e.cause?
  | .ok _ => none

/-- An included text has an expression that fails: the document's expression, which includes it, is not named. -/
theorem prepare_names_included_only :
    let files : FileAccess := ⟨(Files.Memory.ofList [(.ofString "/docs/a.md",
      Text.Utf8.encode "\x7b\x7b nope \x7d\x7d")]).provider, .extensionTable, .rootDirectory, .stopped⟩
    let path : Path := .ofString "/docs/chat.md"
    let source := "@You: \x7b\x7b include(\"a.md\") \x7d\x7d\n"
    let code := "include(\"a.md\")"
    let cause : Dialogue.Failure := .evaluation "/docs/a.md" "nope" "Variable not found: nope (line 1, position 1)"
    let said := (Failure.expression "/docs/chat.md" code ⟨1, 7⟩ cause).message
    (prepare files path source).value = .error (.expression "/docs/chat.md" code ⟨1, 7⟩ cause) ∧
      ¬ code.toList <:+: said.toList ∧ SaidOfText files cause ∧ said = placed path ⟨1, 7⟩ ++ cause.message := by
  intro files path source code cause said
  have run : failedAt? (prepare files path source).value = some ("/docs/chat.md", code, ⟨1, 7⟩) ∧
      failedFor? (prepare files path source).value = some cause := by
    decide +kernel
  obtain ⟨failed, reason⟩ := run
  obtain ⟨cause', failed⟩ := eq_of_failedAt? failed
  rw [failed] at reason
  obtain rfl : cause' = cause := Option.some.inj reason
  have unnamed : ¬ code.toList <:+: said.toList := by decide +kernel
  obtain ⟨-, -, named⟩ := prepare_names files path source failed
  exact ⟨failed, unnamed, of_not_not fun other => unnamed (named other), rfl⟩

end Dialogue.Document
