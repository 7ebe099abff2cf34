import Dialogue.Proofs.Document.Draining
/-!
# `Dialogue.Proofs.Document.Steps` — the steps of preparing a document.

What each step yields and asks, given what the step before it yields: one lemma for each way that a step can go. The
pieces of a message are in `Dialogue.Proofs.Document.Draining`.
-/

namespace Dialogue.Document

open Script (Cell)

variable {files : FileAccess} {s : Setting} {clock : Clock} {m : Message} {ms : List Message}
  {cells cells₁ : Array Cell}

/-- What work yields after other work. -/
theorem Work.value_bind {α β : Type} (x : Work α) (f : α → Work β) (cells : Array Cell) :
    ((x >>= f).run cells).value = ((f (x.run cells).value.1).run (x.run cells).value.2).value := rfl

/-- What goes right after a change to it went right before. -/
theorem ok_of_map {ε α β : Type} {x : Except ε α} {f : α → β} {b : β} (h : x.map f = .ok b) :
    ∃ a, x = .ok a ∧ f a = b := by
  cases x with
  | error e => cases h
  | ok a => exact ⟨a, rfl, Except.ok.inj h⟩

/-! ## §1 — the messages of a document -/

section Messages

variable {asked : List Access}

/-- **A message that cannot be made ready** ends the document, and nothing after it is looked at. -/
theorem messages_error {e : Failure}
    (h : (message files s clock.first m).run cells = ⟨(.error e, cells₁), asked⟩) :
    (messages files s clock (m :: ms)).run cells = ⟨(.error e, cells₁), asked⟩ := by
  rw [messages.eq_def]
  dsimp only
  rw [Work.run_bind, h, Logged.mk_bind]
  show (⟨_, asked ++ []⟩ : Logged _) = _
  rw [List.append_nil]
  rfl

/-- **A message that is ready** is followed by the messages after it. -/
theorem messages_ok {g : Gathered} (h : (message files s clock.first m).run cells = ⟨(.ok g, cells₁), asked⟩) :
    (messages files s clock (m :: ms)).run cells =
      following (fun p => ⟨⟨m.role, m.line, g.parts⟩ :: p.messages, g.warnings ++ p.warnings,
        g.diagnostics ++ p.diagnostics⟩) asked ((messages files s clock.rest ms).run cells₁) := by
  rw [messages.eq_def]
  dsimp only
  rw [Work.run_bind, h, Logged.mk_bind]
  dsimp only
  rw [run_following]
  rfl

end Messages

/-- **The document that messages make** once they are ready. -/
def Prepared.assembled (ms : List Message) (gs : List Gathered) : Prepared where
  messages := List.zipWith (fun m g => ⟨m.role, m.line, g.parts⟩) ms gs
  warnings := gs.flatMap (·.warnings)
  diagnostics := gs.flatMap (·.diagnostics)

/-! ## §2 — the document -/

section Prepare

variable {path : Path} {source : String} {t : Transcript} {bindings : Bindings} {env : Environment}
  {asked : List Access}

/-- **A script block in another language** is not run. -/
theorem runFrontmatter_foreign {file : String} {before : Environment} {block : Frontmatter}
    (other : block.language ≠ scriptLanguage) :
    (runFrontmatter files file before ⟨some block, ms⟩).run cells =
      ⟨(.error (.unsupportedLanguage file block.language), cells), []⟩ := by
  unfold runFrontmatter
  dsimp only
  rw [if_pos other]
  rfl

/-- What a script block comes to, in the words of the document. -/
def ofExecuted (file : String) (env : Environment) :
    Except Dialogue.Failure Bindings → Except Failure (Bindings × Environment)
  | .ok bindings => .ok (bindings, env)
  | .error e => .error (.frontmatter file e)

/-- **A script block** is run, and nothing else. -/
theorem runFrontmatter_block {file : String} {before : Environment} {block : Frontmatter}
    {r : Except Dialogue.Failure Bindings} (language : block.language = scriptLanguage)
    (ran : (before.executeAt files files.clock.first block.code).run cells = ⟨((r, env), cells₁), asked⟩) :
    (runFrontmatter files file before ⟨some block, ms⟩).run cells = ⟨(ofExecuted file env r, cells₁), asked⟩ := by
  unfold runFrontmatter
  dsimp only
  rw [if_neg (not_not_intro language)]
  show (before.executeAt files files.clock.first block.code >>= _).run cells = _
  rw [Work.run_bind, ran, Logged.mk_bind]
  -- nothing is asked once the block has ended, whichever way it did
  cases r <;>
  · show (⟨_, asked ++ []⟩ : Logged _) = _
    rw [List.append_nil]
    rfl

/-- **Preparing a document** is running its script block, and then making its messages ready on what that leaves. -/
theorem prepare_of_ran (parsed : Transcript.parse source = .ok t)
    (ran : (runFrontmatter files path.toString (bare files path) t).run #[] = ⟨(.ok (bindings, env), cells), asked⟩) :
    prepare files path source =
      ⟨((messages files ⟨path, bindings, env.functions⟩ files.clock.rest t.messages).run cells).value.1,
        asked ++ ((messages files ⟨path, bindings, env.functions⟩ files.clock.rest t.messages).run cells).accesses⟩ := by
  unfold prepare
  rw [parsed]
  dsimp only
  rw [Work.run_bind, ran, Logged.mk_bind, Logged.mk_bind]
  show (⟨_, _ ++ []⟩ : Logged _) = _
  rw [List.append_nil]
  rfl

/-- **A script block that fails** ends the preparation, and no message is looked at. -/
theorem prepare_of_stopped {e : Failure} (parsed : Transcript.parse source = .ok t)
    (ran : (runFrontmatter files path.toString (bare files path) t).run #[] = ⟨(.error e, cells), asked⟩) :
    prepare files path source = ⟨.error e, asked⟩ := by
  unfold prepare
  rw [parsed]
  dsimp only
  rw [Work.run_bind, ran, Logged.mk_bind, Logged.mk_bind]
  show (⟨_, asked ++ [] ++ []⟩ : Logged _) = _
  rw [List.append_nil, List.append_nil]
  rfl

theorem prepare_value (parsed : Transcript.parse source = .ok t)
    (ran : ((runFrontmatter files path.toString (bare files path) t).run #[]).value = (.ok (bindings, env), cells)) :
    (prepare files path source).value =
      ((messages files ⟨path, bindings, env.functions⟩ files.clock.rest t.messages).run cells).value.1 := by
  rcases run : (runFrontmatter files path.toString (bare files path) t).run #[] with ⟨r, asked⟩
  rw [run] at ran
  obtain rfl : r = _ := ran
  rw [prepare_of_ran parsed run]

end Prepare

end Dialogue.Document
