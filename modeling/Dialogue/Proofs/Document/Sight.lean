import Dialogue.Proofs.Document.Isolation
import Dialogue.Proofs.Environment.Bindings
import Dialogue.Proofs.Path
/-!
# `Dialogue.Proofs.Document.Sight` — what a message can see.

Each message of the system or the user is evaluated in a fresh environment of the document, before whose two constants
stand the variables that the script block has reported. Main statement: under every name a message finds the document's
path, its directory, or what the script block has brought into reach under this name, as it was at its end; and nothing
that the script block does can put anything else there.
-/

namespace Dialogue.Document

open Script (Value Entry Cell newest?)
open Environment (Declares declaredNames fileConstant dirConstant)

variable {files : FileAccess} {path dir : Path} {t : Transcript} {bindings : Bindings} {env : Environment}
  {cells : Array Cell}

/-! ## §1 — the constants of a document -/

/-- **A document sees its path and its directory**, and no other variable. -/
theorem get?_bare (above : (files.workingDirectory.resolve path).parent? = some dir) (shared : Array Cell)
    (name : String) :
    (bare files path).get? shared name =
      if name = fileConstant then some (.str (files.workingDirectory.resolve path).toString)
      else if name = dirConstant then some (.str dir.toString) else none := by
  have scope : (bare files path).scope = [⟨dirConstant, true, .own (.str dir.toString)⟩,
      ⟨fileConstant, true, .own (.str (files.workingDirectory.resolve path).toString)⟩] := by
    unfold bare Environment.ofFile Environment.ofPath
    rw [above]
    rfl
  rw [Environment.get?_eq, scope]
  unfold newest?
  by_cases isFile : name = fileConstant
  · rw [if_pos isFile, isFile]
    rfl
  · rw [if_neg isFile]
    by_cases isDir : name = dirConstant
    · rw [if_pos isDir, isDir]
      rfl
    · rw [if_neg isDir]
      have none : [(⟨dirConstant, true, .own (.str dir.toString)⟩ : Entry),
          ⟨fileConstant, true, .own (.str (files.workingDirectory.resolve path).toString)⟩].find? (·.name == name) =
            none := by
        simp [Ne.symm isFile, Ne.symm isDir]
      rw [none]
      rfl

/-- Its variables are the constants of its file. -/
theorem name_of_mem_bare {e : Script.Entry} (mem : e ∈ (bare files path).scope) :
    e.name = Environment.fileConstant ∨ e.name = Environment.dirConstant := by
  rcases List.mem_append.mp mem with dir | file
  · obtain ⟨q, -, rfl⟩ := Option.map_eq_some_iff.mp (Option.mem_toList.mp dir)
    exact .inr rfl
  · obtain rfl := List.mem_singleton.mp file
    exact .inl rfl

/-! ## §2 — what the script block hands on -/

/-- **A script block that goes through** is executed, and if there is none, nothing is. -/
theorem runFrontmatter_cases {file : String} {before : Environment}
    (ran : ((runFrontmatter files file before t).run #[]).value = (.ok (bindings, env), cells)) :
    (t.frontmatter = none ∧ bindings = [] ∧ env = before) ∨
      ∃ block, t.frontmatter = some block ∧
        ((before.executeAt files files.clock.first block.code).run #[]).value = ((.ok bindings, env), cells) := by
  obtain ⟨_ | block, ms⟩ := t
  · cases ran
    exact .inl ⟨rfl, rfl, rfl⟩
  · by_cases language : block.language = scriptLanguage
    · rcases run : (before.executeAt files files.clock.first block.code).run #[] with
        ⟨⟨⟨cause | bound, left⟩, cells₁⟩, asked⟩
      · rw [runFrontmatter_block language run] at ran
        cases ran
      · rw [runFrontmatter_block language run] at ran
        cases ran
        exact .inr ⟨block, rfl, congrArg Logged.value run⟩
    · rw [runFrontmatter_foreign language] at ran
      cases ran

/-- **What a script block leaves:** its environment, and the bindings that this environment has. -/
theorem runFrontmatter_ok {file : String} {before : Environment}
    (ran : ((runFrontmatter files file before t).run #[]).value = (.ok (bindings, env), cells)) :
    before.Later env ∧ bindings = env.bindingsAfter cells before.count := by
  rcases runFrontmatter_cases ran with ⟨-, rfl, rfl⟩ | ⟨block, -, executed⟩
  · refine ⟨⟨rfl, rfl, rfl⟩, ?_⟩
    simp [Environment.bindingsAfter, Script.Datum.ofFields]
  · exact Environment.executeAt_ok executed

/-- **The variables that the script block of a document declares**; none, if there is no script block. -/
def frontmatterNames (t : Transcript) : List String :=
  match t.frontmatter with
  | none => []
  | some block => declaredNames block.code

/-- **A script block that goes through** adds the first of the variables that it declares. -/
theorem declares_runFrontmatter {file : String} {before : Environment}
    (ran : ((runFrontmatter files file before t).run #[]).value = (.ok (bindings, env), cells)) :
    ∃ new, Declares (frontmatterNames t) before env new := by
  unfold frontmatterNames
  rcases runFrontmatter_cases ran with ⟨none, -, rfl⟩ | ⟨block, there, executed⟩
  · rw [none]
    exact ⟨[], Environment.adds_nil rfl, List.prefix_rfl⟩
  · rw [there]
    exact Environment.declares_executeAt executed

/-! ## §3 — what a message sees -/

/-- **What is read under a name in a message:** the constants of the document come first, then what was reported. -/
theorem get?_environment {new : List Entry} (adds : (bare files path).Adds env new)
    (above : (files.workingDirectory.resolve path).parent? = some dir) (functions : List Script.Function)
    (cells shared : Array Cell) (name : String) :
    let bindings := env.bindingsAfter cells (bare files path).count
    (Setting.environment files ⟨path, bindings, functions⟩).get? shared name =
      if name = fileConstant then some (.str (files.workingDirectory.resolve path).toString)
      else if name = dirConstant then some (.str dir.toString)
      else if name ∈ new.map Entry.name then env.get? cells name
      else none := by
  intro bindings
  have inOrder : Script.Datum.InOrder bindings := Script.Datum.inOrder_ofFields _
  unfold Setting.environment
  rw [Environment.get?_seedFunctions, Environment.get?_seed inOrder, get?_bare above]
  by_cases isFile : name = fileConstant
  · rw [Environment.field?_bindingsAfter, if_pos (.inl isFile), Option.none_or, if_pos isFile, if_pos isFile]
  · by_cases isDir : name = dirConstant
    · rw [Environment.field?_bindingsAfter, if_pos (.inr isDir), Option.none_or, if_neg isFile, if_neg isFile,
        if_pos isDir, if_pos isDir]
    · rw [adds.field?_bindingsAfter cells (not_or.mpr ⟨isFile, isDir⟩), if_neg isFile, if_neg isFile, if_neg isDir,
        if_neg isDir, Option.or_none]
      by_cases isNew : name ∈ new.map Entry.name
      · rw [if_pos isNew, adds.get?_added cells isNew]
      · rw [if_neg isNew, Environment.newest?_eq_none.mpr isNew]
        rfl

/-- **What a message can see.** The script block has gone through, and brought variables into reach, the first of those
that it declares. Then each message of the system or the user is collected in an environment where `__filename` is the
path of the document, spelled in full, `__dirname` its directory, any other name leads to what the script block has
brought into reach under it, as that was at the end, and to nothing if it has brought nothing; and where files are
included from that directory, with the document on the stack and no other file. -/
theorem message_sees {source : String} (absolute : files.workingDirectory.isAbsolute = true)
    (notRoot : files.workingDirectory.resolve path ≠ .rootDirectory) (parsed : Transcript.parse source = .ok t)
    (ran : ((runFrontmatter files path.toString (bare files path) t).run #[]).value = (.ok (bindings, env), cells)) :
    let document := files.workingDirectory.resolve path
    let s : Setting := ⟨path, bindings, env.functions⟩
    document.Settled ∧ ∃ dir new, document.parent? = some dir ∧
      Declares (frontmatterNames t) (bare files path) env new ∧
      (prepare files path source).value = ((messages files s files.clock.rest t.messages).run cells).value.1 ∧
      (∀ clock, ∀ m : Message, m.role ≠ .assistant → message files s clock m =
        collect files s m clock (s.environment files) {} (Segment.located [] (Segment.ofTemplate m.content.toList))) ∧
      (∀ shared name, (s.environment files).get? shared name =
        if name = fileConstant then some (.str document.toString)
        else if name = dirConstant then some (.str dir.toString)
        else if name ∈ new.map Entry.name then env.get? cells name
        else none) ∧
      Include.Resolver.ofEnvironment (s.environment files) = ⟨some dir, ⟨[document]⟩⟩ := by
  intro document s
  have settled : document.Settled := Path.settled_resolve absolute path
  obtain ⟨dir, above, -⟩ := settled.exists_parent notRoot
  obtain ⟨new, declares⟩ := declares_runFrontmatter ran
  obtain ⟨-, bound⟩ := runFrontmatter_ok ran
  refine ⟨settled, dir, new, above, declares, prepare_value parsed ran, fun clock m role => ?_, fun shared name => ?_, ?_⟩
  · unfold message
    split
    · rename_i assistant
      exact absurd assistant role
    · rfl
  · have sees := get?_environment declares.adds above env.functions cells shared name
    rw [← bound] at sees
    exact sees
  · have seeded := Environment.later_seed (bare files path) bindings
    have later : (bare files path).Later (s.environment files) := ⟨seeded.file, seeded.dir, seeded.includes⟩
    rw [later.resolver]
    unfold bare Environment.ofFile Environment.ofPath Include.Resolver.ofEnvironment
    exact congrArg (Include.Resolver.mk · _) above

namespace Posing

/-- The script block takes the names of the constants for itself, and declares another name twice. -/
def block : String := "let __filename = 1;\nlet n = 1;\nlet __dirname = n;\nlet n = n + 1;\n"

def source : String := "```rhai\n" ++ block ++ "```\n@System: \x7b\x7b n \x7d\x7d\n"

def transcript : Transcript := ⟨some ⟨"rhai", block, 1⟩, [⟨.system, "\x7b\x7b n \x7d\x7d", 7, ⟨7, 10⟩⟩]⟩

end Posing

theorem message_sees_posing : ∃ bindings env cells,
    Transcript.parse Posing.source = .ok Posing.transcript ∧
    ((runFrontmatter Sample.noFiles Sample.path.toString (bare Sample.noFiles Sample.path) Posing.transcript).run
      #[]).value = (.ok (bindings, env), cells) ∧
    let document := Sample.noFiles.workingDirectory.resolve Sample.path
    let s : Setting := ⟨Sample.path, bindings, env.functions⟩
    document.Settled ∧ ∃ dir new, document.parent? = some dir ∧
      Declares ["__filename", "n", "__dirname"] (bare Sample.noFiles Sample.path) env new ∧
      (prepare Sample.noFiles Sample.path Posing.source).value =
        ((messages Sample.noFiles s Sample.noFiles.clock.rest Posing.transcript.messages).run cells).value.1 ∧
      (∀ clock, ∀ m : Message, m.role ≠ .assistant → message Sample.noFiles s clock m =
        collect Sample.noFiles s m clock (s.environment Sample.noFiles) {}
          (Segment.located [] (Segment.ofTemplate m.content.toList))) ∧
      (∀ shared name, (s.environment Sample.noFiles).get? shared name =
        if name = fileConstant then some (.str document.toString)
        else if name = dirConstant then some (.str dir.toString)
        else if name ∈ new.map Entry.name then env.get? cells name
        else none) ∧
      Include.Resolver.ofEnvironment (s.environment Sample.noFiles) = ⟨some dir, ⟨[document]⟩⟩ := by
  have parsed : Transcript.parse Posing.source = .ok Posing.transcript := by decide +kernel
  have names : frontmatterNames Posing.transcript = ["__filename", "n", "__dirname"] := by decide +kernel
  have through : ((runFrontmatter Sample.noFiles Sample.path.toString (bare Sample.noFiles Sample.path)
      Posing.transcript).run #[]).value.1.isOk = true := by decide +kernel
  obtain ⟨⟨r, cells⟩, ran⟩ : ∃ x, ((runFrontmatter Sample.noFiles Sample.path.toString
      (bare Sample.noFiles Sample.path) Posing.transcript).run #[]).value = x := ⟨_, rfl⟩
  rw [ran] at through
  obtain ⟨⟨bindings, env⟩, rfl⟩ := Sample.ok_of_isOk through
  have sees := message_sees (by decide) (by decide +kernel) parsed ran
  rw [names] at sees
  exact ⟨bindings, env, cells, parsed, ran, sees⟩

end Dialogue.Document
