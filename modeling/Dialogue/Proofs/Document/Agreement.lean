import Dialogue.CommandLine
import Dialogue.Proofs.Document.Sight
import Dialogue.Proofs.Environment.Looking
/-!
# `Dialogue.Proofs.Document.Agreement` — an expression in a message and after the document.

A document is looked at in two ways. Its messages are evaluated in fresh environments, which are seeded from what the
script block binds; further expressions are evaluated where the script block itself ran. The one keeps names and
values only, the other keeps the variables: whether they are constant, and whether a closure shares them. Main
statement: whatever the script block has declared, an expression comes to the same in a message as in the environment of
the document with its variables set anew; and in that environment as it is, if it names no variable that is not handed
on as it is, or looks at variables only before it calls a function.
-/

namespace Dialogue.Document

open Script (Value Cell Entry)
open Environment (fileConstant dirConstant mentionsIn looksThenCalls)

/-! ## §1 — what is sent on -/

/-- **A value is sent on as the same parts** from wherever it stands in a message. -/
theorem emitted_parts (file : String) (position : Position) (v : Value) :
    (emitted file position v).parts = CommandLine.valueParts v := by
  unfold emitted CommandLine.valueParts
  dsimp only
  rw [Emission.emit_eq, Emission.emit_eq]
  show ((Environment.emittable v).leaves.map _).map _ = ((Environment.emittable v).leaves.map _).map _
  rw [List.map_map, List.map_map]
  -- where a leaf was emitted does not show in its part
  refine List.map_congr_left fun l _ => ?_
  cases l <;> rfl

/-! ## §2 — the two environments of a document -/

section Document

variable {files : FileAccess} {path : Path} {source : String} {t : Transcript} {bindings : Bindings}
  {env : Environment} {cells : Array Cell}

/-- The environment of a document, for further expressions, is the one that its script block leaves. -/
theorem environment_value (parsed : Transcript.parse source = .ok t)
    (ran : ((runFrontmatter files path.toString (bare files path) t).run #[]).value = (.ok (bindings, env), cells)) :
    ((environment files path source).run #[]).value = (.ok env, cells) := by
  unfold environment
  rw [parsed]
  show ((runFrontmatter files path.toString (bare files path) t >>= _).run #[]).value = _
  rw [Work.value_bind, ran]
  rfl

/-- The variables that are not named like a constant of a file. -/
def ordinary (scope : List Entry) : List Entry := scope.filter fun e => e.name != fileConstant && e.name != dirConstant

/-- **The environment of a document with its variables set anew:** the constants of the file take the place of all
variables of their names, and before the others stand the bindings that were reported. -/
def anew (files : FileAccess) (path : Path) (bindings : Bindings) (env : Environment) : Environment :=
  { env with scope := (bare files path).scope ++ ordinary env.scope }.seed bindings

/-- A message has no other variables than that, but for those that are hidden. -/
theorem withInclude_anew (later : (bare files path).Later env) :
    (anew files path bindings env).withInclude =
      let inMessage := (Setting.environment files ⟨path, bindings, env.functions⟩).withInclude
      { inMessage with scope := inMessage.scope ++ ordinary env.scope } := by
  have functions : Environment.combined [] env.functions = env.functions := rfl
  have scope : bindings.reverse.map Environment.bound ++ ((bare files path).scope ++ ordinary env.scope) =
      bindings.reverse.map Environment.bound ++ (bare files path).scope ++ ordinary env.scope :=
    (List.append_assoc ..).symm
  have includes : Environment.includes { env with scope := bindings.reverse.map Environment.bound ++
      ((bare files path).scope ++ ordinary env.scope) } = (bare files path).includes := later.includes
  unfold anew Setting.environment
  rw [Environment.seed_eq, Environment.seed_eq]
  unfold Environment.withInclude Environment.seedFunctions
  dsimp only
  rw [includes, scope, later.file, later.dir]
  rfl

/-- The constants of a file are the only variables that there were. -/
theorem name_of_mem_ordinary {new : List Entry} (adds : (bare files path).Adds env new) {e : Entry}
    (mem : e ∈ ordinary env.scope) :
    e.name ∈ new.map Entry.name ∧ ¬(e.name = fileConstant ∨ e.name = dirConstant) := by
  obtain ⟨there, reported⟩ := List.mem_filter.mp mem
  have reported : ¬(e.name = fileConstant ∨ e.name = dirConstant) := by simpa using reported
  obtain ⟨old, scope, same⟩ := adds
  rw [scope] at there
  rcases List.mem_append.mp there with isNew | isOld
  · exact ⟨List.mem_map_of_mem isNew, reported⟩
  · have labelled : e.label ∈ (bare files path).scope.map Entry.label := same ▸ List.mem_map_of_mem isOld
    obtain ⟨e', mem', label⟩ := List.mem_map.mp labelled
    have named : e'.name = e.name := congrArg Prod.fst label
    exact absurd (named ▸ name_of_mem_bare mem') reported

/-- All other variables are hidden by the bindings. -/
theorem unseen_ordinary {new : List Entry} (adds : (bare files path).Adds env new) (cells : Array Cell)
    (functions : List Script.Function) :
    let s : Setting := ⟨path, env.bindingsAfter cells (bare files path).count, functions⟩
    ∀ e ∈ ordinary env.scope, e.name ∈ (s.environment files).scope.map Entry.name := by
  intro s e mem
  have reported := ((adds.reports cells).names e.name).mpr (name_of_mem_ordinary adds mem)
  obtain ⟨b, there, named⟩ := List.mem_map.mp reported
  unfold Setting.environment
  rw [Environment.seed_eq]
  refine List.mem_map.mpr ⟨Environment.bound b, List.mem_append_left _ ?_, named⟩
  exact List.mem_map_of_mem (List.mem_reverse.mpr there)

/-- **A message is in the environment of the document with its variables set anew**, as far as any expression can
tell. -/
theorem yields_anew (ran : ((runFrontmatter files path.toString (bare files path) t).run #[]).value =
    (.ok (bindings, env), cells)) (clock : Clock) (code : String) :
    (Setting.environment files ⟨path, bindings, env.functions⟩).yields files clock cells code =
      (anew files path bindings env).yields files clock cells code := by
  obtain ⟨later, bound⟩ := runFrontmatter_ok ran
  obtain ⟨new, declares⟩ := declares_runFrontmatter ran
  obtain ⟨linked, held⟩ := linked_of_ran ran
  have inStep := linked_environment (s := ⟨path, bindings, env.functions⟩) files rfl rfl linked
  have unseen := unseen_ordinary declares.adds cells env.functions
  rw [← bound] at unseen
  rw [← Environment.yields_withInclude files clock (anew files path bindings env), withInclude_anew later,
    ← Environment.yields_withInclude]
  exact (Environment.yields_of_unseen inStep.withInclude held unseen files clock code).symm

/-- **Under a name that bindings show, a message reads** what the document has there. -/
theorem get?_shown {new : List Entry} (adds : (bare files path).Adds env new) (functions : List Script.Function)
    (cells : Array Cell) {name : String} (shown : (bare files path).Shows env name) :
    let s : Setting := ⟨path, env.bindingsAfter cells (bare files path).count, functions⟩
    (s.environment files).get? cells name = env.get? cells name := by
  intro s
  have inOrder : Script.Datum.InOrder s.bindings := Script.Datum.inOrder_ofFields _
  unfold Setting.environment
  rw [Environment.get?_seedFunctions, Environment.get?_seed inOrder]
  by_cases reserved : name = fileConstant ∨ name = dirConstant
  · rw [Environment.field?_bindingsAfter, if_pos reserved, Option.none_or, Environment.get?_eq, Environment.get?_eq,
      shown reserved]
    rfl
  · have noConstant : (bare files path).get? cells name = none := by
      rw [Environment.get?_eq, Environment.newest?_eq_none.mpr, Option.map_none]
      rintro mem
      obtain ⟨e, there, rfl⟩ := List.mem_map.mp mem
      exact reserved (name_of_mem_bare there)
    rw [adds.field?_bindingsAfter cells reserved, noConstant, Option.or_none]
    by_cases isNew : name ∈ new.map Entry.name
    · exact (adds.get?_added cells isNew).symm
    · have none : Script.newest? env.scope name = none := by
        refine Environment.newest?_eq_none.mpr fun mem => ?_
        obtain ⟨e, there, rfl⟩ := List.mem_map.mp mem
        have ordinary : e ∈ ordinary env.scope := List.mem_filter.mpr ⟨there, by simpa using reserved⟩
        exact isNew (name_of_mem_ordinary adds ordinary).1
      rw [Environment.newest?_eq_none.mpr isNew, Environment.get?_eq, none]

end Document

/-! ## §3 — expressions beside a constant and a shared variable -/

namespace Apart

open Environment (mentionsIn HandsOn IsOrdinary added)
open Script (Mention newest?)

/-- The script block declares a constant, a variable with a closure that shares it, and a text; and defines a
function. -/
def block : String :=
  "const LIMIT = 3;\nlet n = 0;\nlet bump = || \x7b n += 1; n \x7d;\nlet who = \"you\";\nfn next(k) \x7b k + 1 \x7d\n"

def source : String := "```rhai\n" ++ block ++ "```\n"

def transcript : Transcript := ⟨some ⟨"rhai", block, 1⟩, []⟩

/-- The expression names the closure and the text, but neither the constant nor the variable that is shared. -/
def called : String := "who + bump.call()"

/-- The expression looks at all that it names, the constant and the shared variable among them. -/
def looked : String := "`${who}: ${LIMIT + n}`"

/-- The expression looks at the constant and the shared variable, and then calls the function. -/
def lookedUp : String := "next(LIMIT + n)"

/-- Do all names of the first expression lead to ordinary variables that a script block has added, and is none of the
others that of a constant of the file? -/
def goesThrough : Except Failure (Bindings × Environment) × Array Cell → Bool
  | (.error _, _) => false
  | (.ok (_, env), _) =>
    decide (∀ x ∈ mentionsIn called, x.Among fun name =>
      ∃ e ∈ newest? (env.added (bare Sample.noFiles Sample.path).count) name, IsOrdinary e) &&
    decide (∀ x ∈ mentionsIn looked ++ mentionsIn lookedUp, x.Among fun name =>
      ¬(name = fileConstant ∨ name = dirConstant))

theorem ran : goesThrough ((runFrontmatter Sample.noFiles Sample.path.toString (bare Sample.noFiles Sample.path)
    transcript).run #[]).value := by
  decide +kernel

theorem looks : looksThenCalls looked ∧ looksThenCalls lookedUp := by decide +kernel

end Apart

namespace TwoWays

/-- What an evaluation comes to, in words. -/
def told : Except Dialogue.Failure Value → String ⊕ String
  | .ok v => .inl v.shown
  | .error e => .inr e.message

/-- **What an expression comes to** right after a script block: in the environment of the document, and in that of a
message. -/
def both (source code : String) : Option ((String ⊕ String) × (String ⊕ String)) :=
  match Transcript.parse source with
  | .error _ => none
  | .ok t =>
    match ((runFrontmatter Sample.noFiles Sample.path.toString (bare Sample.noFiles Sample.path) t).run #[]).value with
    | (.error _, _) => none
    | (.ok (bindings, env), cells) =>
      let inMessage := Setting.environment Sample.noFiles ⟨Sample.path, bindings, env.functions⟩
      some (told (env.yields Sample.noFiles .stopped cells code).value,
        told (inMessage.yields Sample.noFiles .stopped cells code).value)

end TwoWays

/-- What is known of constants beforehand shows in what the connectives join, unless that tells whether something is
so. -/
example :
    let source := "```rhai\nconst FIVE = 5;\nconst YES = true;\n```\n"
    TwoWays.both source "FIVE && YES" =
      some (.inl "5", .inr ("failed to evaluate `FIVE && YES` in /docs/chat.md: Data type incorrect: i64 " ++
        "(expecting bool) (line 1, position 1)")) ∧
    TwoWays.both source "FIVE > 4 && 3 < FIVE" = some (.inl "true", .inl "true") := by
  decide +kernel

end Dialogue.Document
