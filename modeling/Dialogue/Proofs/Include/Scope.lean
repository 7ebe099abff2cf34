import Dialogue.Proofs.Environment.Functions
import Dialogue.Proofs.Include.Call
import Dialogue.Proofs.Include.Passage
/-!
# `Dialogue.Proofs.Include.Scope` — included texts do not see where they are included.

The expressions of an included text are evaluated in an environment of the included file, with its two constants and
nothing else. Main statement: what a call of `include` yields, and which questions it asks, depends on the file that it
stands in alone, whatever the environment has been used for; and an expression in an included text that runs into a
variable or a function of the including script fails in the name of the included file, and so does the include.
-/

namespace Dialogue

open Script (Value Cell Fault Machine Program)

/-! ## §1 — names that lead nowhere -/

/-- **The fault of a name that leads nowhere.** -/
inductive Script.Fault.IsMissing (f : Fault) : Prop
  | ofVariable (name : String) (h : f.cause = .variableNotFound name)
  | ofFunction (signature : String) (h : f.cause = .functionNotFound signature)

/-- No include is behind such a fault. -/
theorem Script.Fault.IsMissing.failure? {f : Fault} (h : f.IsMissing) : f.failure? = none := by
  unfold Fault.failure?
  cases h with
  | ofVariable name h => rw [h]
  | ofFunction signature h => rw [h]

namespace Environment

/-! ## §2 — environments of included files -/

/-- **An environment of an included file:** no functions, and no variables but the constants of the file. -/
structure IsBare (p : Path) (env : Environment) : Prop where
  file : env.file = some p
  functions : env.functions = []
  names : ∀ name ∈ env.scope.map Script.Entry.name, name = fileConstant ∨ name = dirConstant

theorem isBare_child (p : Path) (stack : Include.Stack) : IsBare p (.child p stack) := by
  refine ⟨rfl, rfl, fun name mem => ?_⟩
  rw [child, ofPath] at mem
  cases above : p.parent? <;> simp [above] at mem <;> simp [mem, or_comm]

theorem IsBare.evaluateWith {p : Path} {env : Environment} (h : env.IsBare p)
    (answer : Clock → Include.Request → Logged Include.Answer) (clock : Clock) (cells : Array Cell) (code : String) :
    ((env.evaluateWith answer clock code).run cells).value.1.2.IsBare p := by
  refine ⟨(later_evaluateWith answer clock env code cells).file.trans h.file, ?_, ?_⟩
  · exact (functions_evaluateWith answer clock env cells code).trans h.functions
  · rw [names_evaluateWith]
    exact h.names

/-! ## §3 — calls of `include` -/

/-- **A call of `include`** yields what is fetched for the file that the environment belongs to, and changes nothing,
whatever the environment has been used for. -/
theorem Built.evaluateAt_call {files : FileAccess} {env : Environment} {cells : Array Cell}
    (built : env.Built files cells) (free : ∀ f ∈ env.functions, f.name ≠ "include") {code path : String}
    (call : Include.Calls code path) (clock : Clock) :
    let answer := Include.Resolver.fetchAt files ⟨env.file.bind Path.parent?, .seeded env.file⟩ clock.first ⟨path, {}⟩
    (env.evaluateAt files clock code).run cells =
      ⟨((answer.value.map .inclusion, env.withInclude), cells), answer.accesses⟩ := by
  intro answer
  have evaluated := Include.run_evaluateWith_of_calls call
    (Include.Resolver.fetchAt files (.ofEnvironment env)) clock free cells
  rw [built.resolver] at evaluated
  unfold Environment.evaluateAt
  rw [built.resolver]
  exact evaluated

end Environment

namespace Include

open Environment (Built Becomes fileConstant dirConstant)

/-- The expressions of an included text are evaluated in an environment of the file. -/
theorem Reaches.isBare {answer : Clock → Request → Logged Answer} {clock clock' : Clock} {env env' : Environment}
    {cells cells' : Array Cell} {segments : List Segment} {code : String}
    (h : Reaches answer clock env cells segments clock' env' cells' code) {p : Path} (bare : env.IsBare p) :
    env'.IsBare p := by
  induction h with
  | here => exact bare
  | text _ ih => exact ih bare
  | @expression clock _ env _ _ cells _ _ first _ _ _ value _ ih =>
    have left := bare.evaluateWith answer clock.first cells (String.ofList first)
    rw [value] at left
    exact ih left

section

variable {files : FileAccess} {e : Failure} {outer depth : Nat} {r : Resolver} {clock now : Clock} {q : Request}
  {env : Environment} {cells : Array Cell} {code : String}

/-- **An expression whose turn comes in an included text** is evaluated in an environment of the included file. -/
theorem Awaits.isBare (turn : Awaits files e (.include outer r clock q) (.expression depth now env cells code)) :
    env.IsBare (r.target q.path) := by
  cases turn with
  | text _ _ _ turn => exact turn.isBare (Environment.isBare_child _ _)

/-- **A name that leads nowhere fails in the name of the included file**, and the include fails with it. -/
theorem Awaits.failed_missing (turn : Awaits files e (.include outer r clock q) (.expression depth now env cells code))
    {s : Program} (read : Script.Parser.singleExpression (Text.trimmed code) = .ok s) {f : Fault} {m : Machine}
    (ended : ((env.withInclude.running cells s).answering (answers files depth env) now).value = (.error f, m))
    (missing : f.IsMissing) :
    let failure := Failure.evaluation (r.target q.path).toString (Text.trimmed code) f.message
    (Activity.expression depth now env cells code).failure? files = some failure ∧
      (Activity.include outer r clock q).failure? files = some failure := by
  intro failure
  have name : env.name = (r.target q.path).toString := by
    rw [Environment.name, turn.isBare.file]
    rfl
  have inside : (Activity.expression depth now env cells code).failure? files = some failure := by
    simp only [Activity.failure?]
    rw [Environment.evaluateWith_of_ok _ _ _ read, failureIn_running, name]
    exact ⟨f, m, ended, .inr ⟨missing.failure?, rfl⟩⟩
  refine ⟨inside, ?_⟩
  cases turn with
  | text isText opens source turn =>
    have waits : Awaits files failure (.include _ r clock q) (.expression depth now env cells code) :=
      .text isText opens source turn
    exact waits.failure? inside

end

/-- **Included texts do not see where they are included.** Take two environments of one file, whatever has been set,
seeded, executed and evaluated in them, with or without success: where neither has a function called `include`, a call
of `include` with a literal path, made with the same readings of the clock, yields the same in both, after the same
questions, and yields it again later on. For the expressions of an included text are evaluated without any functions,
and with no variables but the two constants of the included file. If such an expression ends at a name that leads
nowhere, be it one that the including script knows, it fails in the name of the included file and of the expression, and
so does the include. -/
theorem include_isolated (files : FileAccess) :
    (∀ {first second : Environment} {cells cells' : Array Cell} {code path : String},
      first.Built files cells → second.Built files cells' → first.file = second.file →
      (∀ f ∈ first.functions, f.name ≠ "include") → (∀ f ∈ second.functions, f.name ≠ "include") →
      Calls code path → ∀ clock, ∃ answer asked,
        (first.evaluateAt files clock code).run cells =
          ⟨((Except.map .inclusion answer, first.withInclude), cells), asked⟩ ∧
        (second.evaluateAt files clock code).run cells' =
          ⟨((Except.map .inclusion answer, second.withInclude), cells'), asked⟩ ∧
        ∀ later cells'', Becomes files (first, cells) (later, cells'') ∨ Becomes files (second, cells') (later, cells'') →
          (∀ f ∈ later.functions, f.name ≠ "include") →
          (later.evaluateAt files clock code).run cells'' =
            ⟨((Except.map .inclusion answer, later.withInclude), cells''), asked⟩) ∧
    ∀ {e : Failure} {outer depth : Nat} {r : Resolver} {clock now : Clock} {q : Request} {env : Environment}
      {cells : Array Cell} {code : String},
      Awaits files e (.include outer r clock q) (.expression depth now env cells code) →
      (env.functions = [] ∧ ∀ name, env.contains name = true → name = fileConstant ∨ name = dirConstant) ∧
      ∀ {s : Program} {f : Fault} {m : Machine}, Script.Parser.singleExpression (Text.trimmed code) = .ok s →
        ((env.withInclude.running cells s).answering (answers files depth env) now).value = (.error f, m) →
        f.IsMissing →
        let failure := Failure.evaluation (r.target q.path).toString (Text.trimmed code) f.message
        (Activity.expression depth now env cells code).failure? files = some failure ∧
          (Activity.include outer r clock q).failure? files = some failure := by
  refine ⟨fun built built' same free free' call clock => ?_,
    fun turn => ⟨⟨turn.isBare.functions, fun name mem => ?_⟩, ?_⟩⟩
  · refine ⟨_, _, built.evaluateAt_call free call clock, ?_, fun later cells'' history free'' => ?_⟩
    · rw [same]
      exact built'.evaluateAt_call free' call clock
    · rcases history with history | history
      · have file : later.file = _ := history.later.file
        rw [← file]
        exact (built.becomes history).evaluateAt_call free'' call clock
      · have file : later.file = _ := history.later.file
        rw [same, ← file]
        exact (built'.becomes history).evaluateAt_call free'' call clock
  · obtain ⟨e, mem, named⟩ := List.any_eq_true.mp mem
    exact turn.isBare.names name (List.mem_map.mpr ⟨e, mem, beq_iff_eq.mp named⟩)
  · exact fun read ended missing => turn.failed_missing read ended missing

/-- A function that is called in an included text and that only the including script knows. -/
theorem helper_stays_outside :
    let m : Files.Memory := .ofList [(.ofString "/docs/a.md", Text.Utf8.encode "\x7b\x7b helper(1) \x7d\x7d")]
    let files : FileAccess := ⟨m.provider, .extensionTable, .rootDirectory, .stopped⟩
    let fresh := Environment.ofFile .rootDirectory (.ofString "/docs/main.md")
    let used := (fresh.execute files "fn helper(x) \x7b x \x7d").run #[]
    let inside := Environment.child (.ofString "/docs/a.md") ⟨[.ofString "/docs/main.md", .ofString "/docs/a.md"]⟩
    let e := Failure.evaluation "/docs/a.md" "helper(1)" "Function not found: helper (i64) (line 1, position 1)"
    used.value.1.2.functions.map (·.name) = ["helper"] ∧
      (∃ asked, (fresh.evaluate files "include(\"a.md\")").run #[] = ⟨((.error e, fresh.withInclude), #[]), asked⟩ ∧
        (used.value.1.2.evaluate files "include(\"a.md\")").run used.value.2 =
          ⟨((.error e, used.value.1.2.withInclude), used.value.2), asked⟩) ∧
      inside.functions = [] ∧ (Activity.expression 1 .stopped inside #[] " helper(1) ").failure? files = some e ∧
      (Activity.include 2 (.ofEnvironment fresh) .stopped ⟨"a.md", {}⟩).failure? files = some e := by
  intro m files fresh used inside e
  have isolated := include_isolated files
  have names : used.value.1.2.functions.map (·.name) = ["helper"] := by decide +kernel
  refine ⟨names, ?_, ?_⟩
  · have free : ∀ f ∈ used.value.1.2.functions, f.name ≠ "include" := by
      intro f mem
      have among : f.name ∈ ["helper"] := names ▸ List.mem_map_of_mem mem
      rw [List.mem_singleton.mp among]
      decide
    have built : fresh.Built files #[] := ⟨fresh, #[], .ofFile _ _, .refl⟩
    have ran : ((fresh.execute files "fn helper(x) \x7b x \x7d").run #[]).value =
        ((used.value.1.1, used.value.1.2), used.value.2) := rfl
    have call : Calls "include(\"a.md\")" "a.md" :=
      calls_of_trim "include(\"a.md\")".toList "a.md".toList (by decide) (by decide)
    obtain ⟨answer, asked, first, second, -⟩ := isolated.1 built (built.becomes (.single (.execute ran)))
      (by decide +kernel) (fun _ mem => nomatch mem) free call .stopped
    have failed : failureIn ((fresh.evaluate files "include(\"a.md\")").run #[]).value.1.1 = some e := by
      decide +kernel
    have first : (fresh.evaluate files "include(\"a.md\")").run #[] = _ := first
    rw [first] at failed
    obtain rfl : answer = .error e := failureIn_eq_some.mp ((failureIn_map answer _).symm.trans failed)
    exact ⟨asked, first, second⟩
  · have pieces : Segment.ofTemplate "\x7b\x7b helper(1) \x7d\x7d".toList = [.expression " helper(1) ".toList] := by
      decide +kernel
    have source : files.provider.readText ((Resolver.ofEnvironment fresh).target "a.md") =
        .ok "\x7b\x7b helper(1) \x7d\x7d" := by
      decide +kernel
    have turn : Awaits files e (.include 2 (.ofEnvironment fresh) .stopped ⟨"a.md", {}⟩)
        (.expression 1 .stopped inside #[] " helper(1) ") := by
      refine .text rfl ⟨by decide +kernel, by decide +kernel⟩ source ?_
      rw [pieces]
      exact .here
    obtain ⟨⟨functions, -⟩, fails⟩ := isolated.2 turn
    have stops : ((Script.Parser.singleExpression (Text.trimmed " helper(1) ")).toOption.any fun s =>
        match ((inside.withInclude.running #[] s).answering (answers files 1 inside) .stopped).value with
        | (.ok _, _) => false
        | (.error f, _) => match f.cause with
          | .functionNotFound _ => f.message == "Function not found: helper (i64) (line 1, position 1)"
          | _ => false) = true := by
      decide +kernel
    cases read : Script.Parser.singleExpression (Text.trimmed " helper(1) ") with
    | error e =>
      rw [read] at stops
      cases stops
    | ok s =>
      rw [read] at stops
      simp only [Except.toOption, Option.any_some] at stops
      split at stops
      · cases stops
      next f m ended =>
        split at stops
        next signature cause =>
          have failed := fails read ended (.ofFunction signature cause)
          dsimp only at failed
          rw [beq_iff_eq.mp stops] at failed
          exact ⟨functions, failed⟩
        · cases stops

/-- **What shows in an include all the same.** The order of a sort deals with missing names, for a comparison that fails
is no answer: the first text calls a function that only the including script knows, and does not fail. And the second
text reads the clock twice, and tells whether the clock stood still. -/
theorem include_shows_sort_and_clock :
    let m : Files.Memory := .ofList [
      (.ofString "/docs/a.md", Text.Utf8.encode "\x7b\x7b [2, 1].sort(|x, y| helper(x)) \x7d\x7d"),
      (.ofString "/docs/t.md", Text.Utf8.encode "\x7b\x7b timestamp() == timestamp() \x7d\x7d")]
    let files : FileAccess := ⟨m.provider, .extensionTable, .rootDirectory, .stopped⟩
    let fresh := Environment.ofFile .rootDirectory (.ofString "/docs/main.md")
    let used := (fresh.execute files "fn helper(x) \x7b x \x7d").run #[]
    let inside := Environment.child (.ofString "/docs/a.md") ⟨[.ofString "/docs/main.md", .ofString "/docs/a.md"]⟩
    let text (clock : Clock) : Option String :=
      match ((fresh.evaluateAt files clock "include(\"t.md\")").run #[]).value.1.1 with
      | .ok (.inclusion i) => some i.text
      | _ => none
    (Segment.ofTemplate "\x7b\x7b [2, 1].sort(|x, y| helper(x)) \x7d\x7d".toList =
        [.expression " [2, 1].sort(|x, y| helper(x)) ".toList] ∧
      used.value.1.2.functions.map (·.name) = ["helper"] ∧
      failureIn ((inside.evaluate files "(|x, y| helper(x)).call(2, 1)").run #[]).value.1.1 =
        some (.evaluation "/docs/a.md" "(|x, y| helper(x)).call(2, 1)"
          ("Function not found: helper (i64) (line 1, position 9)\n" ++
            "in call to closure (line 1, position 20)")) ∧
      failureIn ((inside.evaluate files " [2, 1].sort(|x, y| helper(x)) ").run #[]).value.1.1 = none ∧
      failureIn ((used.value.1.2.evaluate files "include(\"a.md\")").run used.value.2).value.1.1 = none) ∧
    text .stopped = some "true" ∧ text ⟨fun place => ⟨place.length⟩⟩ = some "false" := by
  decide +kernel

end Include

end Dialogue
