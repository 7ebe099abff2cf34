import Dialogue.Proofs.Environment.History
import Dialogue.Proofs.Include.Depth
import Dialogue.Proofs.Script.Passage
import Mathlib.Logic.Relation
/-!
# `Dialogue.Proofs.Include.Passage` — failures pass through includes.

An evaluation waits for an include, the include for an expression in the text it opened, that expression for the next
include, and so on. A failure at the end of such a chain travels back through it. Main statement: if nobody on the way
deals with it, everything in the chain ends with the very same failure; and a fault of a script's own becomes the
failure that names the environment, and the expression if it is one.
-/

namespace Dialogue

open Script (Value Cell Fault Machine Program)

/-! ## §1 — answered runs -/

namespace Script.Run

variable {α : Type} (answer : Clock → Include.Request → Include.Answer)

/-- **Does the run deal with the failure**, when requests are answered by `answer`? -/
def catches (e : Failure) : Run α → Clock → Bool
  | .done _, _ => false
  | .ask q k, clock => (k (answer clock.first q)).catches e clock.rest
  | .now k, clock => (k clock.reading).catches e clock.rest
  | .caught f x, clock => f = e || x.catches e clock

/-- **The requests of a run that leaves the failure alone** that each of them may be answered with, in their order, and
the readings of the clock for their answers. -/
def awaited (e : Failure) : Run α → Clock → List (Clock × Include.Request)
  | .done _, _ => []
  | .ask q k, clock =>
    let later := (k (answer clock.first q)).awaited e clock.rest
    if (k (.error e)).catches answer e clock.rest then later else (clock.first, q) :: later
  | .now k, clock => (k clock.reading).awaited e clock.rest
  | .caught _ x, clock => x.awaited e clock

/-- A clock that stands still has no other readings for an answer. -/
theorem stopped_of_awaited {e : Failure} {x : Run α} {awaited : Clock × Include.Request}
    (mem : awaited ∈ x.awaited answer e .stopped) : awaited.1 = .stopped := by
  induction x with
  | done a => cases mem
  | ask q k ih =>
    unfold Run.awaited at mem
    dsimp only at mem
    split at mem
    · exact ih _ mem
    · rcases List.mem_cons.mp mem with rfl | later
      · rfl
      · exact ih _ later
  | now k ih => exact ih _ mem
  | caught f x ih => exact ih mem

theorem mem_awaited_stopped {e : Failure} {x : Run α} {q : Include.Request}
    (one : (x.awaited answer e .stopped).map Prod.snd = [q]) : (.stopped, q) ∈ x.awaited answer e .stopped := by
  obtain ⟨⟨now, q'⟩, only, rfl⟩ := List.map_eq_singleton_iff.mp one
  have mem : (now, q') ∈ x.awaited answer e .stopped := only ▸ List.mem_singleton_self _
  obtain rfl : now = .stopped := stopped_of_awaited answer mem
  exact mem

/-- **What a run is waiting for in vain, it fails with**, unless it deals with the failure. -/
theorem Passes.answering {holds : α → Failure → Prop} {x : Run α} (h : x.Passes holds)
    {answer : Clock → Include.Request → Logged Include.Answer} {clock now : Clock} {q : Include.Request} {e : Failure}
    (failed : (answer now q).value = .error e)
    (waiting : (now, q) ∈ x.awaited (fun clock q => (answer clock q).value) e clock) :
    holds (x.answering answer clock).value e := by
  induction h generalizing clock with
  | done => cases waiting
  | caught _ ih => exact ih waiting
  | now _ ih => exact ih clock.reading waiting
  | @ask q' k raised _ ih =>
    unfold awaited at waiting
    dsimp only at waiting
    split at waiting
    · exact ih _ waiting
    · rename_i free
      rcases List.mem_cons.mp waiting with here | later
      · obtain ⟨rfl, rfl⟩ := Prod.mk.inj here
        have raised := raised e
        show holds ((k (answer clock.first q).value).answering answer clock.rest).value e
        rw [failed]
        cases next : k (.error e) with
        | done a =>
          rw [next] at raised
          exact raised
        | ask | now =>
          rw [next] at raised
          cases raised
        | caught f x =>
          -- what is dealt with next is the failure itself
          rw [next] at raised free
          obtain rfl : f = e := raised
          simp [catches] at free
      · exact ih _ later

end Script.Run

/-! ## §2 — evaluations -/

namespace Environment

/-- **The run of a script** in an environment. -/
def running (env : Environment) (cells : Array Cell) (s : Program) : Script.Run (Except Fault Value × Machine) :=
  let s := Script.Simplify.script (env.known cells) s
  s.run { functions := combined env.functions s.functions } (env.machine cells)

variable (answer : Clock → Include.Request → Logged Include.Answer) (clock : Clock) (env : Environment)
  (cells : Array Cell)

theorem value_runWith (s : Program) (describe : String → Failure) :
    ((env.runWith answer clock s describe).run cells).value.1.1 =
      (((env.running cells s).answering answer clock).value.1).mapError (failureOf · describe) := by
  unfold runWith running StateT.run
  simp only [Logged.value_bind]
  generalize (Script.Run.answering answer _ clock : Logged (Except Fault Value × Machine)).value = r
  obtain ⟨r, m⟩ := r
  cases r <;> rfl

/-- The failure behind the fault that ends a script is what the script fails with. -/
theorem runWith_of_fault {s : Program} {f : Fault} {e : Failure}
    (fault : ((env.running cells s).answering answer clock).value.1 = .error f) (carried : f.failure? = some e)
    (describe : String → Failure) : ((env.runWith answer clock s describe).run cells).value.1.1 = .error e := by
  rw [value_runWith, fault]
  show Except.error (failureOf f describe) = _
  unfold failureOf
  rw [carried]
  rfl

theorem evaluateWith_of_error {code : String} {x : Script.SyntaxError}
    (read : Script.Parser.singleExpression (Text.trimmed code) = .error x) :
    ((env.evaluateWith answer clock code).run cells).value.1.1 =
      .error (.evaluation env.name (Text.trimmed code) x.message) := by
  unfold evaluateWith
  dsimp only
  rw [read]
  rfl

theorem evaluateWith_of_ok {code : String} {s : Program}
    (read : Script.Parser.singleExpression (Text.trimmed code) = .ok s) :
    env.evaluateWith answer clock code =
      env.withInclude.runWith answer clock s (.evaluation env.name (Text.trimmed code)) := by
  unfold evaluateWith
  dsimp only
  rw [read]
  rfl

theorem executeWith_of_error {code : String} {x : Script.SyntaxError} (read : Script.Parser.script code = .error x) :
    ((env.executeWith answer clock code).run cells).value.1.1 = .error (.load env.name x.message) := by
  unfold executeWith
  dsimp only
  rw [read]
  rfl

theorem executeWith_of_ok {code : String} {s : Program} (read : Script.Parser.script code = .ok s) :
    ∃ bindings : Bindings, ((env.executeWith answer clock code).run cells).value.1.1 =
      ((env.withInclude.runWith answer clock s (.execution env.name)).run cells).value.1.1.map fun _ => bindings := by
  unfold executeWith
  dsimp only
  rw [read]
  exact ⟨_, rfl⟩

/-- Evaluation does not move an environment to another place. -/
theorem resolver_evaluateWith (code : String) :
    Include.Resolver.ofEnvironment ((env.evaluateWith answer clock code).run cells).value.1.2 = .ofEnvironment env :=
  (env.later_evaluateWith answer clock code cells).resolver

end Environment

namespace Include

/-! ## §3 — chains of activities -/

/-- **What can fail:** an include, the evaluation of an expression, and that of a script block. Texts are nested at most
`depth` deep in it, and `clock` tells the time. -/
inductive Activity
  | include (depth : Nat) (r : Resolver) (clock : Clock) (q : Request)
  | expression (depth : Nat) (clock : Clock) (env : Environment) (cells : Array Cell) (code : String)
  | block (depth : Nat) (clock : Clock) (env : Environment) (cells : Array Cell) (code : String)

/-- How the requests of an environment are answered. -/
def answers (files : FileAccess) (depth : Nat) (env : Environment) : Clock → Request → Logged Answer :=
  Resolver.fetchWithin files depth (.ofEnvironment env)

/-- The failure in an outcome. -/
def failureIn {α : Type} : Except Failure α → Option Failure
  | .ok _ => none
  | .error e => some e

theorem failureIn_eq_some {α : Type} {x : Except Failure α} {e : Failure} : failureIn x = some e ↔ x = .error e := by
  cases x <;> simp [failureIn]

theorem failureIn_map {α β : Type} (x : Except Failure α) (f : α → β) : failureIn (x.map f) = failureIn x := by
  cases x <;> rfl

/-- **The failure that an activity ends with**, if it fails. -/
def Activity.failure? (files : FileAccess) : Activity → Option Failure
  | .include depth r clock q => failureIn (Resolver.fetchWithin files depth r clock q).value
  | .expression depth clock env cells code =>
    failureIn ((env.evaluateWith (answers files depth env) clock code).run cells).value.1.1
  | .block depth clock env cells code =>
    failureIn ((env.executeWith (answers files depth env) clock code).run cells).value.1.1

/-- **The expressions of a template whose turn comes**, each with the readings of the clock for it, and the environment
and the cells that those before it leave. -/
inductive Reaches (answer : Clock → Request → Logged Answer) :
    Clock → Environment → Array Cell → List Segment → Clock → Environment → Array Cell → String → Prop
  | here {clock : Clock} {env : Environment} {cells : Array Cell} {code : List Char} {rest : List Segment} :
    Reaches answer clock env cells (.expression code :: rest) clock.first env cells (String.ofList code)
  | text {clock clock' : Clock} {env env' : Environment} {cells cells' : Array Cell} {t : List Char}
    {rest : List Segment} {code : String} (later : Reaches answer clock env cells rest clock' env' cells' code) :
    Reaches answer clock env cells (.text t :: rest) clock' env' cells' code
  | expression {clock clock' : Clock} {env env₁ env' : Environment} {cells cells₁ cells' : Array Cell}
    {first : List Char} {rest : List Segment} {code : String} {v : Value}
    (value : ((env.evaluateWith answer clock.first (String.ofList first)).run cells).value = ((.ok v, env₁), cells₁))
    (later : Reaches answer clock.rest env₁ cells₁ rest clock' env' cells' code) :
    Reaches answer clock env cells (.expression first :: rest) clock' env' cells' code

/-- **One activity waits for another**, and would not deal with the failure `e` of the other: an evaluation for an
include that its script asks for, however many functions are being called then, and the include of a text for an
expression in that text. -/
inductive Awaits (files : FileAccess) (e : Failure) : (outer inner : Activity) → Prop
  | expression {depth : Nat} {clock now : Clock} {env : Environment} {cells : Array Cell} {code : String} {s : Program}
    {q : Request} (read : Script.Parser.singleExpression (Text.trimmed code) = .ok s)
    (waiting : (now, q) ∈
      (env.withInclude.running cells s).awaited (fun clock q => (answers files depth env clock q).value) e clock) :
    Awaits files e (.expression depth clock env cells code) (.include depth (.ofEnvironment env) now q)
  | block {depth : Nat} {clock now : Clock} {env : Environment} {cells : Array Cell} {code : String} {s : Program}
    {q : Request} (read : Script.Parser.script code = .ok s)
    (waiting : (now, q) ∈
      (env.withInclude.running cells s).awaited (fun clock q => (answers files depth env clock q).value) e clock) :
    Awaits files e (.block depth clock env cells code) (.include depth (.ofEnvironment env) now q)
  | text {depth : Nat} {r : Resolver} {clock now : Clock} {q : Request} {source : String} {env : Environment}
    {cells : Array Cell} {code : String} (isText : q.options.binary = false) (opens : r.Opens files (r.target q.path))
    (read : files.provider.readText (r.target q.path) = .ok source)
    (turn : let child := Environment.child (r.target q.path) (r.stack.extended (r.target q.path))
      Reaches (answers files depth child) clock child #[] (Segment.ofTemplate source.toList) now env cells code) :
    Awaits files e (.include (depth + 1) r clock q) (.expression depth now env cells code)

variable {files : FileAccess} {e : Failure}

/-! ## §4 — one step back -/

/-- The expressions of a template are evaluated in one place. -/
theorem Reaches.resolver {answer : Clock → Request → Logged Answer} {clock clock' : Clock} {env env' : Environment}
    {cells cells' : Array Cell} {segments : List Segment} {code : String}
    (h : Reaches answer clock env cells segments clock' env' cells' code) :
    Resolver.ofEnvironment env' = .ofEnvironment env := by
  induction h with
  | here => rfl
  | text _ ih => exact ih
  | @expression clock _ env _ _ cells _ _ first _ _ _ value _ ih =>
    have same := Environment.resolver_evaluateWith answer clock.first env cells (String.ofList first)
    rw [value] at same
    exact ih.trans same

/-- **A template fails with its expressions.** -/
theorem Reaches.expand_failed {answer : Clock → Request → Logged Answer} {clock clock' : Clock}
    {env env' : Environment} {cells cells' : Array Cell} {segments : List Segment} {code : String}
    (h : Reaches answer clock env cells segments clock' env' cells' code)
    (failed : ((env'.evaluateWith answer clock' code).run cells').value.1.1 = .error e) :
    (Resolver.expand answer clock env cells segments).value = .error e := by
  induction h with
  | @here clock env cells code rest =>
    unfold Resolver.expand
    rw [Logged.value_bind]
    generalize ((env.evaluateWith answer clock.first (String.ofList code)).run cells).value = outcome at failed ⊢
    obtain ⟨⟨r, env'⟩, cells'⟩ := outcome
    obtain rfl : r = .error e := failed
    rfl
  | text _ ih =>
    show (Resolver.expand answer _ _ _ _).value.map _ = _
    rw [ih failed]
    rfl
  | expression value _ ih =>
    unfold Resolver.expand
    rw [Logged.value_bind, value]
    show (Resolver.expand answer _ _ _ _).value.map _ = _
    rw [ih failed]
    rfl

/-- **A script fails with the include it waits for.** -/
theorem running_failed {answer : Clock → Request → Logged Answer} {clock now : Clock} {env : Environment}
    {cells : Array Cell} {s : Program} {q : Request}
    (waiting : (now, q) ∈ (env.running cells s).awaited (fun clock q => (answer clock q).value) e clock)
    (failed : (answer now q).value = .error e) (describe : String → Failure) :
    ((env.runWith answer clock s describe).run cells).value.1.1 = .error e := by
  obtain ⟨f, fault, carried⟩ := (Script.Program.passes_run _ _ _).answering failed waiting
  exact Environment.runWith_of_fault answer clock env cells fault carried describe

/-- **An activity fails with the one it waits for.** -/
theorem Awaits.failure? {outer inner : Activity} (h : Awaits files e outer inner)
    (failed : inner.failure? files = some e) : outer.failure? files = some e := by
  cases h with
  | @expression depth clock now env cells code s q read waiting =>
    have failed : (answers files depth env now q).value = .error e := failureIn_eq_some.mp failed
    refine failureIn_eq_some.mpr ?_
    rw [Environment.evaluateWith_of_ok _ _ _ read]
    exact running_failed waiting failed _
  | @block depth clock now env cells code s q read waiting =>
    have failed : (answers files depth env now q).value = .error e := failureIn_eq_some.mp failed
    obtain ⟨bindings, ended⟩ := Environment.executeWith_of_ok (answers files depth env) clock env cells read
    refine failureIn_eq_some.mpr ?_
    rw [ended, running_failed waiting failed]
    rfl
  | @text depth r clock now q source env cells code isText opens read turn =>
    have failed : ((env.evaluateWith (answers files depth env) now code).run cells).value.1.1 = .error e :=
      failureIn_eq_some.mp failed
    refine failureIn_eq_some.mpr ?_
    have same : answers files depth env =
        answers files depth (.child (r.target q.path) (r.stack.extended (r.target q.path))) := by
      unfold answers
      rw [turn.resolver]
    rw [same] at failed
    have expanded := turn.expand_failed failed
    show (Resolver.once files (Resolver.fetchWithin files depth) r clock q).value = _
    rw [Resolver.once_eq, if_pos opens.readable]
    simp only [isText, Bool.false_eq_true, if_false]
    rw [Resolver.text_eq, opens.fresh, read]
    simp only [Bool.false_eq_true, if_false, Resolver.orFailure]
    exact congrArg (Except.map Inclusion.composite) expanded

/-! ## §5 — faults of a script's own -/

/-- **What the fault of a script becomes:** the failure it carries, or one in words. -/
theorem failureIn_running {answer : Clock → Request → Logged Answer} {clock : Clock} {env : Environment}
    {cells : Array Cell} {s : Program} {describe : String → Failure} :
    failureIn ((env.runWith answer clock s describe).run cells).value.1.1 = some e ↔
      ∃ f m, ((env.running cells s).answering answer clock).value = (.error f, m) ∧
        (f.failure? = some e ∨ f.failure? = none ∧ e = describe f.message) := by
  rw [Environment.value_runWith, failureIn_eq_some]
  generalize ((env.running cells s).answering answer clock).value = ended
  obtain ⟨r, m⟩ := ended
  cases r with
  | ok v => simp [Except.mapError]
  | error f =>
    simp only [Except.mapError, Environment.failureOf, Except.error.injEq, Prod.mk.injEq]
    cases carried : f.failure? with
    | none => simp [carried, eq_comm]
    | some e' => simp [carried]

/-- **Failures pass through.** Where an activity waits for another, that one for the next, and so on, and nobody on the
way would deal with the failure `e`: if the last one fails with `e`, so does the first. And an evaluation fails with
nothing else than the failure behind the fault that ends its script, or, if there is none behind it or the code is no
script, with the failure that names the environment, the code if it is an expression, and what went wrong. -/
theorem failures_pass_through (files : FileAccess) :
    (∀ e outer inner, Relation.ReflTransGen (Awaits files e) outer inner →
      inner.failure? files = some e → outer.failure? files = some e) ∧
    (∀ depth clock env cells code e, (Activity.expression depth clock env cells code).failure? files = some e ↔
      (∃ x, Script.Parser.singleExpression (Text.trimmed code) = .error x ∧
        e = .evaluation env.name (Text.trimmed code) x.message) ∨
      ∃ s f m, Script.Parser.singleExpression (Text.trimmed code) = .ok s ∧
        ((env.withInclude.running cells s).answering (answers files depth env) clock).value = (.error f, m) ∧
        (f.failure? = some e ∨ f.failure? = none ∧ e = .evaluation env.name (Text.trimmed code) f.message)) ∧
    (∀ depth clock env cells code e, (Activity.block depth clock env cells code).failure? files = some e ↔
      (∃ x, Script.Parser.script code = .error x ∧ e = .load env.name x.message) ∨
      ∃ s f m, Script.Parser.script code = .ok s ∧
        ((env.withInclude.running cells s).answering (answers files depth env) clock).value = (.error f, m) ∧
        (f.failure? = some e ∨ f.failure? = none ∧ e = .execution env.name f.message)) := by
  refine ⟨fun e outer inner chain failed => ?_, fun depth clock env cells code e => ?_,
    fun depth clock env cells code e => ?_⟩
  · induction chain using Relation.ReflTransGen.head_induction_on with
    | refl => exact failed
    | head step _ ih => exact step.failure? ih
  · simp only [Activity.failure?]
    cases read : Script.Parser.singleExpression (Text.trimmed code) with
    | error x =>
      rw [Environment.evaluateWith_of_error _ _ _ _ read]
      simp [failureIn, eq_comm]
    | ok s =>
      rw [Environment.evaluateWith_of_ok _ _ _ read, failureIn_running]
      simp
  · simp only [Activity.failure?]
    cases read : Script.Parser.script code with
    | error x =>
      rw [Environment.executeWith_of_error _ _ _ _ read]
      simp [failureIn, eq_comm]
    | ok s =>
      obtain ⟨bindings, ended⟩ := Environment.executeWith_of_ok (answers files depth env) clock env cells read
      rw [ended, failureIn_map, failureIn_running]
      simp

/-- A variable that is missing two includes and a function call away. -/
theorem missing_variable_passes_through :
    let m : Files.Memory := .ofList [
      (.ofString "/docs/a.md", Text.Utf8.encode "\x7b\x7b include(\"b.md\") \x7d\x7d"),
      (.ofString "/docs/b.md", Text.Utf8.encode "one \x7b\x7b 1 + missing \x7d\x7d two")]
    let files : FileAccess := ⟨m.provider, .extensionTable, .rootDirectory, .stopped⟩
    let main := Environment.ofFile .rootDirectory (.ofString "/docs/main.md")
    let b := Environment.child (.ofString "/docs/b.md")
      ⟨[.ofString "/docs/main.md", .ofString "/docs/a.md", .ofString "/docs/b.md"]⟩
    let e := Failure.evaluation "/docs/b.md" "1 + missing" "Variable not found: missing (line 1, position 5)"
    let outer := Activity.block 3 .stopped main #[] "fn get(path) \x7b include(path) \x7d get(\"a.md\")"
    let inner := Activity.expression 1 .stopped b #[] " 1 + missing "
    Relation.ReflTransGen (Awaits files e) outer inner ∧ inner.failure? files = some e ∧
      outer.failure? files = some e := by
  intro m files main b e outer inner
  let a := Environment.child (.ofString "/docs/a.md") ⟨[.ofString "/docs/main.md", .ofString "/docs/a.md"]⟩
  let inA := Activity.expression 2 .stopped a #[] " include(\"b.md\") "
  have toA : Awaits files e outer (.include 3 (.ofEnvironment main) .stopped ⟨"a.md", {}⟩) := by
    have asks : (match Script.Parser.script "fn get(path) \x7b include(path) \x7d get(\"a.md\")" with
        | .ok s => ((main.withInclude.running #[] s).awaited (fun clock q => (answers files 3 main clock q).value) e
            .stopped).map Prod.snd
        | .error _ => []) = [⟨"a.md", {}⟩] := by
      decide +kernel
    split at asks
    · rename_i read
      exact .block read (Script.Run.mem_awaited_stopped _ asks)
    · cases asks
  have intoA : Awaits files e (.include 3 (.ofEnvironment main) .stopped ⟨"a.md", {}⟩) inA := by
    have pieces : Segment.ofTemplate "\x7b\x7b include(\"b.md\") \x7d\x7d".toList =
        [.expression " include(\"b.md\") ".toList] := by
      decide +kernel
    have read : files.provider.readText ((Resolver.ofEnvironment main).target "a.md") =
        .ok "\x7b\x7b include(\"b.md\") \x7d\x7d" := by
      decide +kernel
    refine .text rfl ⟨by decide +kernel, by decide +kernel⟩ read ?_
    rw [pieces]
    exact .here
  have toB : Awaits files e inA (.include 2 (.ofEnvironment a) .stopped ⟨"b.md", {}⟩) := by
    have asks : (match Script.Parser.singleExpression (Text.trimmed " include(\"b.md\") ") with
        | .ok s => ((a.withInclude.running #[] s).awaited (fun clock q => (answers files 2 a clock q).value) e
            .stopped).map Prod.snd
        | .error _ => []) = [⟨"b.md", {}⟩] := by
      decide +kernel
    split at asks
    · rename_i read
      exact .expression read (Script.Run.mem_awaited_stopped _ asks)
    · cases asks
  have intoB : Awaits files e (.include 2 (.ofEnvironment a) .stopped ⟨"b.md", {}⟩) inner := by
    have pieces : Segment.ofTemplate "one \x7b\x7b 1 + missing \x7d\x7d two".toList =
        [.text "one ".toList, .expression " 1 + missing ".toList, .text " two".toList] := by
      decide +kernel
    have read : files.provider.readText ((Resolver.ofEnvironment a).target "b.md") =
        .ok "one \x7b\x7b 1 + missing \x7d\x7d two" := by
      decide +kernel
    refine .text rfl ⟨by decide +kernel, by decide +kernel⟩ read ?_
    rw [pieces]
    exact .text .here
  have chain : Relation.ReflTransGen (Awaits files e) outer inner :=
    .head toA (.head intoA (.head toB (.single intoB)))
  have failed : inner.failure? files = some e := by decide +kernel
  exact ⟨chain, failed, (failures_pass_through files).1 e outer inner chain failed⟩

end Include

end Dialogue
