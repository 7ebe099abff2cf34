import Dialogue.Files.Memory
import Dialogue.Proofs.Include.Call
import Dialogue.Proofs.Path.Join
/-!
# `Dialogue.Proofs.Include.Directory` — paths seen from the directory of a file.

A script sees the directory of its file as a constant, and can join paths to it. Main statement: paths compose, so that
including a path that a script has joined to its directory is including the path itself.
-/

namespace Dialogue.Include

open Script (Value Cell Expr Machine Eval Interpreter Constant)
open Environment (dirConstant)

/-! ## §1 — joined paths -/

/-- The text that a script gets for a path joined to a directory. -/
def joined (dir path : String) : String := ((Path.ofString dir).resolve (.ofString path)).toString

/-- **What `join_path` yields.** -/
theorem call?_joinPath (dir path : String) :
    Script.Library.call? "join_path" [.str dir, .str path] = .text (joined dir path) := rfl

/-- **A path joined to the directory** that includes are resolved in leads where the path itself leads. -/
theorem target_joined {r : Resolver} {dir : Path} (here : r.dir = some dir) (absolute : dir.isAbsolute = true)
    (path : String) : r.target (joined dir.toString path) = r.target path := by
  unfold Resolver.target joined
  rw [here]
  dsimp only
  rw [Path.ofString_toString, Path.ofString_toString, Path.resolve_of_isAbsolute absolute]

/-- **Texts are included by where their path leads**, however it is spelled. -/
theorem fetchAt_of_target {files : FileAccess} {r : Resolver} {path path' : String}
    (same : r.target path = r.target path') (clock : Clock) :
    r.fetchAt files clock ⟨path, {}⟩ = r.fetchAt files clock ⟨path', {}⟩ := by
  unfold Resolver.fetchAt Resolver.maxDepth Resolver.fetchWithin
  dsimp only
  rw [same]
  rfl

/-! ## §2 — calls with a joined path -/

/-- The argument of such a call: a literal path joined to a base. -/
def joinOf (base : Expr) (path : String) (at_ pos : Position) : Expr :=
  .call "join_path" [base, .constant (.str path) at_] pos false

/-- **Code that calls `include`** with a literal path joined to the directory of the file, and does nothing else. -/
def CallsFromHere (code path : String) : Prop :=
  ∃ here at_ inner outer, Script.Parser.singleExpression (Text.trimmed code) =
    .ok ⟨[.expr (.call "include" [joinOf (.var dirConstant here) path at_ inner] outer false)], []⟩

/-- **The directory is put in its place** beforehand, if it is known to be constant. -/
theorem simplify_joinOf (k : Script.Simplify.Known) (path : String) (here at_ inner outer : Position) :
    Script.Simplify.script k ⟨[.expr (.call "include" [joinOf (.var dirConstant here) path at_ inner] outer false)], []⟩ =
      ⟨[.expr (.call "include" [joinOf (((k dirConstant).map (Expr.constant · here)).getD (.var dirConstant here)) path
        at_ inner] outer false)], []⟩ := by
  cases known : k dirConstant with
  | none =>
    refine Script.Simplify.script_of_settled (fun _ _ => Expr.noConfusion) fun fuel => ?_
    simp only [Script.Simplify.expr, Script.Simplify.exprs, joinOf, known]
    rfl
  | some v =>
    -- one pass puts the value in its place, and the next finds nothing to do
    refine Script.Simplify.script_of_changed (fun _ _ => Expr.noConfusion) (fun _ _ => Expr.noConfusion)
      (fun fuel => ?_) fun _ => rfl
    simp only [Script.Simplify.expr, Script.Simplify.exprs, joinOf, known]
    rfl

/-- **What is known of a variable** beforehand is its value, or nothing. -/
theorem known_of_get? {env : Environment} {cells : Array Cell} {name text : String}
    (reads : env.get? cells name = some (.str text)) :
    env.known cells name = none ∨ env.known cells name = some (.str text) := by
  obtain ⟨s, found, value⟩ := Option.map_eq_some_iff.mp reads
  unfold Environment.known
  rw [found, Option.bind_some, value]
  split
  · exact .inr rfl
  · exact .inl rfl

section

variable {c : Script.Context} {m : Machine} {dir path : String}

/-- **Calling `join_path`** yields the joined path and does nothing else, unless the script has a function of that
name. -/
theorem runOn_callNamed_joinPath (I : Interpreter) (free : c.function? "join_path" 2 = none)
    (place : Option Script.Place) (pos : Position) :
    (I.callNamed "join_path" [.str dir, .str path] place pos).runOn c m = .done (.ok (.str (joined dir path)), m) := by
  unfold Interpreter.callNamed
  rw [Eval.runOn_read_bind]
  simp only [List.length_cons, List.length_nil, Nat.zero_add, free]
  rfl

theorem runOn_joinOf_constant (free : c.function? "join_path" 2 = none) (n : Nat) (here at_ pos : Position) :
    ((Script.interpreter (n + 2)).expr (joinOf (.constant (.str dir) here) path at_ pos)).runOn c m =
      .done (.ok (.str (joined dir path)), m) :=
  runOn_callNamed_joinPath (Script.interpreter (n + 1)) free none pos

theorem runOn_joinOf_var (free : c.function? "join_path" 2 = none) {name : String}
    (reads : m.value? name = some (.str dir)) (n : Nat) (here at_ pos : Position) :
    ((Script.interpreter (n + 2)).expr (joinOf (.var name here) path at_ pos)).runOn c m =
      .done (.ok (.str (joined dir path)), m) := by
  obtain ⟨s, found, value⟩ := Option.map_eq_some_iff.mp reads
  have sighted : (Interpreter.sighting name here).runOn c m = .done (.ok s, m) := by
    unfold Interpreter.sighting
    rw [Eval.runOn_get_bind, found]
    rfl
  -- a variable as the first argument is looked at after the others
  have call : (Script.interpreter (n + 2)).expr (joinOf (.var name here) path at_ pos) =
      Interpreter.sighting name here >>= fun s => (Script.interpreter (n + 1)).callNamed "join_path"
        (s.value :: [.str path]) (Interpreter.openPlace? s) pos := rfl
  rw [call, Eval.runOn_bind, sighted]
  show ((Script.interpreter (n + 1)).callNamed "join_path" (s.value :: [.str path]) _ pos).runOn c m = _
  rw [value]
  exact runOn_callNamed_joinPath _ free _ pos

end

/-- **Evaluating a call with a joined path** yields what the request for the joined path is answered with. -/
theorem run_evaluateWith_fromHere {code path dir : String} (call : CallsFromHere code path)
    (answer : Clock → Request → Logged Answer) (clock : Clock) {env : Environment} {cells : Array Cell}
    (reads : env.get? cells dirConstant = some (.str dir))
    (free : ∀ f ∈ env.functions, f.name ≠ "include" ∧ f.name ≠ "join_path") :
    (env.evaluateWith answer clock code).run cells =
      ⟨(((answer clock.first ⟨joined dir path, {}⟩).value.map .inclusion, env.withInclude), cells),
        (answer clock.first ⟨joined dir path, {}⟩).accesses⟩ := by
  obtain ⟨here, at_, inner, outer, read⟩ := call
  let c : Script.Context := { functions := env.functions }
  have noInclude : c.function? "include" 1 = none := function?_of_free (fun f mem => (free f mem).1) 1
  have noJoin : c.function? "join_path" 2 = none := function?_of_free (fun f mem => (free f mem).2) 2
  have asks : (Script.Simplify.script (env.known cells)
      ⟨[.expr (.call "include" [joinOf (.var dirConstant here) path at_ inner] outer false)], []⟩).run c
        (env.machine cells) =
      .ask ⟨joined dir path, {}⟩ fun a => .done (callOutcome outer a, env.machine cells) := by
    rw [simplify_joinOf]
    -- the directory is read when the script is run, or was put in its place before
    rcases known_of_get? reads with known | known
    · rw [known]
      exact run_include (fun _ _ => Expr.noConfusion) (fun _ => Expr.noConfusion) outer noInclude
        fun n => runOn_joinOf_var noJoin reads n here at_ inner
    · rw [known]
      exact run_include (fun _ _ => Expr.noConfusion) (fun _ => Expr.noConfusion) outer noInclude
        fun n => runOn_joinOf_constant noJoin n here at_ inner
  exact run_evaluateWith_of_asks read answer clock env cells rfl asks

/-! ## §3 — files and their directories -/

/-- **A file sees its directory**, and so does a file that is being included. -/
theorem get?_dirConstant {p dir : Path} (above : p.parent? = some dir) (stack : Option Stack) (cells : Array Cell) :
    Environment.get? { Environment.ofPath p with stack := stack } cells dirConstant = some (.str dir.toString) := by
  unfold Environment.ofPath
  rw [above]
  rfl

/-- **Paths compose.** Normalizing twice is normalizing once; a normal form is `.`, or there is no `.` in it and it
climbs only at its start, from the root not at all; it is absolute just when the path is; and resolving step by step is
normalizing the paths joined. So a path that a script joins to the directory of its file leads where the path itself
leads, as long as that directory is absolute: the environment of a file shows the directory that it resolves includes
in, the joined path is looked for under the same path, and including it is including the path, with the same outcome and
the same questions, unless the script has put something else in the place of what it calls. -/
theorem paths_compose :
    (∀ p : Path, p.normalize.normalize = p.normalize ∧ (p.normalize.text = ['.'] ∨ p.normalize.Normal) ∧
      p.normalize.isAbsolute = p.isAbsolute) ∧
    (∀ b p q : Path, (b.resolve p).resolve q = ((b.join p).join q).normalize) ∧
    (∀ (p dir : Path) (stack : Stack) (cells : Array Cell), (Environment.ofPath p).dir = some dir →
      (Environment.ofPath p).get? cells dirConstant = some (.str dir.toString) ∧
      (Environment.child p stack).get? cells dirConstant = some (.str dir.toString)) ∧
    (∀ (env : Environment) (dir : Path) (path : String), env.dir = some dir → dir.isAbsolute = true →
      ∃ full, Script.Library.call? "join_path" [.str dir.toString, .str path] = .text full ∧
        (Resolver.ofEnvironment env).target full = (Resolver.ofEnvironment env).target path) ∧
    ∀ (files : FileAccess) (env : Environment) (cells : Array Cell) (dir : Path) (code code' path : String),
      env.dir = some dir → dir.isAbsolute = true → env.get? cells dirConstant = some (.str dir.toString) →
      (∀ f ∈ env.functions, f.name ≠ "include" ∧ f.name ≠ "join_path") →
      Calls code path → CallsFromHere code' path →
      (env.evaluate files code').run cells = (env.evaluate files code).run cells := by
  refine ⟨fun p => ⟨p.normalize_normalize, p.normal_normalize, p.isAbsolute_normalize⟩, Path.resolve_resolve,
    fun p dir stack cells above => ⟨get?_dirConstant above none cells, get?_dirConstant above stack cells⟩,
    fun env dir path here absolute => ?_,
    fun files env cells dir code code' path here absolute reads free call callFrom => ?_⟩
  · exact ⟨_, call?_joinPath dir.toString path, target_joined here absolute path⟩
  · have same : (Resolver.ofEnvironment env).target (joined dir.toString path) =
        (Resolver.ofEnvironment env).target path := target_joined here absolute path
    unfold Environment.evaluate Environment.evaluateAt
    rw [run_evaluateWith_fromHere callFrom _ _ reads free,
      run_evaluateWith_of_calls call _ _ fun f mem => (free f mem).1, fetchAt_of_target same]

/-- A part included by a path that climbs, and by that path joined to the directory of the file. -/
theorem joined_include_same_file :
    let contents := Files.Memory.ofList [(.ofString "/docs/part.md", [104, 105])]
    let files : FileAccess := ⟨contents.provider, .extensionTable, .rootDirectory, .stopped⟩
    let env := Environment.ofPath (.ofString "/docs/main.md")
    let code := "include(\"./old/../part.md\")"
    let code' := "include(join_path(__dirname, \"./old/../part.md\"))"
    env.get? #[] dirConstant = some (.str "/docs") ∧ Calls code "./old/../part.md" ∧
      CallsFromHere code' "./old/../part.md" ∧
      (env.evaluate files code').run #[] = (env.evaluate files code).run #[] ∧
      (Path.ofString "../a/.././/../b/").normalize = .ofString "../../b" ∧
      ((Path.ofString "../b").resolve (.ofString "..")).resolve (.ofString "c") = .ofString "../c" := by
  intro contents files env code code'
  obtain ⟨-, composed, shown, -, included⟩ := paths_compose
  have here : env.dir = some (.ofString "/docs") := by decide
  have reads := (shown (.ofString "/docs/main.md") (.ofString "/docs") ⟨[]⟩ #[] here).1
  have call : Calls "include(\"./old/../part.md\")" "./old/../part.md" := ⟨_, _, rfl⟩
  have callFrom : CallsFromHere "include(join_path(__dirname, \"./old/../part.md\"))" "./old/../part.md" :=
    ⟨_, _, _, _, rfl⟩
  refine ⟨reads, call, callFrom, ?_, by decide, ?_⟩
  · exact included files env #[] (.ofString "/docs") code code' _ here (by decide) reads (List.forall_mem_nil _) call
      callFrom
  · rw [composed]
    decide

end Dialogue.Include
