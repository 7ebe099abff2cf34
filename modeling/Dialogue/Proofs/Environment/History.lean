import Dialogue.Proofs.Environment.Agreement
import Dialogue.Proofs.Script.Reading
import Mathlib.Logic.Relation
/-!
# `Dialogue.Proofs.Environment.History` — what an environment has been used for.

An environment starts for a file or for none. Then variables are set, functions are made callable, and scripts run in
it, with or without success. Main statement: none of this moves the environment to another place, so that where it
resolves its includes depends on its file alone.
-/

namespace Dialogue.Environment

open Script (Value Cell Function)

/-! ## §1 — histories -/

/-- **One thing done with an environment** and the cells, at whatever time. Cells may also change by themselves, for
closures share them with other environments. -/
inductive Does (files : FileAccess) : Environment × Array Cell → Environment × Array Cell → Prop
  | set (env : Environment) (cells : Array Cell) (name : String) (v : Value) :
      Does files (env, cells) (env.set name v, cells)
  | seed (env : Environment) (cells : Array Cell) (bindings : Bindings) :
      Does files (env, cells) (env.seed bindings, cells)
  | seedFunctions (env : Environment) (cells : Array Cell) (fs : List Function) :
      Does files (env, cells) (env.seedFunctions fs, cells)
  | execute {env left : Environment} {cells cells' : Array Cell} {clock : Clock} {code : String}
      {r : Except Failure Bindings} (ran : ((env.executeAt files clock code).run cells).value = ((r, left), cells')) :
      Does files (env, cells) (left, cells')
  | evaluate {env left : Environment} {cells cells' : Array Cell} {clock : Clock} {code : String}
      {r : Except Failure Value} (ran : ((env.evaluateAt files clock code).run cells).value = ((r, left), cells')) :
      Does files (env, cells) (left, cells')
  | elsewhere (env : Environment) (cells cells' : Array Cell) : Does files (env, cells) (env, cells')

/-- **An environment as it starts:** for a file, or for none. -/
inductive IsNew : Environment → Prop
  | empty : IsNew .empty
  | ofFile (directory p : Path) : IsNew (.ofFile directory p)

/-- **What is done with an environment later on.** -/
abbrev Becomes (files : FileAccess) : Environment × Array Cell → Environment × Array Cell → Prop :=
  Relation.ReflTransGen (Does files)

/-- **An environment with a history.** -/
def Built (files : FileAccess) (env : Environment) (cells : Array Cell) : Prop :=
  ∃ start cells₀, IsNew start ∧ Becomes files (start, cells₀) (env, cells)

/-- **One use of an environment**, as data. -/
inductive Use
  | set (name : String) (v : Value)
  | seed (bindings : Bindings)
  /-- Hand over the functions of a script, of which there is one for a name and a number of parameters. -/
  | seedFunctions (s : Script.Program) (keyed : Script.Keyed s.functions)
  | execute (clock : Clock) (code : String)
  | evaluate (clock : Clock) (code : String)
  /-- Nothing is done here, but somebody else changes the cells. -/
  | elsewhere (cells : Array Cell)

/-- **What a use makes** of an environment and the cells. -/
def Use.after (files : FileAccess) (s : Environment × Array Cell) : Use → Environment × Array Cell
  | .set name v => (s.1.set name v, s.2)
  | .seed bindings => (s.1.seed bindings, s.2)
  | .seedFunctions p _ => (s.1.seedFunctions p.functions, s.2)
  | .execute clock code =>
    let r := ((s.1.executeAt files clock code).run s.2).value
    (r.1.2, r.2)
  | .evaluate clock code =>
    let r := ((s.1.evaluateAt files clock code).run s.2).value
    (r.1.2, r.2)
  | .elsewhere cells => (s.1, cells)

/-- **What uses make**, one after another. -/
def used (files : FileAccess) (s : Environment × Array Cell) (uses : List Use) : Environment × Array Cell :=
  uses.foldl (Use.after files) s

theorem Built.becomes {files : FileAccess} {env later : Environment} {cells cells' : Array Cell}
    (h : Built files env cells) (then_ : Becomes files (env, cells) (later, cells')) : Built files later cells' := by
  obtain ⟨start, cells₀, isNew, before⟩ := h
  exact ⟨start, cells₀, isNew, before.trans then_⟩

/-! ## §2 — what histories keep -/

variable {env left : Environment} {cells cells' : Array Cell} {code : String}

theorem later_refl (env : Environment) : env.Later env := ⟨rfl, rfl, rfl⟩

theorem Later.trans {a b c : Environment} (h : a.Later b) (h' : b.Later c) : a.Later c :=
  ⟨h'.file.trans h.file, h'.dir.trans h.dir, h'.includes.trans h.includes⟩

/-- An environment in the same place resolves its includes as before. -/
theorem Later.resolver (h : env.Later left) : Include.Resolver.ofEnvironment left = .ofEnvironment env :=
  congrArg₂ Include.Resolver.mk h.dir h.includes

/-- An environment of the same file is called the same. -/
theorem Later.name (h : env.Later left) : left.name = env.name :=
  congrArg (fun file => (file.map Path.toString).getD "<inline>") h.file

theorem later_withInclude (env : Environment) : env.Later env.withInclude := ⟨rfl, rfl, rfl⟩

theorem later_set (env : Environment) (name : String) (v : Value) : env.Later (env.set name v) := ⟨rfl, rfl, rfl⟩

theorem later_seed (env : Environment) (bindings : Bindings) : env.Later (env.seed bindings) := by
  rw [seed_eq]
  exact ⟨rfl, rfl, rfl⟩

theorem later_evaluateWith (answer : Clock → Include.Request → Logged Include.Answer) (clock : Clock)
    (env : Environment) (code : String) (cells : Array Cell) :
    env.Later ((env.evaluateWith answer clock code).run cells).value.1.2 := by
  unfold evaluateWith
  dsimp only
  split
  · exact later_withInclude env
  · apply (later_withInclude env).trans
    apply later_runWith

theorem later_executeWith (answer : Clock → Include.Request → Logged Include.Answer) (clock : Clock)
    (env : Environment) (code : String) (cells : Array Cell) :
    env.Later ((env.executeWith answer clock code).run cells).value.1.2 := by
  unfold executeWith
  dsimp only
  split
  · exact later_withInclude env
  · rename_i s _
    have later := later_runWith answer clock env.withInclude s (.execution env.withInclude.name) cells
    exact (later_withInclude env).trans later

/-- **What is done with an environment does not move it.** -/
theorem Does.later {files : FileAccess} {s t : Environment × Array Cell} (h : Does files s t) : s.1.Later t.1 := by
  cases h with
  | set env cells name v => exact later_set env name v
  | seed env cells bindings => exact later_seed env bindings
  | seedFunctions env cells fs => exact ⟨rfl, rfl, rfl⟩
  | @execute env left cells _ clock code _ ran =>
    show env.Later left
    have later := later_executeWith (Include.Resolver.fetchAt files (.ofEnvironment env)) clock env code cells
    unfold Environment.executeAt at ran
    rwa [ran] at later
  | @evaluate env left cells _ clock code _ ran =>
    show env.Later left
    have later := later_evaluateWith (Include.Resolver.fetchAt files (.ofEnvironment env)) clock env code cells
    unfold Environment.evaluateAt at ran
    rwa [ran] at later
  | elsewhere env cells cells' => exact later_refl env

theorem Becomes.later {files : FileAccess} {s t : Environment × Array Cell} (h : Becomes files s t) :
    s.1.Later t.1 := by
  induction h with
  | refl => exact later_refl _
  | tail _ step ih => exact ih.trans step.later

/-- **Where an environment resolves its includes** depends on its file alone, whatever it has been used for. -/
theorem Built.resolver {files : FileAccess} (h : Built files env cells) :
    Include.Resolver.ofEnvironment env = ⟨env.file.bind Path.parent?, .seeded env.file⟩ := by
  obtain ⟨start, cells₀, isNew, history⟩ := h
  obtain ⟨file, dir, includes⟩ := Becomes.later history
  dsimp only at file dir includes
  unfold Include.Resolver.ofEnvironment
  rw [dir, includes, file]
  cases isNew with
  | empty => rfl
  | ofFile directory p => rfl

end Dialogue.Environment
