import Dialogue.Files.Memory
import Dialogue.Proofs.Environment.Bindings
import Mathlib.Data.List.Find
/-!
# `Dialogue.Proofs.Environment.Functions` — which function a call means.

An environment has a table of functions, in which each has its own name and number of parameters. A script that goes
through brings its functions into the table, and so does one whose functions are handed over, without being run; a
script that runs has the table and its own functions before it. Main statement: whatever an environment has been used
for, a function in the table is the last one that was defined under its name with its number of parameters.
-/

namespace Dialogue.Environment

open Script (Value Cell Function Context Keyed)

variable {files : FileAccess} {fs gs : List Function} {name : String} {arity : Nat}

/-! ## §1 — tables of functions -/

/-- **The last of the functions** with this key. -/
def IsLast (fs : List Function) (key : String × Nat) (f : Function) : Prop :=
  ∃ before after, fs = before ++ f :: after ∧ f.key = key ∧ ∀ g ∈ after, g.key ≠ key

/-- **The function that a call means** in a table. -/
def meant? (fs : List Function) (name : String) (arity : Nat) : Option Function :=
  Context.function? { functions := fs } name arity

theorem meant?_eq (fs : List Function) (name : String) (arity : Nat) :
    meant? fs name arity = fs.reverse.find? fun f => f.name == name && f.arity == arity :=
  List.findRev?_eq_find?_reverse

theorem isCalled_iff {f : Function} : (f.name == name && f.arity == arity) = true ↔ f.key = (name, arity) := by
  simp [Function.key]

/-- **A call means the last function** of its name with its number of arguments. -/
theorem meant?_eq_some {f : Function} : meant? fs name arity = some f ↔ IsLast fs (name, arity) f := by
  rw [meant?_eq, List.find?_eq_some_iff_append, isCalled_iff]
  constructor
  · rintro ⟨key, after, before, split, others⟩
    refine ⟨before.reverse, after.reverse, ?_, key, fun g mem same => ?_⟩
    · rw [← List.reverse_reverse fs, split]
      simp
    · have other := others g (List.mem_reverse.mp mem)
      rw [isCalled_iff.mpr same] at other
      cases other
  · rintro ⟨before, after, rfl, key, others⟩
    refine ⟨key, after.reverse, before.reverse, by simp, fun g mem => ?_⟩
    rw [Bool.not_eq_true', Bool.eq_false_iff]
    exact fun same => others g (List.mem_reverse.mp mem) (isCalled_iff.mp same)

theorem meant?_append (fs gs : List Function) (name : String) (arity : Nat) :
    meant? (fs ++ gs) name arity = (meant? gs name arity).or (meant? fs name arity) := by
  rw [meant?_eq, meant?_eq, meant?_eq, List.reverse_append, List.find?_append]

theorem meant?_eq_none : meant? fs name arity = none ↔ ∀ f ∈ fs, f.key ≠ (name, arity) := by
  rw [meant?_eq, List.find?_eq_none]
  simp only [List.mem_reverse, isCalled_iff, ne_eq]

/-- **A table with later functions** means what a list of all of them does. -/
theorem meant?_combined (fs gs : List Function) (name : String) (arity : Nat) :
    meant? (combined fs gs) name arity = meant? (fs ++ gs) name arity := by
  unfold combined
  rw [meant?_append, meant?_append]
  cases later : meant? gs name arity with
  | some f => rfl
  | none =>
    -- without a later function of this key, none is left out
    rw [Option.none_or, Option.none_or, meant?_eq, meant?_eq, ← List.filter_reverse, List.find?_filter]
    refine List.find?_congr fun f _ => ?_
    by_cases called : f.key = (name, arity)
    · have kept : (gs.any fun g => g.name == f.name && g.arity == f.arity) = false := by
        refine List.any_eq_false.mpr fun g mem same => meant?_eq_none.mp later g mem ?_
        exact (isCalled_iff.mp same).trans called
      rw [kept, isCalled_iff.mpr called]
      rfl
    · have other : (f.name == name && f.arity == arity) = false := Bool.eq_false_iff.mpr (called ∘ isCalled_iff.mp)
      rw [other]
      simp

/-- **A table has one function for a key**, and so has one with later functions. -/
theorem keyed_combined (h : Keyed fs) (hg : Keyed gs) : Keyed (combined fs gs) := by
  unfold combined Keyed
  rw [List.map_append]
  refine List.nodup_append.mpr ⟨h.sublist (List.filter_sublist.map _), hg, fun k before l after same => ?_⟩
  obtain ⟨f, mem, rfl⟩ := List.mem_map.mp before
  obtain ⟨g, later, rfl⟩ := List.mem_map.mp after
  have replaced : (gs.any fun g => g.name == f.name && g.arity == f.arity) = true :=
    List.any_eq_true.mpr ⟨g, later, isCalled_iff.mpr same.symm⟩
  have kept := (List.mem_filter.mp mem).2
  rw [replaced] at kept
  cases kept

theorem combined_nil (fs : List Function) : combined fs [] = fs := by
  unfold combined
  simp

/-! ## §2 — what is defined -/

/-- **The functions of a script**, as they are when it is run in an environment. -/
def definitions (env : Environment) (cells : Array Cell) (s : Script.Program) : List Function :=
  (Script.Simplify.script (env.known cells) s).functions

/-- **What a script that runs can call:** the functions of the environment, and its own before them. -/
def context (env : Environment) (cells : Array Cell) (s : Script.Program) : Context :=
  { functions := combined env.functions (env.definitions cells s) }

/-- Functions keep their keys when a script is simplified. -/
theorem keyed_definitions (env : Environment) (cells : Array Cell) {s : Script.Program} (h : Keyed s.functions) :
    Keyed (env.definitions cells s) := by
  unfold definitions Script.Simplify.script Keyed
  rw [List.map_map]
  exact h

/-- **The table after a script:** with its functions if it goes through, and else as before. -/
theorem functions_runWith (answer : Clock → Include.Request → Logged Include.Answer) (clock : Clock)
    (env : Environment) (s : Script.Program) (describe : String → Failure) (cells : Array Cell) :
    let ended := ((env.runWith answer clock s describe).run cells).value.1
    ended.2.functions = match ended.1 with
      | .ok _ => combined env.functions (env.definitions cells s)
      | .error _ => env.functions := by
  unfold runWith StateT.run
  dsimp only
  generalize Script.Run.answering answer _ clock = x
  obtain ⟨⟨r, m⟩, asked⟩ := x
  cases r <;> rfl

/-- **What a use defines:** the functions of a script block that goes through, or those that are handed over. -/
def Use.definitions (files : FileAccess) (s : Environment × Array Cell) : Use → List Function
  | .execute clock code =>
    match Script.Parser.script code, ((s.1.executeAt files clock code).run s.2).value.1.1 with
    | .ok p, .ok _ => s.1.definitions s.2 p
    | _, _ => []
  | .seedFunctions p _ => p.functions
  | .set .. | .seed _ | .evaluate .. | .elsewhere _ => []

/-- **What uses define**, one after another. -/
def given (files : FileAccess) (s : Environment × Array Cell) : List Use → List Function
  | [] => []
  | u :: uses => u.definitions files s ++ given files (u.after files s) uses

/-- A script block brings its functions into the table, if it goes through. -/
theorem functions_executeAt (files : FileAccess) (clock : Clock) (env : Environment) (cells : Array Cell)
    (code : String) : ((env.executeAt files clock code).run cells).value.1.2.functions =
      combined env.functions ((Use.execute clock code).definitions files (env, cells)) := by
  dsimp only [Use.definitions]
  generalize ran : ((env.executeAt files clock code).run cells).value = ended
  obtain ⟨⟨r, left⟩, cells'⟩ := ended
  rcases executeAt_cases ran with ⟨e, read, rfl, rfl, -⟩ | ⟨s, q, read, run, rfl⟩
  · rw [read]
    exact (combined_nil env.functions).symm
  · have functions := functions_runWith (Include.Resolver.fetchAt files (.ofEnvironment env)) clock env.withInclude s
      (.execution env.name) cells
    rw [run] at functions
    rw [read]
    cases q with
    | ok v => exact functions
    | error e => exact functions.trans (combined_nil env.functions).symm

/-- **An expression leaves the table as it is.** -/
theorem functions_evaluateWith (answer : Clock → Include.Request → Logged Include.Answer) (clock : Clock)
    (env : Environment) (cells : Array Cell) (code : String) :
    ((env.evaluateWith answer clock code).run cells).value.1.2.functions = env.functions := by
  unfold evaluateWith
  dsimp only
  split
  · rfl
  · rename_i s read
    obtain ⟨e, -, rfl⟩ := Script.Parser.singleExpression_ok read
    have functions := functions_runWith answer clock env.withInclude ⟨[.expr e], []⟩
      (.evaluation env.name (Text.trimmed code)) cells
    refine functions.trans ?_
    split
    · exact combined_nil env.functions
    · rfl

/-- Seeding variables leaves the table as it is. -/
theorem functions_seed (env : Environment) (bindings : Bindings) : (env.seed bindings).functions = env.functions := by
  rw [seed_eq]

/-- **A use brings what it defines into the table.** -/
theorem Use.functions_after (files : FileAccess) (s : Environment × Array Cell) (u : Use) :
    (u.after files s).1.functions = combined s.1.functions (u.definitions files s) := by
  obtain ⟨env, cells⟩ := s
  cases u with
  | execute clock code =>
    have functions := functions_executeAt files clock env cells code
    unfold after
    exact functions
  | seedFunctions p _ => rfl
  | seed bindings => exact (functions_seed env bindings).trans (combined_nil _).symm
  | evaluate clock code =>
    unfold after definitions Environment.evaluateAt
    dsimp only
    rw [combined_nil, functions_evaluateWith]
  | set name v => exact (combined_nil _).symm
  | elsewhere cells => exact (combined_nil _).symm

theorem Use.keyed_definitions (files : FileAccess) (s : Environment × Array Cell) (u : Use) :
    Keyed (u.definitions files s) := by
  cases u with
  | execute clock code =>
    dsimp only [definitions]
    split
    · rename_i p _ read _
      exact Environment.keyed_definitions s.1 s.2 (Script.Parser.scoped_script read).2
    · exact List.nodup_nil
  | seedFunctions p keyed => exact keyed
  | _ => exact List.nodup_nil

/-! ## §3 — histories -/

/-- **A table keeps to one function for a key**, whatever the environment is used for. -/
theorem keyed_used (files : FileAccess) {s : Environment × Array Cell} (h : Keyed s.1.functions) (uses : List Use) :
    Keyed (used files s uses).1.functions := by
  induction uses generalizing s with
  | nil => exact h
  | cons u uses ih =>
    refine ih ?_
    rw [u.functions_after]
    exact keyed_combined h (u.keyed_definitions files s)

/-- **A table means what it started with and all that was defined since**, one after another. -/
theorem meant?_used (files : FileAccess) (s : Environment × Array Cell) (uses : List Use) (name : String)
    (arity : Nat) :
    meant? (used files s uses).1.functions name arity = meant? (s.1.functions ++ given files s uses) name arity := by
  induction uses generalizing s with
  | nil =>
    unfold given
    rw [List.append_nil]
    rfl
  | cons u uses ih =>
    unfold given
    rw [← List.append_assoc, meant?_append, ← meant?_combined, ← u.functions_after, ← meant?_append]
    exact ih (u.after files s)

/-- **A call means the last definition**, whatever the environment has been used for. Its table has one function for a
name and a number of parameters, the last one that was defined; a script that is run in it calls its own functions
before these; and functions that are handed over bring no variables with them. -/
theorem functions_last_defined {start : Environment} (isNew : IsNew start) (files : FileAccess) (cells : Array Cell)
    (uses : List Use) :
    let s := used files (start, cells) uses
    let defined := given files (start, cells) uses
    Keyed s.1.functions ∧
      (∀ name arity f, meant? s.1.functions name arity = some f ↔ IsLast defined (name, arity) f) ∧
      (∀ (p : Script.Program) name arity f, (s.1.context s.2 p).function? name arity = some f ↔
        IsLast (defined ++ s.1.definitions s.2 p) (name, arity) f) ∧
      ∀ p : Script.Program, (s.1.seedFunctions p.functions).scope = s.1.scope := by
  intro s defined
  have none : start.functions = [] := by cases isNew <;> rfl
  have means (name : String) (arity : Nat) : meant? s.1.functions name arity = meant? defined name arity := by
    have all := meant?_used files (start, cells) uses name arity
    rwa [none, List.nil_append] at all
  refine ⟨keyed_used files (none ▸ List.nodup_nil) uses, fun name arity f => ?_, fun p name arity f => ?_, fun p => rfl⟩
  · rw [means, meant?_eq_some]
  · rw [← meant?_eq_some, meant?_append, ← means, ← meant?_append, ← meant?_combined]
    rfl

/-- A function is handed over, defined again by a script block, and once more by one that fails. -/
theorem functions_last_defined_again :
    let files : FileAccess := ⟨(Files.Memory.ofList []).provider, .extensionTable, .rootDirectory, .stopped⟩
    let library : Script.Program := ⟨[.noop ⟨1, 1⟩], [.mk "f" ["x"] []]⟩
    let uses : List Use := [.seedFunctions library (List.pairwise_singleton _ _),
      .execute .stopped "fn f(x) \x7b 1 \x7d fn g() \x7b 2 \x7d",
      .execute .stopped "fn f(x) \x7b 3 \x7d throw 4;", .evaluate .stopped "f(0)"]
    let s := used files (Environment.empty, #[]) uses
    let defined := given files (Environment.empty, #[]) uses
    defined.map Function.key = [("f", 1), ("f", 1), ("g", 0)] ∧ Keyed s.1.functions ∧
      (∀ name arity f, meant? s.1.functions name arity = some f ↔ IsLast defined (name, arity) f) ∧
      (∀ (p : Script.Program) name arity f, (s.1.context s.2 p).function? name arity = some f ↔
        IsLast (defined ++ s.1.definitions s.2 p) (name, arity) f) ∧
      ∀ p : Script.Program, (s.1.seedFunctions p.functions).scope = s.1.scope := by
  intro files library uses s defined
  have keys : defined.map Function.key = [("f", 1), ("f", 1), ("g", 0)] := by decide +kernel
  exact ⟨keys, functions_last_defined .empty files #[] uses⟩

end Dialogue.Environment
