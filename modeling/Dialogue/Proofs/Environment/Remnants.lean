import Dialogue.Files.Memory
import Dialogue.Proofs.Environment.Functions
import Dialogue.Proofs.Include.Foreign
/-!
# `Dialogue.Proofs.Environment.Remnants` — what a script block leaves that fails.

A script block can fail at any of its statements, however deep it stands in blocks, calls and includes. By then
variables may have been brought into reach, and others changed. But functions come into the table at the end only; and
of a script that cannot be read nothing is run. That it could not be read is a failure that no include ends with, and
no script can make, so that there is no other way to come to it. Main statement: a script block that fails defines
nothing, and what it leaves of its variables is in no later report; and if it could not be read, nothing is changed.
-/

namespace Dialogue

open Script (Value Entry Cell Function)
open Include (Request Answer)

/-- **A failure other than that of a script that cannot be read.** -/
def Failure.NotLoad (e : Failure) : Prop := ∀ name text, e ≠ .load name text

namespace Include.Resolver

/-! ## §1 — failures of includes -/

/-- **No include fails for a script that cannot be read:** no script block is run in it. -/
theorem notLoad_fetchAt (files : FileAccess) (r : Resolver) (clock : Clock) (q : Request) (e : Failure)
    (failed : (fetchAt files r clock q).value = .error e) : e.NotLoad := by
  rintro name text rfl
  rcases foreign_fetchAt files r clock q _ failed with fault | ⟨p, source, code, said, -, -, other⟩
  · cases fault
  · cases other

end Include.Resolver

namespace Environment

variable {files : FileAccess} {clock : Clock} {env left : Environment} {cells cells' : Array Cell} {code : String}

/-! ## §2 — environments without such a failure -/

section

variable {P : Failure → Prop}

/-- **What is reported of an environment** holds failures in `P` only. -/
theorem Genuine.bindingsAfter (h : env.Genuine P cells) (before : Nat) :
    ∀ b ∈ env.bindingsAfter cells before, b.2.Genuine P := by
  show Script.FieldsHold _ _ (env.bindingsAfter cells before)
  apply Script.FieldsHold.ofFields
  intro b mem
  obtain ⟨e, kept, rfl⟩ := List.mem_map.mp mem
  have there : e ∈ env.scope := List.mem_of_mem_take (List.mem_reverse.mp (List.mem_of_mem_filter kept))
  exact h.machine.slotValue (h.scope e there)

theorem Genuine.seed (h : env.Genuine P cells) {bindings : Bindings} (hb : ∀ b ∈ bindings, b.2.Genuine P) :
    (env.seed bindings).Genuine P cells := by
  rw [seed_eq]
  refine ⟨List.forall_mem_append.mpr ⟨fun e mem => ?_, h.scope⟩, h.functions, h.cells⟩
  obtain ⟨b, seeded, rfl⟩ := List.mem_map.mp mem
  exact .own (hb b (List.mem_reverse.mp seeded))

theorem Genuine.seedFunctions (h : env.Genuine P cells) {new : List Function} (hn : ∀ f ∈ new, f.Genuine P) :
    (env.seedFunctions new).Genuine P cells :=
  ⟨h.scope, genuine_combined h.functions hn, h.cells⟩

end

/-- **What is handed over holds failures in `P` only.** -/
def Use.Hands (P : Failure → Prop) : Use → Prop
  | .set _ v => v.Genuine P
  | .seed bindings => ∀ b ∈ bindings, b.2.Genuine P
  | .seedFunctions p _ => ∀ f ∈ p.functions, f.Genuine P
  | .elsewhere cells => Script.CellsGenuine P cells
  | .execute .. | .evaluate .. => True

/-- **A script block that can be read** does not fail for one that cannot, and leaves no such failure. -/
theorem ends_executing (files : FileAccess) (clock : Clock) (h : env.Genuine Failure.NotLoad cells) {s : Script.Program}
    (read : Script.Parser.script code = .ok s) :
    Ends Failure.NotLoad ((env.withInclude.runWith (Include.Resolver.fetchAt files (.ofEnvironment env)) clock s
      (.execution env.name)).run cells).value :=
  (h.withInclude.runWith_answered (Include.Resolver.notLoad_fetchAt files (.ofEnvironment env)) clock
    (Script.Parser.genuine_script read) (.execution env.name)).ends fun _ => nofun

/-- **Of a script that cannot be read** nothing is run. -/
theorem unchanged_of_unread {r : Except Failure Bindings}
    (ran : ((env.executeAt files clock code).run cells).value = ((r, left), cells')) {x : Script.SyntaxError}
    (unread : Script.Parser.script code = .error x) :
    r = .error (.load env.name x.message) ∧ left = env.withInclude ∧ cells' = cells := by
  rcases executeAt_cases ran with ⟨e, read, rfl, rfl, rfl⟩ | ⟨s, q, read, -⟩
  · rw [read] at unread
    obtain rfl := Except.error.inj unread
    exact ⟨rfl, rfl, rfl⟩
  · rw [read] at unread
    cases unread

/-- **Only a script that cannot be read** fails as one, and then nothing is changed. -/
theorem unchanged_of_load (h : env.Genuine Failure.NotLoad cells) {name text : String}
    (ran : ((env.executeAt files clock code).run cells).value = ((.error (.load name text), left), cells')) :
    left = env.withInclude ∧ cells' = cells := by
  rcases executeAt_cases ran with ⟨e, -, -, rfl, rfl⟩ | ⟨s, q, read, run, failed⟩
  · exact ⟨rfl, rfl⟩
  · have ends := ends_executing files clock h read
    rw [run] at ends
    exact absurd rfl (ends.failure _ (error_of_map failed.symm) name text)

/-- **A script block leaves no such failure**, however it ends. -/
theorem Genuine.executeAt (h : env.Genuine Failure.NotLoad cells) {r : Except Failure Bindings}
    (ran : ((env.executeAt files clock code).run cells).value = ((r, left), cells')) :
    left.Genuine Failure.NotLoad cells' := by
  rcases executeAt_cases ran with ⟨e, -, -, rfl, rfl⟩ | ⟨s, q, read, run, -⟩
  · exact h.withInclude
  · have ends := ends_executing files clock h read
    rw [run] at ends
    exact ends.left

/-- **A use leaves an environment without such a failure**, if none is handed over. -/
theorem Use.genuine_after {s : Environment × Array Cell} (h : s.1.Genuine Failure.NotLoad s.2) {u : Use}
    (hands : u.Hands Failure.NotLoad) :
    (u.after files s).1.Genuine Failure.NotLoad (u.after files s).2 := by
  obtain ⟨env, cells⟩ := s
  replace h : env.Genuine Failure.NotLoad cells := h
  cases u with
  | set name v => exact ⟨List.forall_mem_cons.mpr ⟨.own hands, h.scope⟩, h.functions, h.cells⟩
  | seed bindings => exact h.seed hands
  | seedFunctions p _ => exact h.seedFunctions hands
  | execute clock code =>
    unfold after
    dsimp only
    generalize ran : ((env.executeAt files clock code).run cells).value = ended
    exact h.executeAt ran
  | evaluate clock code =>
    have ends := (h.evaluateWith_answered (Include.Resolver.notLoad_fetchAt files (.ofEnvironment env)) clock code).ends
      fun _ => nofun
    dsimp only [after, Environment.evaluateAt]
    exact ends.left
  | elsewhere cells' => exact ⟨h.scope, h.functions, hands⟩

theorem genuine_used {s : Environment × Array Cell} (h : s.1.Genuine Failure.NotLoad s.2) {uses : List Use}
    (hands : ∀ u ∈ uses, u.Hands Failure.NotLoad) :
    (used files s uses).1.Genuine Failure.NotLoad (used files s uses).2 := by
  induction uses generalizing s with
  | nil => exact h
  | cons u uses ih =>
    obtain ⟨first, others⟩ := List.forall_mem_cons.mp hands
    exact ih (u.genuine_after h first) others

/-- An environment starts without failures. -/
theorem IsNew.genuine {P : Failure → Prop} (h : IsNew env) : env.Genuine P #[] := by
  cases h with
  | empty =>
    refine ⟨List.forall_mem_nil _, List.forall_mem_nil _, fun i c none => ?_⟩
    cases none
  | ofFile directory p => exact genuine_ofPath _

/-! ## §3 — what is left -/

/-- **A script block that fails defines no function.** -/
theorem functions_of_failed {e : Failure}
    (ran : ((env.executeAt files clock code).run cells).value = ((.error e, left), cells')) :
    left.functions = env.functions := by
  have functions := functions_executeAt files clock env cells code
  dsimp only [Use.definitions] at functions
  rw [ran] at functions
  refine functions.trans ?_
  cases Script.Parser.script code <;> exact combined_nil env.functions

/-- **What a script block does not declare it does not report.** -/
theorem declared_of_reported {bindings : Bindings}
    (ran : ((env.executeAt files clock code).run cells).value = ((.ok bindings, left), cells')) {name : String}
    (reported : name ∈ bindings.map Prod.fst) : name ∈ declaredNames code := by
  obtain ⟨new, declares⟩ := declares_executeAt ran
  obtain ⟨-, rfl⟩ := executeAt_ok ran
  have added := ((declares.adds.reports cells').names name).mp reported
  exact declares.first.subset (List.mem_reverse.mpr added.1)

/-- **As long as nobody has handed over such a failure**, to be thrown by a script, a script block fails with it only if
it cannot be read itself, and so changes nothing. -/
theorem unchanged_of_load_used {start : Environment} (isNew : IsNew start) {uses : List Use}
    (hands : ∀ u ∈ uses, u.Hands Failure.NotLoad) {name text : String}
    (failed : (((used files (start, #[]) uses).1.executeAt files clock code).run (used files (start, #[]) uses).2).value =
      ((.error (.load name text), left), cells')) :
    left.scope = (used files (start, #[]) uses).1.scope ∧ cells' = (used files (start, #[]) uses).2 := by
  obtain ⟨rfl, rfl⟩ := unchanged_of_load (genuine_used isNew.genuine hands) failed
  exact ⟨rfl, rfl⟩

/-- **What a failed script block may leave.** A failure that is handed over and thrown is that of a script that cannot be
read, and comes after a declaration. And a statement that is never completed has changed a variable by then. -/
theorem failed_execute_leaves :
    let files : FileAccess := ⟨(Files.Memory.ofList []).provider, .extensionTable, .rootDirectory, .stopped⟩
    let handed := used files (Environment.empty, #[]) [.set "x" (.failure (.load "f.md" "broken"))]
    let thrown := ((handed.1.execute files "let b = 2; throw x;").run handed.2).value
    let listed := used files (Environment.empty, #[]) [.set "a" (.array [.int 1])]
    let stopped := ((listed.1.execute files "let y = [a.push(2), 1 / 0];").run listed.2).value
    (thrown.1.1.map (fun _ => ()) = .error (.load "f.md" "broken") ∧ handed.1.contains "b" = false ∧
        thrown.1.2.contains "b" = true) ∧
      stopped.1.1.map (fun _ => ()) =
        .error (.execution "<inline>" "Division by zero: 1 / 0 (line 1, position 23)") ∧
      stopped.1.2.contains "y" = false ∧
      ((listed.1.get? listed.2 "a").map Script.Datum.shown, (stopped.1.2.get? stopped.2 "a").map Script.Datum.shown) =
        (some "[1]", some "[1, 2]") := by
  decide +kernel

/-- **A script block that fails leaves no definitions.** The functions are as before, and of the variables that were
there the names and the order; what these hold may be changed by whatever was run before the failure. What it has
brought into reach is in no report of a later script block, unless this one declares it. If the script could not be read,
it fails for that and everything is as before; and there is no other way to fail so, as long as nobody has handed over
such a failure to be thrown. -/
theorem failed_execute {start : Environment} (isNew : IsNew start) (files : FileAccess) (uses : List Use) :
    let s := used files (start, #[]) uses
    ∀ clock code e left cells', ((s.1.executeAt files clock code).run s.2).value = ((.error e, left), cells') →
      left.functions = s.1.functions ∧
      (∀ x, Script.Parser.script code = .error x →
        e = .load s.1.name x.message ∧ left.scope = s.1.scope ∧ cells' = s.2) ∧
      ((∀ u ∈ uses, u.Hands Failure.NotLoad) → ∀ name text, e = .load name text →
        left.scope = s.1.scope ∧ cells' = s.2) ∧
      ∃ new, Declares (declaredNames code) s.1 left new ∧
        ∀ (later : List Use) clock' code' bindings left' cells'',
          let t := used files (left, cells') later
          ((t.1.executeAt files clock' code').run t.2).value = ((.ok bindings, left'), cells'') →
            ∀ entry ∈ new, entry.name ∉ declaredNames code' → entry.name ∉ bindings.map Prod.fst := by
  intro s clock code e left cells' failed
  obtain ⟨new, declares⟩ := declares_executeAt failed
  refine ⟨functions_of_failed failed, fun x unread => ?_, ?_, new, declares, ?_⟩
  · obtain ⟨load, rfl, rfl⟩ := unchanged_of_unread failed unread
    exact ⟨Except.error.inj load, rfl, rfl⟩
  · rintro hands name text rfl
    exact unchanged_of_load_used isNew hands failed
  · intro later clock' code' bindings left' cells'' t ran entry _ undeclared reported
    exact undeclared (declared_of_reported ran reported)

/-- A script block that throws after it has defined a function, declared a variable and assigned another one; and one
that cannot be read. -/
theorem failed_execute_midway :
    let files : FileAccess := ⟨(Files.Memory.ofList []).provider, .extensionTable, .rootDirectory, .stopped⟩
    let uses : List Use := [.set "a" (.int 1)]
    let s := used files (Environment.empty, #[]) uses
    let midway := "fn f() \x7b 1 \x7d let b = 2; a = 3; throw b;"
    (∀ u ∈ uses, u.Hands Failure.NotLoad) ∧ declaredNames midway = ["b"] ∧
      (∃ e left cells', ((s.1.executeAt files .stopped midway).run s.2).value = ((.error e, left), cells') ∧
        left.functions = s.1.functions ∧ ∃ new, Declares (declaredNames midway) s.1 left new ∧
          ∀ (later : List Use) clock' code' bindings left' cells'',
            let t := used files (left, cells') later
            ((t.1.executeAt files clock' code').run t.2).value = ((.ok bindings, left'), cells'') →
              ∀ entry ∈ new, entry.name ∉ declaredNames code' → entry.name ∉ bindings.map Prod.fst) ∧
      ∃ name text left cells', ((s.1.executeAt files .stopped "let b = 2; let").run s.2).value =
          ((.error (.load name text), left), cells') ∧
        left.scope = s.1.scope ∧ cells' = s.2 := by
  intro files uses s midway
  have hands : ∀ u ∈ uses, u.Hands Failure.NotLoad := List.forall_mem_singleton.mpr (Script.Datum.holds_int 1)
  have declares : declaredNames midway = ["b"] := by decide +kernel
  have throws : ((s.1.executeAt files .stopped midway).run s.2).value.1.1.map (fun _ => ()) =
      .error (.execution "<inline>" "Runtime error: 2 (line 1, position 32)") := by decide +kernel
  have unread : ((s.1.executeAt files .stopped "let b = 2; let").run s.2).value.1.1.map (fun _ => ()) =
      .error (.load "<inline>" "Expecting name of a variable (line 1, position 15)") := by decide +kernel
  have all := failed_execute .empty files uses .stopped
  refine ⟨hands, declares, ?_, ?_⟩
  · obtain ⟨⟨⟨r, left⟩, cells'⟩, ran⟩ : ∃ x, ((s.1.executeAt files .stopped midway).run s.2).value = x := ⟨_, rfl⟩
    rw [ran] at throws
    obtain rfl := error_of_map throws
    obtain ⟨functions, -, -, new⟩ := all midway _ left cells' ran
    exact ⟨_, left, cells', ran, functions, new⟩
  · obtain ⟨⟨⟨r, left⟩, cells'⟩, ran⟩ : ∃ x, ((s.1.executeAt files .stopped "let b = 2; let").run s.2).value = x :=
      ⟨_, rfl⟩
    rw [ran] at unread
    obtain rfl := error_of_map unread
    exact ⟨_, _, left, cells', ran, (all _ _ left cells' ran).2.2.1 hands _ _ rfl⟩

end Environment

end Dialogue
