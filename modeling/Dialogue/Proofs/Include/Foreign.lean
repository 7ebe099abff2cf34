import Dialogue.Proofs.Include.Report
/-!
# `Dialogue.Proofs.Include.Foreign` — where the failures of includes come from.

A failure passes through includes unchanged. So what an include fails with is a fault of an include, here or further
inside, or it is what was said of an expression that stands in the text of some file. Main statements: each failure of
an include is one of these, and an expression that is evaluated with files at hand fails with one of these or in words
of its own, which name it; and with files in memory, no include runs out of the depth that is provided for.
-/

namespace Dialogue

open Script (Cell)
open Include (Request Answer)

namespace Include

/-- **What is said of an expression in the text of a file.** -/
def SaidOfText (files : FileAccess) (e : Failure) : Prop :=
  ∃ p source code text, files.provider.readText p = .ok source ∧
    Segment.expression code ∈ Segment.ofTemplate source.toList ∧
    e = .evaluation p.toString (Text.trimmed (String.ofList code)) text

/-- **A failure that comes from includes:** one of them is at fault, or an expression in the text of a file. -/
def Foreign (files : FileAccess) (e : Failure) : Prop := e.isIncludeFault = true ∨ SaidOfText files e

/-- **All failures that come from includes** are in `P`. A cycle has a file in its chain. -/
structure Admits (files : FileAccess) (P : Failure → Prop) : Prop where
  missing : ∀ path, P (.fileNotFound path)
  untyped : ∀ path, P (.mimeUndetermined path)
  unread : ∀ path text, P (.readFailure path text)
  cycle : ∀ chain, chain ≠ [] → P (.circularInclude chain)
  said : ∀ e, SaidOfText files e → P e

theorem admits_foreign (files : FileAccess) : Admits files (Foreign files) :=
  ⟨fun _ => .inl rfl, fun _ => .inl rfl, fun _ _ => .inl rfl, fun _ _ => .inl rfl, fun _ => .inr⟩

end Include

namespace Environment

variable {P : Failure → Prop} {env : Environment} {cells : Array Cell} {answer : Clock → Request → Logged Answer}

/-- **Expanding a template** keeps to `P`, if all answers do and what is said of its expressions is in `P`. -/
theorem Genuine.expand_answered (h : env.Genuine P cells)
    (answered : ∀ clock q e, (answer clock q).value = .error e → P e) {clock : Clock} {segments : List Segment}
    (own : ∀ code, .expression code ∈ segments →
      ∀ text, P (.evaluation env.name (Text.trimmed (String.ofList code)) text))
    {e : Failure} (failed : (Include.Resolver.expand answer clock env cells segments).value = .error e) : P e := by
  induction segments generalizing clock env cells with
  | nil => cases failed
  | cons segment rest ih =>
    have later := fun code mem => own code (List.mem_cons_of_mem segment mem)
    cases segment with
    | text t =>
      unfold Include.Resolver.expand at failed
      exact ih h later (error_of_map failed)
    | expression code =>
      have ends := (h.evaluateWith_answered answered clock.first (String.ofList code)).ends (own code List.mem_cons_self)
      have moved := env.later_evaluateWith answer clock.first (String.ofList code) cells
      unfold Include.Resolver.expand at failed
      rw [Logged.value_bind] at failed
      generalize Logged.value ((Environment.evaluateWith _ _ env _).run cells) = ended at ends moved failed
      obtain ⟨⟨r, left⟩, cells'⟩ := ended
      cases r with
      | error e' =>
        obtain rfl := Except.error.inj failed
        exact ends.failure _ rfl
      | ok v =>
        -- the rest is expanded in an environment that is called the same
        exact ih ends.left (moved.name ▸ later) (error_of_map failed)

end Environment

namespace Include.Resolver

variable {files : FileAccess} {P : Failure → Prop}

/-- **Including a text** fails for one of its expressions, or as the includes in it do. -/
theorem admitted_text (own : Admits files P) {clock : Clock} {r : Resolver} {p : Path}
    {deeper : Resolver → Clock → Request → Logged Answer}
    (inner : ∀ r clock q e, (deeper r clock q).value = .error e → P e) {e : Failure}
    (failed : (text files clock r p deeper).value = .error e) : P e := by
  rw [text_eq] at failed
  split at failed
  · obtain rfl := Except.error.inj failed
    exact own.cycle _ (by simp [Stack.chainWith])
  · split at failed
    · rename_i unread
      obtain rfl := Except.error.inj failed
      obtain ⟨text, rfl⟩ := error_of_orFailure unread
      exact own.unread _ _
    · rename_i source read
      have said : ∀ code, .expression code ∈ Segment.ofTemplate source.toList →
          ∀ text, P (.evaluation p.toString (Text.trimmed (String.ofList code)) text) :=
        fun code mem text => own.said _ ⟨p, source, code, text, eq_of_orFailure_ok read, mem, rfl⟩
      exact (Environment.genuine_child p _).expand_answered (inner _) said (Environment.error_of_map failed)

/-- **What an include fails with** comes from includes, however often they are unfolded, if the failures of those that
are nested too deep do. -/
theorem admitted_unfolded (own : Admits files P) {deepest : Resolver → Clock → Request → Logged Answer}
    (deep : ∀ r clock q e, (deepest r clock q).value = .error e → P e) (times : Nat) (r : Resolver) (clock : Clock)
    (q : Request) (e : Failure) (failed : (unfolded files deepest times r clock q).value = .error e) : P e := by
  induction times generalizing r clock q e with
  | zero => exact deep r clock q e failed
  | succ times ih =>
    have once : (once files (unfolded files deepest times) r clock q).value = .error e := failed
    rw [once_eq] at once
    split at once
    · dsimp only at once
      split at once
      · rcases error_of_binary once with rfl | ⟨text, rfl⟩
        · exact own.untyped _
        · exact own.unread _ _
      · exact admitted_text own ih once
    · obtain rfl := Except.error.inj once
      exact own.missing _

/-- **What an include fails with** comes from includes. -/
theorem foreign_fetchAt (files : FileAccess) (r : Resolver) (clock : Clock) (q : Request) (e : Failure)
    (failed : (fetchAt files r clock q).value = .error e) : Foreign files e := by
  have unfolding : fetchAt files r clock q = unfolded files (fetchWithin files 0) (maxDepth files) r clock q := by
    rw [← fetchWithin_eq_unfolded]
    rfl
  rw [unfolding] at failed
  refine admitted_unfolded (admits_foreign files) (fun r clock q e spent => ?_) _ r clock q e failed
  obtain rfl := Except.error.inj spent
  exact .inl rfl

/-- **The depth that is provided for is enough**, wherever the files in memory are included from. -/
theorem fetchAt_ne_exhausted (m : Files.Memory) (detector : Media.Detector) (directory : Path) (clock : Clock)
    (r : Resolver) (now : Clock) (q : Request) :
    (fetchAt ⟨m.provider, detector, directory, clock⟩ r now q).value ≠ .error exhausted := by
  intro failed
  -- whatever answers the includes that are nested too deep does not matter
  rw [← unfolded_eq_fetchAt fun _ _ _ => ⟨.error (.fileNotFound ""), []⟩] at failed
  have admits : Admits ⟨m.provider, detector, directory, clock⟩ (· ≠ exhausted) := by
    refine ⟨fun _ => nofun, fun _ => nofun, fun _ _ => nofun, fun chain long same => ?_, ?_⟩
    · exact long (Failure.circularInclude.inj same)
    · rintro _ ⟨p, source, code, text, -, -, rfl⟩
      exact nofun
  refine admitted_unfolded admits (fun r now q e missing => ?_) _ r now q _ failed rfl
  obtain rfl := Except.error.inj missing
  exact nofun

end Include.Resolver

namespace Environment

variable {files : FileAccess} {env left : Environment} {cells cells' : Array Cell}

/-- **Evaluating an expression** with files at hand fails with what comes from includes, now or earlier, or in words
that name it. -/
theorem Genuine.evaluateAt_foreign (h : env.Genuine (Include.Foreign files) cells) (clock : Clock) (code : String) :
    EndsSaying (Include.Foreign files) (.evaluation env.name (Text.trimmed code))
      ((env.evaluateAt files clock code).run cells).value :=
  h.evaluateWith_answered (Include.Resolver.foreign_fetchAt files (.ofEnvironment env)) clock code

/-- **A script block** with files at hand leaves what comes from includes only, however it ends. -/
theorem Genuine.executeAt_foreign (h : env.Genuine (Include.Foreign files) cells) {clock : Clock} {code : String}
    {r : Except Failure Bindings} (ran : ((env.executeAt files clock code).run cells).value = ((r, left), cells')) :
    left.Genuine (Include.Foreign files) cells' := by
  rcases executeAt_cases ran with ⟨e, -, -, rfl, rfl⟩ | ⟨s, q, read, run, -⟩
  · exact h.withInclude
  · have ends := h.withInclude.runWith_answered (Include.Resolver.foreign_fetchAt files (.ofEnvironment env)) clock
      (Script.Parser.genuine_script read) (.execution env.name)
    rw [run] at ends
    exact ends.left

end Environment

end Dialogue
