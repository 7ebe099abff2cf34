import Dialogue.Proofs.Include.Lifting
import Dialogue.Proofs.Script.Genuine.Evaluator
import Dialogue.Proofs.Script.Genuine.Reading
import Dialogue.Proofs.Script.Genuine.Simplify
/-!
# `Dialogue.Proofs.Environment.Genuine` — evaluation makes no failures of includes.

What is evaluated in an environment may fail in words of its own; any other failure was an answer to one of its
requests, now or earlier, and if earlier the environment kept it. So evaluation is carried out together with a list of
the requests it makes. Main statements: an environment that holds failures in `P` only, and whose requests are answered
with failures in `P` only, fails with a failure in `P` and holds no others afterwards.
-/

namespace Dialogue

open Script (Value Entry Cell Function Program CellsGenuine Finishes)
open Include (Request Answer)

/-! ## §1 — requests -/

/-- **A value together with the requests made on the way to it**, oldest first, each with the readings of the clock for
its answer. -/
structure Asked (α : Type) where
  value : α
  requests : List (Clock × Request) := []

namespace Asked

variable {α β : Type}

instance : Monad Asked where
  pure a := ⟨a, []⟩
  bind x f := ⟨(f x.value).value, x.requests ++ (f x.value).requests⟩

/-- Answer a request, and note it. -/
def noting (answer : Clock → Request → Answer) (clock : Clock) (q : Request) : Asked Answer :=
  ⟨answer clock q, [(clock, q)]⟩

/-- The outcome without the requests. -/
instance : MonadLift Asked Id := ⟨Asked.value⟩

instance : LawfulMonadLift Asked Id := ⟨fun _ => rfl, fun _ _ => rfl⟩

/-- **All requests** are answered with failures in `P`, if with any. -/
def Answered (P : Failure → Prop) (answer : Clock → Request → Answer) (x : Asked α) : Prop :=
  ∀ q ∈ x.requests, ∀ e, answer q.1 q.2 = .error e → P e

theorem value_bind (x : Asked α) (f : α → Asked β) : (x >>= f).value = (f x.value).value := rfl

variable {P : Failure → Prop} {answer : Clock → Request → Answer} {x : Asked α} {f : α → Asked β}

theorem Answered.first (h : (x >>= f).Answered P answer) : x.Answered P answer :=
  fun q mem => h q (List.mem_append_left _ mem)

theorem Answered.second (h : (x >>= f).Answered P answer) : (f x.value).Answered P answer :=
  fun q mem => h q (List.mem_append_right _ mem)

/-- **A run that keeps to `P`** ends as it should when its requests are answered. -/
theorem keeps_answering {Q : α → Prop} {x : Script.Run α} (h : x.Keeps P Q) {clock : Clock}
    (answered : (x.answering (noting answer) clock).Answered P answer) :
    Q (x.answering (noting answer) clock).value := by
  induction h generalizing clock with
  | done h => exact h
  | caught _ ih => exact ih answered
  | now _ ih => exact ih clock.reading answered
  | @ask q k _ ih =>
    exact ih (answer clock.first q) (answered.first (clock.first, q) List.mem_cons_self) answered.second

end Asked

/-- The outcome without the questions. -/
instance : MonadLift Logged Id := ⟨Logged.value⟩

instance : LawfulMonadLift Logged Id := ⟨fun _ => rfl, fun _ _ => rfl⟩

namespace Environment

section

/-! Evaluation comes to the same, whether requests are noted or the questions that answering them takes. -/

variable (answer : Clock → Request → Logged Answer) (clock : Clock) (env : Environment) (cells : Array Cell)

theorem value_runWith_noting (s : Program) (describe : String → Failure) :
    ((env.runWith (Asked.noting fun clock q => (answer clock q).value) clock s describe).run cells).value =
      ((env.runWith answer clock s describe).run cells).value :=
  (env.liftM_runWith (n := Id) (Asked.noting fun clock q => (answer clock q).value) clock cells s describe).trans
    (env.liftM_runWith (n := Id) answer clock cells s describe).symm

theorem value_evaluateWith (code : String) :
    ((env.evaluateWith (Asked.noting fun clock q => (answer clock q).value) clock code).run cells).value =
      ((env.evaluateWith answer clock code).run cells).value :=
  (env.liftM_evaluateWith (n := Id) (Asked.noting fun clock q => (answer clock q).value) clock cells code).trans
    (env.liftM_evaluateWith (n := Id) answer clock cells code).symm

theorem value_executeWith (code : String) :
    ((env.executeWith (Asked.noting fun clock q => (answer clock q).value) clock code).run cells).value =
      ((env.executeWith answer clock code).run cells).value :=
  (env.liftM_executeWith (n := Id) (Asked.noting fun clock q => (answer clock q).value) clock cells code).trans
    (env.liftM_executeWith (n := Id) answer clock cells code).symm

theorem value_expand (segments : List Segment) :
    (Include.Resolver.expand (Asked.noting fun clock q => (answer clock q).value) clock env cells segments).value =
      (Include.Resolver.expand answer clock env cells segments).value :=
  (Include.Resolver.liftM_expand (n := Id) (Asked.noting fun clock q => (answer clock q).value) clock env cells
    segments).trans
    (Include.Resolver.liftM_expand (n := Id) answer clock env cells segments).symm

end

variable {P : Failure → Prop} {env : Environment} {cells : Array Cell}

/-! ## §2 — environments -/

/-- **An environment that holds failures in `P` only**, cells included. -/
structure Genuine (P : Failure → Prop) (env : Environment) (cells : Array Cell) : Prop where
  scope : ∀ e ∈ env.scope, e.slot.Genuine P
  functions : ∀ f ∈ env.functions, f.Genuine P
  cells : CellsGenuine P cells

/-- The environment of a file starts without failures. -/
theorem genuine_ofPath (p : Path) : (ofPath p).Genuine P #[] := by
  have constant (name : String) (q : Path) : (Entry.mk name true (.own (.str q.toString))).slot.Genuine P :=
    .own (Script.Datum.holds_str _)
  refine ⟨List.forall_mem_append.mpr ⟨fun e mem => ?_, ?_⟩, List.forall_mem_nil _, fun i c none => ?_⟩
  · obtain ⟨dir, -, rfl⟩ := Option.map_eq_some_iff.mp (Option.mem_toList.mp mem)
    exact constant dirConstant dir
  · exact List.forall_mem_singleton.mpr (constant fileConstant p)
  · cases none

/-- So does that of a file being included. -/
theorem genuine_child (p : Path) (stack : Include.Stack) : (child p stack).Genuine P #[] :=
  have start := genuine_ofPath p
  ⟨start.scope, start.functions, start.cells⟩

theorem Genuine.machine (h : env.Genuine P cells) : (env.machine cells).Genuine P :=
  ⟨h.scope, h.cells, nofun⟩

theorem Genuine.withInclude (h : env.Genuine P cells) : env.withInclude.Genuine P cells :=
  ⟨h.scope, h.functions, h.cells⟩

theorem genuine_combined {fs new : List Function} (h : ∀ f ∈ fs, f.Genuine P) (hn : ∀ f ∈ new, f.Genuine P) :
    ∀ f ∈ combined fs new, f.Genuine P :=
  List.forall_mem_append.mpr ⟨fun f mem => h f (List.mem_of_mem_filter mem), hn⟩

/-- What is known before a script runs. -/
theorem Genuine.known (h : env.Genuine P cells) : Script.Simplify.Known.Genuine P (env.known cells) := by
  intro name v found
  obtain ⟨s, seen, found⟩ := Option.bind_eq_some_iff.mp found
  split at found
  · exact Script.Datum.genuine_toConstant? (h.machine.find? seen) found
  · cases found

/-! ## §3 — evaluation -/

/-- **Failures in an environment's own words** are in `P`. -/
structure Admits (P : Failure → Prop) : Prop where
  load : ∀ name text, P (.load name text)
  execution : ∀ name text, P (.execution name text)
  evaluation : ∀ name code text, P (.evaluation name code text)

/-- **How an evaluation ends:** with a failure in `P` if with any, and in an environment that holds no others. -/
structure Ends (P : Failure → Prop) {α : Type} (r : Outcome α × Array Cell) : Prop where
  failure : ∀ e, r.1.1 = .error e → P e
  left : r.1.2.Genuine P r.2

/-- **A failure in `P`, or one that the words of the script describe.** -/
def OrSaid (P : Failure → Prop) (describe : String → Failure) (e : Failure) : Prop := P e ∨ ∃ text, e = describe text

/-- **How an evaluation ends that may fail in words of its own:** these are not kept. -/
structure EndsSaying (P : Failure → Prop) (describe : String → Failure) {α : Type} (r : Outcome α × Array Cell) :
    Prop where
  failure : ∀ e, r.1.1 = .error e → OrSaid P describe e
  left : r.1.2.Genuine P r.2

/-- Words of its own may be in `P`. -/
theorem EndsSaying.ends {describe : String → Failure} {α : Type} {r : Outcome α × Array Cell}
    (h : EndsSaying P describe r) (hd : ∀ text, P (describe text)) : Ends P r := by
  refine ⟨fun e failed => ?_, h.left⟩
  rcases h.failure e failed with there | ⟨text, rfl⟩
  · exact there
  · exact hd text

/-- The failure that a genuine fault is. -/
theorem said_failureOf {f : Script.Fault} (h : f.Genuine P) (describe : String → Failure) :
    OrSaid P describe (failureOf f describe) := by
  unfold failureOf
  cases carried : f.failure? with
  | none => exact .inr ⟨_, rfl⟩
  | some e => exact .inl (h.failure? carried)

/-- What fails with the outcome changed failed before. -/
theorem error_of_map {α β : Type} {f : α → β} {r : Except Failure α} {e : Failure} (h : r.map f = .error e) :
    r = .error e := by
  cases r with
  | error e' => exact congrArg _ (Except.error.inj h)
  | ok a => cases h

/-- The outcome may be changed where it is no failure. -/
theorem Ends.map {α β : Type} {r : Outcome α × Array Cell} (h : Ends P r) (f : α → β) :
    Ends P ((r.1.1.map f, r.1.2), r.2) :=
  ⟨fun e failed => h.failure e (error_of_map failed), h.left⟩

section

variable {answer : Clock → Request → Answer} {clock : Clock}

/-- **Running a script** keeps to `P`, but for words of its own. -/
theorem Genuine.runWith_saying (h : env.Genuine P cells) {s : Program} (hs : s.Genuine P) {describe : String → Failure}
    (answered : ((env.runWith (Asked.noting answer) clock s describe).run cells).Answered P answer) :
    EndsSaying P describe ((env.runWith (Asked.noting answer) clock s describe).run cells).value := by
  have simple := Script.Simplify.genuine_script h.known hs
  have context : Script.Context.Genuine P
      { functions := combined env.functions (Script.Simplify.script (env.known cells) s).functions } :=
    genuine_combined h.functions simple.functions
  have kept := Asked.keeps_answering (Program.keeps_run simple.statements context h.machine) answered.first
  unfold Environment.runWith StateT.run
  dsimp only
  rw [Asked.value_bind]
  generalize Asked.value (Script.Run.answering _ _ _) = ended at kept
  obtain ⟨r, m⟩ := ended
  obtain ⟨outcome, machine⟩ := kept
  cases r with
  | error f =>
    refine ⟨fun e same => ?_, machine.scope, h.functions, machine.cells⟩
    obtain rfl : failureOf f describe = e := Except.error.inj same
    exact said_failureOf outcome describe
  | ok v => exact ⟨nofun, machine.scope, genuine_combined h.functions simple.functions, machine.cells⟩

/-- **Running a script** keeps to `P`. -/
theorem Genuine.runWith (h : env.Genuine P cells) {s : Program} (hs : s.Genuine P) {describe : String → Failure}
    (hd : ∀ text, P (describe text))
    (answered : ((env.runWith (Asked.noting answer) clock s describe).run cells).Answered P answer) :
    Ends P ((env.runWith (Asked.noting answer) clock s describe).run cells).value :=
  (h.runWith_saying hs answered).ends hd

/-- **Evaluating an expression** keeps to `P`, but for words on this expression. -/
theorem Genuine.evaluateWith_saying (h : env.Genuine P cells) {code : String}
    (answered : ((env.evaluateWith (Asked.noting answer) clock code).run cells).Answered P answer) :
    EndsSaying P (.evaluation env.name (Text.trimmed code))
      ((env.evaluateWith (Asked.noting answer) clock code).run cells).value := by
  unfold Environment.evaluateWith at answered ⊢
  dsimp only at answered ⊢
  split at answered
  · refine ⟨fun e same => ?_, h.withInclude⟩
    obtain rfl := Except.error.inj same
    exact .inr ⟨_, rfl⟩
  · rename_i read
    exact h.withInclude.runWith_saying (Script.Parser.genuine_singleExpression read) answered

/-- **Evaluating an expression** keeps to `P`. -/
theorem Genuine.evaluateWith (h : env.Genuine P cells) (own : ∀ name code text, P (.evaluation name code text))
    {code : String} (answered : ((env.evaluateWith (Asked.noting answer) clock code).run cells).Answered P answer) :
    Ends P ((env.evaluateWith (Asked.noting answer) clock code).run cells).value :=
  (h.evaluateWith_saying answered).ends (own _ _)

/-- **Running a script block** keeps to `P`. -/
theorem Genuine.executeWith (h : env.Genuine P cells) (own : Admits P) {code : String}
    (answered : ((env.executeWith (Asked.noting answer) clock code).run cells).Answered P answer) :
    Ends P ((env.executeWith (Asked.noting answer) clock code).run cells).value := by
  unfold Environment.executeWith at answered ⊢
  dsimp only at answered ⊢
  split at answered
  · refine ⟨fun e same => ?_, h.withInclude⟩
    obtain rfl := Except.error.inj same
    exact own.load _ _
  · rename_i read
    rw [StateT.run_bind] at answered ⊢
    have ends := h.withInclude.runWith (Script.Parser.genuine_script read) (own.execution _) answered.first
    rw [Asked.value_bind]
    generalize Asked.value ((Environment.runWith _ _ env.withInclude _ _).run cells) = ended at ends
    exact ends.map _

/-- **Expanding a template** keeps to `P`. -/
theorem Genuine.expand (h : env.Genuine P cells) (own : ∀ name code text, P (.evaluation name code text))
    {segments : List Segment}
    (answered : (Include.Resolver.expand (Asked.noting answer) clock env cells segments).Answered P answer) {e : Failure}
    (failed : (Include.Resolver.expand (Asked.noting answer) clock env cells segments).value = .error e) : P e := by
  induction segments generalizing clock env cells with
  | nil => cases failed
  | cons segment rest ih =>
    cases segment with
    | text t =>
      unfold Include.Resolver.expand at answered failed
      rw [Asked.value_bind] at failed
      exact ih h answered.first (error_of_map failed)
    | expression code =>
      unfold Include.Resolver.expand at answered failed
      have ends := h.evaluateWith own answered.first
      have later := answered.second
      rw [Asked.value_bind] at failed
      generalize Asked.value ((Environment.evaluateWith _ _ env _).run cells) = ended at ends later failed
      obtain ⟨⟨r, left⟩, cells'⟩ := ended
      -- what the expression caught and kept goes on in the environment that it leaves
      cases r with
      | error e' =>
        obtain rfl := Except.error.inj failed
        exact ends.failure _ rfl
      | ok v =>
        dsimp only at later failed
        rw [Asked.value_bind] at failed
        exact ih ends.left later.first (error_of_map failed)

end

section

/-! The questions that answering takes do not matter, as long as all answers keep to `P`. -/

variable {answer : Clock → Request → Logged Answer}

/-- **Running a script** keeps to `P`, but for words of its own, if all answers do. -/
theorem Genuine.runWith_answered (h : env.Genuine P cells)
    (answered : ∀ clock q e, (answer clock q).value = .error e → P e)
    (clock : Clock) {s : Program} (hs : s.Genuine P) (describe : String → Failure) :
    EndsSaying P describe ((env.runWith answer clock s describe).run cells).value := by
  have ends : EndsSaying P describe
      ((env.runWith (Asked.noting fun clock q => (answer clock q).value) clock s describe).run cells).value :=
    h.runWith_saying hs fun q _ => answered q.1 q.2
  rwa [value_runWith_noting] at ends

/-- **Evaluating an expression** keeps to `P`, but for words on this expression, if all answers do. -/
theorem Genuine.evaluateWith_answered (h : env.Genuine P cells)
    (answered : ∀ clock q e, (answer clock q).value = .error e → P e) (clock : Clock) (code : String) :
    EndsSaying P (.evaluation env.name (Text.trimmed code)) ((env.evaluateWith answer clock code).run cells).value := by
  have ends : EndsSaying P (.evaluation env.name (Text.trimmed code))
      ((env.evaluateWith (Asked.noting fun clock q => (answer clock q).value) clock code).run cells).value :=
    h.evaluateWith_saying fun q _ => answered q.1 q.2
  rwa [value_evaluateWith] at ends

end

end Environment

end Dialogue
