import Dialogue.Proofs.Include.Passage
/-!
# `Dialogue.Proofs.Include.Independence` — what an include owes to the stack.

Nothing of the stack shows in an include but cycles. Two includes of one file, one under a stack and one under a part of
it, do the same step by step until the first reports a cycle that is none for the second; a report that nobody deals
with ends the first. Main statement: an include that does not end with a cycle ends in the same way under every part of
its stack, after the same questions.
-/

namespace Dialogue

open Script (Value Cell Fault Machine Program)

/-- Is the failure a cycle? -/
def Failure.isCycle : Failure → Bool
  | circularInclude _ => true
  | _ => false

theorem Failure.isCycle_iff {e : Failure} : e.isCycle = true ↔ ∃ chain, e = .circularInclude chain := by
  cases e <;> simp [isCycle]

/-! ## §1 — computations that differ in cycles only -/

/-- The failure that a result is. -/
abbrev Fails {α : Type} (r : Except Failure α) (e : Failure) : Prop := r = .error e

/-- **The same, or ended by a cycle.** `ends` says which failure a result ends with. -/
def Logged.OrCycle {α : Type} (ends : α → Failure → Prop) (x' x : Logged α) : Prop :=
  x' = x ∨ ∃ e, e.isCycle = true ∧ ends x.value e

namespace Logged

variable {α β : Type} {ends : α → Failure → Prop} {ends' : β → Failure → Prop} {x' x : Logged α}

/-- Questions asked before make no difference. -/
theorem OrCycle.after (h : OrCycle ends x' x) (asked : List Access) :
    OrCycle ends ⟨x'.value, asked ++ x'.accesses⟩ ⟨x.value, asked ++ x.accesses⟩ := by
  rcases h with rfl | ended
  · exact .inl rfl
  · exact .inr ended

/-- **One computation after another.** The second counts only if the first does not end with a cycle. -/
theorem OrCycle.bind (h : OrCycle ends x' x) {f' f : α → Logged β}
    (next : (∀ e, e.isCycle = true → ¬ ends x.value e) → OrCycle ends' (f' x.value) (f x.value))
    (through : ∀ e, e.isCycle = true → ends x.value e → ends' (f x.value).value e) :
    OrCycle ends' (x' >>= f') (x >>= f) := by
  by_cases cycle : ∃ e, e.isCycle = true ∧ ends x.value e
  · obtain ⟨e, cycle, ended⟩ := cycle
    exact .inr ⟨e, cycle, through e cycle ended⟩
  · obtain rfl := h.resolve_right cycle
    exact (next fun e isCycle ended => cycle ⟨e, isCycle, ended⟩).after x'.accesses

/-- A change to what goes right. -/
theorem OrCycle.map {x' x : Logged (Except Failure α)} (h : OrCycle Fails x' x) (f : α → β) :
    OrCycle Fails (x' >>= fun r => pure (r.map f)) (x >>= fun r => pure (r.map f)) := by
  refine h.bind (fun _ => .inl rfl) fun e _ failed => ?_
  rw [failed]
  rfl

end Logged

/-! ## §2 — runs -/

namespace Script.Run

variable {α : Type}

/-- **Does the run deal with no cycle**, and ask for nothing but what is `fine`? Requests are answered by `answer`. -/
def heeds (answer : Clock → Include.Request → Logged Include.Answer) (fine : Clock → Include.Request → Bool) :
    Run α → Clock → Bool
  | .done _, _ => true
  | .ask q k, clock => fine clock.first q && (k (answer clock.first q).value).heeds answer fine clock.rest
  | .now k, clock => (k clock.reading).heeds answer fine clock.rest
  | .caught e x, clock => !e.isCycle && x.heeds answer fine clock

variable {answer answer' : Clock → Include.Request → Logged Include.Answer} {fine : Clock → Include.Request → Bool}
  {clock : Clock}

/-- A cycle that is on its way out ends the run, if the run deals with none. -/
theorem Raises.answering {holds : α → Failure → Prop} {e : Failure} {x : Run α} (h : x.Raises holds e)
    (cycle : e.isCycle = true) (kept : x.heeds answer fine clock = true) :
    holds (x.answering answer clock).value e := by
  cases x with
  | done a => exact h
  | ask | now => cases h
  | caught f x =>
    obtain rfl : f = e := h
    obtain ⟨other, -⟩ := (Bool.and_eq_true _ _).mp kept
    rw [cycle] at other
    cases other

/-- **Answers that differ in cycles only** make no difference, or the run ends with a cycle. -/
theorem Passes.answering_orCycle {holds : α → Failure → Prop} {x : Run α} (h : x.Passes holds)
    (kept : x.heeds answer fine clock = true)
    (agree : ∀ now q, fine now q = true → Logged.OrCycle Fails (answer' now q) (answer now q)) :
    Logged.OrCycle holds (x.answering answer' clock) (x.answering answer clock) := by
  induction h generalizing clock with
  | done => exact .inl rfl
  | now _ ih => exact ih clock.reading kept
  | caught _ ih =>
    obtain ⟨-, rest⟩ := (Bool.and_eq_true _ _).mp kept
    exact ih rest
  | @ask q k raised _ ih =>
    obtain ⟨asked, rest⟩ := (Bool.and_eq_true _ _).mp kept
    refine (agree clock.first q asked).bind (fun _ => ih _ rest) fun e cycle failed => ?_
    rw [failed] at rest ⊢
    exact (raised e).answering cycle rest

end Script.Run

/-! ## §3 — evaluations -/

namespace Environment

/-- The environment with another stack. -/
def on (env : Environment) (stack : Include.Stack) : Environment := { env with stack := some stack }

/-- What an evaluation comes to, its environment having another stack. -/
def moved {α : Type} (stack : Include.Stack) (x : Logged (Outcome α × Array Cell)) : Logged (Outcome α × Array Cell) :=
  ⟨((x.value.1.1, x.value.1.2.on stack), x.value.2), x.accesses⟩

theorem outcome_moved {α : Type} (stack : Include.Stack) (x : Logged (Outcome α × Array Cell)) :
    (moved stack x).value.1.1 = x.value.1.1 := rfl

/-- **Does the evaluation deal with no cycle**, and ask for nothing but what is `fine`? -/
def heeds (answer : Clock → Include.Request → Logged Include.Answer) (fine : Clock → Include.Request → Bool)
    (clock : Clock) (env : Environment) (cells : Array Cell) (code : String) : Bool :=
  match Script.Parser.singleExpression (Text.trimmed code) with
  | .error _ => true
  | .ok s => (env.withInclude.running cells s).heeds answer fine clock

variable {answer answer' : Clock → Include.Request → Logged Include.Answer} {fine : Clock → Include.Request → Bool}
  {clock : Clock} {env : Environment} {cells : Array Cell}

/-- A script does not see the stack. -/
theorem runWith_on (stack : Include.Stack) {s : Program} (describe : String → Failure)
    (same : (env.running cells s).answering answer' clock = (env.running cells s).answering answer clock) :
    ((env.on stack).runWith answer' clock s describe).run cells =
      moved stack ((env.runWith answer clock s describe).run cells) := by
  show ((env.running cells s).answering answer' clock >>= _) =
    moved stack ((env.running cells s).answering answer clock >>= _)
  rw [same]
  generalize (env.running cells s).answering answer clock = ended
  obtain ⟨⟨r, m⟩, asked⟩ := ended
  cases r <;> rfl

/-- **An evaluation under another stack** comes to the same, or ends with a cycle. -/
theorem evaluateWith_on (stack : Include.Stack) {code : String} (kept : heeds answer fine clock env cells code = true)
    (agree : ∀ now q, fine now q = true → Logged.OrCycle Fails (answer' now q) (answer now q)) :
    Logged.OrCycle (fun o => Fails o.1.1) (((env.on stack).evaluateWith answer' clock code).run cells)
      (moved stack ((env.evaluateWith answer clock code).run cells)) := by
  unfold heeds at kept
  cases read : Script.Parser.singleExpression (Text.trimmed code) with
  | error x =>
    left
    unfold evaluateWith
    dsimp only
    rw [read]
    rfl
  | ok s =>
    rw [read] at kept
    rw [evaluateWith_of_ok _ _ _ read, evaluateWith_of_ok _ _ _ read]
    have ended : Logged.OrCycle _ ((env.withInclude.running cells s).answering answer' clock)
        ((env.withInclude.running cells s).answering answer clock) :=
      (Program.passes_run _ _ _).answering_orCycle kept agree
    rcases ended with same | ⟨e, cycle, f, fault, carried⟩
    · have place : (env.on stack).withInclude = env.withInclude.on stack := rfl
      have name : (env.on stack).name = env.name := rfl
      rw [place, name]
      exact .inl (runWith_on stack _ same)
    · have failed := runWith_of_fault answer clock env.withInclude cells fault carried
        (.evaluation env.name (Text.trimmed code))
      refine .inr ⟨e, cycle, ?_⟩
      rw [← outcome_moved stack] at failed
      exact failed

end Environment

namespace Include

/-! ## §4 — includes -/

/-- **A stack is part of another** when all its entries are on the other. -/
def Stack.PartOf (s' s : Stack) : Prop := ∀ p ∈ s'.paths, s.contains p = true

namespace Stack

variable {s' s : Stack}

/-- What is not on a stack is on no part of it. -/
theorem PartOf.fresh (h : s'.PartOf s) {p : Path} (fresh : s.contains p = false) : s'.contains p = false := by
  by_contra known
  obtain ⟨o, mem, same⟩ := contains_iff.mp (Bool.not_eq_false _ ▸ known)
  obtain ⟨o', mem', same'⟩ := contains_iff.mp (h o mem)
  have there : s.contains p = true := contains_iff.mpr ⟨o', mem', same'.trans same⟩
  rw [fresh] at there
  cases there

theorem PartOf.extended (h : s'.PartOf s) (p : Path) : (s'.extended p).PartOf (s.extended p) := by
  intro o mem
  rcases List.mem_append.mp mem with before | last
  · obtain ⟨o', mem', same⟩ := contains_iff.mp (h o before)
    exact contains_iff.mpr ⟨o', List.mem_append_left _ mem', same⟩
  · exact contains_iff.mpr ⟨o, List.mem_append_right _ last, rfl⟩

end Stack

variable {answer answer' : Clock → Request → Logged Answer} {fine : Clock → Request → Bool} {clock : Clock}

/-- **Do the expressions of a template deal with no cycle**, and ask for nothing but what is `fine`? -/
def templateHeeds (answer : Clock → Request → Logged Answer) (fine : Clock → Request → Bool) (clock : Clock)
    (env : Environment) (cells : Array Cell) : List Segment → Bool
  | [] => true
  | .text _ :: rest => templateHeeds answer fine clock env cells rest
  | .expression code :: rest =>
    Environment.heeds answer fine clock.first env cells (String.ofList code) &&
      match ((env.evaluateWith answer clock.first (String.ofList code)).run cells).value with
      | ((.ok _, env), cells) => templateHeeds answer fine clock.rest env cells rest
      | _ => true

/-- **A template under another stack** is expanded to the same, or ends with a cycle. -/
theorem expand_on (stack : Stack) {env : Environment} {cells : Array Cell} {segments : List Segment}
    (kept : templateHeeds answer fine clock env cells segments = true)
    (agree : ∀ now q, fine now q = true → Logged.OrCycle Fails (answer' now q) (answer now q)) :
    Logged.OrCycle Fails (Resolver.expand answer' clock (env.on stack) cells segments)
      (Resolver.expand answer clock env cells segments) := by
  induction segments generalizing clock env cells with
  | nil => exact .inl rfl
  | cons segment rest ih =>
    cases segment with
    | text t =>
      unfold Resolver.expand
      exact (ih kept).map _
    | expression code =>
      obtain ⟨first, later⟩ := (Bool.and_eq_true _ _).mp kept
      unfold Resolver.expand
      rcases Environment.evaluateWith_on stack first agree with same | ⟨e, cycle, failed⟩
      · rw [same]
        generalize (env.evaluateWith answer clock.first (String.ofList code)).run cells = evaluated at later ⊢
        obtain ⟨⟨⟨r, env₁⟩, cells₁⟩, asked⟩ := evaluated
        cases r with
        | error e => exact .inl rfl
        | ok v => exact ((ih later).map _).after asked
      · right
        refine ⟨e, cycle, ?_⟩
        rw [Environment.outcome_moved] at failed
        rw [Logged.value_bind]
        generalize ((env.evaluateWith answer clock.first (String.ofList code)).run cells).value = outcome at failed ⊢
        obtain ⟨⟨r, env₁⟩, cells₁⟩ := outcome
        obtain rfl : r = .error e := failed
        rfl

namespace Resolver

/-- **Does no evaluation in an include deal with a cycle?** Texts are nested at most `depth` deep. -/
def heedsWithin (files : FileAccess) : (depth : Nat) → Resolver → Clock → Request → Bool
  | 0, _, _, _ => true
  | depth + 1, r, clock, q =>
    let p := r.target q.path
    q.options.binary || r.stack.contains p ||
      match files.provider.readText p with
      | .error _ => true
      | .ok source =>
        templateHeeds (fetchWithin files depth (r.inside p)) (heedsWithin files depth (r.inside p)) clock
          (.child p (r.stack.extended p)) #[] (Segment.ofTemplate source.toList)

/-- **Does no evaluation in an include deal with a cycle**, neither in the text nor in the texts included in it? -/
def heeds (files : FileAccess) (r : Resolver) (clock : Clock) (q : Request) : Bool :=
  heedsWithin files (maxDepth files) r clock q

variable {files : FileAccess} {r : Resolver} {stack : Stack}

/-- **A text under a part of the stack** is included with the same result, or the include ends with a cycle. -/
theorem text_on {p : Path} {deeper : Resolver → Clock → Request → Logged Answer}
    (kept : r.stack.contains p = false → ∀ source, files.provider.readText p = .ok source →
      templateHeeds (deeper (r.inside p)) fine clock (.child p (r.stack.extended p)) #[]
        (Segment.ofTemplate source.toList) = true)
    (part : stack.PartOf r.stack)
    (agree : ∀ now q, fine now q = true →
      Logged.OrCycle Fails (deeper ⟨(r.inside p).dir, stack.extended p⟩ now q) (deeper (r.inside p) now q)) :
    Logged.OrCycle Fails (text files clock ⟨r.dir, stack⟩ p deeper) (text files clock r p deeper) := by
  unfold text
  cases known : r.stack.contains p with
  | true => exact .inr ⟨_, rfl, rfl⟩
  | false =>
    have unknown : (⟨r.dir, stack⟩ : Resolver).stack.contains p = false := part.fresh known
    rw [unknown]
    simp only [Bool.false_eq_true, if_false]
    -- whether the text can be read is asked under both stacks alike
    refine Logged.OrCycle.after ?_ _
    dsimp only [FileAccess.readText, Logged.ask]
    cases read : files.provider.readText p with
    | error e => exact .inl rfl
    | ok source =>
      have children := expand_on (stack.extended p) (kept known source read) agree
      exact children.map _

/-- **Under a part of the stack, an include comes to the same**, or it ends with a cycle. -/
theorem fetchWithin_on {depth : Nat} {q : Request} (kept : heedsWithin files depth r clock q = true)
    (part : stack.PartOf r.stack) :
    Logged.OrCycle Fails (fetchWithin files depth ⟨r.dir, stack⟩ clock q) (fetchWithin files depth r clock q) := by
  induction depth generalizing r stack clock q with
  | zero => exact .inl rfl
  | succ depth ih =>
    show Logged.OrCycle Fails (once files _ ⟨r.dir, stack⟩ clock q) (once files _ r clock q)
    have target : (⟨r.dir, stack⟩ : Resolver).target q.path = r.target q.path := rfl
    unfold heedsWithin at kept
    dsimp only at kept
    rw [once_eq, once_eq, target]
    generalize r.target q.path = p at kept ⊢
    split
    · refine Logged.OrCycle.after ?_ [_]
      split
      · exact .inl rfl
      · rename_i isText
        refine text_on (fun fresh source read => ?_) part
          fun now q (asked : heedsWithin files depth (r.inside p) now q) => ?_
        · rw [read, fresh] at kept
          simpa [isText] using kept
        · exact ih asked (part.extended p)
    · exact .inl rfl

/-- The order of a sort deals with a cycle, and what it asks for is no longer the same then. -/
example :
    let m : Files.Memory := .ofList [
      (.ofString "/a.md", Text.Utf8.encode "\x7b\x7b [1, 2].sort(|x, y| include(\"main.md\")) \x7d\x7d"),
      (.ofString "/main.md", Text.Utf8.encode "text")]
    let files : FileAccess := ⟨m.provider, .extensionTable, .rootDirectory, .stopped⟩
    let under (s : Stack) : Resolver := ⟨some .rootDirectory, s⟩
    let main : Stack := ⟨[.ofString "/main.md"]⟩
    (heeds files (under main) .stopped ⟨"a.md", {}⟩ = false ∧ (fetch files (under main) ⟨"a.md", {}⟩).value.isOk = true) ∧
      (fetch files (under {}) ⟨"a.md", {}⟩).accesses ≠ (fetch files (under main) ⟨"a.md", {}⟩).accesses := by
  decide +kernel

end Resolver

end Include

end Dialogue
