import Dialogue.Proofs.Include.Lifting
/-!
# `Dialogue.Proofs.Include.Trace` — what was read while what was being included.

A log of questions does not tell which text include a question belongs to. A trace does: it is a tree, and each text
include is a node with the questions about its own file first and, below it, all that its expressions did. Main
statement: evaluation with traces yields what evaluation yields, and asks the same questions in the same order.
-/

namespace Dialogue.Include

open Script (Value Cell Run)

/-- **What happens during an evaluation.** -/
inductive Event
  /-- A question that belongs to no text include. -/
  | access (a : Access)
  /-- An attempt to include the text at `path`, made where paths are seen from `dir`: the questions about the file, what
  the expressions in it did, and the answer. -/
  | text (dir : Option Path) (path : Path) (asked : List Access) (inside : List Event) (answer : Answer)

mutual

/-- The questions of an event, in order. -/
def Event.accesses : Event → List Access
  | .access a => [a]
  | .text _ _ asked inside _ => asked ++ accessesOf inside

/-- The questions of events, in order. -/
def accessesOf : List Event → List Access
  | [] => []
  | e :: es => e.accesses ++ accessesOf es

end

theorem accessesOf_append (es fs : List Event) : accessesOf (es ++ fs) = accessesOf es ++ accessesOf fs := by
  induction es with
  | nil => rfl
  | cons e es ih =>
    simp only [List.cons_append, accessesOf, ih, List.append_assoc]

theorem accessesOf_map_access (as : List Access) : accessesOf (as.map .access) = as := by
  induction as with
  | nil => rfl
  | cons a as ih =>
    rw [List.map_cons, accessesOf, ih]
    rfl

/-- **A value together with what happened on the way to it**, oldest first. -/
structure Traced (α : Type) where
  value : α
  events : List Event := []

namespace Traced

variable {α β : Type}

instance : Monad Traced where
  pure a := ⟨a, []⟩
  bind x f := ⟨(f x.value).value, x.events ++ (f x.value).events⟩

/-- **The log of a trace.** -/
def log (x : Traced α) : Logged α := ⟨x.value, accessesOf x.events⟩

/-- Questions that belong to no text include. -/
def ofLogged (x : Logged α) : Traced α := ⟨x.value, x.accesses.map .access⟩

theorem log_bind (x : Traced α) (f : α → Traced β) : (x >>= f).log = x.log >>= fun a => (f a).log := by
  show (⟨_, accessesOf (x.events ++ (f x.value).events)⟩ : Logged β) = _
  rw [accessesOf_append]
  rfl

theorem log_ofLogged (x : Logged α) : (ofLogged x).log = x :=
  congrArg (Logged.mk x.value) (accessesOf_map_access x.accesses)

/-! ## §1 — evaluation with traces -/

/-- The outcome of a trace is taken over with its log. -/
instance : MonadLift Traced Logged := ⟨log⟩

instance : LawfulMonadLift Traced Logged := ⟨fun _ => rfl, log_bind⟩

variable (answer : Clock → Request → Traced Answer) (clock : Clock) (env : Environment) (cells : Array Cell)

theorem log_evaluateWith (code : String) :
    ((env.evaluateWith answer clock code).run cells).log =
      (env.evaluateWith (fun clock q => (answer clock q).log) clock code).run cells :=
  Environment.liftM_evaluateWith (n := Logged) answer clock env cells code

theorem log_expand (segments : List Segment) :
    (Resolver.expand answer clock env cells segments).log =
      Resolver.expand (fun clock q => (answer clock q).log) clock env cells segments :=
  Resolver.liftM_expand (n := Logged) answer clock env cells segments

/-! ## §2 — where events come from -/

/-- **All events of a trace** have a property. -/
def All (P : Event → Prop) (x : Traced α) : Prop := ∀ e ∈ x.events, P e

variable {P : Event → Prop}

theorem All.pure (a : α) : All P (Pure.pure a) := fun _ mem => absurd mem List.not_mem_nil

theorem All.bind {x : Traced α} {f : α → Traced β} (hx : All P x) (hf : ∀ a, All P (f a)) : All P (x >>= f) := by
  intro e mem
  rcases List.mem_append.mp mem with first | later
  · exact hx e first
  · exact hf x.value e later

variable {answer : Clock → Request → Traced Answer} (h : ∀ clock q, All P (answer clock q))

include h

theorem all_answering (x : Run α) (clock : Clock) : All P (x.answering answer clock) := by
  induction x generalizing clock with
  | done a => exact .pure a
  | ask q k ih => exact (h _ q).bind fun r => ih r clock.rest
  | now k ih => exact ih clock.reading clock.rest
  | caught e x ih => exact ih clock

theorem all_evaluateWith (clock : Clock) (env : Environment) (cells : Array Cell) (code : String) :
    All P ((env.evaluateWith answer clock code).run cells) := by
  unfold Environment.evaluateWith
  dsimp only
  split
  · exact .pure _
  · unfold Environment.runWith StateT.run
    dsimp only
    refine (all_answering h _ clock).bind fun r => ?_
    obtain ⟨r, m⟩ := r
    cases r <;> exact .pure _

/-- **All that happens while a template is expanded** happens as a request is answered. -/
theorem all_expand (clock : Clock) (env : Environment) (cells : Array Cell) (segments : List Segment) :
    All P (Resolver.expand answer clock env cells segments) := by
  induction segments generalizing clock env cells with
  | nil => exact .pure _
  | cons segment rest ih =>
    cases segment with
    | text t => exact (ih clock env cells).bind fun _ => .pure _
    | expression code =>
      refine (all_evaluateWith h _ env cells _).bind fun r => ?_
      obtain ⟨⟨r, env'⟩, cells'⟩ := r
      cases r with
      | error e => exact .pure _
      | ok v => exact (ih _ env' cells').bind fun _ => .pure _

end Traced

namespace Resolver

/-! ## §3 — includes with traces -/

/-- **Include a text, with a trace:** one event, which holds all that the include does. -/
def textTraced (files : FileAccess) (clock : Clock) (r : Resolver) (p : Path)
    (answer : Resolver → Clock → Request → Traced Answer) : Traced Answer :=
  if files.provider.isReadable p then
    if r.stack.contains p then
      let refused : Answer := .error (.circularInclude (r.stack.chainWith p))
      ⟨refused, [.text r.dir p [.isReadable p] [] refused]⟩
    else match orFailure p (files.provider.readText p) with
      | .error e => ⟨.error e, [.text r.dir p [.isReadable p, .readText p] [] (.error e)]⟩
      | .ok source =>
        let env := Environment.child p (r.stack.extended p)
        let children := expand (answer (ofEnvironment env)) clock env #[] (Segment.ofTemplate source.toList)
        let included : Answer := children.value.map .composite
        ⟨included, [.text r.dir p [.isReadable p, .readText p] children.events included]⟩
  else
    let missing : Answer := .error (.fileNotFound p.toString)
    ⟨missing, [.text r.dir p [.isReadable p] [] missing]⟩

/-- **Include a file, with a trace.** -/
def fetchTraced (files : FileAccess) : (depth : Nat) → Resolver → Clock → Request → Traced Answer
  | 0, _, _, _ => return .error exhausted
  | depth + 1, r, clock, q =>
    if q.options.binary then .ofLogged (fetchWithin files (depth + 1) r clock q)
    else textTraced files clock r (r.target q.path) (fetchTraced files depth)

variable (files : FileAccess)

theorem isReadable_bind {α : Type} (p : Path) (f : Bool → Logged α) :
    (files.isReadable p >>= f) = ⟨(f (files.provider.isReadable p)).value,
      .isReadable p :: (f (files.provider.isReadable p)).accesses⟩ := rfl

theorem readText_bind {α : Type} (p : Path) (f : Except ReadError String → Logged α) :
    (files.readText p >>= f) = ⟨(f (files.provider.readText p)).value,
      .readText p :: (f (files.provider.readText p)).accesses⟩ := rfl

theorem log_node {α : Type} (a : α) (dir : Option Path) (p : Path) (asked : List Access) (inside : List Event)
    (answer : Answer) : (⟨a, [.text dir p asked inside answer]⟩ : Traced α).log = ⟨a, asked ++ accessesOf inside⟩ :=
  congrArg (Logged.mk a) (List.append_nil _)

/-- **A text include is one event:** the file is missing, or the stack knows it, or its text is read. Only in the
last case does anything happen inside, and that is what is included in the text. -/
theorem all_textTraced {P Q : Event → Prop} {files : FileAccess} {clock : Clock} {r : Resolver} {p : Path}
    {answer : Resolver → Clock → Request → Traced Answer}
    (missing : files.provider.isReadable p = false →
      P (.text r.dir p [.isReadable p] [] (.error (.fileNotFound p.toString))))
    (known : files.provider.isReadable p = true → r.stack.contains p = true →
      P (.text r.dir p [.isReadable p] [] (.error (.circularInclude (r.stack.chainWith p)))))
    (below : files.provider.isReadable p = true → r.stack.contains p = false →
      ∀ clock q, (answer (.ofEnvironment (.child p (r.stack.extended p))) clock q).All Q)
    (read : files.provider.isReadable p = true → r.stack.contains p = false → ∀ inside a, (∀ e ∈ inside, Q e) →
      P (.text r.dir p [.isReadable p, .readText p] inside a)) :
    (textTraced files clock r p answer).All P := by
  unfold textTraced
  split
  · rename_i readable
    split
    · rename_i again
      exact List.forall_mem_singleton.mpr (known readable again)
    · rename_i unknown
      have fresh := Bool.eq_false_iff.mpr unknown
      split
      · exact List.forall_mem_singleton.mpr (read readable fresh _ _ (List.forall_mem_nil _))
      · refine List.forall_mem_singleton.mpr (read readable fresh _ _ ?_)
        exact Traced.all_expand (below readable fresh) _ _ _ _
  · rename_i unreadable
    exact List.forall_mem_singleton.mpr (missing (Bool.eq_false_iff.mpr unreadable))

/-- **A text include** logs the question whether the file is readable, and then what including the text does. -/
theorem log_textTraced (clock : Clock) (r : Resolver) (p : Path)
    (answer : Resolver → Clock → Request → Traced Answer) :
    (textTraced files clock r p answer).log =
      if files.provider.isReadable p then
        ⟨(text files clock r p fun r clock q => (answer r clock q).log).value,
          .isReadable p :: (text files clock r p fun r clock q => (answer r clock q).log).accesses⟩
      else ⟨.error (.fileNotFound p.toString), [.isReadable p]⟩ := by
  unfold textTraced text
  split
  · split
    · rfl
    · rw [readText_bind]
      generalize orFailure p (files.provider.readText p) = read
      cases read with
      | error e => rfl
      | ok source =>
        dsimp only
        rw [log_node, ← Traced.log_expand]
        generalize (expand _ clock _ #[] (Segment.ofTemplate source.toList) : Traced _) = children
        show _ = (⟨_, .isReadable p :: .readText p :: (accessesOf children.events ++ [])⟩ : Logged Answer)
        rw [List.append_nil]
        rfl
  · rfl

/-- **Including with a trace** is including. -/
theorem log_fetchTraced (depth : Nat) (r : Resolver) (clock : Clock) (q : Request) :
    (fetchTraced files depth r clock q).log = fetchWithin files depth r clock q := by
  induction depth generalizing r clock q with
  | zero => rfl
  | succ depth ih =>
    unfold fetchTraced
    split
    · exact Traced.log_ofLogged _
    · rename_i isText
      -- what is included in the text is included one level deeper, with traces or without
      have same : (fun r clock q => (fetchTraced files depth r clock q).log) = fetchWithin files depth :=
        funext fun r => funext fun clock => funext fun q => ih r clock q
      rw [log_textTraced, same]
      unfold fetchWithin
      dsimp only
      rw [isReadable_bind]
      cases files.provider.isReadable (r.target q.path) with
      | false => rfl
      | true =>
        rw [if_pos rfl]
        show _ = (⟨(if q.options.binary then _ else _ : Logged Answer).value,
          _ :: (if q.options.binary then _ else _ : Logged Answer).accesses⟩ : Logged Answer)
        rw [if_neg isText]

end Resolver

/-- **Evaluate an expression, with a trace.** -/
def traced (files : FileAccess) (env : Environment) (code : String) :
    StateT (Array Cell) Traced (Environment.Outcome Value) :=
  env.evaluateWith (Resolver.fetchTraced files (Resolver.maxDepth files) (.ofEnvironment env)) files.clock code

/-- **Evaluating with a trace** is evaluating. -/
theorem log_traced (files : FileAccess) (env : Environment) (code : String) (cells : Array Cell) :
    ((traced files env code).run cells).log = (env.evaluate files code).run cells := by
  unfold traced
  rw [Traced.log_evaluateWith]
  have same : (fun clock q =>
      (Resolver.fetchTraced files (Resolver.maxDepth files) (.ofEnvironment env) clock q).log) =
      Resolver.fetchAt files (.ofEnvironment env) :=
    funext fun clock => funext fun q => Resolver.log_fetchTraced files _ _ clock q
  rw [same]
  rfl

end Dialogue.Include
