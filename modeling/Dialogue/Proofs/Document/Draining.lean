import Dialogue.Document
import Dialogue.Proofs.Emission
/-!
# `Dialogue.Proofs.Document.Draining` — what a message comes to, piece by piece.

All expressions of a message emit into one builder, and after each of them the parts that are new are taken over, told
by a running count. Main statement: that count is always right, so a message comes to what its pieces come to, each
taken on its own and once.
-/

namespace Dialogue.Document

open Script (Value Cell)

/-! ## §1 — pieces on their own -/

/-- One piece after another. -/
def Gathered.append (g h : Gathered) : Gathered :=
  ⟨g.parts ++ h.parts, g.warnings ++ h.warnings, g.diagnostics ++ h.diagnostics⟩

theorem Gathered.empty_append (g : Gathered) : Gathered.append {} g = g := rfl

theorem Gathered.append_empty (g : Gathered) : g.append {} = g := by
  simp [append]

theorem Gathered.append_assoc (g h k : Gathered) : (g.append h).append k = g.append (h.append k) := by
  simp [append]

theorem Gathered.append_append (g h : Gathered) : (g.append h).append = g.append ∘ h.append :=
  funext fun k => append_assoc g h k

/-- **What the value of an expression adds to a message.** -/
def emitted (file : String) (position : Position) (v : Value) : Gathered :=
  let parts := (({ position := some position } : Emission).emit (Environment.emittable v)).parts
  { parts := parts.map Part.ofEmitted
    diagnostics := parts.filterMap (unsupported? file) }

/-- **The pieces of a message**, up to the first failure. Each expression has readings of the clock of its own. -/
def gather (files : FileAccess) (s : Setting) (m : Message) (clock : Clock) (env : Environment) :
    List (List Char × Segment) → Work (Except Failure Gathered)
  | [] => return .ok {}
  | (_, .text t) :: rest => do
    let g ← literal files s m.role (String.ofList t)
    return (← gather files s m clock env rest).map g.append
  | (before, .expression code) :: rest => do
    let position := m.documentPosition before
    let (r, env) ← env.evaluateAt files clock.first (String.ofList code)
    match r with
    | .error e =>
      return .error (.expression s.file (String.ofList (Text.trim code)) position e)
    | .ok v => return (← gather files s m clock.rest env rest).map (emitted s.file position v).append

/-! ## §2 — the builder of a message -/

namespace Progress

/-- **Everything was taken over** from a builder that keeps reports. -/
structure Settled (g : Progress) : Prop where
  seen : g.seen = g.builder.parts.length
  keeps : ∃ reports, g.builder.diagnostics = some reports

theorem settled_start : Settled {} := ⟨rfl, [], rfl⟩

variable {g : Progress} {file : String} {position : Position}

/-- **Literal text** adds what was read. -/
theorem said_gathered {read : Gathered} (none : read.diagnostics = []) :
    (g.said read).gathered = g.gathered.append read := by
  unfold gathered said Gathered.append
  rw [none, List.append_nil]

theorem Settled.said (h : g.Settled) (read : Gathered) : (g.said read).Settled := ⟨h.seen, h.keeps⟩

/-- Reports are recorded one after another, and nothing else of the builder changes. -/
theorem record_reports {b : Emission} {recorded : List Diagnostic} (keeps : b.diagnostics = some recorded)
    (reports : List Diagnostic) :
    reports.foldl (fun b d => (b.pushDiagnostic d).1) b = { b with diagnostics := some (recorded ++ reports) } := by
  induction reports generalizing b recorded with
  | nil =>
    rw [List.append_nil, ← keeps]
    rfl
  | cons d reports ih =>
    have pushed : (b.pushDiagnostic d).1 = { b with diagnostics := some (recorded ++ [d]) } := by
      unfold Emission.pushDiagnostic
      rw [keeps]
    rw [List.foldl_cons, pushed, ih rfl, List.append_assoc]
    rfl

/-- **The value of an expression** adds what it adds on its own, and is taken over. -/
theorem Settled.shown (h : g.Settled) (v : Value) :
    (g.shown file position v).Settled ∧
      (g.shown file position v).gathered = g.gathered.append (emitted file position v) := by
  obtain ⟨reports, keeps⟩ := h.keeps
  let fresh := (Environment.emittable v).leaves.map (Emitted.ofLeaf (some position))
  have own : (({ position := some position } : Emission).emit (Environment.emittable v)).parts = fresh := by
    rw [Emission.emit_eq]
    rfl
  -- the builder has the parts of the earlier expressions, all of them seen, and then those of this one
  have grown : { g.builder with position := some position }.emit (Environment.emittable v) =
      { g.builder with position := some position, parts := g.builder.parts ++ fresh } := Emission.emit_eq _ _
  have drained : g.shown file position v =
      { g with
        parts := g.parts ++ fresh.map Part.ofEmitted
        builder := ⟨g.builder.parts ++ fresh, some position, some (reports ++ fresh.filterMap (unsupported? file))⟩
        seen := (g.builder.parts ++ fresh).length } := by
    unfold Progress.shown Progress.drained
    rw [grown]
    dsimp only
    rw [h.seen, List.drop_left]
    have recorded := record_reports (b := ⟨g.builder.parts ++ fresh, some position, g.builder.diagnostics⟩) keeps
    rw [recorded]
  rw [drained]
  refine ⟨⟨rfl, _, rfl⟩, ?_⟩
  have before : g.builder.recorded = reports := by
    unfold Emission.recorded
    rw [keeps]
    rfl
  unfold gathered Gathered.append emitted
  rw [own, before]
  simp [Emission.recorded]

end Progress

/-! ## §3 — messages -/

/-- Work after other work goes on from what that yields and from the cells that it leaves. -/
theorem Work.run_bind {α β : Type} (x : Work α) (f : α → Work β) (cells : Array Cell) :
    (x >>= f).run cells = x.run cells >>= fun r => (f r.1).run r.2 := rfl

/-- What is read without cells leaves the cells alone. -/
theorem Work.run_lift {α : Type} (x : Logged α) (cells : Array Cell) :
    (liftM x : Work α).run cells = ⟨(x.value, cells), x.accesses⟩ := by
  show (⟨_, x.accesses ++ []⟩ : Logged _) = _
  rw [List.append_nil]
  rfl

/-- **What work comes to after other work**, which asked for `asked` and which `add` adds to it. -/
def following {α : Type} (add : α → α) (asked : List Access) (later : Logged (Except Failure α × Array Cell)) :
    Logged (Except Failure α × Array Cell) :=
  ⟨(later.value.1.map add, later.value.2), asked ++ later.accesses⟩

theorem following_id {α : Type} (later : Logged (Except Failure α × Array Cell)) :
    following id [] later = later := by
  unfold following
  rw [Except.map_id]
  rfl

theorem following_following {α : Type} (add add' : α → α) (asked asked' : List Access)
    (later : Logged (Except Failure α × Array Cell)) :
    following add asked (following add' asked' later) = following (add ∘ add') (asked ++ asked') later := by
  unfold following
  rw [List.append_assoc]
  obtain ⟨⟨r, cells⟩, accesses⟩ := later
  cases r <;> rfl

/-- Work whose result is added to goes before nothing else. -/
theorem run_following {α : Type} (add : α → α) (w : Work (Except Failure α)) (cells : Array Cell) :
    (do return (← w).map add : Work (Except Failure α)).run cells = following add [] (w.run cells) := by
  rw [Work.run_bind]
  show (⟨_, (w.run cells).accesses ++ []⟩ : Logged _) = _
  rw [List.append_nil]
  rfl

/-- Literal text reports nothing. -/
theorem diagnostics_literal {files : FileAccess} {s : Setting} (role : Role) (text : String) :
    (literal files s role text).value.diagnostics = [] := by
  cases role <;> rfl

section Run

variable {files : FileAccess} {s : Setting} {m : Message} {clock : Clock} {env env₁ : Environment}
  {before text code : List Char} {rest : List (List Char × Segment)} {cells cells₁ : Array Cell} {asked : List Access}

/-- **Literal text** is read, and the pieces after it follow. -/
theorem gather_text : (gather files s m clock env ((before, .text text) :: rest)).run cells =
    following (literal files s m.role (String.ofList text)).value.append
      (literal files s m.role (String.ofList text)).accesses ((gather files s m clock env rest).run cells) := by
  rw [gather.eq_def]
  dsimp only
  rw [Work.run_bind, Work.run_lift, Logged.mk_bind]
  dsimp only
  rw [run_following]
  rfl

/-- **An expression that fails** ends the message, and nothing after it is looked at. -/
theorem gather_error {e : Dialogue.Failure}
    (h : (env.evaluateAt files clock.first (String.ofList code)).run cells = ⟨((.error e, env₁), cells₁), asked⟩) :
    (gather files s m clock env ((before, .expression code) :: rest)).run cells =
      ⟨(.error (.expression s.file (String.ofList (Text.trim code)) (m.documentPosition before) e), cells₁), asked⟩ := by
  rw [gather.eq_def]
  dsimp only
  rw [Work.run_bind, h, Logged.mk_bind]
  show (⟨_, asked ++ []⟩ : Logged _) = _
  rw [List.append_nil]
  rfl

/-- **An expression with a value** adds what it emits, and the pieces after it follow. -/
theorem gather_ok {v : Value}
    (h : (env.evaluateAt files clock.first (String.ofList code)).run cells = ⟨((.ok v, env₁), cells₁), asked⟩) :
    (gather files s m clock env ((before, .expression code) :: rest)).run cells =
      following (emitted s.file (m.documentPosition before) v).append asked
        ((gather files s m clock.rest env₁ rest).run cells₁) := by
  rw [gather.eq_def]
  dsimp only
  rw [Work.run_bind, h, Logged.mk_bind]
  dsimp only
  rw [run_following]
  rfl

/-- **The running count is always right:** what a message has come to is followed by what the pieces come to on their
own. -/
theorem run_collect {g : Progress} (h : g.Settled) (pieces : List (List Char × Segment)) :
    (collect files s m clock env g pieces).run cells =
      following g.gathered.append [] ((gather files s m clock env pieces).run cells) := by
  induction pieces generalizing clock env g cells with
  | nil =>
    have none : g.gathered.append {} = g.gathered := Gathered.append_empty _
    show (⟨(Except.ok g.gathered, cells), []⟩ : Logged (Except Failure Gathered × Array Cell)) =
      ⟨(.ok (g.gathered.append {}), cells), []⟩
    rw [none]
  | cons piece rest ih =>
    rw [collect.eq_def]
    dsimp only
    obtain ⟨before, text | code⟩ := piece
    · have adds : (g.said (literal files s m.role (String.ofList text)).value).gathered.append = _ :=
        congrArg Gathered.append (Progress.said_gathered (diagnostics_literal m.role (String.ofList text)))
      rw [gather_text, following_following, ← Gathered.append_append, ← adds]
      dsimp only
      rw [Work.run_bind, Work.run_lift, Logged.mk_bind]
      dsimp only
      rw [ih (h.said _)]
      rfl
    · dsimp only
      rw [Work.run_bind]
      rcases evaluated : (env.evaluateAt files clock.first (String.ofList code)).run cells with
        ⟨⟨⟨r, env₁⟩, cells₁⟩, asked⟩
      rw [Logged.mk_bind]
      dsimp only
      cases r with
      | error e =>
        rw [gather_error evaluated]
        show (⟨_, asked ++ []⟩ : Logged _) = _
        rw [List.append_nil]
        rfl
      | ok v =>
        obtain ⟨settled, adds⟩ := h.shown v
        rw [gather_ok evaluated, following_following, ← Gathered.append_append, ← adds]
        dsimp only
        rw [ih settled]
        rfl

end Run

/-- **A message comes to what its pieces come to on their own**, each of them once. -/
theorem message_eq (files : FileAccess) (s : Setting) (clock : Clock) (m : Message) : message files s clock m =
    match m.role with
    | .assistant => return .ok { parts := if m.content.isEmpty then [] else [.text m.content] }
    | _ => gather files s m clock (s.environment files) (Segment.located [] (Segment.ofTemplate m.content.toList)) := by
  have own : collect files s m clock (s.environment files) {}
      (Segment.located [] (Segment.ofTemplate m.content.toList)) =
      gather files s m clock (s.environment files) (Segment.located [] (Segment.ofTemplate m.content.toList)) := by
    funext cells
    have start : (({} : Progress).gathered.append : Gathered → Gathered) = id := funext Gathered.empty_append
    refine (run_collect Progress.settled_start _).trans ?_
    rw [start, following_id]
    rfl
  unfold message
  cases m.role with
  | assistant => rfl
  | system => exact own
  | you => exact own

end Dialogue.Document
