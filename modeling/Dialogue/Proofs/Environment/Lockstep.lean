import Dialogue.Include.Resolver
import Dialogue.Proofs.Script.Parametric
/-!
# `Dialogue.Proofs.Environment.Lockstep` — evaluation in environments in step.

Two environments of one file are in step when their variables are, one by one. Evaluating the same code in both,
on shared cells with a gap in them, reads the same files in the same order, fails in the same words or yields linked
values, and leaves environments and cells in step. An answer to an include holds no cells, and what a value emits
does not show any; so nothing that leaves an environment tells on which cells it was computed.
-/

namespace Dialogue

open Script (Value Entry Cell Function Shift CellsLinked ScopesLinked Datum.Linked FieldsLinked ExceptRel)

variable {α β α' β' : Type} {σ : Shift} {w w₁ : Nat}

/-! ## §1 — work on shared cells -/

/-- **Work that uses files and shared cells.** -/
abbrev CellWork := StateT (Array Cell) Logged

/-- **What work in step leaves:** the same questions asked, related values, and cells with the gap in them. -/
structure CellWork.After (σ : Shift) (size : Nat) (A : Nat → α → β → Prop)
    (r : Logged (α × Array Cell)) (r' : Logged (β × Array Cell)) : Prop where
  accesses : r'.accesses = r.accesses
  grown : size ≤ r.value.2.size
  value : A r.value.2.size r.value.1 r'.value.1
  cells : CellsLinked σ r.value.2 r'.value.2

/-- **Work in step**, from `w` cells on. -/
def CellWork.Linked (σ : Shift) (w : Nat) (A : Nat → α → β → Prop) (x : CellWork α) (y : CellWork β) : Prop :=
  ∀ cs ds, w ≤ cs.size → CellsLinked σ cs ds → After σ cs.size A (x.run cs) (y.run ds)

namespace CellWork

variable {A : Nat → α → β → Prop} {B : Nat → α' → β' → Prop}

theorem Linked.from {x : CellWork α} {y : CellWork β} (h : Linked σ w A x y) (hw : w ≤ w₁) :
    Linked σ w₁ A x y :=
  fun cs ds hc => h cs ds (Nat.le_trans hw hc)

theorem Linked.pure {a : α} {b : β} (h : ∀ w₁, w ≤ w₁ → A w₁ a b) :
    Linked σ w A (Pure.pure a) (Pure.pure b) :=
  fun _ _ hw hc => ⟨rfl, Nat.le_refl _, h _ hw, hc⟩

/-- **One piece of work after another.** The second may use what is linked by then. -/
theorem Linked.bind {x : CellWork α} {y : CellWork β} (h : Linked σ w A x y) {f : α → CellWork α'}
    {g : β → CellWork β'} (hf : ∀ w₁, w ≤ w₁ → ∀ a b, A w₁ a b → Linked σ w₁ B (f a) (g b)) :
    Linked σ w B (x >>= f) (y >>= g) := by
  intro cs ds hw hc
  have first := h cs ds hw hc
  have second := hf _ (Nat.le_trans hw first.grown) _ _ first.value _ _ (Nat.le_refl _) first.cells
  refine ⟨?_, Nat.le_trans first.grown second.grown, second.value, second.cells⟩
  show (y.run ds).accesses ++ _ = (x.run cs).accesses ++ _
  rw [first.accesses]
  exact congrArg _ second.accesses

/-- Work that leaves the cells alone. -/
theorem Linked.lift {A : Nat → α → α → Prop} (x : Logged α) (h : ∀ w₁, w ≤ w₁ → A w₁ x.value x.value) :
    Linked σ w A (liftM x) (liftM x) :=
  fun _ _ hw hc => ⟨rfl, Nat.le_refl _, h _ hw, hc⟩

end CellWork

/-! ## §2 — answered runs -/

/-- **Answering runs that ask the same** reads the same files. -/
theorem Script.Run.Linked.answering {P : α → β → Prop} {x : Script.Run α} {y : Script.Run β}
    (h : Script.Run.Linked P x y) (answer : Clock → Include.Request → Logged Include.Answer) (clock : Clock) :
    (y.answering answer clock).accesses = (x.answering answer clock).accesses ∧
      P (x.answering answer clock).value (y.answering answer clock).value := by
  induction h generalizing clock with
  | done h => exact ⟨rfl, h⟩
  | ask q _ ih =>
    obtain ⟨accesses, value⟩ := ih (answer clock.first q).value clock.rest
    refine ⟨?_, value⟩
    show (answer clock.first q).accesses ++ _ = (answer clock.first q).accesses ++ _
    rw [accesses]
  | now _ ih => exact ih clock.reading clock.rest
  | caught e _ ih => exact ih clock

namespace Environment

/-! ## §3 — environments in step -/

/-- **Environments in step:** of one file, with the same functions, and variables that are linked one by one, perhaps
with more below them in the second. -/
structure Linked (σ : Shift) (w : Nat) (env env' : Environment) : Prop where
  file : env'.file = env.file
  dir : env'.dir = env.dir
  functions : env'.functions = env.functions
  stack : env'.stack = env.stack
  scope : ScopesLinked σ w env.scope env'.scope

variable {env env' : Environment}

theorem Linked.grow (h : env.Linked σ w env') (hw : w ≤ w₁) : env.Linked σ w₁ env' :=
  ⟨h.file, h.dir, h.functions, h.stack, h.scope.grow hw⟩

theorem Linked.withInclude (h : env.Linked σ w env') : env.withInclude.Linked σ w env'.withInclude := by
  refine ⟨h.file, h.dir, h.functions, ?_, h.scope⟩
  simp only [Environment.withInclude, includes, h.stack, h.file]

theorem Linked.seedFunctions (h : env.Linked σ w env') (new : List Function) :
    (env.seedFunctions new).Linked σ w (env'.seedFunctions new) := by
  refine ⟨h.file, h.dir, ?_, h.stack, h.scope⟩
  simp only [Environment.seedFunctions, h.functions]

theorem Linked.set (h : env.Linked σ w env') (name : String) {v v' : Value} (hv : v.Linked (σ.Rel w) v') :
    (env.set name v).Linked σ w (env'.set name v') :=
  ⟨h.file, h.dir, h.functions, h.stack, h.scope.cons ⟨rfl, rfl, .own hv⟩⟩

/-- Linked bindings make environments in step. -/
theorem Linked.seed (h : env.Linked σ w env') {bs bs' : Bindings} (hb : FieldsLinked (σ.Rel w) bs bs') :
    (env.seed bs).Linked σ w (env'.seed bs') := by
  unfold Environment.seed
  induction hb generalizing env env' with
  | nil => exact h
  | @cons b b' _ _ hbb _ ih =>
    obtain ⟨name, value⟩ := b
    obtain ⟨name', value'⟩ := b'
    obtain ⟨rfl : name = name', hv⟩ := hbb
    exact ih (h.set name hv)

theorem Linked.name (h : env.Linked σ w env') : env'.name = env.name := by
  simp only [Environment.name, h.file]

theorem Linked.count (h : env.Linked σ w env') : env'.count = env.count + σ.below := h.scope.length

theorem Linked.resolver (h : env.Linked σ w env') :
    Include.Resolver.ofEnvironment env' = Include.Resolver.ofEnvironment env := by
  simp only [Include.Resolver.ofEnvironment, includes, h.dir, h.stack, h.file]

section Cells

variable {cs ds : Array Cell}

theorem Linked.machine (h : env.Linked σ cs.size env') (hc : CellsLinked σ cs ds) :
    Script.Machine.Linked σ (env.machine cs) (env'.machine ds) :=
  ⟨h.scope, hc, .none⟩

/-- What is known of constants does not depend on the numbers of cells. -/
theorem Linked.known (h : env.Linked σ cs.size env') (hc : CellsLinked σ cs ds) :
    env'.known ds = env.known cs := by
  funext name
  unfold Environment.known
  obtain ⟨hx, hy⟩ | ⟨s, t, hx, hy, found⟩ := Script.rel_cases ((h.machine hc).find? name)
  · rw [hx, hy]
  · rw [hx, hy]
    simp only [Option.bind_some, found.constant, found.value.toConstant?]

/-- **The variables a script added** are linked one by one. -/
theorem Linked.bindingsAfter (h : env.Linked σ cs.size env') (hc : CellsLinked σ cs ds) (before : Nat) :
    FieldsLinked (σ.Rel cs.size) (env.bindingsAfter cs before) (env'.bindingsAfter ds (before + σ.below)) := by
  have machine := h.machine hc
  have new := List.rel_reverse (h.scope.take (Nat.sub_le env.count before))
  unfold Environment.bindingsAfter
  rw [h.count, Nat.add_sub_add_right]
  refine FieldsLinked.ofFields ?_
  generalize (env.scope.take (env.count - before)).reverse = es,
    (env'.scope.take (env.count - before)).reverse = es' at new
  induction new with
  | nil => exact .nil
  | cons he _ ih =>
    -- which variables count depends on their names
    simp only [List.filter_cons, he.name]
    split
    · exact .cons ⟨he.name.symm, machine.slotValue he.slot⟩ ih
    · exact ih

end Cells

/-- A linked fault is the same failure. -/
theorem failureOf_of_linked {R : Nat → Nat → Prop} {f g : Script.Fault} (h : f.Linked R g)
    (describe : String → Failure) : failureOf g describe = failureOf f describe := by
  simp only [failureOf, h.failure?, h.message]

/-! ## §4 — evaluation -/

/-- **Outcomes in step:** the same failure or related values, and environments in step. -/
structure OutcomeLinked (σ : Shift) (A : Nat → α → β → Prop) (w : Nat) (r : Outcome α) (r' : Outcome β) :
    Prop where
  result : ExceptRel Eq (A w) r.1 r'.1
  environment : r.2.Linked σ w r'.2

/-- **Running a script** in environments in step. -/
theorem Linked.runWith (h : env.Linked σ w env') (answer : Clock → Include.Request → Logged Include.Answer)
    (clock : Clock) (s : Script.Program) (describe : String → Failure) :
    CellWork.Linked σ w (OutcomeLinked σ σ.Values) (env.runWith answer clock s describe)
      (env'.runWith answer clock s describe) := by
  intro cs ds hw hc
  have grown := h.grow hw
  -- what is known of constants is the same, so the script is simplified alike
  have run := Script.Program.linked_run (Script.Simplify.script (env.known cs) s)
    { functions := combined env.functions (Script.Simplify.script (env.known cs) s).functions }
    (grown.machine hc)
  obtain ⟨accesses, settled⟩ := run.answering answer clock
  unfold Environment.runWith StateT.run
  dsimp only
  rw [grown.known hc, h.functions]
  generalize Script.Run.answering answer (Script.Program.run _ _ (env.machine cs)) clock = x at accesses settled ⊢
  generalize Script.Run.answering answer (Script.Program.run _ _ (env'.machine ds)) clock = y at accesses settled ⊢
  obtain ⟨⟨r, m⟩, asked⟩ := x
  obtain ⟨⟨r', m'⟩, asked'⟩ := y
  obtain rfl : asked' = asked := accesses
  obtain ⟨size, outcome, machine⟩ := settled
  have after : ({ env with scope := m.scope } : Environment).Linked σ m.cells.size
      { env' with scope := m'.scope, functions := env.functions } :=
    ⟨h.file, h.dir, rfl, h.stack, machine.scope⟩
  cases outcome with
  | ok hv => exact ⟨rfl, size, ⟨.ok hv, after.seedFunctions _⟩, machine.cells⟩
  | error hf => exact ⟨rfl, size, ⟨.error (failureOf_of_linked hf describe).symm, after⟩, machine.cells⟩

variable (files : FileAccess) (clock : Clock)

/-- **Evaluating an expression** in environments in step. -/
theorem Linked.evaluateAt (h : env.Linked σ w env') (code : String) :
    CellWork.Linked σ w (OutcomeLinked σ σ.Values) (env.evaluateAt files clock code)
      (env'.evaluateAt files clock code) := by
  unfold Environment.evaluateAt Environment.evaluateWith
  rw [h.resolver]
  have opened := h.withInclude
  dsimp only
  split
  · rw [opened.name]
    exact .pure fun w₁ hw₁ => ⟨.error rfl, opened.grow hw₁⟩
  · rw [opened.name]
    exact opened.runWith _ _ _ _

/-- **Running a script block** in environments in step yields linked variables. -/
theorem Linked.executeAt (h : env.Linked σ w env') (code : String) :
    CellWork.Linked σ w (OutcomeLinked σ fun w₁ => FieldsLinked (σ.Rel w₁)) (env.executeAt files clock code)
      (env'.executeAt files clock code) := by
  unfold Environment.executeAt Environment.executeWith
  rw [h.resolver]
  have opened := h.withInclude
  dsimp only
  split
  · rw [opened.name]
    exact .pure fun w₁ hw₁ => ⟨.error rfl, opened.grow hw₁⟩
  · rw [opened.name, opened.count]
    refine (opened.runWith _ _ _ _).bind fun w₁ hw₁ r r' hr => ?_
    intro cs ds hw hc
    obtain ⟨result, environment⟩ := hr
    have environment := environment.grow hw
    -- the variables are read off the cells as they are at the end
    refine ⟨rfl, Nat.le_refl _, ⟨?_, environment⟩, hc⟩
    exact result.map fun _ _ _ => environment.bindingsAfter hc _

/-- **What a value emits** does not tell on which cells it was computed. -/
theorem emittable_of_linked {R : Nat → Nat → Prop} {v v' : Value} (h : v.Linked R v') :
    emittable v' = emittable v := by
  cases h with
  | plain => rfl
  | array hs => exact congrArg Emittable.text (Script.Datum.Linked.array hs).shown
  | object hn hs => exact congrArg Emittable.text (Script.Datum.Linked.object hn hs).shown
  | function hs => exact congrArg Emittable.text (Script.Datum.Linked.function hs).shown

end Environment

end Dialogue
