import Dialogue.Proofs.Script.Shift
/-!
# `Dialogue.Proofs.Script.Lockstep` — steps of evaluation on machines in step.

Two runs are in step when they ask the same questions and, whatever the answers and the time, end with related
results. Two steps of evaluation are in step from `w` cells on when, on all machines in step with at least `w` cells,
they run so, and leave machines in step, no cell lost. What two steps yield is related in the number of cells then:
links hold between more cells later on. Main statements: the ways to put steps together keep them in step.
-/

namespace Dialogue.Script

/-! ## §1 — runs -/

/-- **Runs that ask the same questions**, and end with related results whatever is answered. -/
inductive Run.Linked {α β : Type} (P : α → β → Prop) : Run α → Run β → Prop
  | done {a : α} {b : β} (h : P a b) : Run.Linked P (.done a) (.done b)
  | ask (q : Include.Request) {k : Include.Answer → Run α} {l : Include.Answer → Run β}
      (h : ∀ r, Run.Linked P (k r) (l r)) : Run.Linked P (.ask q k) (.ask q l)
  | now {k : Instant → Run α} {l : Instant → Run β} (h : ∀ t, Run.Linked P (k t) (l t)) :
      Run.Linked P (.now k) (.now l)
  | caught (e : Failure) {x : Run α} {y : Run β} (h : Run.Linked P x y) : Run.Linked P (.caught e x) (.caught e y)

namespace Run

variable {α β α' β' : Type} {P : α → β → Prop} {Q : α' → β' → Prop}

theorem Linked.bind {x : Run α} {y : Run β} (h : Run.Linked P x y) {f : α → Run α'} {g : β → Run β'}
    (hf : ∀ a b, P a b → Run.Linked Q (f a) (g b)) : Run.Linked Q (x >>= f) (y >>= g) := by
  induction h with
  | done h => exact hf _ _ h
  | ask q _ ih => exact .ask q ih
  | now _ ih => exact .now ih
  | caught e _ ih => exact .caught e ih

theorem Linked.mono {P' : α → β → Prop} {x : Run α} {y : Run β} (h : Run.Linked P x y)
    (hP : ∀ a b, P a b → P' a b) : Run.Linked P' x y := by
  induction h with
  | done h => exact .done (hP _ _ h)
  | ask q _ ih => exact .ask q ih
  | now _ ih => exact .now ih
  | caught e _ ih => exact .caught e ih

end Run

/-! ## §2 — steps of evaluation -/

/-- Signals of one kind, with linked values. -/
inductive Signal.Linked (R : Nat → Nat → Prop) : Signal → Signal → Prop
  | fault {f g : Fault} (h : f.Linked R g) : Signal.Linked R (.fault f) (.fault g)
  | leave {v w : Value} (h : v.Linked R w) : Signal.Linked R (.leave v) (.leave w)
  | proceed : Signal.Linked R .proceed .proceed
  | giveBack {v w : Value} (h : v.Linked R w) : Signal.Linked R (.giveBack v) (.giveBack w)

variable {σ : Shift} {w w₁ : Nat} {α β α' β' : Type}

theorem Signal.Linked.grow {s t : Signal} (h : s.Linked (σ.Rel w) t) (hw : w ≤ w₁) : s.Linked (σ.Rel w₁) t := by
  cases h with
  | fault h => exact .fault (h.mono fun _ _ => Shift.Rel.mono hw)
  | leave h => exact .leave (h.grow hw)
  | proceed => exact .proceed
  | giveBack h => exact .giveBack (h.grow hw)

/-- Linked values, among so many cells. -/
abbrev Shift.Values (σ : Shift) (w : Nat) : Value → Value → Prop := Datum.Linked (σ.Rel w)

/-- Linked outcomes, among so many cells. -/
abbrev Shift.Outcomes (σ : Shift) (A : Nat → α → β → Prop) (w : Nat) : Except Signal α → Except Signal β → Prop :=
  ExceptRel (Signal.Linked (σ.Rel w)) (A w)

/-- What is the same on both sides, whatever the cells. -/
abbrev Same (_ : Nat) : α → α → Prop := Eq

/-- Relations that hold on when there are more cells. -/
def Grows (A : Nat → α → β → Prop) : Prop := ∀ ⦃w₁ w₂ a b⦄, w₁ ≤ w₂ → A w₁ a b → A w₂ a b

theorem grows_values : Grows σ.Values := fun _ _ _ _ hw hv => hv.grow hw

theorem grows_same : Grows (Same (α := α)) := fun _ _ _ _ _ => id

theorem grows_outcomes {A : Nat → α → β → Prop} (hA : Grows A) : Grows (σ.Outcomes A) :=
  fun _ _ _ _ hw h => h.mono (fun _ _ hs => hs.grow hw) fun _ _ ha => hA hw ha

/-- **What steps in step leave:** related outcomes, and machines in step with no cell less than `size`. -/
structure After (σ : Shift) (size : Nat) (A : Nat → α → β → Prop) (r : Except Signal α × Machine)
    (r' : Except Signal β × Machine) : Prop where
  grown : size ≤ r.2.cells.size
  outcome : σ.Outcomes A r.2.cells.size r.1 r'.1
  machine : Machine.Linked σ r.2 r'.2

/-- **Steps of evaluation in step**, from `w` cells on. -/
def Eval.Linked (σ : Shift) (w : Nat) (A : Nat → α → β → Prop) (x : Eval α) (y : Eval β) : Prop :=
  ∀ c m m', w ≤ m.cells.size → Machine.Linked σ m m' →
    Run.Linked (After σ m.cells.size A) (x.runOn c m) (y.runOn c m')

namespace Eval

variable {A : Nat → α → β → Prop} {B : Nat → α' → β' → Prop}

theorem runOn_bind (x : Eval α) (f : α → Eval α') (c : Context) (m : Machine) :
    (x >>= f).runOn c m = x.runOn c m >>= fun p => match p.1 with
      | .ok a => (f a).runOn c p.2
      | .error s => .done (.error s, p.2) := by
  show Run.bind _ _ = Run.bind _ _
  congr 1
  funext p
  obtain ⟨r, n⟩ := p
  cases r <;> rfl

theorem runOn_read_bind (f : Context → Eval α) (c : Context) (m : Machine) :
    ((read : Eval Context) >>= f).runOn c m = (f c).runOn c m := rfl

theorem runOn_get_bind (f : Machine → Eval α) (c : Context) (m : Machine) :
    ((get : Eval Machine) >>= f).runOn c m = (f m).runOn c m := rfl

theorem runOn_set_bind (n : Machine) (f : PUnit → Eval α) (c : Context) (m : Machine) :
    ((set n : Eval PUnit) >>= f).runOn c m = (f ⟨⟩).runOn c n := rfl

/-- What is done with an outcome, whatever it is, of a step in another context. -/
theorem runOn_outcome_bind (g : Context → Context) (x : Eval α) (f : Except Signal α → Eval α') (c : Context)
    (m : Machine) :
    (MonadWithReader.withReader g (Eval.outcome x) >>= f).runOn c m =
      x.runOn (g c) m >>= fun p => (f p.1).runOn c p.2 := by
  rw [runOn_bind]
  exact Run.bind_assoc (x.runOn (g c) m) _ _

theorem Linked.from {x : Eval α} {y : Eval β} (h : Linked σ w A x y) (hw : w ≤ w₁) : Linked σ w₁ A x y :=
  fun c m m' hm => h c m m' (Nat.le_trans hw hm)

/-- **One step after another.** The second may use what is linked by then. -/
theorem Linked.bind {x : Eval α} {y : Eval β} (h : Linked σ w A x y) {f : α → Eval α'} {g : β → Eval β'}
    (hf : ∀ w₁, w ≤ w₁ → ∀ a b, A w₁ a b → Linked σ w₁ B (f a) (g b)) :
    Linked σ w B (x >>= f) (y >>= g) := by
  intro c m m' hw hm
  rw [runOn_bind, runOn_bind]
  refine (h c m m' hw hm).bind ?_
  -- the first step may have made cells, and the second goes on from those there are now
  rintro ⟨r, n⟩ ⟨r', n'⟩ ⟨grown, outcome, machine⟩
  cases outcome with
  | ok ha =>
    refine (hf _ (Nat.le_trans hw grown) _ _ ha c n n' (Nat.le_refl _) machine).mono ?_
    exact fun _ _ hr => ⟨Nat.le_trans grown hr.grown, hr.outcome, hr.machine⟩
  | error hs => exact .done ⟨grown, .error hs, machine⟩

theorem Linked.pure {a : α} {b : β} (h : ∀ w₁, w ≤ w₁ → A w₁ a b) :
    Linked σ w A (Pure.pure a) (Pure.pure b) :=
  fun _ _ _ hw hm => .done ⟨Nat.le_refl _, .ok (h _ hw), hm⟩

theorem Linked.pureGrows (hA : Grows A) {a : α} {b : β} (h : A w a b) :
    Linked σ w A (Pure.pure a) (Pure.pure b) :=
  .pure fun _ hw => hA hw h

theorem Linked.same (a : α) : Linked σ w Same (Pure.pure a) (Pure.pure a) := .pure fun _ _ => rfl

theorem Linked.value {v v' : Value} (h : v.Linked (σ.Rel w) v') :
    Linked σ w σ.Values (Pure.pure v) (Pure.pure v') := .pure fun _ hw => h.grow hw

theorem Linked.throw {s s' : Signal} (h : s.Linked (σ.Rel w) s') :
    Linked σ w A (MonadExcept.throw s) (MonadExcept.throw s') :=
  fun _ _ _ hw hm => .done ⟨Nat.le_refl _, .error (h.grow hw), hm⟩

theorem Linked.fail {cause cause' : Cause} (h : cause.Linked (σ.Rel w) cause') (pos : Option Position) :
    Linked σ w A (Eval.fail cause pos) (Eval.fail cause' pos) :=
  .throw (.fault (.raised h))

theorem Linked.failAt {cause cause' : Cause} (h : cause.Linked (σ.Rel w) cause') (pos : Position) :
    Linked σ w A (Eval.failAt pos cause) (Eval.failAt pos cause') :=
  .fail h (some pos)

/-- A fault whose cause holds no value. -/
theorem Linked.failSame {cause : Cause} (h : ∀ v, cause ≠ .thrown v) (pos : Position) :
    Linked σ w A (Eval.failAt pos cause) (Eval.failAt pos cause) :=
  .failAt (.same h) pos

theorem Linked.outcome {x : Eval α} {y : Eval β} (h : Linked σ w A x y) :
    Linked σ w (σ.Outcomes A) (Eval.outcome x) (Eval.outcome y) := by
  intro c m m' hw hm
  refine (h c m m' hw hm).bind ?_
  exact fun _ _ hr => .done ⟨hr.grown, .ok hr.outcome, hr.machine⟩

theorem Linked.resume {r : Except Signal α} {r' : Except Signal β}
    (h : ∀ w₁, w ≤ w₁ → σ.Outcomes A w₁ r r') : Linked σ w A (Eval.resume r) (Eval.resume r') := by
  intro c m m' hw hm
  cases h _ hw with
  | ok ha => exact .done ⟨Nat.le_refl _, .ok ha, hm⟩
  | error hs => exact .done ⟨Nat.le_refl _, .error hs, hm⟩

theorem Linked.get : Linked σ w (fun w₁ m m' => Machine.Linked σ m m' ∧ m.cells.size = w₁) get get :=
  fun _ _ _ _ hm => .done ⟨Nat.le_refl _, .ok ⟨hm, rfl⟩, hm⟩

theorem Linked.read : Linked σ w Same (MonadReader.read : Eval Context) MonadReader.read :=
  fun _ _ _ _ hm => .done ⟨Nat.le_refl _, .ok rfl, hm⟩

theorem Linked.modify {f g : Machine → Machine}
    (h : ∀ m m', w ≤ m.cells.size → Machine.Linked σ m m' →
      Machine.Linked σ (f m) (g m') ∧ (f m).cells.size = m.cells.size) :
    Linked σ w Same (modify f : Eval PUnit) (modify g) := by
  intro c m m' hw hm
  obtain ⟨machine, size⟩ := h m m' hw hm
  exact .done ⟨Nat.le_of_eq size.symm, .ok rfl, machine⟩

theorem Linked.withReader {x : Eval α} {y : Eval β} (h : Linked σ w A x y) (f : Context → Context) :
    Linked σ w A (MonadWithReader.withReader f x) (MonadWithReader.withReader f y) :=
  fun c => h (f c)

/-- **Putting the machine in order afterwards.** -/
theorem Linked.ensuring {x : Eval α} {y : Eval β} (h : Linked σ w A x y) {f g : Machine → Machine}
    (hA : Grows A)
    (hf : ∀ m m', w ≤ m.cells.size → Machine.Linked σ m m' →
      Machine.Linked σ (f m) (g m') ∧ (f m).cells.size = m.cells.size) :
    Linked σ w A (Eval.ensuring x f) (Eval.ensuring y g) := by
  refine h.outcome.bind fun w₁ hw₁ r r' hr => ?_
  -- the outcome is kept while the machine is put in order, and so must stay related
  refine (Linked.modify fun m m' hm => hf m m' (Nat.le_trans hw₁ hm)).bind fun w₂ hw₂ _ _ _ => ?_
  exact .resume fun w₃ hw₃ => grows_outcomes hA (Nat.le_trans hw₂ hw₃) hr

/-- **A scope of its own** is left alike. -/
theorem Linked.inBlock {x : Eval α} {y : Eval β} (h : Linked σ w A x y)
    (hA : Grows A) : Linked σ w A (Eval.inBlock x) (Eval.inBlock y) := by
  refine Linked.get.bind fun w₁ hw₁ m m' ⟨hm, _⟩ => ?_
  rw [hm.depth]
  exact (h.from hw₁).ensuring hA fun n n' _ hn => ⟨hn.rewind hm.scope.common_le, rfl⟩

/-- **Asking for a file:** the question is the same, and an answer holds no cells. -/
theorem Linked.ask (q : Include.Request) : Linked σ w Same (Eval.ask q) (Eval.ask q) :=
  fun _ _ _ _ hm => .ask q fun _ => .done ⟨Nat.le_refl _, .ok rfl, hm⟩

/-- **Asking for the time**, which is the same on both sides. -/
theorem Linked.now : Linked σ w Same Eval.now Eval.now :=
  fun _ _ _ _ hm => .now fun _ => .done ⟨Nat.le_refl _, .ok rfl, hm⟩

/-- **Dealing with a fault:** the same failure is behind linked faults. -/
theorem Linked.catches {f g : Fault} (h : f.Linked (σ.Rel w) g) :
    Linked σ w Same (Eval.catches f) (Eval.catches g) := by
  intro c m m' _ hm
  have same := h.failure?
  cases held : f.failure? with
  | some e =>
    rw [catches_of_some held, catches_of_some (same.trans held)]
    exact .caught e (.done ⟨Nat.le_refl _, .ok rfl, hm⟩)
  | none =>
    rw [catches_of_none held, catches_of_none (same.trans held)]
    exact .done ⟨Nat.le_refl _, .ok rfl, hm⟩

/-- Values evaluated one after another. -/
theorem Linked.mapM {f : α → Eval Value} (h : ∀ a w₁, w ≤ w₁ → Linked σ w₁ σ.Values (f a) (f a))
    (as : List α) : Linked σ w (fun w₁ => List.Forall₂ (σ.Values w₁)) (as.mapM f) (as.mapM f) := by
  induction as generalizing w with
  | nil =>
    rw [List.mapM_nil]
    exact .pure fun _ _ => .nil
  | cons a as ih =>
    rw [List.mapM_cons]
    refine (h a w (Nat.le_refl _)).bind fun w₁ hw₁ v v' hv => ?_
    refine (ih fun b w₂ hw₂ => h b w₂ (Nat.le_trans hw₁ hw₂)).bind fun w₂ hw₂ vs vs' hvs => ?_
    exact .pure fun w₃ hw₃ => .cons (hv.grow (Nat.le_trans hw₂ hw₃)) (forall₂_grow hvs hw₃)

end Eval

end Dialogue.Script
