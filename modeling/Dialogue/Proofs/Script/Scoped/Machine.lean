import Dialogue.Proofs.Script.Genuine.Machine
import Dialogue.Proofs.Script.Scoped
/-!
# `Dialogue.Proofs.Script.Scoped.Machine` — steps of evaluation and the variables in reach.

A variable keeps its name, and its being constant, as long as it is in reach; only what it holds may change. So of the
variables in reach a list of labels is kept, and what a step does to it is told by three properties: one from which it
starts, one in which it ends if it yields something, and one if it ends early. Main statements: the ways to put steps
together lead from one property to another when the steps do, and a block leaves the variables that it found.
-/

namespace Dialogue.Script

/-! ## §1 — machines -/

/-- **What stays of a variable** while it is in reach: its name, and whether it is constant. -/
abbrev Label := String × Bool

def Entry.label (e : Entry) : Label := (e.name, e.constant)

namespace Machine

variable {m n : Machine}

/-- **The variables in reach**, newest first, whatever they hold. -/
def labels (m : Machine) : List Label := m.scope.map Entry.label

theorem length_labels (m : Machine) : m.labels.length = m.depth := List.length_map ..

theorem labels_redeclare (m : Machine) (back : Nat) (constant : Bool) (v : Value) :
    (m.redeclare back constant v).labels = m.labels.modify back fun l => (l.1, constant) := by
  apply List.ext_getElem?
  intro k
  simp only [labels, redeclare, List.getElem?_map, List.getElem?_modify]
  cases m.scope[k]? with
  | none => rfl
  | some e =>
    show some (Entry.label (if _ then _ else e)) = some (if _ then _ else e.label)
    split <;> rfl

theorem labels_rewind (m : Machine) (depth : Nat) :
    (m.rewind depth).labels = m.labels.drop (m.labels.length - depth) := by
  rw [length_labels]
  exact List.map_drop

/-- **Writing a value** changes what a variable holds. -/
theorem labels_write (m : Machine) (p : Place) (v : Value) : (m.write p v).labels = m.labels := by
  unfold write
  split
  · apply List.ext_getElem?
    intro k
    simp only [labels, List.getElem?_map, List.getElem?_modify]
    cases m.scope[k]? with
    | none => rfl
    | some e =>
      show some (Entry.label (if _ then _ else e)) = some e.label
      split <;> rfl
  · rfl
  · rfl

/-- Variables with what they hold by now. -/
theorem labels_refreshed (m : Machine) (now : List Entry) :
    (Entry.refreshed m.scope now).map Entry.label = m.labels := Entry.map_refreshed _ (fun _ _ => rfl) m.scope now

/-- **Sharing a variable** changes where its value is. -/
theorem labels_share? {name : String} {cell : Nat} (shared : m.share? name = some (cell, n)) :
    n.labels = m.labels := by
  unfold share? at shared
  split at shared
  · cases shared
  · rename_i i _
    obtain ⟨e, there, shared⟩ := Option.map_eq_some_iff.mp shared
    split at shared
    · cases shared
      rfl
    · cases shared
      obtain ⟨hi, rfl⟩ := List.getElem?_eq_some_iff.mp there
      show (m.scope.set i _).map Entry.label = m.scope.map Entry.label
      rw [List.map_set]
      have bound : i < (m.scope.map Entry.label).length := by simpa using hi
      have same : (m.scope.map Entry.label)[i] = m.scope[i].label := List.getElem_map ..
      exact same ▸ List.set_getElem_self bound

end Machine

/-- **Variables with new ones before them**, whose names are `own`. -/
def Extends (own : List String) (older l : List Label) : Prop := ∃ new, l = new ++ older ∧ new.map Prod.fst = own

section Extends

variable {own : List String} {older l : List Label}

theorem extends_nil : Extends [] older l ↔ l = older := by
  constructor
  · rintro ⟨new, rfl, none⟩
    rw [List.map_eq_nil_iff.mp none]
    rfl
  · rintro rfl
    exact ⟨[], rfl, rfl⟩

theorem Extends.suffix (h : Extends own older l) : older <:+ l := by
  obtain ⟨new, rfl, -⟩ := h
  exact List.suffix_append new older

theorem Extends.declare (h : Extends own older l) (name : String) (constant : Bool) :
    Extends (name :: own) older ((name, constant) :: l) := by
  obtain ⟨new, rfl, rfl⟩ := h
  exact ⟨(name, constant) :: new, rfl, rfl⟩

/-- **A variable in the place of another** of the new ones is among them. -/
theorem Extends.redeclare (h : Extends own older l) {back : Nat} {name : String} (there : own[back]? = some name)
    (constant : Bool) : Extends own older (l.modify back fun l => (l.1, constant)) := by
  obtain ⟨new, rfl, rfl⟩ := h
  obtain ⟨hb, -⟩ := List.getElem?_eq_some_iff.mp there
  rw [List.length_map] at hb
  refine ⟨new.modify back fun l => (l.1, constant), by rw [modify_append, if_pos hb], ?_⟩
  apply List.ext_getElem?
  intro k
  simp only [List.getElem?_map, List.getElem?_modify]
  cases new[k]? with
  | none => rfl
  | some l =>
    show some (Prod.fst (if _ then _ else l)) = some l.1
    split <;> rfl

end Extends

/-! ## §2 — runs -/

variable {α β : Type}

/-- **Runs that end in something with a property**, whatever they are answered. -/
abbrev Run.EndsIn (Q : α → Prop) (x : Run α) : Prop := x.Keeps (fun _ => True) Q

namespace Run.EndsIn

variable {Q R : α → Prop} {x : Run α}

theorem weaken (h : x.EndsIn Q) (weaker : ∀ a, Q a → R a) : x.EndsIn R := by
  induction h with
  | done h => exact .done (weaker _ h)
  | ask _ ih => exact .ask ih
  | now _ ih => exact .now ih
  | caught _ ih => exact .caught ih

/-- Whatever a run ends in. -/
theorem anything (x : Run α) : x.EndsIn fun _ => True := by
  induction x with
  | done a => exact .done trivial
  | ask q k ih => exact .ask fun r _ => ih r
  | now k ih => exact .now ih
  | caught e x ih => exact .caught ih

end Run.EndsIn

/-! ## §3 — steps of evaluation -/

/-- A property of the variables in reach, another one if the step ended early. -/
def Outcome.Within (Q E : List Label → Prop) (r : Except Signal α × Machine) : Prop :=
  match r.1 with
  | .ok _ => Q r.2.labels
  | .error _ => E r.2.labels

namespace Eval

/-- **Steps that lead** from variables in `I` to variables in `Q`, or in `E` if they end early. -/
structure Leads (I Q E : List Label → Prop) (x : Eval α) : Prop where
  run : ∀ c m, I m.labels → (x.runOn c m).EndsIn (Outcome.Within Q E)

/-- **A step that retains** what is the case of the variables in reach, however it ends. -/
abbrev Retains (I : List Label → Prop) (x : Eval α) : Prop := x.Leads I I I

variable {I Q R E : List Label → Prop} {x : Eval α}

theorem Leads.weaken (h : x.Leads I Q E) {I' Q' E' : List Label → Prop} (hI : ∀ l, I' l → I l)
    (hQ : ∀ l, Q l → Q' l) (hE : ∀ l, E l → E' l) : x.Leads I' Q' E' := by
  refine ⟨fun c m hm => (h.run c m (hI _ hm)).weaken ?_⟩
  rintro ⟨r, n⟩ ends
  cases r with
  | ok a => exact hQ _ ends
  | error s => exact hE _ ends

/-- Whatever a step leads to. -/
theorem leads_anywhere (I : List Label → Prop) (x : Eval α) : x.Leads I (fun _ => True) fun _ => True := by
  refine ⟨fun c m _ => (Run.EndsIn.anything _).weaken ?_⟩
  rintro ⟨r, n⟩ -
  cases r <;> trivial

/-- **One step after another.** -/
theorem Leads.bind (h : x.Leads I Q E) {f : α → Eval β} (hf : ∀ a, (f a).Leads Q R E) : (x >>= f).Leads I R E := by
  refine ⟨fun c m hm => ?_⟩
  rw [runOn_bind]
  apply (h.run c m hm).bind
  rintro ⟨r, n⟩ ends
  cases r with
  | ok a => exact (hf a).run c n ends
  | error s => exact .done ends

theorem leads_pure (a : α) : (pure a : Eval α).Leads Q Q E := ⟨fun _ _ hm => .done hm⟩

theorem leads_throw (s : Signal) : (throw s : Eval α).Leads E Q E := ⟨fun _ _ hm => .done hm⟩

theorem leads_failAt (pos : Position) (cause : Cause) : (Eval.failAt pos cause : Eval α).Leads E Q E :=
  ⟨fun _ _ hm => .done hm⟩

/-- A step that may be left out, before another one. -/
theorem Leads.guarded {c : Prop} [Decidable c] {first : Eval β} (hf : first.Retains I) (h : x.Retains I) :
    (if c then first >>= fun _ => x else x).Retains I := by
  split
  · exact hf.bind fun _ => h
  · exact h

/-- **A look at the machine**, before a step that depends on it. -/
theorem leads_get {f : Machine → Eval α} (hf : ∀ m, I m.labels → (f m).Leads I Q E) :
    ((get : Eval Machine) >>= f).Leads I Q E := ⟨fun c m hm => (hf m hm).run c m hm⟩

theorem leads_read : (read : Eval Context).Leads I I E := ⟨fun _ _ hm => .done hm⟩

theorem leads_set {n : Machine} (h : Q n.labels) : (set n : Eval PUnit).Leads I Q E := ⟨fun _ _ _ => .done h⟩

theorem leads_modify {f : Machine → Machine} (h : ∀ m, I m.labels → Q (f m).labels) :
    (modify f : Eval PUnit).Leads I Q E := ⟨fun _ m hm => .done (h m hm)⟩

theorem Leads.withReader (h : x.Leads I Q E) (f : Context → Context) :
    (MonadWithReader.withReader f x : Eval α).Leads I Q E := ⟨fun c => h.run (f c)⟩

/-- The outcome of a step never ends early. -/
theorem Leads.outcome (h : x.Leads I Q Q) : (Eval.outcome x).Leads I Q E := by
  refine ⟨fun c m hm => (h.run c m hm).bind ?_⟩
  rintro ⟨r, n⟩ ends
  cases r <;> exact .done ends

theorem retains_resume (r : Except Signal α) : (Eval.resume r).Retains I := by
  cases r with
  | ok a => exact leads_pure a
  | error s => exact leads_throw s

/-- Putting the machine in order afterwards. -/
theorem Leads.ensuring (h : x.Leads I Q Q) {order : Machine → Machine} (ho : ∀ m, Q m.labels → R (order m).labels) :
    (Eval.ensuring x order).Leads I R R :=
  Leads.bind (Q := Q) h.outcome fun r => (leads_modify ho).bind fun _ => retains_resume r

/-- **A scope of its own** leaves the variables that it found, if what happens in it has left them in their place. -/
theorem retains_inBlock (h : ∀ l, x.Leads (· = l) (l <:+ ·) (l <:+ ·)) : (Eval.inBlock x).Retains I := by
  refine ⟨fun c m hm => ?_⟩
  have rewound (n : Machine) (kept : m.labels <:+ n.labels) : (n.rewind m.depth).labels = m.labels := by
    obtain ⟨new, same⟩ := kept
    rw [Machine.labels_rewind, ← m.length_labels, ← same, List.length_append, Nat.add_sub_cancel, List.drop_left]
  have back : (Eval.ensuring x (·.rewind m.depth)).Leads (· = m.labels) I I :=
    (h m.labels).ensuring fun n kept => (rewound n kept) ▸ hm
  exact back.run c m rfl

theorem retains_mapM {γ : Type} {f : γ → Eval β} {as : List γ} (h : ∀ a ∈ as, (f a).Retains I) :
    (as.mapM f).Retains I := by
  induction as with
  | nil =>
    rw [List.mapM_nil]
    exact leads_pure []
  | cons a as ih =>
    obtain ⟨first, others⟩ := List.forall_mem_cons.mp h
    rw [List.mapM_cons]
    exact first.bind fun b => (ih others).bind fun bs => leads_pure (b :: bs)

theorem retains_ask (q : Include.Request) : (Eval.ask q).Retains I := ⟨fun _ _ hm => .ask fun _ _ => .done hm⟩

theorem retains_now : Eval.now.Retains I := ⟨fun _ _ hm => .now fun _ => .done hm⟩

theorem retains_catches (f : Fault) : (Eval.catches f).Retains I := by
  refine ⟨fun c m hm => ?_⟩
  cases held : f.failure? with
  | some e =>
    rw [catches_of_some held]
    exact .caught (.done hm)
  | none =>
    rw [catches_of_none held]
    exact .done hm

end Eval

end Dialogue.Script
