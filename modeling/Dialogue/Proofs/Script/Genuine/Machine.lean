import Dialogue.Proofs.Script.Genuine.Library
import Dialogue.Proofs.Script.Lockstep
/-!
# `Dialogue.Proofs.Script.Genuine.Machine` — steps of evaluation that make no failures.

A machine is genuine when all the values in it are. A run keeps to `P` when it ends in something with a property,
provided that each failure it is answered with is in `P`. Main statements: machines stay genuine whatever is written
to them, and the ways to put steps together keep to `P` when the steps do.
-/

namespace Dialogue.Script

variable {P : Failure → Prop}

/-! ## §1 — machines -/

/-- Cells with genuine values. -/
def CellsGenuine (P : Failure → Prop) (cells : Array Cell) : Prop :=
  ∀ (i : Nat) (c : Cell), cells[i]? = some c → c.value.Genuine P

/-- **A machine with genuine values:** in its variables, in its cells, and as what the function was called on. -/
structure Machine.Genuine (P : Failure → Prop) (m : Machine) : Prop where
  scope : ∀ e ∈ m.scope, e.slot.Genuine P
  cells : CellsGenuine P m.cells
  this : ∀ v ∈ m.this, v.Genuine P

/-- **A context whose functions have genuine constants.** -/
def Context.Genuine (P : Failure → Prop) (c : Context) : Prop := ∀ f ∈ c.functions, f.Genuine P

theorem Context.Genuine.function? {c : Context} (h : c.Genuine P) {name : String} {arity : Nat} {f : Function}
    (found : c.function? name arity = some f) : f.Genuine P := by
  unfold Context.function? at found
  rw [List.findRev?_eq_find?_reverse] at found
  exact h f (List.mem_reverse.mp (List.mem_of_find?_eq_some found))

namespace Machine.Genuine

variable {m : Machine}

theorem slotValue (h : m.Genuine P) {s : Slot Function} (hs : s.Genuine P) : (m.slotValue s).Genuine P := by
  cases hs with
  | own hv => exact hv
  | cell index =>
    unfold Machine.slotValue
    dsimp only
    cases found : m.cells[index]? with
    | none => exact Datum.holds_unit
    | some c => exact h.cells index c found

theorem find? (h : m.Genuine P) {name : String} {s : Sighting} (found : m.find? name = some s) :
    s.value.Genuine P := by
  unfold Machine.find? at found
  split at found
  · cases found
  · obtain ⟨e, there, rfl⟩ := Option.map_eq_some_iff.mp found
    exact h.slotValue (h.scope e (List.mem_of_getElem? there))

theorem write (h : m.Genuine P) (p : Place) {v : Value} (hv : v.Genuine P) : (m.write p v).Genuine P := by
  unfold Machine.write
  split
  · refine ⟨fun e mem => ?_, h.cells, h.this⟩
    obtain ⟨k, entry⟩ := List.mem_iff_getElem?.mp mem
    rw [List.getElem?_modify] at entry
    obtain ⟨e, there, rfl⟩ := Option.map_eq_some_iff.mp entry
    have he := h.scope e (List.mem_of_getElem? there)
    split
    · exact .own (Access.genuine_replaced _ (h.slotValue he) hv)
    · exact he
  · refine ⟨h.scope, fun i c cell => ?_, h.this⟩
    rw [Array.getElem?_modify] at cell
    split at cell
    · obtain ⟨c, there, rfl⟩ := Option.map_eq_some_iff.mp cell
      exact Access.genuine_replaced _ (h.cells i c there) hv
    · exact h.cells i c cell
  · refine ⟨h.scope, h.cells, fun w mem => ?_⟩
    obtain ⟨t, there, rfl⟩ := Option.map_eq_some_iff.mp mem
    exact Access.genuine_replaced _ (h.this t there) hv

theorem declare (h : m.Genuine P) (name : String) (constant : Bool) {s : Slot Function} (hs : s.Genuine P) :
    (m.declare name constant s).Genuine P :=
  ⟨List.forall_mem_cons.mpr ⟨hs, h.scope⟩, h.cells, h.this⟩

theorem redeclare (h : m.Genuine P) (back : Nat) (constant : Bool) {v : Value} (hv : v.Genuine P) :
    (m.redeclare back constant v).Genuine P := by
  refine ⟨fun e mem => ?_, h.cells, h.this⟩
  obtain ⟨k, entry⟩ := List.mem_iff_getElem?.mp mem
  unfold Machine.redeclare at entry
  rw [List.getElem?_modify] at entry
  obtain ⟨e, there, rfl⟩ := Option.map_eq_some_iff.mp entry
  split
  · exact .own hv
  · exact h.scope e (List.mem_of_getElem? there)

theorem rewind (h : m.Genuine P) (depth : Nat) : (m.rewind depth).Genuine P :=
  ⟨fun e mem => h.scope e (List.mem_of_mem_drop mem), h.cells, h.this⟩

/-- Variables with what they hold by now. -/
theorem refreshed {scope now : List Entry} (h : ∀ e ∈ scope, e.slot.Genuine P) (hn : ∀ e ∈ now, e.slot.Genuine P) :
    ∀ e ∈ Entry.refreshed scope now, e.slot.Genuine P := by
  fun_induction Entry.refreshed scope now with
  | case1 e scope e' now ih =>
    obtain ⟨-, others⟩ := List.forall_mem_cons.mp h
    obtain ⟨slot, later⟩ := List.forall_mem_cons.mp hn
    exact List.forall_mem_cons.mpr ⟨slot, ih others later⟩
  | case2 => exact h

/-- **A variable that is shared** moves into a cell as it is. -/
theorem share? (h : m.Genuine P) {name : String} {cell : Nat} {n : Machine} (shared : m.share? name = some (cell, n)) :
    n.Genuine P := by
  unfold Machine.share? at shared
  split at shared
  · cases shared
  · obtain ⟨e, there, shared⟩ := Option.map_eq_some_iff.mp shared
    have he := h.scope e (List.mem_of_getElem? there)
    split at shared
    · cases shared
      exact h
    · rename_i v owned
      cases shared
      rw [owned] at he
      refine ⟨fun e' mem => ?_, fun i c found => ?_, h.this⟩
      · rcases List.mem_or_eq_of_mem_set mem with old | rfl
        · exact h.scope e' old
        · exact .cell _
      · rw [Array.getElem?_push] at found
        split at found
        · cases found
          exact Slot.holds_own_iff.mp he
        · exact h.cells i c found

end Machine.Genuine

/-! ## §2 — runs -/

variable {α β : Type} {Q : α → Prop} {R : β → Prop}

/-- **Runs that keep to `P`**, and end in something that has the property `Q`: whenever a request is answered, with a
failure in `P` if with any, what follows does. -/
inductive Run.Keeps (P : Failure → Prop) (Q : α → Prop) : Run α → Prop
  | done {a : α} (h : Q a) : Keeps P Q (.done a)
  | ask {q : Include.Request} {k : Include.Answer → Run α} (h : ∀ r, (∀ e, r = .error e → P e) → Keeps P Q (k r)) :
      Keeps P Q (.ask q k)
  | now {k : Instant → Run α} (h : ∀ t, Keeps P Q (k t)) : Keeps P Q (.now k)
  | caught {e : Failure} {x : Run α} (h : Keeps P Q x) : Keeps P Q (.caught e x)

theorem Run.Keeps.bind {x : Run α} (h : x.Keeps P Q) {f : α → Run β} (hf : ∀ a, Q a → (f a).Keeps P R) :
    (x >>= f).Keeps P R := by
  induction h with
  | done h => exact hf _ h
  | ask _ ih => exact .ask ih
  | now _ ih => exact .now ih
  | caught _ ih => exact .caught ih

/-! ## §3 — steps of evaluation -/

/-- **A signal** is genuine when what it carries is. -/
def Signal.Genuine (P : Failure → Prop) : Signal → Prop
  | .fault f => f.Genuine P
  | .leave v | .giveBack v => v.Genuine P
  | .proceed => True

/-- **An outcome** in `Q`, or a genuine signal. -/
def Settles (P : Failure → Prop) (Q : α → Prop) : Except Signal α → Prop
  | .ok a => Q a
  | .error s => s.Genuine P

/-- What a step leaves: an outcome, and a machine. -/
structure Leaves (P : Failure → Prop) (Q : α → Prop) (r : Except Signal α × Machine) : Prop where
  outcome : Settles P Q r.1
  machine : r.2.Genuine P

/-- **Steps of evaluation that keep to `P`:** what was genuine before is so afterwards, and they yield something
in `Q`. -/
structure Eval.Keeps (P : Failure → Prop) (Q : α → Prop) (x : Eval α) : Prop where
  run : ∀ c m, c.Genuine P → m.Genuine P → (x.runOn c m).Keeps P (Leaves P Q)

/-- A step that yields a genuine value. -/
abbrev Eval.KeepsValue (P : Failure → Prop) (x : Eval Value) : Prop := x.Keeps P (Datum.Genuine P)

/-- Nothing is asked of what a step yields. -/
abbrev Whatever (_ : α) : Prop := True

namespace Eval.Keeps

variable {x : Eval α}

theorem bind (h : x.Keeps P Q) {f : α → Eval β} (hf : ∀ a, Q a → (f a).Keeps P R) : (x >>= f).Keeps P R := by
  refine ⟨fun c m hc hm => ?_⟩
  rw [runOn_bind]
  apply (h.run c m hc hm).bind
  rintro ⟨r, n⟩ ⟨outcome, machine⟩
  cases r with
  | ok a => exact (hf a outcome).run c n hc machine
  | error s => exact .done ⟨outcome, machine⟩

/-- One step after another, of which the first matters no further. -/
theorem after (h : x.Keeps P Q) {f : α → Eval β} (hf : ∀ a, (f a).Keeps P R) : (x >>= f).Keeps P R :=
  h.bind fun a _ => hf a

theorem pure {a : α} (h : Q a) : (Pure.pure a : Eval α).Keeps P Q := ⟨fun _ _ _ hm => .done ⟨h, hm⟩⟩

theorem throw {s : Signal} (h : s.Genuine P) : (MonadExcept.throw s : Eval α).Keeps P Q :=
  ⟨fun _ _ _ hm => .done ⟨h, hm⟩⟩

theorem failAt (pos : Position) {cause : Cause} (h : cause.Genuine P) : (Eval.failAt pos cause : Eval α).Keeps P Q :=
  ⟨fun _ _ _ hm => .done ⟨h, hm⟩⟩

/-- A step that may be left out, before another one. -/
theorem guarded {c : Prop} [Decidable c] {first : Eval β} (hf : first.Keeps P R) (h : x.Keeps P Q) :
    (if c then first >>= fun _ => x else x).Keeps P Q := by
  split
  · exact hf.after fun _ => h
  · exact h

theorem get : (get : Eval Machine).Keeps P (Machine.Genuine P) := ⟨fun _ _ _ hm => .done ⟨hm, hm⟩⟩

theorem read : (read : Eval Context).Keeps P (Context.Genuine P) := ⟨fun _ _ hc hm => .done ⟨hc, hm⟩⟩

theorem set {m : Machine} (h : m.Genuine P) : (set m : Eval PUnit).Keeps P Whatever :=
  ⟨fun _ _ _ _ => .done ⟨trivial, h⟩⟩

theorem modify {f : Machine → Machine} (h : ∀ m, m.Genuine P → (f m).Genuine P) :
    (modify f : Eval PUnit).Keeps P Whatever := ⟨fun _ m _ hm => .done ⟨trivial, h m hm⟩⟩

theorem withReader (h : x.Keeps P Q) {f : Context → Context} (hf : ∀ c, c.Genuine P → (f c).Genuine P) :
    (MonadWithReader.withReader f x : Eval α).Keeps P Q := ⟨fun c m hc hm => h.run (f c) m (hf c hc) hm⟩

/-- The outcome of a step, whatever it is. -/
theorem outcome (h : x.Keeps P Q) : (Eval.outcome x).Keeps P (Settles P Q) :=
  ⟨fun c m hc hm => (h.run c m hc hm).bind fun _ left => .done ⟨left.outcome, left.machine⟩⟩

theorem resume {r : Except Signal α} (h : Settles P Q r) : (Eval.resume r).Keeps P Q := by
  cases r with
  | ok a => exact .pure h
  | error s => exact .throw h

/-- Putting the machine in order afterwards. -/
theorem ensuring (h : x.Keeps P Q) {order : Machine → Machine} (ho : ∀ m, m.Genuine P → (order m).Genuine P) :
    (Eval.ensuring x order).Keeps P Q :=
  h.outcome.bind fun _ hr => (modify ho).after fun _ => resume hr

/-- **A scope of its own** is left as genuine as it was entered. -/
theorem inBlock (h : x.Keeps P Q) : (Eval.inBlock x).Keeps P Q :=
  get.bind fun _ _ => h.ensuring fun _ hm => hm.rewind _

theorem mapM {f : β → Eval α} {as : List β} (h : ∀ a ∈ as, (f a).Keeps P Q) :
    (as.mapM f).Keeps P fun bs => ∀ b ∈ bs, Q b := by
  induction as with
  | nil =>
    rw [List.mapM_nil]
    exact .pure (List.forall_mem_nil _)
  | cons a as ih =>
    obtain ⟨first, others⟩ := List.forall_mem_cons.mp h
    rw [List.mapM_cons]
    exact first.bind fun b hb => (ih others).bind fun bs hbs => .pure (List.forall_mem_cons.mpr ⟨hb, hbs⟩)

/-- **Asking for a file:** the failure that is answered, if any, is in `P`. -/
theorem ask (q : Include.Request) : (Eval.ask q).Keeps P fun r => ∀ e, r = .error e → P e :=
  ⟨fun _ _ _ hm => .ask fun _ answered => .done ⟨answered, hm⟩⟩

/-- Asking for the time leaves everything as it is. -/
theorem now : Eval.now.Keeps P Whatever := ⟨fun _ _ _ hm => .now fun _ => .done ⟨trivial, hm⟩⟩

/-- Dealing with a fault leaves everything as it is. -/
theorem catches (f : Fault) : (Eval.catches f).Keeps P Whatever := by
  refine ⟨fun c m _ hm => ?_⟩
  cases held : f.failure? with
  | some e =>
    rw [catches_of_some held]
    exact .caught (.done ⟨trivial, hm⟩)
  | none =>
    rw [catches_of_none held]
    exact .done ⟨trivial, hm⟩

end Eval.Keeps

end Dialogue.Script
