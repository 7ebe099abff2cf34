import Dialogue.Proofs.Script.Linked.Library
import Dialogue.Proofs.Script.Lockstep
/-!
# `Dialogue.Proofs.Script.Parametric.Call` — calls on machines in step.

Whatever a call does (run a function of the script, ask the library, ask for a file, call back for each item of an
array), it does the same on machines in step, provided that the code it hands on does. Main statements: one for
each kind of call.
-/

namespace Dialogue.Script

variable {σ : Shift} {w w₁ : Nat}

/-- **An interpreter that does not tell machines in step apart**, whatever the second of them has more. -/
structure Interpreter.Linked (I : Interpreter) : Prop where
  expr : ∀ e {σ} w, Eval.Linked σ w σ.Values (I.expr e) (I.expr e)
  stmt : ∀ s {σ} w, Eval.Linked σ w σ.Values (I.stmt s) (I.stmt s)

namespace Interpreter

variable {I : Interpreter}

/-! ## §1 — functions of the script -/

theorem Linked.sequence (hI : I.Linked) (body : List Stmt) {v v' : Value} (hv : v.Linked (σ.Rel w) v') :
    Eval.Linked σ w σ.Values (I.sequence body v) (I.sequence body v') := by
  induction body generalizing w v v' with
  | nil => exact .value hv
  | cons s ss ih => exact (hI.stmt s w).bind fun _ _ _ _ hu => ih hu

theorem Linked.block (hI : I.Linked) (body : List Stmt) :
    Eval.Linked σ w σ.Values (I.block body) (I.block body) :=
  (hI.sequence body Datum.linked_unit).inBlock grows_values

/-- What calls yield, linked. -/
structure Returned.Linked (R : Nat → Nat → Prop) (r r' : Returned) : Prop where
  outcome : ExceptRel (Signal.Linked R) (Datum.Linked R) r.outcome r'.outcome
  this : Option.Rel (Datum.Linked R) r.this r'.this

theorem callOutcome_linked {R : Nat → Nat → Prop} (label : Option String) (pos : Position)
    {r r' : Except Signal Value} (h : ExceptRel (Signal.Linked R) (Datum.Linked R) r r') :
    ExceptRel (Signal.Linked R) (Datum.Linked R) (callOutcome label pos r) (callOutcome label pos r') := by
  cases h with
  | ok hv => exact .ok hv
  | error hs =>
    cases hs with
    | giveBack hv => exact .ok hv
    | leave hv => exact .error (.leave hv)
    | proceed => exact .error .proceed
    | fault hf =>
      unfold callOutcome
      dsimp only
      rw [hf.cause.isFatal]
      split
      · exact .error (.fault (hf.moveTo _))
      · exact .error (.fault (.inCall hf))

theorem forall₂_zip_entries {R : Nat → Nat → Prop} (params : List String) {slots slots' : List (Slot Function)}
    (h : List.Forall₂ (Slot.Linked R) slots slots') :
    List.Forall₂ (Entry.Linked R)
      ((params.zip slots).map fun (name, slot) => (⟨name, false, slot⟩ : Entry))
      ((params.zip slots').map fun (name, slot) => (⟨name, false, slot⟩ : Entry)) := by
  induction params generalizing slots slots' with
  | nil => exact .nil
  | cons name params ih =>
    cases h with
    | nil => exact .nil
    | cons hs h => exact .cons ⟨rfl, rfl, hs⟩ (ih h)

theorem forall₂_slot_grow {slots slots' : List (Slot Function)}
    (h : List.Forall₂ (Slot.Linked (σ.Rel w)) slots slots') (hw : w ≤ w₁) :
    List.Forall₂ (Slot.Linked (σ.Rel w₁)) slots slots' :=
  h.imp fun _ _ hs => hs.grow hw

/-- **The variables of a caller** in whose scope a function has run. -/
theorem linked_refreshed {m m' n n' : Machine} (hm : Machine.Linked σ m m') {inner : List Entry}
    (hn : Machine.Linked (σ.above (inner.map Entry.name)) n n') (grown : m.cells.size ≤ n.cells.size)
    (more : m.depth ≤ inner.length) :
    ScopesLinked σ n.cells.size (Entry.refreshed m.scope (n.rewind m.depth).scope)
      (Entry.refreshed m'.scope (n'.rewind m'.depth).scope) := by
  -- nothing that the function came upon is gone, and so each variable of the caller is still there
  have kept : m.depth ≤ n.scope.length := by
    have least := hn.scope.common_le
    simp only [Shift.above, List.length_map] at least
    exact Nat.le_trans more least
  have depths : n'.depth - m'.depth = n.depth - m.depth := by
    have all : n'.depth = n.depth + σ.below := hn.depth
    rw [all, hm.depth, Nat.add_sub_add_right]
  obtain ⟨upper, lower, split, same⟩ := hn.scope.exists_drop (Nat.sub_le n.depth m.depth)
  unfold Machine.rewind
  dsimp only
  rw [depths, split]
  refine (hm.scope.grow grown).refreshed same ?_
  rw [List.length_drop]
  exact Nat.sub_sub_self kept

/-- **A call of a function of the script** is in step, when what it is given is linked. -/
theorem Linked.invoke (hI : I.Linked) (f : Function) (label : Option String) {t t' : Option Value}
    (ht : Option.Rel (Datum.Linked (σ.Rel w)) t t') {slots slots' : List (Slot Function)}
    (hs : List.Forall₂ (Slot.Linked (σ.Rel w)) slots slots') (pos : Position) (here : Bool := false) :
    Eval.Linked σ w (fun w₁ => Returned.Linked (σ.Rel w₁)) (I.invoke f label t slots pos here)
      (I.invoke f label t' slots' pos here) := by
  refine Eval.Linked.read.bind fun w₁ hw₁ c _ hc => ?_
  subst hc
  split
  · refine .pure fun w₂ hw₂ => ⟨.error (.fault (.raised ?_)), option_grow ht (Nat.le_trans hw₁ hw₂)⟩
    exact .same fun _ h => nomatch h
  · intro c m m' hw hm
    have grown := Nat.le_trans hw₁ hw
    have arguments := List.rel_reverse (forall₂_zip_entries f.params (forall₂_slot_grow hs grown))
    rw [Eval.runOn_get_bind, Eval.runOn_get_bind, Eval.runOn_set_bind, Eval.runOn_set_bind,
      Eval.runOn_outcome_bind, Eval.runOn_outcome_bind]
    cases here with
    | false =>
      -- the function's own scope holds its arguments only
      have inside : Machine.Linked σ.apart { m with scope := _, this := t } { m' with scope := _, this := t' } :=
        ⟨.alone (List.rel_append arguments .nil), ⟨hm.cells.kept, hm.cells.size, hm.cells.cells⟩, option_grow ht grown⟩
      have body := hI.sequence (w := m.cells.size) f.body Datum.linked_unit { c with level := c.level + 1 } _ _
        (by exact Nat.le_refl _) inside
      refine body.bind ?_
      rintro ⟨r, n⟩ ⟨r', n'⟩ ⟨size, outcome, machine⟩
      dsimp only at size machine
      have cells : CellsLinked σ n.cells n'.cells := ⟨machine.cells.kept, machine.cells.size, machine.cells.cells⟩
      -- the caller's scope comes back
      exact .done ⟨size, .ok ⟨callOutcome_linked label pos outcome, machine.this⟩,
        ⟨hm.scope.grow size, cells, option_grow hm.this size⟩⟩
    | true =>
      have inside : Machine.Linked (σ.above _) { m with scope := _, this := t } { m' with scope := _, this := t' } :=
        ⟨(hm.scope.append arguments).above, ⟨hm.cells.kept, hm.cells.size, hm.cells.cells⟩, option_grow ht grown⟩
      have body := hI.sequence (w := m.cells.size) f.body Datum.linked_unit { c with level := c.level + 1 } _ _
        (by exact Nat.le_refl _) inside
      refine body.bind ?_
      rintro ⟨r, n⟩ ⟨r', n'⟩ ⟨size, outcome, machine⟩
      dsimp only at size machine
      have cells : CellsLinked σ n.cells n'.cells := ⟨machine.cells.kept, machine.cells.size, machine.cells.cells⟩
      exact .done ⟨size, .ok ⟨callOutcome_linked label pos outcome, machine.this⟩,
        ⟨linked_refreshed hm machine size (by simp [Machine.depth]), cells, option_grow hm.this size⟩⟩

theorem Linked.returned {r r' : Returned} (h : r.Linked (σ.Rel w) r') :
    Eval.Linked σ w σ.Values r.value r'.value :=
  .resume fun _ hw => grows_outcomes grows_values hw h.outcome

/-! ## §2 — functions of the library -/

/-- Results that are related in the number of cells then. -/
theorem linked_orFail {α β : Type} {A : Nat → α → β → Prop} (hA : Grows A)
    (pos : Position) {r : Except Cause α} {r' : Except Cause β} (h : ResultRel (σ.Rel w) (A w) r r') :
    Eval.Linked σ w A (orFail pos r) (orFail pos r') := by
  cases h with
  | ok ha => exact .pure fun _ hw => hA hw ha
  | error hc => exact .failAt hc pos

theorem linked_optionFault {R : Nat → Nat → Prop} (name wanted : String) {v v' : Value} (h : v.Linked R v') :
    (optionFault name wanted v).Linked R (optionFault name wanted v') := by
  unfold optionFault
  rw [h.typeName]
  exact .thrown (.plain trivial)

theorem linked_binaryOption {R : Nat → Nat → Prop} {v v' : Value} (h : v.Linked R v') :
    ResultRel R Eq (binaryOption v) (binaryOption v') := by
  cases h with
  | plain hp =>
    unfold binaryOption
    split
    · exact .ok rfl
    · exact .ok rfl
    · exact .error (linked_optionFault _ _ (.plain hp))
  | array hs => exact .error (linked_optionFault _ _ (.array hs))
  | object hn hs => exact .error (linked_optionFault _ _ (.object hn hs))
  | function hs => exact .error (linked_optionFault _ _ (.function hs))

theorem linked_mediaTypeOption {R : Nat → Nat → Prop} {v v' : Value} (h : v.Linked R v') :
    ResultRel R Eq (mediaTypeOption v) (mediaTypeOption v') := by
  cases h with
  | plain hp =>
    unfold mediaTypeOption
    split
    · exact .ok rfl
    · exact .ok rfl
    · exact .error (linked_optionFault _ _ (.plain hp))
  | array hs => exact .error (linked_optionFault _ _ (.array hs))
  | object hn hs => exact .error (linked_optionFault _ _ (.object hn hs))
  | function hs => exact .error (linked_optionFault _ _ (.function hs))

theorem linked_includeOptions {fs gs : List (String × Value)} {R : Nat → Nat → Prop}
    (h : FieldsLinked R fs gs) : ResultRel R Eq (includeOptions fs) (includeOptions gs) := by
  refine (linked_binaryOption (Access.linked_field_getD h "binary")).bind fun b _ hb => ?_
  subst hb
  refine (linked_mediaTypeOption (Access.linked_field_getD h "mime")).bind fun t _ ht => ?_
  subst ht
  exact .ok rfl

/-- **An include is the same on both sides.** -/
theorem linked_includeFile (path : String) (options : Include.Options) (pos : Position) :
    Eval.Linked σ w σ.Values (includeFile path options pos) (includeFile path options pos) := by
  refine (Eval.Linked.ask _).bind fun w₁ _ r _ hr => ?_
  subst hr
  cases r with
  | ok i =>
    have inclusion : Datum.Linked (σ.Rel w₁) (.inclusion i) (.inclusion i) := .plain trivial
    exact .value inclusion
  | error f =>
    have failure : Datum.Linked (σ.Rel w₁) (.failure f) (.failure f) := .plain trivial
    exact .failAt (.thrown failure) pos

/-- **The time since a moment** is the same on both sides, for so is the time. -/
theorem linked_elapsed (t : Instant) (pos : Position) : Eval.Linked σ w σ.Values (elapsed t pos) (elapsed t pos) := by
  refine Eval.Linked.now.bind fun w₁ _ now _ same => ?_
  subst same
  split
  · exact .failSame (by nofun) pos
  · refine Eval.Linked.now.bind fun w₂ _ now _ same => ?_
    subst same
    exact .value (.plain trivial)

/-- Outcomes of the library, linked in the number of cells then. -/
abbrev Outcomes (σ : Shift) (w : Nat) : Library.Outcome → Library.Outcome → Prop := Library.Outcome.Linked (σ.Rel w)

theorem grows_libraryOutcomes : Grows (Outcomes σ) :=
  fun _ _ _ _ hw h => ⟨h.result.grow hw, option_grow h.changed hw⟩

/-- **A function of the library on linked values** is in step, or there is none on either side. -/
theorem linked_plainCall? (name : String) {vs ws : List Value} (h : List.Forall₂ (Datum.Linked (σ.Rel w)) vs ws)
    (pos : Position) :
    Option.Rel (Eval.Linked σ w (Outcomes σ)) (plainCall? name vs pos) (plainCall? name ws pos) := by
  have yields {w : Nat} {x y : Eval Value} (hx : Eval.Linked σ w σ.Values x y) :
      Eval.Linked σ w (Outcomes σ) (do return ⟨← x, none⟩) (do return ⟨← y, none⟩) :=
    hx.bind fun w₁ _ v v' hv => .pure fun _ hw => ⟨hv.grow hw, .none⟩
  unfold plainCall?
  split
  · obtain _ | ⟨hv, _ | _⟩ := h
    cases hv
    exact .some (yields (linked_includeFile _ _ pos))
  · obtain _ | ⟨hv, _ | ⟨hf, _ | _⟩⟩ := h
    cases hv
    obtain ⟨gs, rfl⟩ := hf.of_object
    refine .some ?_
    have options := linked_includeOptions hf.fields
    refine (linked_orFail grows_same pos options).bind fun w₁ hw₁ o _ ho => ?_
    subst ho
    exact yields (linked_includeFile _ _ pos)
  · cases h
    refine .some (yields (x := return .timestamp (← Eval.now)) (y := return .timestamp (← Eval.now)) ?_)
    exact Eval.Linked.now.bind fun w₁ _ t _ same => same ▸ .value (.plain trivial)
  · obtain _ | ⟨hv, _ | _⟩ := h
    cases hv
    exact .some (yields (linked_elapsed _ pos))
  · split
    · obtain _ | ⟨hv, _ | _⟩ := h
      cases hv
      simp_all
    · obtain _ | ⟨hv, _ | ⟨hf, _ | _⟩⟩ := h
      cases hv
      cases hf <;> simp_all
    · cases h
      simp_all
    · obtain _ | ⟨hv, _ | _⟩ := h
      cases hv
      simp_all
    · have call := Library.linked_call? name h
      generalize Library.call? name vs = x, Library.call? name ws = y at call
      cases call with
      | none => exact .none
      | some hr => exact .some (linked_orFail grows_libraryOutcomes pos hr)

/-! ## §3 — function values -/

theorem forall₂_slotValue {m m' : Machine} (h : Machine.Linked σ m m') {slots slots' : List (Slot Function)}
    (hs : List.Forall₂ (Slot.Linked (σ.Rel m.cells.size)) slots slots') :
    List.Forall₂ (Datum.Linked (σ.Rel m.cells.size)) (slots.map m.slotValue) (slots'.map m'.slotValue) := by
  induction hs with
  | nil => exact .nil
  | cons hx _ ih => exact .cons (h.slotValue hx) ih

theorem forall₂_own {R : Nat → Nat → Prop} {vs ws : List Value} (h : List.Forall₂ (Datum.Linked R) vs ws) :
    List.Forall₂ (Slot.Linked R) (vs.map Slot.own) (ws.map Slot.own) := by
  induction h with
  | nil => exact .nil
  | cons hx _ ih => exact .cons (.own hx) ih

theorem forall₂_toList {R : Nat → Nat → Prop} {t t' : Option Value} (h : Option.Rel (Datum.Linked R) t t') :
    List.Forall₂ (Datum.Linked R) t.toList t'.toList := by
  cases h with
  | none => exact .nil
  | some h => exact .cons h .nil

/-- What calls yield, linked in the number of cells then. -/
abbrev Returns (σ : Shift) (w : Nat) : Returned → Returned → Prop := Returned.Linked (σ.Rel w)

theorem grows_returns : Grows (Returns σ) :=
  fun _ _ _ _ hw h => ⟨grows_outcomes grows_values hw h.outcome, option_grow h.this hw⟩

theorem map_result {x x' : Except Signal Library.Outcome} (h : σ.Outcomes (Outcomes σ) w x x') :
    σ.Outcomes σ.Values w (x.map (·.result)) (x'.map (·.result)) :=
  h.map fun _ _ ho => ho.result

/-- **A call of linked function values** is in step. -/
theorem Linked.callValue (hI : I.Linked) (name : String) {given given' : List (Slot Function)}
    (hg : List.Forall₂ (Slot.Linked (σ.Rel w)) given given') (code : Option Function) {t t' : Option Value}
    (ht : Option.Rel (Datum.Linked (σ.Rel w)) t t') {vs vs' : List Value}
    (hv : List.Forall₂ (Datum.Linked (σ.Rel w)) vs vs') (pos : Position) (here : Bool := false) :
    Eval.Linked σ w (Returns σ) (I.callValue name given code t vs pos here)
      (I.callValue name given' code t' vs' pos here) := by
  have slots := List.rel_append hg (forall₂_own hv)
  have length := slots.length_eq
  refine Eval.Linked.get.bind fun w₁ hw₁ m m' ⟨hm, size⟩ => ?_
  subst size
  have values := forall₂_slotValue hm (forall₂_slot_grow slots hw₁)
  have arguments := List.rel_append (forall₂_toList (option_grow ht hw₁)) values
  have unknown : Eval.Linked σ m.cells.size (Returns σ)
      (pure ⟨.error (.fault (.raised (Operation.unknown name (t.toList ++ (given ++ vs.map Slot.own).map m.slotValue))
        (some pos))), t⟩)
      (pure ⟨.error (.fault (.raised (Operation.unknown name
        (t'.toList ++ (given' ++ vs'.map Slot.own).map m'.slotValue)) (some pos))), t'⟩) :=
    .pureGrows grows_returns
      ⟨.error (.fault (.raised (Operation.linked_unknown name arguments))), option_grow ht hw₁⟩
  cases code with
  | some f =>
    dsimp only
    rw [← length]
    split
    · exact hI.invoke f none (option_grow ht hw₁) (forall₂_slot_grow slots hw₁) pos
    · exact unknown
  | none =>
    -- a function that is known by name only is looked for when it is called
    refine Eval.Linked.read.bind fun w₂ hw₂ c _ hc => ?_
    subst hc
    rw [← length]
    cases c.function? name (given ++ vs.map Slot.own).length with
    | some f =>
      exact hI.invoke f _ (option_grow ht (Nat.le_trans hw₁ hw₂))
        (forall₂_slot_grow slots (Nat.le_trans hw₁ hw₂)) pos here
    | none =>
      obtain ⟨hx, hy⟩ | ⟨x, y, hx, hy, call⟩ := rel_cases (linked_plainCall? name (forall₂_grow arguments hw₂) pos)
      · simp only [hx, hy]
        exact unknown.from hw₂
      · simp only [hx, hy]
        refine call.outcome.bind fun w₃ hw₃ r r' hr => ?_
        exact .pureGrows grows_returns
          ⟨map_result hr, option_grow ht (Nat.le_trans hw₁ (Nat.le_trans hw₂ hw₃))⟩

theorem linked_missing? (name : String) {given given' : List (Slot Function)}
    (hg : List.Forall₂ (Slot.Linked (σ.Rel w)) given given') (code : Option Function) (choices : List Nat) :
    Eval.Linked σ w Same (missing? name given code choices) (missing? name given' code choices) := by
  unfold missing?
  rw [hg.length_eq]
  cases code with
  | some f => exact .same _
  | none =>
    refine Eval.Linked.read.bind fun _ _ c _ hc => ?_
    subst hc
    exact .same _

/-- A call whose result is all that counts. -/
theorem Linked.callForValue (hI : I.Linked) (name : String) {given given' : List (Slot Function)}
    (hg : List.Forall₂ (Slot.Linked (σ.Rel w)) given given') (code : Option Function) {t t' : Option Value}
    (ht : Option.Rel (Datum.Linked (σ.Rel w)) t t') {vs vs' : List Value}
    (hv : List.Forall₂ (Datum.Linked (σ.Rel w)) vs vs') (pos : Position) (here : Bool := false) :
    Eval.Linked σ w σ.Values (do (← I.callValue name given code t vs pos here).value)
      (do (← I.callValue name given' code t' vs' pos here).value) :=
  (hI.callValue name hg code ht hv pos here).bind fun _ _ _ _ hr => Linked.returned hr

/-- Linked values are of the wrong type alike. -/
theorem linked_mismatch {α : Type} {A : Nat → α → α → Prop} (wanted : String) {v v' : Value}
    (h : v.Linked (σ.Rel w) v') (pos : Position) :
    Eval.Linked σ w A (Eval.failAt pos (.mismatch wanted v.typeName))
      (Eval.failAt pos (.mismatch wanted v'.typeName)) := by
  rw [h.typeName]
  exact .failSame (by nofun) pos

/-- **A call for an item.** -/
theorem Linked.callForItem (hI : I.Linked) {f f' : Value} (hf : f.Linked (σ.Rel w) f') {leading leading' : List Value}
    (hl : List.Forall₂ (Datum.Linked (σ.Rel w)) leading leading') {x x' : Value} (hx : x.Linked (σ.Rel w) x')
    (index : Nat) (pos : Position) :
    Eval.Linked σ w σ.Values (I.callForItem f leading x index pos) (I.callForItem f' leading' x' index pos) := by
  unfold Interpreter.callForItem
  cases hf with
  | plain hp => cases f <;> first | exact linked_mismatch _ (.plain hp) pos | exact hp.elim
  | array hs => exact linked_mismatch _ (.array hs) pos
  | object hn hs => exact linked_mismatch _ (.object hn hs) pos
  | @function name given given' code hg =>
    dsimp only
    rw [hl.length_eq]
    refine (linked_missing? name hg code _).bind fun w₁ hw₁ k _ hk => ?_
    subst hk
    have hg₁ := forall₂_slot_grow hg hw₁
    have hl₁ := forall₂_grow hl hw₁
    have hx₁ := hx.grow hw₁
    have position : Datum.Linked (σ.Rel w₁) (.int (Int64.ofNat index)) (.int (Int64.ofNat index)) := .plain trivial
    have item := List.rel_append hl₁ (.cons hx₁ .nil)
    cases k with
    | none => exact hI.callForValue name hg₁ code .none item pos
    | some k =>
      dsimp only
      split
      · exact hI.callForValue name hg₁ code (.some hx₁) hl₁ pos
      · split
        · exact hI.callForValue name hg₁ code .none (List.rel_append hl₁ (.cons hx₁ (.cons position .nil))) pos
        · exact hI.callForValue name hg₁ code .none item pos

theorem isTrue_of_linked {R : Nat → Nat → Prop} {v w : Value} (h : v.Linked R w) : isTrue w = isTrue v := by
  cases h <;> rfl

/-- Lists of values, linked in the number of cells then. -/
abbrev Lists (σ : Shift) (w : Nat) : List Value → List Value → Prop := List.Forall₂ (Datum.Linked (σ.Rel w))

theorem grows_lists : Grows (Lists σ) := fun _ _ _ _ hw h => forall₂_grow h hw

theorem Linked.mapItems (hI : I.Linked) {f f' : Value} (hf : f.Linked (σ.Rel w) f') (pos : Position) (index : Nat)
    {xs xs' : List Value} (hs : List.Forall₂ (Datum.Linked (σ.Rel w)) xs xs') :
    Eval.Linked σ w (Lists σ) (I.mapItems f pos index xs) (I.mapItems f' pos index xs') := by
  induction xs generalizing w index xs' with
  | nil =>
    cases hs
    exact .pure fun _ _ => .nil
  | cons x xs ih =>
    obtain _ | ⟨hx, hs⟩ := hs
    refine (hI.callForItem hf .nil hx index pos).bind fun w₁ hw₁ v v' hv => ?_
    refine (ih (hf.grow hw₁) (index + 1) (forall₂_grow hs hw₁)).bind fun w₂ hw₂ vs vs' hvs => ?_
    exact .pureGrows grows_lists (.cons (hv.grow hw₂) hvs)

theorem Linked.filterItems (hI : I.Linked) {f f' : Value} (hf : f.Linked (σ.Rel w) f') (pos : Position)
    (index : Nat) {xs xs' : List Value} (hs : List.Forall₂ (Datum.Linked (σ.Rel w)) xs xs') :
    Eval.Linked σ w (Lists σ) (I.filterItems f pos index xs) (I.filterItems f' pos index xs') := by
  induction xs generalizing w index xs' with
  | nil =>
    cases hs
    exact .pure fun _ _ => .nil
  | cons x xs ih =>
    obtain _ | ⟨hx, hs⟩ := hs
    refine (hI.callForItem hf .nil hx index pos).bind fun w₁ hw₁ v v' hv => ?_
    refine (ih (hf.grow hw₁) (index + 1) (forall₂_grow hs hw₁)).bind fun w₂ hw₂ vs vs' hvs => ?_
    rw [isTrue_of_linked hv]
    refine .pureGrows grows_lists ?_
    split
    · exact .cons (hx.grow (Nat.le_trans hw₁ hw₂)) hvs
    · exact hvs

theorem Linked.findItem (hI : I.Linked) {f f' : Value} (hf : f.Linked (σ.Rel w) f') (wanted : Bool)
    (pos : Position) (index : Nat) {xs xs' : List Value} (hs : List.Forall₂ (Datum.Linked (σ.Rel w)) xs xs') :
    Eval.Linked σ w Same (I.findItem f wanted pos index xs) (I.findItem f' wanted pos index xs') := by
  induction xs generalizing w index xs' with
  | nil =>
    cases hs
    exact .same none
  | cons x xs ih =>
    obtain _ | ⟨hx, hs⟩ := hs
    refine (hI.callForItem hf .nil hx index pos).bind fun w₁ hw₁ v v' hv => ?_
    rw [isTrue_of_linked hv]
    split
    · exact .same _
    · exact ih (hf.grow hw₁) (index + 1) (forall₂_grow hs hw₁)

theorem Linked.reduceItems (hI : I.Linked) {f f' : Value} (hf : f.Linked (σ.Rel w) f') (pos : Position)
    (index : Nat) {v v' : Value} (hv : v.Linked (σ.Rel w) v') {xs xs' : List Value}
    (hs : List.Forall₂ (Datum.Linked (σ.Rel w)) xs xs') :
    Eval.Linked σ w σ.Values (I.reduceItems f pos index v xs) (I.reduceItems f' pos index v' xs') := by
  induction xs generalizing w index v v' xs' with
  | nil =>
    cases hs
    exact .value hv
  | cons x xs ih =>
    obtain _ | ⟨hx, hs⟩ := hs
    refine (hI.callForItem hf (.cons hv .nil) hx index pos).bind fun w₁ hw₁ u u' hu => ?_
    exact ih (hf.grow hw₁) (index + 1) hu (forall₂_grow hs hw₁)

theorem Linked.comesBefore (hI : I.Linked) {f f' : Value} (hf : f.Linked (σ.Rel w) f') (pos : Position)
    {x x' y y' : Value} (hx : x.Linked (σ.Rel w) x') (hy : y.Linked (σ.Rel w) y') :
    Eval.Linked σ w Same (I.comesBefore f pos x y) (I.comesBefore f' pos x' y') := by
  unfold Interpreter.comesBefore
  cases hf with
  | plain hp => cases f <;> first | exact .same false | exact hp.elim
  | array => exact .same false
  | object => exact .same false
  | @function name given given' code hg =>
    refine (hI.callValue name hg code .none (.cons hx (.cons hy .nil)) pos).bind fun w₁ _ r r' hr => ?_
    have outcome := hr.outcome
    generalize r.outcome = o, r'.outcome = o' at outcome
    cases outcome with
    | error hs =>
      cases hs with
      | fault hf => exact (Eval.Linked.catches hf).bind fun _ _ _ _ _ => .same false
      | _ => exact .same false
    | ok hv =>
      cases hv with
      | plain hp =>
        split
        · exact .same _
        · exact .same _
        · rename_i never
          cases never
        · exact .same false
      | _ => exact .same false

theorem Linked.insertItem (hI : I.Linked) {f f' : Value} (hf : f.Linked (σ.Rel w) f') (pos : Position)
    {x x' : Value} (hx : x.Linked (σ.Rel w) x') {ys ys' : List Value}
    (hs : List.Forall₂ (Datum.Linked (σ.Rel w)) ys ys') :
    Eval.Linked σ w (Lists σ) (I.insertItem f pos x ys) (I.insertItem f' pos x' ys') := by
  induction ys generalizing w ys' with
  | nil =>
    cases hs
    exact .pureGrows grows_lists (.cons hx .nil)
  | cons y ys ih =>
    obtain _ | ⟨hy, hs⟩ := hs
    refine (hI.comesBefore hf pos hx hy).bind fun w₁ hw₁ b _ hb => ?_
    subst hb
    have all := forall₂_grow (.cons hx (.cons hy hs)) hw₁
    split
    · exact .pureGrows grows_lists all
    · refine (ih (hf.grow hw₁) (hx.grow hw₁) (forall₂_grow hs hw₁)).bind fun w₂ hw₂ zs zs' hzs => ?_
      exact .pureGrows grows_lists (.cons (hy.grow (Nat.le_trans hw₁ hw₂)) hzs)

/-- Putting items, one after another, into items that are in order. -/
theorem Linked.insertItems (hI : I.Linked) {f f' : Value} (hf : f.Linked (σ.Rel w) f') (pos : Position)
    {done done' : List Value} (hd : List.Forall₂ (Datum.Linked (σ.Rel w)) done done') {xs xs' : List Value}
    (hs : List.Forall₂ (Datum.Linked (σ.Rel w)) xs xs') :
    Eval.Linked σ w (Lists σ) (xs.foldlM (fun done x => I.insertItem f pos x done) done)
      (xs'.foldlM (fun done x => I.insertItem f' pos x done) done') := by
  induction xs generalizing w done done' xs' with
  | nil =>
    cases hs
    exact .pureGrows grows_lists hd
  | cons x xs ih =>
    obtain _ | ⟨hx, hs⟩ := hs
    rw [List.foldlM_cons, List.foldlM_cons]
    refine (hI.insertItem hf pos hx hd).bind fun w₁ hw₁ ys ys' hys => ?_
    exact ih (hf.grow hw₁) hys (forall₂_grow hs hw₁)

theorem Linked.sortItems (hI : I.Linked) {f f' : Value} (hf : f.Linked (σ.Rel w) f') (pos : Position)
    {xs xs' : List Value} (hs : List.Forall₂ (Datum.Linked (σ.Rel w)) xs xs') :
    Eval.Linked σ w (Lists σ) (I.sortItems f pos xs) (I.sortItems f' pos xs') :=
  hI.insertItems hf pos .nil hs

/-- A call that gives a value and leaves its first argument as it was. -/
theorem linked_gives {v v' : Value} (hv : v.Linked (σ.Rel w) v') :
    Eval.Linked σ w (Outcomes σ) (pure ⟨v, none⟩) (pure ⟨v', none⟩) :=
  .pureGrows grows_libraryOutcomes ⟨hv, .none⟩

/-- A function on the items of an array, by its name and its further arguments. -/
theorem Linked.onItems (hI : I.Linked) (name : String) {xs xs' : List Value}
    (hs : List.Forall₂ (Datum.Linked (σ.Rel w)) xs xs') {fname : String} {given given' : List (Slot Function)}
    {code : Option Function}
    (hf : (Datum.function fname given code : Value).Linked (σ.Rel w) (.function fname given' code))
    {rest rest' : List Value} (hr : List.Forall₂ (Datum.Linked (σ.Rel w)) rest rest') (pos : Position) :
    Option.Rel (Eval.Linked σ w (Outcomes σ))
      (I.callback? name (.array xs :: .function fname given code :: rest) pos)
      (I.callback? name (.array xs' :: .function fname given' code :: rest') pos) := by
  unfold Interpreter.callback?
  dsimp only
  split
  case h_1 =>
    cases hr
    refine .some ((hI.mapItems hf pos 0 hs).bind fun w₁ _ ys ys' hys => ?_)
    exact linked_gives (.array hys)
  case h_2 =>
    cases hr
    refine .some ((hI.filterItems hf pos 0 hs).bind fun w₁ _ ys ys' hys => ?_)
    exact linked_gives (.array hys)
  case h_3 =>
    cases hr
    refine .some ((hI.findItem hf true pos 0 hs).bind fun w₁ _ k _ hk => ?_)
    subst hk
    exact linked_gives (.plain trivial)
  case h_4 =>
    cases hr
    refine .some ((hI.findItem hf false pos 0 hs).bind fun w₁ _ k _ hk => ?_)
    subst hk
    exact linked_gives (.plain trivial)
  case h_5 =>
    cases hr
    refine .some ((hI.findItem hf true pos 0 hs).bind fun w₁ _ k _ hk => ?_)
    subst hk
    cases k with
    | some i => exact linked_gives (.plain trivial)
    | none => exact linked_gives (.plain trivial)
  case h_6 =>
    cases hr
    refine .some ((hI.mapItems hf pos 0 hs).bind fun w₁ _ ys ys' hys => ?_)
    exact linked_gives Datum.linked_unit
  case h_7 =>
    cases hr
    refine .some ((hI.reduceItems hf pos 0 Datum.linked_unit hs).bind fun w₁ _ v v' hv => ?_)
    exact linked_gives hv
  case h_8 =>
    obtain _ | ⟨hv, _ | _⟩ := hr
    refine .some ((hI.reduceItems hf pos 0 hv hs).bind fun w₁ _ v v' hv => ?_)
    exact linked_gives hv
  case h_9 =>
    cases hr
    refine .some ((hI.sortItems hf pos hs).bind fun w₁ _ ys ys' hys => ?_)
    exact .pureGrows grows_libraryOutcomes ⟨Datum.linked_unit, .some (.array hys)⟩
  case h_10 =>
    -- further arguments of another number on the left, and so on the right
    split
    all_goals first
      | exact .none
      | obtain _ | ⟨_, _ | _⟩ := hr
        all_goals simp_all

theorem callback?_of_no_function {vs : List Value}
    (h : ∀ xs fname given code rest, vs ≠ .array xs :: .function fname given code :: rest) (name : String)
    (pos : Position) : I.callback? name vs pos = none := by
  unfold Interpreter.callback?
  split
  · exact (h _ _ _ _ _ rfl).elim
  · rfl

theorem no_function_of_linked {R : Nat → Nat → Prop} {vs ws : List Value}
    (hl : List.Forall₂ (Datum.Linked R) vs ws)
    (h : ∀ xs fname given code rest, vs ≠ .array xs :: .function fname given code :: rest) :
    ∀ xs fname given code rest, ws ≠ .array xs :: .function fname given code :: rest := by
  rintro xs fname given code rest rfl
  obtain _ | ⟨ha, _ | ⟨hf, hr⟩⟩ := hl
  cases ha with
  | plain hp => exact hp
  | array hs =>
    cases hf with
    | plain hp => exact hp
    | function hg => exact h _ _ _ _ _ rfl

/-- **Functions on arrays that call back.** -/
theorem Linked.callback? (hI : I.Linked) (name : String) {vs ws : List Value}
    (h : List.Forall₂ (Datum.Linked (σ.Rel w)) vs ws) (pos : Position) :
    Option.Rel (Eval.Linked σ w (Outcomes σ)) (I.callback? name vs pos) (I.callback? name ws pos) := by
  by_cases other : ∀ xs fname given code rest, vs ≠ .array xs :: .function fname given code :: rest
  · rw [callback?_of_no_function other, callback?_of_no_function (no_function_of_linked h other)]
    exact .none
  · push Not at other
    obtain ⟨xs, fname, given, code, rest, rfl⟩ := other
    obtain _ | ⟨ha, _ | ⟨hf, hr⟩⟩ := h
    obtain ⟨xs', rfl⟩ := ha.of_array
    have function := hf
    cases hf with
    | plain hp => exact hp.elim
    | function hg => exact hI.onItems name ha.items function hr pos

theorem Linked.native? (hI : I.Linked) (name : String) {vs ws : List Value}
    (h : List.Forall₂ (Datum.Linked (σ.Rel w)) vs ws) (pos : Position) :
    Option.Rel (Eval.Linked σ w (Outcomes σ)) (I.native? name vs pos) (I.native? name ws pos) := by
  unfold Interpreter.native?
  obtain ⟨hx, hy⟩ | ⟨x, y, hx, hy, call⟩ := rel_cases (hI.callback? name h pos)
  · rw [hx, hy]
    exact linked_plainCall? name h pos
  · rw [hx, hy]
    exact .some call

/-- **The library is asked** for a function that takes linked values, and what it makes of them is linked. -/
theorem Linked.fromLibrary (hI : I.Linked) (name : String) {vs ws : List Value}
    (h : List.Forall₂ (Datum.Linked (σ.Rel w)) vs ws) (pos : Position)
    {after after' : Library.Outcome → Eval Value}
    (then_ : ∀ w₁, w ≤ w₁ → ∀ o o', o.Linked (σ.Rel w₁) o' → Eval.Linked σ w₁ σ.Values (after o) (after' o')) :
    Eval.Linked σ w σ.Values
      (match I.native? name vs pos with
        | none => Eval.failAt pos (Operation.unknown name vs)
        | some call => call >>= after)
      (match I.native? name ws pos with
        | none => Eval.failAt pos (Operation.unknown name ws)
        | some call => call >>= after') := by
  obtain ⟨hx, hy⟩ | ⟨x, y, hx, hy, call⟩ := rel_cases (hI.native? name h pos)
  · rw [hx, hy]
    exact .failAt (Operation.linked_unknown name h) pos
  · rw [hx, hy]
    exact call.bind then_

/-! ## §4 — calls by name -/

theorem linked_functionNamed (name : String) (pos : Position) :
    Eval.Linked σ w σ.Values (functionNamed name pos) (functionNamed name pos) := by
  unfold functionNamed
  split
  · exact .value (.function .nil)
  · exact .failSame (by nofun) pos

/-- **A call by name, with linked values.** -/
theorem Linked.callNamed (hI : I.Linked) (name : String) {vs ws : List Value}
    (h : List.Forall₂ (Datum.Linked (σ.Rel w)) vs ws) {p q : Option Place}
    (hp : Option.Rel (Place.Linked σ w) p q) (pos : Position) (here : Bool := false) :
    Eval.Linked σ w σ.Values (I.callNamed name vs p pos here) (I.callNamed name ws q pos here) := by
  unfold Interpreter.callNamed
  rw [h.length_eq]
  refine Eval.Linked.read.bind fun w₁ hw₁ c _ hc => ?_
  subst hc
  have hv := forall₂_grow h hw₁
  cases c.function? name ws.length with
  | some f => exact (hI.invoke f _ .none (forall₂_own hv) pos here).bind fun _ _ _ _ hr => Linked.returned hr
  | none =>
    refine hI.fromLibrary name hv pos fun w₂ hw₂ o o' ho => ?_
    obtain ⟨result, changed⟩ := o
    obtain ⟨result', changed'⟩ := o'
    obtain ⟨hr, hc⟩ := ho
    dsimp only at hr hc
    cases hc with
    | none => exact .value hr
    | some hu =>
      cases hp with
      | none => exact .value hr
      | some hp =>
        -- the variable that was the first argument becomes what the function left of it
        have written := Eval.Linked.modify fun m m' (hm : w₂ ≤ m.cells.size) hl =>
          Machine.Linked.write hl (hp.grow (Nat.le_trans hw₁ (Nat.le_trans hw₂ hm))) (hu.grow hm)
        exact written.bind fun w₃ hw₃ _ _ _ => .value (hr.grow hw₃)

/-- A variable as it is found, linked in the number of cells then. -/
abbrev Sightings (σ : Shift) (w : Nat) : Machine.Sighting → Machine.Sighting → Prop :=
  Machine.Sighting.Linked σ w

theorem grows_sightings : Grows (Sightings σ) :=
  fun _ _ _ _ hw h => ⟨h.value.grow hw, h.place.grow hw, h.constant⟩

theorem linked_sighting (name : String) (pos : Position) :
    Eval.Linked σ w (Sightings σ) (sighting name pos) (sighting name pos) := by
  refine Eval.Linked.get.bind fun w₁ hw₁ m m' ⟨hm, size⟩ => ?_
  subst size
  obtain ⟨hx, hy⟩ | ⟨x, y, hx, hy, found⟩ := rel_cases (hm.find? name)
  · rw [hx, hy]
    exact .failSame (by nofun) pos
  · rw [hx, hy]
    exact .pureGrows grows_sightings found

theorem linked_thisValue (pos : Position) : Eval.Linked σ w σ.Values (thisValue pos) (thisValue pos) := by
  refine Eval.Linked.get.bind fun w₁ hw₁ m m' ⟨hm, size⟩ => ?_
  subst size
  obtain ⟨hx, hy⟩ | ⟨x, y, hx, hy, hv⟩ := rel_cases hm.this
  · rw [hx, hy]
    exact .failSame (by nofun) pos
  · rw [hx, hy]
    exact .value hv

theorem linked_openPlace? {s t : Machine.Sighting} (h : s.Linked σ w t) :
    Option.Rel (Place.Linked σ w) (openPlace? s) (openPlace? t) := by
  obtain ⟨value, place, constant⟩ := h
  have root := place.root
  unfold openPlace?
  rw [constant]
  generalize s.place = p, t.place = q at place root
  obtain ⟨r, way⟩ := p
  obtain ⟨r', way'⟩ := q
  dsimp only at root
  cases root with
  | cell hij => exact .none
  | entry k =>
    dsimp only
    split
    · exact .none
    · exact .some place
  | this =>
    dsimp only
    split
    · exact .none
    · exact .some place

theorem Linked.values (hI : I.Linked) (es : List Expr) :
    Eval.Linked σ w (Lists σ) (es.mapM I.expr) (es.mapM I.expr) :=
  .mapM (fun e w₁ _ => hI.expr e w₁) es

/-- Arguments given in advance, added to a linked function. -/
theorem linked_curried {name : String} {code : Option Function} {given given' : List (Slot Function)}
    (hg : List.Forall₂ (Slot.Linked (σ.Rel w)) given given') {vs vs' : List Value}
    (hv : List.Forall₂ (Datum.Linked (σ.Rel w)) vs vs') :
    Datum.Linked (σ.Rel w) (.function name (given ++ vs.map .own) code)
      (.function name (given' ++ vs'.map .own) code) :=
  .function (List.rel_append hg (forall₂_own hv))

/-- **A call in a scope of its own.** -/
theorem Linked.callApart (hI : I.Linked) (name : String) (arguments : List Expr) (pos : Position) :
    Eval.Linked σ w σ.Values (I.callApart name arguments pos) (I.callApart name arguments pos) := by
  unfold Interpreter.callApart
  split
  · -- a variable as the first argument is looked at last
    refine (hI.values _).bind fun w₁ hw₁ vs vs' hvs => ?_
    refine (linked_sighting _ _).bind fun w₂ hw₂ s t hs => ?_
    exact hI.callNamed _ (.cons hs.value (forall₂_grow hvs hw₂)) (linked_openPlace? hs) pos
  · -- and so is the value the function was called on
    refine (hI.values _).bind fun w₁ hw₁ vs vs' hvs => ?_
    refine (linked_thisValue _).bind fun w₂ hw₂ v v' hv => ?_
    exact hI.callNamed _ (.cons hv (forall₂_grow hvs hw₂)) (.some ⟨.this, rfl⟩) pos
  · refine (hI.values _).bind fun w₁ hw₁ vs vs' hvs => ?_
    exact hI.callNamed _ hvs .none pos

/-- **A call in the scope of the caller**, which has variables on both sides or on neither. -/
theorem Linked.callHere (hI : I.Linked) (name : String) (arguments : List Expr) (pos : Position) :
    Eval.Linked σ w σ.Values (I.callHere name arguments pos) (I.callHere name arguments pos) := by
  refine Eval.Linked.get.bind fun w₁ hw₁ m m' ⟨hm, _⟩ => ?_
  rw [hm.scope.isEmpty]
  split
  · exact hI.callApart name arguments pos
  · refine (hI.values _).bind fun w₂ hw₂ vs vs' hvs => ?_
    exact hI.callNamed _ hvs .none pos true

/-- **A call in the code** is in step with itself. -/
theorem Linked.call (hI : I.Linked) (name : String) (arguments : List Expr) (pos : Position) (here : Bool) :
    Eval.Linked σ w σ.Values (I.call name arguments pos here) (I.call name arguments pos here) := by
  unfold Interpreter.call
  split
  · -- `call`, a function value first
    refine (hI.expr _ w).bind fun w₁ hw₁ v v' hv => ?_
    cases hv with
    | plain hp => cases v <;> first | exact linked_mismatch _ (.plain hp) _ | exact hp.elim
    | array hs => exact linked_mismatch _ (.array hs) _
    | object hn hs => exact linked_mismatch _ (.object hn hs) _
    | @function name given given' code hg =>
      refine (hI.values _).bind fun w₂ hw₂ vs vs' hvs => ?_
      exact hI.callForValue name (forall₂_slot_grow hg hw₂) code .none hvs pos here
  · -- `Fn`, the name of a function
    refine (hI.expr _ w).bind fun w₁ hw₁ v v' hv => ?_
    cases hv with
    | plain hp => cases v <;> first | exact linked_functionNamed _ _ | exact linked_mismatch _ (.plain hp) _
    | array hs => exact linked_mismatch _ (.array hs) _
    | object hn hs => exact linked_mismatch _ (.object hn hs) _
    | function hg => exact linked_mismatch _ (.function hg) _
  · -- `curry`, arguments given in advance
    refine (hI.expr _ w).bind fun w₁ hw₁ v v' hv => ?_
    cases hv with
    | plain hp => cases v <;> first | exact linked_mismatch _ (.plain hp) _ | exact hp.elim
    | array hs => exact linked_mismatch _ (.array hs) _
    | object hn hs => exact linked_mismatch _ (.object hn hs) _
    | @function name given given' code hg =>
      refine (hI.values _).bind fun w₂ hw₂ vs vs' hvs => ?_
      exact .value (linked_curried (forall₂_slot_grow hg hw₂) hvs)
  · -- `is_shared`, which a variable in a cell is
    refine (hI.expr _ w).bind fun w₁ hw₁ _ _ _ => ?_
    split
    · refine (linked_sighting _ _).bind fun w₂ hw₂ s t hs => ?_
      have root := hs.place.root
      generalize s.place.root = r, t.place.root = r' at root
      cases root with
      | cell => exact .value (.plain trivial)
      | entry => exact .value (.plain trivial)
      | this => exact .value (.plain trivial)
    · exact .value (.plain trivial)
  · split
    · exact hI.callHere _ _ pos
    · exact hI.callApart _ _ pos

/-! ## §5 — calls of methods -/

/-- What a chain has come to, linked. -/
structure Standing.Linked (σ : Shift) (w : Nat) (s t : Standing) : Prop where
  value : s.value.Linked (σ.Rel w) t.value
  place : Option.Rel (Place.Linked σ w) s.place t.place
  constant : t.constant = s.constant

/-- What a chain has come to, linked in the number of cells then. -/
abbrev Standings (σ : Shift) (w : Nat) : Standing → Standing → Prop := Standing.Linked σ w

theorem place_grow {p q : Option Place} (h : Option.Rel (Place.Linked σ w) p q) (hw : w ≤ w₁) :
    Option.Rel (Place.Linked σ w₁) p q := by
  cases h with
  | none => exact .none
  | some h => exact .some (h.grow hw)

theorem grows_standings : Grows (Standings σ) :=
  fun _ _ _ _ hw h => ⟨h.value.grow hw, place_grow h.place hw, h.constant⟩

theorem Standing.Linked.become {s t : Standing} (h : s.Linked σ w t) {v v' : Value}
    (hv : v.Linked (σ.Rel w) v') : Eval.Linked σ w Same (s.become v) (t.become v') := by
  unfold Standing.become
  rw [h.constant]
  obtain ⟨hx, hy⟩ | ⟨p, q, hx, hy, hp⟩ := rel_cases h.place
  · rw [hx, hy]
    exact .same _
  · rw [hx, hy]
    dsimp only
    split
    · exact .same _
    · exact .modify fun m m' hw hm => hm.write (hp.grow hw) (hv.grow hw)

theorem Standing.Linked.settle {s t : Standing} (h : s.Linked σ w t) {r r' : Returned}
    (hr : r.Linked (σ.Rel w) r') : Eval.Linked σ w σ.Values (s.settle r) (t.settle r') := by
  unfold Standing.settle
  have result : ∀ w₁, w ≤ w₁ → Eval.Linked σ w₁ σ.Values (Eval.resume r.outcome) (Eval.resume r'.outcome) :=
    fun w₁ hw₁ => .resume fun w₂ hw₂ => grows_outcomes grows_values (Nat.le_trans hw₁ hw₂) hr.outcome
  obtain ⟨hx, hy⟩ | ⟨v, v', hx, hy, hv⟩ := rel_cases hr.this
  · rw [hx, hy]
    exact result w (Nat.le_refl _)
  · rw [hx, hy]
    exact (h.become hv).bind fun w₁ hw₁ _ _ _ => result w₁ hw₁

theorem fieldFunction?_of_linked {R : Nat → Nat → Prop} {v v' : Value} (h : v.Linked R v') (name : String) :
    Option.Rel (fun a b => a.1 = b.1 ∧ List.Forall₂ (Slot.Linked R) a.2.1 b.2.1 ∧ a.2.2 = b.2.2)
      (fieldFunction? v name) (fieldFunction? v' name) := by
  cases h with
  | plain hp => cases v <;> first | exact .none | exact hp.elim
  | array => exact .none
  | function => exact .none
  | object hn hs =>
    unfold fieldFunction?
    dsimp only
    obtain ⟨hx, hy⟩ | ⟨f, f', hx, hy, hf⟩ := rel_cases (FieldsLinked.field? (Datum.Linked.object hn hs).fields name)
    · rw [hx, hy]
      exact .none
    · rw [hx, hy]
      cases hf with
      | plain hp => cases f <;> first | exact .none | exact hp.elim
      | array => exact .none
      | object => exact .none
      | function hg => exact .some ⟨rfl, hg, rfl⟩

/-- A method that is a function of the script, or of the library. -/
theorem Linked.methodNamed (hI : I.Linked) {s t : Standing} (h : s.Linked σ w t) (name : String)
    {vs vs' : List Value} (hs : List.Forall₂ (Datum.Linked (σ.Rel w)) vs vs') (pos : Position) :
    Eval.Linked σ w σ.Values (I.methodNamed s name vs pos) (I.methodNamed t name vs' pos) := by
  unfold Interpreter.methodNamed
  rw [hs.length_eq]
  refine Eval.Linked.read.bind fun w₁ hw₁ c _ hc => ?_
  subst hc
  have h₁ := grows_standings hw₁ h
  have hv := forall₂_grow (.cons h.value hs) hw₁
  cases c.function? name vs'.length with
  | some f =>
    refine (hI.invoke f _ (.some h₁.value) (forall₂_own (forall₂_grow hs hw₁)) pos).bind fun w₂ hw₂ r r' hr => ?_
    exact (grows_standings hw₂ h₁).settle hr
  | none =>
    refine hI.fromLibrary name hv pos fun w₂ hw₂ o o' ho => ?_
    obtain ⟨result, changed⟩ := o
    obtain ⟨result', changed'⟩ := o'
    obtain ⟨hr, hc⟩ := ho
    dsimp only at hr hc
    cases hc with
    | none => exact .value hr
    | some hu =>
      have become := ((grows_standings hw₂ h₁).become hu).bind
        fun w₃ hw₃ _ _ _ => Eval.Linked.value (hr.grow hw₃)
      dsimp only
      rw [h.constant]
      split
      · exact (Eval.Linked.failSame (A := Same) (by nofun) pos).bind fun _ hw₃ _ _ _ => become.from hw₃
      · exact become

theorem Linked.methodOf (hI : I.Linked) {s t : Standing} (h : s.Linked σ w t) (name : String)
    {vs vs' : List Value} (hs : List.Forall₂ (Datum.Linked (σ.Rel w)) vs vs') (pos : Position) :
    Eval.Linked σ w σ.Values (I.methodOf s name vs pos) (I.methodOf t name vs' pos) := by
  unfold Interpreter.methodOf
  obtain ⟨hx, hy⟩ | ⟨⟨f, given, code⟩, ⟨f', given', code'⟩, hx, hy, hn, hg, hc⟩ :=
    rel_cases (fieldFunction?_of_linked h.value name)
  · rw [hx, hy]
    exact hI.methodNamed h name hs pos
  · rw [hx, hy]
    dsimp only at hn hc
    subst hn
    subst hc
    refine (hI.callValue f hg code (.some h.value) hs pos).bind fun w₁ hw₁ r r' hr => ?_
    exact (grows_standings hw₁ h).settle hr

theorem isCell_of_linked {p q : Option Place} (h : Option.Rel (Place.Linked σ w) p q) :
    isCell q = isCell p := by
  cases h with
  | none => rfl
  | @some p q hp =>
    obtain ⟨r, way⟩ := p
    obtain ⟨r', way'⟩ := q
    obtain ⟨root, inward⟩ := hp
    obtain rfl : way' = way := inward
    dsimp only at root
    cases root with
    | entry => rfl
    | this => rfl
    | cell => cases way' <;> rfl

/-- **A call of a method** is in step, when what it is called on and with is linked. -/
theorem Linked.method (hI : I.Linked) {s t : Standing} (h : s.Linked σ w t) (name : String)
    {vs vs' : List Value} (hs : List.Forall₂ (Datum.Linked (σ.Rel w)) vs vs') (pos : Position) :
    Eval.Linked σ w σ.Values (I.method s name vs pos) (I.method t name vs' pos) := by
  have other := hI.methodOf h name hs pos
  have shared := isCell_of_linked h.place
  obtain ⟨v, p, b⟩ := s
  obtain ⟨v', q, b'⟩ := t
  have hv := h.value
  dsimp only at hv
  unfold Interpreter.method
  dsimp only
  split
  case h_1 =>
    cases hv with
    | plain hp => exact hp.elim
    | function hg => exact hI.callForValue _ hg _ .none hs pos
  case h_2 f given code rest noFunction =>
    obtain _ | ⟨hf, hr⟩ := hs
    cases hf with
    | plain hp => exact hp.elim
    | @function _ _ given' _ hg =>
      have called := (hI.callValue f hg code (.some hv) hr pos).bind
        fun w₁ hw₁ r r' hr => (grows_standings hw₁ h).settle hr
      split
      · cases hv with
        | plain hp => exact hp.elim
        | function => exact (noFunction _ _ _ rfl).elim
      · rename_i e
        cases e
        exact called
      · rename_i noArgument
        exact (noArgument _ _ _ _ rfl).elim
      all_goals simp_all
  case h_3 noFunction noArgument =>
    split
    · cases hv with
      | plain hp => exact hp.elim
      | function => exact (noFunction _ _ _ rfl).elim
    · obtain _ | ⟨hf, hr⟩ := hs
      cases hf with
      | plain hp => exact hp.elim
      | function => exact (noArgument _ _ _ _ rfl).elim
    · exact linked_mismatch _ hv pos
    all_goals simp_all
  case h_4 =>
    cases hv with
    | plain hp => exact hp.elim
    | function hg => exact .value (linked_curried hg hs)
  case h_5 =>
    cases hs
    rw [shared]
    exact .value (.plain trivial)
  case h_6 =>
    split
    all_goals first
      | exact other
      | (simp_all; done)
      | (cases hs; simp_all; done)
      | (cases hv <;> simp_all)

end Interpreter

end Dialogue.Script
