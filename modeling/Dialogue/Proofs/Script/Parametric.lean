import Dialogue.Proofs.Script.Parametric.Call
import Dialogue.Script.Evaluator
/-!
# `Dialogue.Proofs.Script.Parametric` — scripts on machines in step.

Code holds no cells, so each kind of expression and statement is in step with itself, provided that its parts are. By
induction on the depth of nesting, the interpreter is. Main statement: a script that runs on machines in step asks
the same questions on both, and ends in the same way, with linked values, on machines in step.
-/

namespace Dialogue.Script

variable {σ : Shift} {w w₁ : Nat}

namespace Interpreter

variable {I : Interpreter}

/-! ## §1 — expressions -/

theorem Linked.condition (hI : I.Linked) (e : Expr) : Eval.Linked σ w Same (I.condition e) (I.condition e) := by
  refine (hI.expr e w).bind fun w₁ hw₁ v v' hv => ?_
  cases hv with
  | plain hp => cases v <;> first | exact .same _ | exact linked_mismatch _ (.plain hp) _
  | array hs => exact linked_mismatch _ (.array hs) _
  | object hn hs => exact linked_mismatch _ (.object hn hs) _
  | function hg => exact linked_mismatch _ (.function hg) _

/-- Lists of fields, linked in the number of cells then. -/
abbrev Fields (σ : Shift) (w : Nat) : List (String × Value) → List (String × Value) → Prop := FieldsLinked (σ.Rel w)

theorem grows_fields : Grows (Fields σ) := fun _ _ _ _ hw h => h.imp fun _ _ hf => ⟨hf.1, hf.2.grow hw⟩

theorem Linked.fields (hI : I.Linked) (fs : List (String × Expr)) :
    Eval.Linked σ w (Fields σ) (I.fields fs) (I.fields fs) := by
  induction fs generalizing w with
  | nil => exact .pure fun _ _ => .nil
  | cons f fs ih =>
    refine (hI.expr f.2 w).bind fun w₁ hw₁ v v' hv => ih.bind fun w₂ hw₂ gs gs' hgs => ?_
    exact .pureGrows grows_fields (.cons ⟨rfl, hv.grow hw₂⟩ hgs)

theorem Linked.operation (hI : I.Linked) (op : String) (operands : List Expr) (pos : Position) :
    Eval.Linked σ w σ.Values (I.operation op operands pos) (I.operation op operands pos) := by
  unfold Interpreter.operation
  split
  · exact hI.call _ _ pos false
  · refine (hI.expr _ w).bind fun w₁ hw₁ v v' hv => ?_
    exact linked_orFail grows_values pos (Operation.linked_unary _ hv)
  · refine (hI.expr _ w).bind fun w₁ hw₁ v v' hv => (hI.expr _ w₁).bind fun w₂ hw₂ u u' hu => ?_
    exact linked_orFail grows_values pos (Operation.linked_binary _ (hv.grow hw₂) hu)
  · refine (hI.values _).bind fun w₁ hw₁ vs vs' hvs => ?_
    exact linked_orFail grows_values pos (.error (Operation.linked_unknown _ hvs))

/-- Lists of slots, linked in the number of cells then. -/
abbrev Slots (σ : Shift) (w : Nat) : List (Slot Function) → List (Slot Function) → Prop :=
  List.Forall₂ (Slot.Linked (σ.Rel w))

theorem grows_slots : Grows (Slots σ) := fun _ _ _ _ hw h => forall₂_slot_grow h hw

/-- **What a closure captures** is shared alike. -/
theorem linked_share (names : List (String × Position)) :
    Eval.Linked σ w (Slots σ) (share names) (share names) := by
  induction names generalizing w with
  | nil => exact .pure fun _ _ => .nil
  | cons n names ih =>
    intro c m m' hw hm
    unfold share
    rw [Eval.runOn_get_bind, Eval.runOn_get_bind]
    obtain ⟨hx, hy⟩ | ⟨⟨i, m₁⟩, ⟨j, m₁'⟩, hx, hy, hij, hm₁, size⟩ := rel_cases (hm.share? n.1)
    · simp only [hx, hy]
      exact Eval.Linked.failSame (by nofun) n.2 c m m' hw hm
    · simp only [hx, hy]
      dsimp only at hij hm₁ size
      -- the variable is a cell from now on, and the names after it see one more cell
      have rest := (ih (w := m₁.cells.size)).bind fun w₁ hw₁ ss ss' hs =>
        Eval.Linked.pureGrows grows_slots (List.Forall₂.cons (Slot.Linked.cell (hij.mono hw₁)) hs)
      refine (rest c m₁ m₁' (Nat.le_refl _) hm₁).mono ?_
      exact fun _ _ hr => ⟨Nat.le_trans size hr.grown, hr.outcome, hr.machine⟩

/-! ## §2 — chains -/

/-- Steps of a chain with linked arguments and indices. -/
inductive Prepared.Linked (R : Nat → Nat → Prop) : Prepared → Prepared → Prop
  | property (name : String) (pos : Position) (optional : Bool) :
      Prepared.Linked R (.property name pos optional) (.property name pos optional)
  | index {k k' : Value} (h : k.Linked R k') (start bracket : Position) (optional : Bool) :
      Prepared.Linked R (.index k start bracket optional) (.index k' start bracket optional)
  | method (name : String) {vs vs' : List Value} (h : List.Forall₂ (Datum.Linked R) vs vs') (pos : Position)
      (optional : Bool) : Prepared.Linked R (.method name vs pos optional) (.method name vs' pos optional)

theorem Prepared.Linked.grow {p q : Prepared} (h : p.Linked (σ.Rel w) q) (hw : w ≤ w₁) : p.Linked (σ.Rel w₁) q := by
  cases h with
  | property => exact .property ..
  | index h => exact .index (h.grow hw) ..
  | method name h => exact .method name (forall₂_grow h hw) ..

theorem Prepared.Linked.optional {R : Nat → Nat → Prop} {p q : Prepared} (h : p.Linked R q) :
    q.optional = p.optional := by
  cases h <;> rfl

/-- Steps of a chain, linked in the number of cells then. -/
abbrev Steps (σ : Shift) (w : Nat) : List Prepared → List Prepared → Prop :=
  List.Forall₂ (Prepared.Linked (σ.Rel w))

theorem grows_steps : Grows (Steps σ) := fun _ _ _ _ hw h => h.imp fun _ _ hp => hp.grow hw

theorem Linked.prepare (hI : I.Linked) (steps : List Step) :
    Eval.Linked σ w (Steps σ) (I.prepare steps) (I.prepare steps) := by
  induction steps generalizing w with
  | nil => exact .pure fun _ _ => .nil
  | cons step steps ih =>
    cases step with
    | property name pos bang optional =>
      exact ih.bind fun w₁ hw₁ ps ps' hps => .pureGrows grows_steps (.cons (.property ..) hps)
    | index key bracket optional =>
      refine (hI.expr key w).bind fun w₁ hw₁ k k' hk => ih.bind fun w₂ hw₂ ps ps' hps => ?_
      exact .pureGrows grows_steps (.cons (.index (hk.grow hw₂) ..) hps)
    | method name arguments pos bang optional =>
      refine (hI.values arguments).bind fun w₁ hw₁ vs vs' hvs => ih.bind fun w₂ hw₂ ps ps' hps => ?_
      exact .pureGrows grows_steps (.cons (.method name (forall₂_grow hvs hw₂) ..) hps)

theorem Linked.chainRoot (hI : I.Linked) (root : Expr) :
    Eval.Linked σ w (Standings σ) (I.chainRoot root) (I.chainRoot root) := by
  unfold Interpreter.chainRoot
  split
  · refine (linked_sighting _ _).bind fun w₁ hw₁ s t hs => ?_
    exact .pureGrows grows_standings ⟨hs.value, .some hs.place, hs.constant⟩
  · refine (linked_thisValue _).bind fun w₁ hw₁ v v' hv => ?_
    exact .pureGrows grows_standings ⟨hv, .some ⟨.this, rfl⟩, rfl⟩
  · refine (hI.expr _ w).bind fun w₁ hw₁ v v' hv => ?_
    exact .pureGrows grows_standings ⟨hv, .none, rfl⟩

theorem linked_placeInto {p q : Option Place} (h : Option.Rel (Place.Linked σ w) p q) (step : Inward) :
    Option.Rel (Place.Linked σ w) (p.map (·.into step)) (q.map (·.into step)) := by
  cases h with
  | none => exact .none
  | some h => exact .some (h.into step)

theorem Standing.Linked.into {s t : Standing} (h : s.Linked σ w t) {f g : Access.Found} (hf : f.Linked (σ.Rel w) g) :
    (s.into f).Linked σ w (t.into g) := by
  unfold Standing.into
  rw [hf.inward]
  cases f.inward with
  | none => exact ⟨hf.value, .none, rfl⟩
  | some step => exact ⟨hf.value, linked_placeInto h.place step, h.constant⟩

/-- Steps into values, linked in the number of cells then. -/
abbrev Founds (σ : Shift) (w : Nat) : Access.Found → Access.Found → Prop := Access.Found.Linked (σ.Rel w)

theorem grows_founds : Grows (Founds σ) := fun _ _ _ _ hw h => ⟨h.value.grow hw, h.inward⟩

theorem linked_orFailIndex {α β : Type} {A : Nat → α → β → Prop} (hA : Grows A) (start bracket : Position)
    {r : Except Cause α} {r' : Except Cause β} (h : ResultRel (σ.Rel w) (A w) r r') :
    Eval.Linked σ w A (orFailIndex start bracket r) (orFailIndex start bracket r') := by
  cases h with
  | ok ha => exact .pureGrows hA ha
  | @error cause cause' hc =>
    cases hc with
    | thrown hv => exact .failAt (.thrown hv) start
    | same hs =>
      cases cause <;> first | exact .failAt (.same hs) bracket | exact .failAt (.same hs) start

/-- Standings that may be absent, linked in the number of cells then. -/
abbrev Reached (σ : Shift) (w : Nat) : Option Standing → Option Standing → Prop := Option.Rel (Standings σ w)

theorem grows_reached : Grows (Reached σ) := by
  intro w₁ w₂ a b hw h
  cases h with
  | none => exact .none
  | some h => exact .some (grows_standings hw h)

theorem Prepared.Linked.endsAt {R : Nat → Nat → Prop} {p q : Prepared} (h : p.Linked R q) {v v' : Value}
    (hv : v.Linked R v') : q.endsAt v' = p.endsAt v := by
  unfold Prepared.endsAt
  rw [h.optional]
  cases hv <;> rfl

/-- **A property of linked values.** -/
theorem linked_propertyOf {v v' : Value} (h : v.Linked (σ.Rel w) v') (name : String) (pos : Position) :
    Eval.Linked σ w (Founds σ) (propertyOf v name pos) (propertyOf v' name pos) := by
  have other := linked_orFail grows_founds pos (Access.linked_property h name)
  cases h with
  | plain hp =>
    unfold propertyOf
    split
    · exact (linked_elapsed _ pos).bind fun w₁ _ u u' hu => .pureGrows grows_founds (Access.linked_copy hu)
    · exact other
  | array => exact other
  | object => exact other
  | function => exact other

/-- **One linked step** from a linked value leads to a linked one. -/
theorem Linked.advance (hI : I.Linked) {s t : Standing} (h : s.Linked σ w t) {p p' : Prepared}
    (hp : p.Linked (σ.Rel w) p') : Eval.Linked σ w (Standings σ) (I.advance s p) (I.advance t p') := by
  cases hp with
  | property name pos =>
    refine (linked_propertyOf h.value name pos).bind fun w₁ hw₁ f g hf => ?_
    exact .pureGrows grows_standings ((grows_standings hw₁ h).into hf)
  | index hk start bracket =>
    refine (linked_orFailIndex grows_founds start bracket (Access.linked_element h.value hk)).bind
      fun w₁ hw₁ f g hf => ?_
    exact .pureGrows grows_standings ((grows_standings hw₁ h).into hf)
  | method name hs pos =>
    refine (hI.method h name hs pos).bind fun w₁ hw₁ v v' hv => ?_
    exact .pureGrows grows_standings ⟨hv, .none, rfl⟩

/-- **Going through linked steps** from a linked value leads to a linked one, or ends on both sides. -/
theorem Linked.walk (hI : I.Linked) {s t : Standing} (h : s.Linked σ w t) {ps ps' : List Prepared}
    (hp : Steps σ w ps ps') : Eval.Linked σ w (Reached σ) (I.walk s ps) (I.walk t ps') := by
  induction ps generalizing w s t ps' with
  | nil =>
    cases hp
    exact .pureGrows grows_reached (.some h)
  | cons p ps ih =>
    obtain _ | ⟨hp, hps⟩ := hp
    unfold Interpreter.walk
    rw [hp.endsAt h.value]
    split
    · exact .pureGrows grows_reached .none
    · exact (hI.advance h hp).bind fun w₁ hw₁ s₁ t₁ h₁ => ih h₁ (grows_steps hw₁ hps)

theorem Linked.chain (hI : I.Linked) (root : Expr) (steps : List Step) :
    Eval.Linked σ w σ.Values (I.chain root steps) (I.chain root steps) := by
  refine (hI.prepare steps).bind fun w₁ hw₁ ps ps' hps => (hI.chainRoot root).bind fun w₂ hw₂ s t hs => ?_
  refine (hI.walk hs (grows_steps hw₂ hps)).bind fun w₃ hw₃ r r' hr => ?_
  cases hr with
  | none => exact .value Datum.linked_unit
  | some h => exact .value h.value

/-- **An expression is in step with itself**, when its parts are. -/
theorem Linked.evaluate (hI : I.Linked) (e : Expr) :
    Eval.Linked σ w σ.Values (I.evaluate e) (I.evaluate e) := by
  unfold Interpreter.evaluate
  split
  · exact .value (Datum.linked_ofConstant _)
  · exact (linked_sighting _ _).bind fun w₁ _ s t hs => .value hs.value
  · exact linked_thisValue _
  · refine (hI.values _).bind fun w₁ hw₁ vs vs' hvs => ?_
    rw [Datum.map_scriptText hvs]
    exact .value (.plain trivial)
  · exact (hI.values _).bind fun w₁ _ vs vs' hvs => .value (.array hvs)
  · exact (hI.fields _).bind fun w₁ _ fs fs' hfs => .value (.objects (FieldsLinked.ofFields hfs))
  · exact hI.operation _ _ _
  · exact hI.call _ _ _ _
  · refine (hI.condition _).bind fun w₁ hw₁ b _ hb => ?_
    subst hb
    split
    · exact (hI.condition _).bind fun w₂ _ b _ hb => hb ▸ .value (.plain trivial)
    · exact .value (.plain trivial)
  · refine (hI.condition _).bind fun w₁ hw₁ b _ hb => ?_
    subst hb
    split
    · exact .value (.plain trivial)
    · exact (hI.condition _).bind fun w₂ _ b _ hb => hb ▸ .value (.plain trivial)
  · refine (hI.expr _ w).bind fun w₁ hw₁ v v' hv => ?_
    cases hv with
    | plain hp => cases v <;> first | exact hI.expr _ _ | exact .value (.plain hp)
    | array hs => exact .value (.array hs)
    | object hn hs => exact .value (.object hn hs)
    | function hg => exact .value (.function hg)
  · exact hI.chain _ _
  · exact (linked_share _).bind fun w₁ _ ss ss' hs => .value (.function hs)
  · exact hI.block _

/-! ## §3 — assignments -/

theorem linked_assignedValue (op : Option String) {v v' u u' : Value} (hv : v.Linked (σ.Rel w) v')
    (hu : u.Linked (σ.Rel w) u') (pos : Position) :
    Eval.Linked σ w σ.Values (assignedValue op v u pos) (assignedValue op v' u' pos) := by
  cases op with
  | none => exact .value hu
  | some op => exact linked_orFail grows_values pos (Operation.linked_assigned op hv hu)

theorem linked_assignable {s t : Standing} (h : s.Linked σ w t) (op : Option String) {u u' : Value}
    (hu : u.Linked (σ.Rel w) u') {p p' : Prepared} (hp : p.Linked (σ.Rel w) p') :
    Eval.Linked σ w (Founds σ) (assignable s op u p) (assignable t op u' p') := by
  cases hp with
  | property name pos =>
    cases op with
    | none => exact linked_orFail grows_founds pos (Access.linked_writable h.value name hu)
    | some op =>
      refine (linked_propertyOf h.value name pos).bind fun w₁ hw₁ _ _ _ => ?_
      have later := Access.linked_writable (h.value.grow hw₁) name (hu.grow hw₁)
      exact linked_orFail grows_founds pos later
  | index hk start bracket => exact linked_orFailIndex grows_founds start bracket (Access.linked_writableAt h.value hk)
  | method => exact .pureGrows grows_founds (Access.linked_copy Datum.linked_unit)

theorem linked_constantFault (root : Expr) :
    Eval.Linked σ w Same (constantFault root) (constantFault root) := by
  unfold constantFault
  split
  · exact .failSame (by nofun) _
  · exact .failSame (by nofun) _

/-- A value whose place may not be written is not written. -/
theorem linked_guard {b b' : Bool} (hb : b' = b) {x y : Eval Unit} (h : Eval.Linked σ w Same x y)
    {k l : Eval Unit} (hk : Eval.Linked σ w Same k l) :
    Eval.Linked σ w Same (if b then x >>= fun _ => k else k) (if b' then y >>= fun _ => l else l) := by
  subst hb
  split
  · exact h.bind fun w₁ hw₁ _ _ _ => hk.from hw₁
  · exact hk

theorem linked_assignStep {s t : Standing} (h : s.Linked σ w t) {p p' : Prepared}
    (hp : p.Linked (σ.Rel w) p') (root : Expr) (op : Option String) {u u' : Value} (hu : u.Linked (σ.Rel w) u')
    (pos : Position) :
    Eval.Linked σ w Same (assignStep s p (constantFault root) op u pos)
      (assignStep t p' (constantFault root) op u' pos) := by
  refine (linked_assignable h op hu hp).bind fun w₁ hw₁ f g hf => ?_
  refine linked_guard h.constant (linked_constantFault root) ?_
  refine (linked_assignedValue op hf.value (hu.grow hw₁) pos).bind fun w₂ hw₂ v v' hv => ?_
  rw [hf.inward]
  refine (linked_orFail grows_same pos (Access.linked_checkWritten f.inward hv)).bind fun w₃ hw₃ _ _ _ => ?_
  cases f.inward with
  | none => exact .same _
  | some step =>
    have standing : Standing.Linked σ w₃ { s with place := s.place.map (·.into step) }
        { t with place := t.place.map (·.into step) } := by
      have later := grows_standings (Nat.le_trans hw₁ (Nat.le_trans hw₂ hw₃)) h
      exact ⟨later.value, linked_placeInto later.place step, later.constant⟩
    exact standing.become (hv.grow hw₃)

/-- **An assignment is in step with itself.** -/
theorem Linked.assign (hI : I.Linked) (target : Expr) (op : Option String) (value : Expr) (pos : Position) :
    Eval.Linked σ w Same (I.assign target op value pos) (I.assign target op value pos) := by
  refine (hI.expr value w).bind fun w₁ hw₁ u u' hu => ?_
  split
  · refine (hI.prepare _).bind fun w₂ hw₂ ps ps' hps => (hI.chainRoot _).bind fun w₃ hw₃ s t hs => ?_
    -- the last step is written, those before it are only walked
    have reversed := List.rel_reverse (grows_steps hw₃ hps)
    have hu₃ := hu.grow (Nat.le_trans hw₂ hw₃)
    generalize ps.reverse = qs, ps'.reverse = qs' at reversed
    cases reversed with
    | nil => exact .same _
    | cons hlast hbefore =>
      refine (hI.walk hs (List.rel_reverse hbefore)).bind fun w₄ hw₄ r r' hr => ?_
      cases hr with
      | none => exact .same _
      | some h =>
        have last := hlast.grow hw₄
        dsimp only
        rw [last.endsAt h.value]
        split
        · exact .same _
        · exact linked_assignStep h last _ op (hu₃.grow hw₄) pos
  · refine (hI.chainRoot _).bind fun w₂ hw₂ s t hs => ?_
    refine linked_guard hs.constant (linked_constantFault _) ?_
    refine (linked_assignedValue op hs.value (hu.grow hw₂) pos).bind fun w₃ hw₃ v v' hv => ?_
    exact (grows_standings hw₃ hs).become hv

/-! ## §4 — loops -/

/-- Rounds that go on, or stop with linked values. -/
inductive Round.Linked (R : Nat → Nat → Prop) : Round → Round → Prop
  | next : Round.Linked R .next .next
  | stop {v v' : Value} (h : v.Linked R v') : Round.Linked R (.stop v) (.stop v')

/-- Rounds, linked in the number of cells then. -/
abbrev Rounds (σ : Shift) (w : Nat) : Round → Round → Prop := Round.Linked (σ.Rel w)

theorem grows_rounds : Grows (Rounds σ) := by
  intro w₁ w₂ a b hw h
  cases h with
  | next => exact .next
  | stop h => exact .stop (h.grow hw)

theorem Linked.round (hI : I.Linked) (body : List Stmt) :
    Eval.Linked σ w (Rounds σ) (I.round body) (I.round body) := by
  refine (hI.block body).outcome.bind fun w₁ hw₁ r r' hr => ?_
  cases hr with
  | ok => exact .pureGrows grows_rounds .next
  | error hs =>
    cases hs with
    | proceed => exact .pureGrows grows_rounds .next
    | leave hv => exact .pureGrows grows_rounds (.stop hv)
    | fault hf => exact .throw (.fault hf)
    | giveBack hv => exact .throw (.giveBack hv)

theorem tooComplex_same (v : Value) : Cause.tooComplex ≠ .thrown v := by nofun

/-- **A loop that tests before each round**, of steps that are in step with themselves. -/
theorem linked_loopWhile {cond : Eval Bool} (hc : ∀ w, Eval.Linked σ w Same cond cond) {body : Eval Round}
    (hb : ∀ w, Eval.Linked σ w (Rounds σ) body body) (rounds : Nat) :
    Eval.Linked σ w σ.Values (loopWhile cond body rounds) (loopWhile cond body rounds) := by
  induction rounds generalizing w with
  | zero => exact .fail (.same tooComplex_same) none
  | succ n ih =>
    refine (hc w).bind fun w₁ _ b _ e => ?_
    subst e
    split
    · refine (hb w₁).bind fun w₂ _ r r' hr => ?_
      cases hr with
      | next => exact ih
      | stop hv => exact .value hv
    · exact .value Datum.linked_unit

theorem linked_loopUntil {cond : Eval Bool} (hc : ∀ w, Eval.Linked σ w Same cond cond) {body : Eval Round}
    (hb : ∀ w, Eval.Linked σ w (Rounds σ) body body) (rounds : Nat) :
    Eval.Linked σ w σ.Values (loopUntil cond body rounds) (loopUntil cond body rounds) := by
  induction rounds generalizing w with
  | zero => exact .fail (.same tooComplex_same) none
  | succ n ih =>
    refine (hb w).bind fun w₁ _ r r' hr => ?_
    cases hr with
    | stop hv => exact .value hv
    | next =>
      refine (hc w₁).bind fun w₂ _ b _ e => ?_
      subst e
      split
      · exact ih
      · exact .value Datum.linked_unit

/-- Sources of the same numbers, or of linked values. -/
inductive Source.Linked (R : Nat → Nat → Prop) : Source → Source → Prop
  | values {vs vs' : List Value} (h : List.Forall₂ (Datum.Linked R) vs vs') :
      Source.Linked R (.values vs) (.values vs')
  | numbers (next last : Int) : Source.Linked R (.numbers next last) (.numbers next last)

theorem Source.Linked.grow {s t : Source} (h : s.Linked (σ.Rel w) t) (hw : w ≤ w₁) : s.Linked (σ.Rel w₁) t := by
  cases h with
  | values h => exact .values (forall₂_grow h hw)
  | numbers next last => exact .numbers next last

theorem Source.Linked.pop? {R : Nat → Nat → Prop} {s t : Source} (h : s.Linked R t) :
    Option.Rel (fun a b => a.1.Linked R b.1 ∧ a.2.Linked R b.2) s.pop? t.pop? := by
  cases h with
  | values h =>
    cases h with
    | nil => exact .none
    | cons hx hs => exact .some ⟨hx, .values hs⟩
  | numbers next last =>
    simp only [Source.pop?]
    split
    · exact .some ⟨.plain trivial, .numbers _ _⟩
    · exact .none

theorem linked_ofValue? {R : Nat → Nat → Prop} {v v' : Value} (h : v.Linked R v') :
    Option.Rel (Source.Linked R) (Source.ofValue? v) (Source.ofValue? v') := by
  cases h with
  | array hs => exact .some (.values hs)
  | object => exact .none
  | function => exact .none
  | plain hp =>
    unfold Source.ofValue?
    split
    · exact hp.elim
    · refine .some (.values (Datum.forall₂_linked_of_plain fun v hv => ?_))
      obtain ⟨c, -, rfl⟩ := List.mem_map.mp hv
      trivial
    · exact .some (.numbers _ _)
    · exact .some (.numbers _ _)
    · exact .none

theorem linked_setVariable (name : String) {v v' : Value} (hv : v.Linked (σ.Rel w) v') :
    Eval.Linked σ w Same (setVariable name v) (setVariable name v') := by
  refine .modify fun m m' hw hm => ?_
  obtain ⟨hx, hy⟩ | ⟨s, t, hx, hy, hs⟩ := rel_cases (hm.find? name)
  · rw [hx, hy]
    exact ⟨hm, rfl⟩
  · rw [hx, hy]
    exact hm.write hs.place (hv.grow hw)

/-- **A round with linked values** is in step when what comes after it is. -/
theorem linked_turn (name : String) {v v' : Value} (hv : v.Linked (σ.Rel w) v') {body : Eval Round}
    (hb : ∀ w, Eval.Linked σ w (Rounds σ) body body) {x y : Eval Value}
    (after : ∀ w' ≥ w, Eval.Linked σ w' σ.Values x y) :
    Eval.Linked σ w σ.Values (turn name v body x) (turn name v' body y) := by
  refine (linked_setVariable name hv).bind fun w₁ hw₁ _ _ _ => ?_
  refine (hb w₁).bind fun w₂ hw₂ r r' hround => ?_
  cases hround with
  | stop hv => exact .value hv
  | next => exact after w₂ (Nat.le_trans hw₁ hw₂)

/-- **A loop through linked sources.** -/
theorem linked_loopThrough (name : String) (counter : Option String) {body : Eval Round}
    (hb : ∀ w, Eval.Linked σ w (Rounds σ) body body) (index : Nat) {s t : Source} (h : s.Linked (σ.Rel w) t)
    (rounds : Nat) :
    Eval.Linked σ w σ.Values (loopThrough name counter body index s rounds)
      (loopThrough name counter body index t rounds) := by
  induction rounds generalizing w index s t with
  | zero => exact .fail (.same tooComplex_same) none
  | succ n ih =>
    unfold loopThrough
    obtain ⟨hx, hy⟩ | ⟨⟨v, rest⟩, ⟨v', rest'⟩, hx, hy, hv, hr⟩ := rel_cases h.pop?
    · simp only [hx, hy]
      exact .value Datum.linked_unit
    · simp only [hx, hy]
      dsimp only at hv hr
      have round {w₁ : Nat} (hw₁ : w ≤ w₁) :
          Eval.Linked σ w₁ σ.Values (turn name v body (loopThrough name counter body (index + 1) rest n))
            (turn name v' body (loopThrough name counter body (index + 1) rest' n)) :=
        linked_turn name (hv.grow hw₁) hb fun w₂ hw₂ => ih (index + 1) (hr.grow (Nat.le_trans hw₁ hw₂))
      cases counter with
      | none => exact round (Nat.le_refl _)
      | some c =>
        have position : Datum.Linked (σ.Rel w) (.int (Int64.ofNat index)) (.int (Int64.ofNat index)) := .plain trivial
        exact (linked_setVariable c position).bind fun w₁ hw₁ _ _ _ => round hw₁

theorem Linked.each (hI : I.Linked) (name : String) (counter : Option String) (items : Expr) (body : List Stmt) :
    Eval.Linked σ w σ.Values (I.each name counter items body) (I.each name counter items body) := by
  refine (hI.expr items w).bind fun w₁ hw₁ v v' hv => ?_
  obtain ⟨hx, hy⟩ | ⟨s, t, hx, hy, hs⟩ := rel_cases (linked_ofValue? hv)
  · simp only [hx, hy]
    exact .failSame (by nofun) _
  · simp only [hx, hy]
    have declared {w : Nat} (name : String) :
        Eval.Linked σ w Same (modify (·.declare name false (.own .unit)) : Eval PUnit)
          (modify (·.declare name false (.own .unit))) :=
      .modify fun m m' _ hm => ⟨hm.declare name false (.own Datum.linked_unit), rfl⟩
    have loop {w₂ : Nat} (hw₂ : w₁ ≤ w₂) :
        Eval.Linked σ w₂ σ.Values
          (do
            modify (·.declare name false (.own .unit))
            loopThrough name counter (I.round body) 0 s maxRounds)
          (do
            modify (·.declare name false (.own .unit))
            loopThrough name counter (I.round body) 0 t maxRounds) := by
      refine (declared name).bind fun w₃ hw₃ _ _ _ => ?_
      exact linked_loopThrough name counter (fun _ => hI.round body) 0 (hs.grow (Nat.le_trans hw₂ hw₃)) maxRounds
    refine Eval.Linked.inBlock ?_ grows_values
    cases counter with
    | none => exact loop (Nat.le_refl _)
    | some c => exact (declared c).bind fun w₂ hw₂ _ _ _ => loop hw₂

/-! ## §5 — statements -/

/-- **Alternatives do not tell linked values apart.** -/
theorem sameAs_of_linked {R : Nat → Nat → Prop} {v v' u u' : Value} (h : v.Linked R v') (k : u.Linked R u') :
    sameAs v' u' = sameAs v u := by
  unfold sameAs
  rw [h.sameType k, Operation.equal_of_linked v h k]

theorem fits_of_linked {R : Nat → Nat → Prop} {v v' : Value} (h : v.Linked R v') (c : Constant) :
    fits v' c = fits v c := by
  cases c with
  | range first last inclusive => cases h <;> rfl
  | _ => exact sameAs_of_linked h (Datum.linked_ofConstant _)

theorem Linked.choose (hI : I.Linked) {v v' : Value} (h : v.Linked (σ.Rel w) v') (arms : List Arm) :
    Eval.Linked σ w Same (I.choose v arms) (I.choose v' arms) := by
  induction arms generalizing w with
  | nil => exact .same none
  | cons arm arms ih =>
    obtain ⟨patterns, guard, action⟩ := arm
    unfold Interpreter.choose
    have any : patterns.any (fits v') = patterns.any (fits v) := by
      congr 1
      exact funext fun c => fits_of_linked h c
    rw [any]
    split
    · cases guard with
      | none => exact .same _
      | some g =>
        refine (hI.condition g).bind fun w₁ hw₁ b _ e => ?_
        subst e
        split
        · exact .same _
        · exact ih (h.grow hw₁)
    · exact ih h

theorem Linked.optional (hI : I.Linked) (e : Option Expr) :
    Eval.Linked σ w σ.Values (I.optional e) (I.optional e) := by
  cases e with
  | none => exact .value Datum.linked_unit
  | some e => exact hI.expr e w

theorem isRethrow_of_linked {R : Nat → Nat → Prop} {f g : Fault} (h : f.Linked R g) :
    isRethrow g = isRethrow f := by
  cases h with
  | inCall => rfl
  | raised hc =>
    cases hc with
    | same => rfl
    | thrown hv => cases hv <;> rfl

/-- **A handler is in step with itself** on linked values. -/
theorem Linked.handling (hI : I.Linked) {v v' : Value} (h : v.Linked (σ.Rel w) v') (name : Option String)
    (handler : List Stmt) :
    Eval.Linked σ w σ.Values (I.handling v name handler) (I.handling v' name handler) := by
  refine Eval.Linked.inBlock ?_ grows_values
  cases name with
  | none => exact hI.block handler
  | some n =>
    have declared : Eval.Linked σ w Same (modify (·.declare n false (.own v)) : Eval PUnit)
        (modify (·.declare n false (.own v'))) :=
      .modify fun m m' hw hm => ⟨hm.declare n false (.own (h.grow hw)), rfl⟩
    exact declared.bind fun w₁ _ _ _ _ => hI.block handler

/-- **Dealing with linked faults** is in step. -/
theorem Linked.handle (hI : I.Linked) {f g : Fault} (h : f.Linked (σ.Rel w) g) (name : Option String)
    (handler : List Stmt) :
    Eval.Linked σ w σ.Values (I.handle f name handler) (I.handle g name handler) := by
  refine (hI.handling h.caught name handler).outcome.bind fun w₁ hw₁ r r' hr => ?_
  have h₁ := h.mono fun _ _ => Shift.Rel.mono hw₁
  cases hr with
  | ok => exact .value Datum.linked_unit
  | error hs =>
    cases hs with
    | fault hf =>
      dsimp only
      rw [isRethrow_of_linked hf, hf.place?]
      split
      · exact .throw (.fault (h₁.moveTo _))
      · exact .throw (.fault hf)
    | leave hv => exact .throw (.leave hv)
    | proceed => exact .throw .proceed
    | giveBack hv => exact .throw (.giveBack hv)

/-- **A statement is in step with itself**, when its parts are. -/
theorem Linked.execute (hI : I.Linked) (s : Stmt) :
    Eval.Linked σ w σ.Values (I.execute s) (I.execute s) := by
  unfold Interpreter.execute
  split
  · exact .value Datum.linked_unit
  · refine (hI.expr _ w).bind fun w₁ hw₁ v v' hv => ?_
    split
    · refine Eval.Linked.bind (A := Same) (.modify fun m m' hw hm => ⟨hm.declare _ _ (.own (hv.grow hw)), rfl⟩) ?_
      exact fun w₂ _ _ _ _ => .value Datum.linked_unit
    · refine Eval.Linked.bind (A := Same) (.modify fun m m' hw hm => ⟨hm.redeclare _ _ (hv.grow hw), rfl⟩) ?_
      exact fun w₂ _ _ _ _ => .value Datum.linked_unit
  · exact (hI.assign _ _ _ _).bind fun w₁ _ _ _ _ => .value Datum.linked_unit
  · exact hI.expr _ _
  · exact hI.block _
  · refine (hI.condition _).bind fun w₁ hw₁ b _ e => ?_
    subst e
    split <;> exact hI.block _
  · refine (hI.expr _ w).bind fun w₁ hw₁ v v' hv => (hI.choose hv _).bind fun w₂ hw₂ a _ e => ?_
    subst e
    cases a with
    | none => exact hI.optional _
    | some action => exact hI.expr _ _
  · refine linked_loopWhile (fun w => ?_) (fun _ => hI.round _) _
    split
    · exact hI.condition _
    · exact .same true
  · refine linked_loopUntil (fun w => ?_) (fun _ => hI.round _) _
    exact (hI.condition _).bind fun w₁ _ b _ e => e ▸ .same _
  · exact hI.each _ _ _ _
  · exact (hI.optional _).bind fun w₁ _ v v' hv => .throw (.leave hv)
  · exact .throw .proceed
  · exact (hI.optional _).bind fun w₁ _ v v' hv => .throw (.giveBack hv)
  · exact (hI.optional _).bind fun w₁ _ v v' hv => .failAt (.thrown hv) _
  · refine (hI.block _).outcome.bind fun w₁ hw₁ r r' hr => ?_
    cases hr with
    | ok hv => exact .value hv
    | error hs =>
      cases hs with
      | fault hf =>
        dsimp only
        rw [hf.cause.isFatal]
        split
        · exact .throw (.fault hf)
        · refine (Eval.Linked.catches hf).bind fun w₂ hw₂ _ _ _ => ?_
          exact hI.handle (hf.mono fun _ _ => Shift.Rel.mono hw₂) _ _
      | leave hv => exact .throw (.leave hv)
      | proceed => exact .throw .proceed
      | giveBack hv => exact .throw (.giveBack hv)
  · refine (hI.expr _ w).bind fun w₁ hw₁ v v' hv => ?_
    have mismatch (at_ : Position) : Eval.Linked σ w₁ σ.Values (Eval.failAt at_ (.mismatch "string" v.typeName))
        (Eval.failAt at_ (.mismatch "string" v'.typeName)) := by
      rw [hv.typeName]
      exact .failSame (by nofun) at_
    cases hv with
    | plain hp => cases v <;> exact .failSame (by nofun) _
    | array => exact mismatch _
    | object => exact mismatch _
    | function => exact mismatch _

end Interpreter

/-! ## §6 — scripts -/

/-- **The interpreter does not tell machines in step apart**, however deep code is nested. -/
theorem interpreter_linked (depth : Nat) : (interpreter depth).Linked := by
  induction depth with
  | zero => exact ⟨fun _ _ _ => .fail (.same Interpreter.tooComplex_same) none,
      fun _ _ _ => .fail (.same Interpreter.tooComplex_same) none⟩
  | succ n ih => exact ⟨fun e _ _ => ih.evaluate e, fun s _ _ => ih.execute s⟩

/-- **What scripts in step leave:** linked values or faults, and machines in step with no cell less than before. -/
structure Settled (σ : Shift) (size : Nat) (r r' : Except Fault Value × Machine) : Prop where
  grown : size ≤ r.2.cells.size
  outcome : ExceptRel (Fault.Linked (σ.Rel r.2.cells.size)) (σ.Values r.2.cells.size) r.1 r'.1
  machine : Machine.Linked σ r.2 r'.2

theorem settled_of_linked {R : Nat → Nat → Prop} {r r' : Except Signal Value}
    (h : ExceptRel (Signal.Linked R) (Datum.Linked R) r r') :
    ExceptRel (Fault.Linked R) (Datum.Linked R) (Signal.settled r) (Signal.settled r') := by
  cases h with
  | ok hv => exact .ok hv
  | error hs =>
    cases hs with
    | fault hf => exact .error hf
    | leave hv => exact .ok hv
    | proceed => exact .ok Datum.linked_unit
    | giveBack hv => exact .ok hv

/-- **A script on machines in step** asks the same questions, and leaves machines in step. -/
theorem Program.linked_run (s : Program) (c : Context) {m m' : Machine} (hm : Machine.Linked σ m m') :
    Run.Linked (Settled σ m.cells.size) (s.run c m) (s.run c m') := by
  have body : Eval.Linked σ m.cells.size σ.Values ((interpreter maxNesting).sequence s.statements .unit)
      ((interpreter maxNesting).sequence s.statements .unit) :=
    (interpreter_linked maxNesting).sequence s.statements Datum.linked_unit
  refine (body c m m' (Nat.le_refl _) hm).bind fun r r' hr => .done ?_
  exact ⟨hr.grown, settled_of_linked hr.outcome, hr.machine⟩

end Dialogue.Script
