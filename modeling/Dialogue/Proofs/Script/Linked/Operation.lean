import Dialogue.Proofs.Script.Linked
import Dialogue.Proofs.Script.Scalar
/-!
# `Dialogue.Proofs.Script.Linked.Operation` — faults, operators and properties of linked values.

Operators and steps into values answer linked values alike: with linked values, or with linked causes of a fault.
What a script catches of linked faults, and the wording of them, is linked and equal.
-/

namespace Dialogue.Script

variable {R S : Nat → Nat → Prop}

/-! ## §1 — outcomes and faults -/

/-- **Outcomes of one kind**, whose values or errors are related. -/
inductive ExceptRel {ε ε' α α' : Type} (E : ε → ε' → Prop) (A : α → α' → Prop) : Except ε α → Except ε' α' → Prop
  | ok {a : α} {b : α'} (h : A a b) : ExceptRel E A (.ok a) (.ok b)
  | error {e : ε} {f : ε'} (h : E e f) : ExceptRel E A (.error e) (.error f)

namespace ExceptRel

variable {ε ε' α α' β β' : Type} {E : ε → ε' → Prop} {A : α → α' → Prop} {B : β → β' → Prop}

theorem map {x : Except ε α} {y : Except ε' α'} (h : ExceptRel E A x y) {f : α → β} {g : α' → β'}
    (hf : ∀ a b, A a b → B (f a) (g b)) : ExceptRel E B (x.map f) (y.map g) := by
  cases h with
  | ok h => exact .ok (hf _ _ h)
  | error h => exact .error h

theorem mapLeft {x : Except ε α} {y : Except ε' α'} (h : ExceptRel E A x y) {f : α → β} {C : β → α' → Prop}
    (hf : ∀ a b, A a b → C (f a) b) : ExceptRel E C (x.map f) y := by
  cases h with
  | ok h => exact .ok (hf _ _ h)
  | error h => exact .error h

theorem bind {x : Except ε α} {y : Except ε' α'} (h : ExceptRel E A x y) {f : α → Except ε β}
    {g : α' → Except ε' β'} (hf : ∀ a b, A a b → ExceptRel E B (f a) (g b)) :
    ExceptRel E B (x >>= f) (y >>= g) := by
  cases h with
  | ok h => exact hf _ _ h
  | error h => exact .error h

theorem mono {x : Except ε α} {y : Except ε' α'} {E' : ε → ε' → Prop} {A' : α → α' → Prop}
    (h : ExceptRel E A x y) (hE : ∀ e f, E e f → E' e f) (hA : ∀ a b, A a b → A' a b) :
    ExceptRel E' A' x y := by
  cases h with
  | ok h => exact .ok (hA _ _ h)
  | error h => exact .error (hE _ _ h)

end ExceptRel

/-- **Causes that differ in the cells of a thrown value only.** -/
inductive Cause.Linked (R : Nat → Nat → Prop) : Cause → Cause → Prop
  | same {c : Cause} (h : ∀ v, c ≠ .thrown v) : Cause.Linked R c c
  | thrown {v w : Value} (h : v.Linked R w) : Cause.Linked R (.thrown v) (.thrown w)

/-- Faults in the same calls with linked causes. -/
inductive Fault.Linked (R : Nat → Nat → Prop) : Fault → Fault → Prop
  | raised {c d : Cause} {pos : Option Position} (h : c.Linked R d) :
      Fault.Linked R (.raised c pos) (.raised d pos)
  | inCall {function : Option String} {f g : Fault} {pos : Option Position} (h : Fault.Linked R f g) :
      Fault.Linked R (.inCall function f pos) (.inCall function g pos)

/-- Results of one kind: linked causes of a fault, or related values. -/
abbrev ResultRel (R : Nat → Nat → Prop) {α β : Type} (A : α → β → Prop) :
    Except Cause α → Except Cause β → Prop :=
  ExceptRel (Cause.Linked R) A

theorem Cause.Linked.mono (h : ∀ i j, R i j → S i j) {c d : Cause} (hc : c.Linked R d) : c.Linked S d := by
  cases hc with
  | same hs => exact .same hs
  | thrown hv => exact .thrown (hv.mono h)

theorem Cause.Linked.message {c d : Cause} (h : c.Linked R d) : d.message = c.message := by
  cases h with
  | same => rfl
  | thrown hv =>
    unfold Cause.message
    dsimp only
    rw [hv.shown]

theorem Cause.Linked.isFatal {c d : Cause} (h : c.Linked R d) : d.isFatal = c.isFatal := by
  cases h with
  | same => rfl
  | thrown => simp only [Cause.isFatal]

namespace Fault

theorem Linked.mono (h : ∀ i j, R i j → S i j) {f g : Fault} (hf : f.Linked R g) : f.Linked S g := by
  induction hf with
  | raised hc => exact .raised (hc.mono h)
  | inCall _ ih => exact .inCall ih

theorem Linked.place? {f g : Fault} (h : f.Linked R g) : g.place? = f.place? := by
  cases h <;> rfl

theorem Linked.moveTo {f g : Fault} (h : f.Linked R g) (pos : Option Position) :
    (f.moveTo pos).Linked R (g.moveTo pos) := by
  cases h with
  | raised hc => exact .raised hc
  | inCall hf => exact .inCall hf

theorem Linked.cause {f g : Fault} (h : f.Linked R g) : f.cause.Linked R g.cause := by
  induction h with
  | raised hc => exact hc
  | inCall _ ih => exact ih

theorem Linked.message {f g : Fault} (h : f.Linked R g) : g.message = f.message := by
  induction h with
  | raised hc => simp only [Fault.message, hc.message]
  | inCall _ ih => simp only [Fault.message, ih]

theorem Linked.failure? {f g : Fault} (h : f.Linked R g) : g.failure? = f.failure? := by
  unfold Fault.failure?
  have hc := h.cause
  generalize f.cause = c, g.cause = d at hc
  cases hc with
  | same => rfl
  | thrown hv => cases hv <;> rfl

/-- The description of a fault holds texts and numbers only. -/
theorem Linked.description {f g : Fault} (h : f.Linked R g) :
    FieldsLinked R f.description g.description := by
  have plain : ∀ {c : Cause}, ∀ p ∈ c.details, p.2.IsPlain := by
    intro c
    cases c <;> simp [Cause.details, Datum.IsPlain]
  cases h with
  | raised hc =>
    cases hc with
    | same => exact .cons ⟨rfl, .plain trivial⟩ (List.forall₂_same.mpr fun p hp => ⟨rfl, .plain (plain p hp)⟩)
    | thrown => exact .cons ⟨rfl, .plain trivial⟩ .nil
  | inCall =>
    exact .cons ⟨rfl, .plain trivial⟩ (.cons ⟨rfl, .plain trivial⟩ (.cons ⟨rfl, .plain trivial⟩ .nil))

theorem linked_placeFields (p : Option Position) : FieldsLinked R (placeFields p) (placeFields p) := by
  cases p with
  | none => exact .nil
  | some p => exact .cons ⟨rfl, .plain trivial⟩ (.cons ⟨rfl, .plain trivial⟩ .nil)

/-- **What is caught of linked faults is linked.** -/
theorem Linked.caught {f g : Fault} (h : f.Linked R g) : f.caught.Linked R g.caught := by
  have hc := h.cause
  unfold Fault.caught
  rw [h.place?, (h.moveTo none).message]
  generalize f.cause = c, g.cause = d at hc
  cases hc with
  | thrown hv => exact hv
  | same hs =>
    cases c with
    | thrown v => exact absurd rfl (hs v)
    | _ =>
      exact .objects (FieldsLinked.ofFields
        (List.rel_append (.cons ⟨rfl, .plain trivial⟩ (linked_placeFields _)) h.description))

end Fault

/-! ## §2 — operators -/

theorem Datum.IsScalar.isPlain {v : Value} (h : v.IsScalar) : v.IsPlain := by
  cases v with
  | array | object | failure | function => exact h.elim
  | _ => trivial

namespace Operator

/-- Operators on plain values do not look into other values. -/
theorem result?_of_linked {v v' w w' : Value} (op : String) (hv : v.Linked R v') (hw : w.Linked R w') :
    result? op v' w' = result? op v w := by
  cases hv with
  | plain =>
    cases hw with
    | plain => rfl
    | _ => cases v <;> rfl
  | _ =>
    cases hw with
    | plain => cases w <;> rfl
    | _ => rfl

/-- **No value with other values in it** is what an operator yields. -/
inductive YieldsPlain : Option (Outcome Function) → Prop
  | none : YieldsPlain none
  | error (text : String) : YieldsPlain (some (.error text))
  | ok {v : Value} (h : v.IsPlain) : YieldsPlain (some (.ok v))

theorem yieldsPlain_result? (op : String) (v w : Value) : YieldsPlain (result? op v w) := by
  have scalar := yieldsScalar_result? op v w
  generalize result? op v w = r at scalar
  cases scalar with
  | none => exact .none
  | error text => exact .error text
  | ok h => exact .ok h.isPlain

end Operator

namespace Operation

theorem signature_of_linked (name : String) {vs ws : List Value} (h : List.Forall₂ (Datum.Linked R) vs ws) :
    signature name ws = signature name vs := by
  have texts : ws.map Datum.signatureName = vs.map Datum.signatureName := by
    induction h with
    | nil => rfl
    | cons a _ ih => simp only [List.map_cons, a.signatureName, ih]
  simp only [signature, texts]

/-- A call that no function fits fails alike. -/
theorem unknown_of_linked (name : String) {vs ws : List Value} (h : List.Forall₂ (Datum.Linked R) vs ws) :
    unknown name ws = unknown name vs := by
  simp only [unknown, signature_of_linked name h]

theorem linked_unknown (name : String) {vs ws : List Value} (h : List.Forall₂ (Datum.Linked R) vs ws) :
    (unknown name vs).Linked R (unknown name ws) := by
  rw [unknown_of_linked name h]
  exact .same fun v hv => nomatch hv

/-- Neither two arrays nor two maps. -/
def NoPair (v w : Value) : Prop :=
  ¬ (v.typeName = "array" ∧ w.typeName = "array") ∧ ¬ (v.typeName = "map" ∧ w.typeName = "map")

/-- Values that are not both arrays or both maps are compared by the operator. -/
theorem equal_of_noPair {v w : Value} (h : NoPair v w) :
    equal v w = match Operator.result? "==" v w with
      | some (.ok (.bool r)) => .ok r
      | _ => .error (unknown "==" [v, w]) := by
  refine equal.eq_3 v w ?_ ?_
  · rintro xs ys rfl rfl
    exact h.1 ⟨rfl, rfl⟩
  · rintro fs gs rfl rfl
    exact h.2 ⟨rfl, rfl⟩

theorem equal_of_linked_noPair {v v' w w' : Value} (h : NoPair v w) (hv : v.Linked R v')
    (hw : w.Linked R w') : equal v' w' = equal v w := by
  have h' : NoPair v' w' := by
    unfold NoPair
    rw [hv.typeName, hw.typeName]
    exact h
  rw [equal_of_noPair h, equal_of_noPair h', Operator.result?_of_linked "==" hv hw,
    unknown_of_linked "==" (.cons hv (.cons hw .nil))]

theorem noPair_of_plain_left {v : Value} (w : Value) (h : v.IsPlain) : NoPair v w :=
  ⟨fun e => h.typeName_ne.1 e.1, fun e => h.typeName_ne.2 e.1⟩

theorem noPair_of_plain_right (v : Value) {w : Value} (h : w.IsPlain) : NoPair v w :=
  ⟨fun e => h.typeName_ne.1 e.2, fun e => h.typeName_ne.2 e.2⟩

mutual

/-- **Equality does not tell linked values apart.** -/
theorem equal_of_linked : ∀ (v : Value) {v' w w' : Value}, v.Linked R v' → w.Linked R w' →
    equal v' w' = equal v w
  | .array xs, _, w, _, .array hx, hw => by
      cases hw with
      | array hy => simp only [equal, hx.length_eq, hy.length_eq, equalItems_of_linked xs hx hy]
      | plain hp => exact equal_of_linked_noPair (noPair_of_plain_right _ hp) (.array hx) (.plain hp)
      | object hn hs => exact equal_of_linked_noPair (by simp [NoPair, Datum.typeName]) (.array hx) (.object hn hs)
      | function hs => exact equal_of_linked_noPair (by simp [NoPair, Datum.typeName]) (.array hx) (.function hs)
  | .object fs, .object gs, w, _, h, hw => by
      cases hw with
      | object hn hs =>
        have hg := (Datum.Linked.object hn hs).fields
        simp only [equal, h.fields.length_eq, hg.length_eq, equalFields_of_linked fs h.fields hg]
      | plain hp => exact equal_of_linked_noPair (noPair_of_plain_right _ hp) h (.plain hp)
      | array hs => exact equal_of_linked_noPair (by simp [NoPair, Datum.typeName]) h (.array hs)
      | function hs => exact equal_of_linked_noPair (by simp [NoPair, Datum.typeName]) h (.function hs)
  | .function _ _ _, _, _, _, .function hs, hw =>
      equal_of_linked_noPair (by simp [NoPair, Datum.typeName]) (.function hs) hw
  | _, _, w, _, .plain hp, hw => equal_of_linked_noPair (noPair_of_plain_left w hp) (.plain hp) hw

theorem equalItems_of_linked : ∀ (xs : List Value) {xs' ys ys' : List Value},
    List.Forall₂ (Datum.Linked R) xs xs' → List.Forall₂ (Datum.Linked R) ys ys' →
    equalItems xs' ys' = equalItems xs ys
  | [], _, _, _, .nil, _ => by simp only [equalItems]
  | _ :: _, _, _, _, .cons _ _, .nil => by simp only [equalItems]
  | x :: xs, _, _, _, .cons hx hxs, .cons hy hys => by
      simp only [equalItems, equal_of_linked x hx hy, equalItems_of_linked xs hxs hys]

theorem equalFields_of_linked : ∀ (fs : List (String × Value)) {fs' gs gs' : List (String × Value)},
    FieldsLinked R fs fs' → FieldsLinked R gs gs' → equalFields fs' gs' = equalFields fs gs
  | [], _, _, _, .nil, _ => by simp only [equalFields]
  | (k, x) :: fs, _, gs, gs', .cons (b := (l, y)) ⟨hk, hx⟩ hfs, hg => by
      obtain rfl : k = l := hk
      have hf := FieldsLinked.field? hg k
      simp only [equalFields]
      -- the field is there on both sides or on neither
      generalize Datum.field? gs k = z, Datum.field? gs' k = z' at hf ⊢
      cases hf with
      | none => rfl
      | some hz => simp only [equal_of_linked x hx hz, equalFields_of_linked fs hfs hg]

end

theorem overlaid_of_linked {fs gs upper upper' : List (String × Value)} (h : FieldsLinked R fs gs)
    (hu : FieldsLinked R upper upper') : FieldsLinked R (overlaid fs upper) (overlaid gs upper') :=
  FieldsLinked.foldl_setField h hu

theorem linked_functionNotFound (s : String) : (Cause.functionNotFound s).Linked R (.functionNotFound s) :=
  .same fun _ h => nomatch h

/-- **Only a missing function makes it fail.** -/
def FailsUnknown {α : Type} (r : Except Cause α) : Prop := ∀ ⦃c⦄, r = .error c → ∃ s, c = .functionNotFound s

theorem failsUnknown_ok {α : Type} (a : α) : FailsUnknown (.ok a) := fun _ h => nomatch h

theorem FailsUnknown.bind {α β : Type} {r : Except Cause α} (h : FailsUnknown r) {f : α → Except Cause β}
    (hf : ∀ a, FailsUnknown (f a)) : FailsUnknown (r >>= f) := by
  cases r with
  | ok a => exact hf a
  | error c =>
    intro d hd
    obtain rfl : c = d := Except.error.inj hd
    exact h rfl

theorem failsUnknown_equal_of_noPair {v w : Value} (hn : NoPair v w) : FailsUnknown (equal v w) := by
  rw [equal_of_noPair hn]
  split
  · exact failsUnknown_ok _
  · intro c h
    cases h
    exact ⟨_, rfl⟩

mutual

/-- The comparison of two values fails only where no operator fits. -/
theorem failsUnknown_equal : ∀ v w : Value, FailsUnknown (equal v w)
  | .array xs, w => by
      cases w with
      | array ys =>
        rw [equal]
        split
        · exact failsUnknown_equalItems xs ys
        · exact failsUnknown_ok _
      | range first last inclusive => exact failsUnknown_equal_of_noPair (noPair_of_plain_right _ (by trivial))
      | _ => exact failsUnknown_equal_of_noPair (by simp [NoPair, Datum.typeName])
  | .object fs, w => by
      cases w with
      | object gs =>
        rw [equal]
        split
        · exact failsUnknown_equalFields fs gs
        · exact failsUnknown_ok _
      | range first last inclusive => exact failsUnknown_equal_of_noPair (noPair_of_plain_right _ (by trivial))
      | _ => exact failsUnknown_equal_of_noPair (by simp [NoPair, Datum.typeName])
  | .function _ _ _, w => failsUnknown_equal_of_noPair (by simp [NoPair, Datum.typeName])
  | .unit, w | .bool _, w | .int _, w | .float _, w | .char _, w | .str _, w | .range .., w | .timestamp _, w
  | .inclusion _, w | .failure _, w => failsUnknown_equal_of_noPair (noPair_of_plain_left w (by trivial))

theorem failsUnknown_equalItems : ∀ xs ys : List Value, FailsUnknown (equalItems xs ys)
  | [], _ => by
      rw [equalItems]
      exact failsUnknown_ok _
  | _ :: _, [] => by
      rw [equalItems]
      exact failsUnknown_ok _
  | x :: xs, y :: ys => by
      rw [equalItems]
      refine (failsUnknown_equal x y).bind fun same => ?_
      cases same with
      | true => exact failsUnknown_equalItems xs ys
      | false => exact failsUnknown_ok _

theorem failsUnknown_equalFields : ∀ fs gs : List (String × Value), FailsUnknown (equalFields fs gs)
  | [], _ => by
      rw [equalFields]
      exact failsUnknown_ok _
  | (k, x) :: fs, gs => by
      rw [equalFields]
      split
      · exact failsUnknown_ok _
      · refine (failsUnknown_equal x _).bind fun same => ?_
        cases same with
        | true => exact failsUnknown_equalFields fs gs
        | false => exact failsUnknown_ok _

end

/-- A plain value made of the outcome of a comparison. -/
theorem linked_equal_map (f : Bool → Value) (hf : ∀ r, (f r).IsPlain) {v v' w w' : Value}
    (hv : v.Linked R v') (hw : w.Linked R w') :
    ResultRel R (Datum.Linked R) ((equal v w).map f) ((equal v' w').map f) := by
  rw [equal_of_linked v hv hw]
  cases h : equal v w with
  | ok r => exact .ok (.plain (hf r))
  | error c =>
    obtain ⟨s, rfl⟩ := failsUnknown_equal v w h
    exact .error (linked_functionNotFound s)

theorem linked_binary (op : String) {v v' w w' : Value} (hv : v.Linked R v') (hw : w.Linked R w') :
    ResultRel R (Datum.Linked R) (binary op v w) (binary op v' w') := by
  unfold binary
  rw [Operator.result?_of_linked op hv hw]
  have hr := Operator.yieldsPlain_result? op v w
  generalize Operator.result? op v w = r at hr
  cases hr with
  | ok h => exact .ok (.plain h)
  | error text => exact .error (.same fun _ h => nomatch h)
  | none =>
    -- no operator on plain values: what is left is about texts, arrays and maps
    dsimp only
    split
    · cases hv
      simp only [hw.scriptText]
      exact .ok (.plain trivial)
    · cases hw
      split
      · cases hv
        simp_all
      · simp_all
        rw [hv.scriptText]
        exact .ok (.plain trivial)
      all_goals simp_all
    · obtain ⟨xs, rfl⟩ := hv.of_array
      obtain ⟨ys, rfl⟩ := hw.of_array
      exact .ok (.array (List.rel_append hv.items hw.items))
    · obtain ⟨fs, rfl⟩ := hv.of_object
      obtain ⟨gs, rfl⟩ := hw.of_object
      exact .ok (.objects (overlaid_of_linked hv.fields hw.fields))
    · obtain ⟨xs, rfl⟩ := hv.of_array
      obtain ⟨ys, rfl⟩ := hw.of_array
      exact linked_equal_map .bool (fun _ => trivial) hv hw
    · obtain ⟨fs, rfl⟩ := hv.of_object
      obtain ⟨gs, rfl⟩ := hw.of_object
      exact linked_equal_map .bool (fun _ => trivial) hv hw
    · obtain ⟨xs, rfl⟩ := hv.of_array
      obtain ⟨ys, rfl⟩ := hw.of_array
      exact linked_equal_map (fun r => .bool !r) (fun _ => trivial) hv hw
    · obtain ⟨fs, rfl⟩ := hv.of_object
      obtain ⟨gs, rfl⟩ := hw.of_object
      exact linked_equal_map (fun r => .bool !r) (fun _ => trivial) hv hw
    · -- none of these kinds of operands on the left, so none on the right
      split
      any_goals (cases hv <;> simp_all; done)
      any_goals (cases hw <;> simp_all; done)
      any_goals (cases hv <;> cases hw <;> simp_all; done)
      exact .error (linked_unknown op (.cons hv (.cons hw .nil)))

theorem linked_unary (op : String) {v w : Value} (h : v.Linked R w) :
    ResultRel R (Datum.Linked R) (unary op v) (unary op w) := by
  have fails : ResultRel R (Datum.Linked R) (.error (unknown op [v])) (.error (unknown op [w])) :=
    .error (linked_unknown op (.cons h .nil))
  cases h with
  | plain hp =>
    unfold unary
    split
    · split
      · exact .ok (.plain trivial)
      · exact .error (.same fun _ h => nomatch h)
    all_goals first | exact .ok (.plain trivial) | exact fails
  | array | object | function =>
    unfold unary
    split
    all_goals simp_all

/-- **What a variable becomes** by linked operands is linked. -/
theorem linked_assigned (op : String) {v v' w w' : Value} (hv : v.Linked R v') (hw : w.Linked R w') :
    ResultRel R (Datum.Linked R) (assigned op v w) (assigned op v' w') := by
  unfold assigned
  split
  · obtain ⟨xs, rfl⟩ := hv.of_array
    obtain ⟨ys, rfl⟩ := hw.of_array
    exact .ok (.array (List.rel_append hv.items hw.items))
  · obtain ⟨xs, rfl⟩ := hv.of_array
    split
    · cases hw <;> simp_all
    · rename_i e _
      cases e
      exact .ok (.array (List.rel_append hv.items (.cons hw .nil)))
    · simp_all
  · split
    any_goals (cases hv <;> simp_all; done)
    exact linked_binary op hv hw

/-- Searching linked items finds the same. -/
theorem isAmong_of_linked {v w : Value} (h : v.Linked R w) {xs ys : List Value}
    (hs : List.Forall₂ (Datum.Linked R) xs ys) : isAmong w ys = isAmong v xs := by
  induction hs with
  | nil => rfl
  | cons hx _ ih => simp only [isAmong, equal_of_linked _ hx h, ih]

theorem indexAmong_of_linked {v w : Value} (h : v.Linked R w) {xs ys : List Value}
    (hs : List.Forall₂ (Datum.Linked R) xs ys) (start : Nat) :
    indexAmong w start ys = indexAmong v start xs := by
  induction hs generalizing start with
  | nil => rfl
  | cons hx _ ih => simp only [indexAmong, equal_of_linked _ hx h, ih]

theorem failsUnknown_isAmong (v : Value) (xs : List Value) : FailsUnknown (isAmong v xs) := by
  induction xs with
  | nil => exact failsUnknown_ok _
  | cons x xs ih =>
    refine (failsUnknown_equal x v).bind fun same => ?_
    cases same with
    | true => exact failsUnknown_ok _
    | false => exact ih

theorem failsUnknown_indexAmong (v : Value) (start : Nat) (xs : List Value) :
    FailsUnknown (indexAmong v start xs) := by
  induction xs generalizing start with
  | nil => exact failsUnknown_ok _
  | cons x xs ih =>
    refine (failsUnknown_equal x v).bind fun same => ?_
    cases same with
    | true => exact failsUnknown_ok _
    | false => exact ih _

end Operation

end Dialogue.Script
