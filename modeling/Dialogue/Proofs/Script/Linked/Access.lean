import Dialogue.Proofs.Script.Linked.Operation
/-!
# `Dialogue.Proofs.Script.Linked.Access` — steps into linked values.

A property or an index leads from linked values to linked values, by the same way; and writing linked values where a
way leads leaves linked values.
-/

namespace Dialogue.Script

variable {R : Nat → Nat → Prop}

namespace Access

/-- Steps that lead the same way to linked values. -/
structure Found.Linked (R : Nat → Nat → Prop) (f g : Found) : Prop where
  value : f.value.Linked R g.value
  inward : g.inward = f.inward

theorem linked_copy {v w : Value} (h : v.Linked R w) : (copy v).Linked R (copy w) := ⟨h, rfl⟩

/-- Computed properties are plain, and the same on linked values. -/
theorem computed?_of_linked {v w : Value} (h : v.Linked R w) (name : String) :
    computed? w name = computed? v name := by
  cases h with
  | plain => rfl
  | @array xs ys hs =>
    have length : ys.length = xs.length := hs.length_eq.symm
    have empty : ys.isEmpty = xs.isEmpty := by cases hs <;> rfl
    unfold computed?
    split <;> simp_all
  | object => rfl
  | function =>
    unfold computed?
    split <;> simp_all

theorem isPlain_of_computed? {v w : Value} {name : String} (h : computed? v name = some w) : w.IsPlain :=
  (isScalar_of_computed? h).isPlain

/-- The error of a property that a value of some type does not have. -/
def unknownProperty (v : Value) (name : String) : Cause :=
  .property s!"Unknown property '{name}' - a getter is not registered for type '{v.typeName}'"

/-- Values that are no maps have computed properties only. -/
theorem property_of_not_object {v : Value} (hv : ∀ fs, v ≠ .object fs) (name : String) :
    property v name = match computed? v name with
      | some w => .ok (copy w)
      | none => .error (unknownProperty v name) := by
  unfold property
  split
  · exact absurd rfl (hv _)
  · rfl

theorem not_object_of_linked {v w : Value} (h : v.Linked R w)
    (hv : ∀ fs, v ≠ .object fs) : ∀ fs, w ≠ .object fs := by
  rintro fs rfl
  cases h with
  | plain hp => exact hp
  | object => exact hv _ rfl

/-- **Reading a property of linked values leads to linked values.** -/
theorem linked_property {v w : Value} (h : v.Linked R w) (name : String) :
    ResultRel R (Found.Linked R) (property v name) (property w name) := by
  by_cases hv : ∀ fs, v ≠ .object fs
  · rw [property_of_not_object hv, property_of_not_object (not_object_of_linked h hv), computed?_of_linked h,
      unknownProperty, unknownProperty, h.typeName]
    cases hc : computed? v name with
    | none => exact .error (.same fun _ h => nomatch h)
    | some u => exact .ok (linked_copy (.plain (isPlain_of_computed? hc)))
  · push Not at hv
    obtain ⟨fs, rfl⟩ := hv
    obtain ⟨gs, rfl⟩ := h.of_object
    have hf := FieldsLinked.field? h.fields name
    unfold property
    dsimp only
    generalize Datum.field? fs name = x, Datum.field? gs name = y at hf
    cases hf with
    | none => exact .ok (linked_copy (.plain trivial))
    | some hx => exact .ok ⟨hx, rfl⟩

theorem linked_field_getD {fs gs : List (String × Value)} (h : FieldsLinked R fs gs) (name : String) :
    ((Datum.field? fs name).getD .unit).Linked R ((Datum.field? gs name).getD .unit) := by
  have hf := FieldsLinked.field? h name
  generalize Datum.field? fs name = x, Datum.field? gs name = y at hf
  cases hf with
  | none => exact .plain trivial
  | some hx => exact hx

theorem linked_writable {v w new new' : Value} (h : v.Linked R w) (name : String) (hn : new.Linked R new') :
    ResultRel R (Found.Linked R) (writable v name new) (writable w name new') := by
  by_cases hv : ∀ fs, v ≠ .object fs
  · unfold writable
    split
    · exact absurd rfl (hv _)
    · split
      · exact absurd rfl (not_object_of_linked h hv _)
      · rw [h.typeName, hn.typeName]
        exact .error (.same fun _ h => nomatch h)
  · push Not at hv
    obtain ⟨fs, rfl⟩ := hv
    obtain ⟨gs, rfl⟩ := h.of_object
    exact .ok ⟨linked_field_getD h.fields name, rfl⟩

theorem linked_wholeKey {v w : Value} (h : v.Linked R w) : ResultRel R Eq (wholeKey v) (wholeKey w) := by
  have e : wholeKey w = wholeKey v := by cases h <;> rfl
  rw [e]
  unfold wholeKey
  split
  · exact .ok rfl
  · exact .error (.same fun _ h => nomatch h)

theorem linked_slice (cs : List Char) (first last : Int) :
    ResultRel R Eq (slice cs first last) (slice cs first last) := by
  unfold slice
  dsimp only
  split
  · exact .ok rfl
  · split
    · exact .ok rfl
    · exact .error (.same fun _ h => nomatch h)

theorem forall₂_getElem? {α β : Type} {A : α → β → Prop} {xs : List α} {ys : List β}
    (h : List.Forall₂ A xs ys) (k : Nat) : Option.Rel A xs[k]? ys[k]? := by
  induction h generalizing k with
  | nil => exact .none
  | cons hx _ ih =>
    cases k with
    | zero => exact .some hx
    | succ k => simpa using ih k

/-- **Reading linked values at linked indices leads to linked values.** -/
theorem linked_element {v w key key' : Value} (h : v.Linked R w) (hk : key.Linked R key') :
    ResultRel R (Found.Linked R) (element v key) (element w key') := by
  have unindexed : ResultRel R (Found.Linked R)
      (.error (.notIndexable (v.typeName ++ " [" ++ key.typeName ++ "]")))
      (.error (.notIndexable (w.typeName ++ " [" ++ key'.typeName ++ "]"))) := by
    rw [h.typeName, hk.typeName]
    exact .error (.same fun _ h => nomatch h)
  cases h with
  | @array xs ys hs =>
    refine ExceptRel.bind (linked_wholeKey hk) ?_
    rintro i _ rfl
    rw [← hs.length_eq]
    cases position? xs.length i with
    | none => exact .error (.same fun _ h => nomatch h)
    | some k =>
      have hg := forall₂_getElem? hs k
      simp only [Option.bind_some]
      generalize xs[k]? = x, ys[k]? = y at hg
      cases hg with
      | none => exact .error (.same fun _ h => nomatch h)
      | some hx => exact .ok ⟨hx, rfl⟩
  | @object fs gs hn hs =>
    unfold element
    dsimp only
    split
    · rename_i name
      cases hk
      have hf := FieldsLinked.field? (Datum.Linked.object hn hs).fields name
      dsimp only
      generalize Datum.field? fs name = x, Datum.field? gs name = y at hf
      cases hf with
      | none => exact .ok (linked_copy (.plain trivial))
      | some hx => exact .ok ⟨hx, rfl⟩
    · split
      · cases hk
        simp_all
      · rw [hk.typeName]
        exact .error (.same fun _ h => nomatch h)
  | function => exact unindexed
  | plain hp =>
    cases v with
    | str s =>
      unfold element
      dsimp only
      split
      · cases hk
        refine ExceptRel.bind (linked_slice _ _ _) ?_
        rintro cs _ rfl
        exact .ok (linked_copy (.plain trivial))
      · split
        · cases hk
          simp_all
        · refine ExceptRel.bind (linked_wholeKey hk) ?_
          rintro i _ rfl
          split
          · exact .ok ⟨.plain trivial, rfl⟩
          · exact .error (.same fun _ h => nomatch h)
    | int n =>
      refine ExceptRel.bind (linked_wholeKey hk) ?_
      rintro i _ rfl
      split
      · exact .ok ⟨.plain trivial, rfl⟩
      · exact .error (.same fun _ h => nomatch h)
    | array | object => exact hp.elim
    | _ => exact unindexed

theorem linked_writableAt {v w key key' : Value} (h : v.Linked R w) (hk : key.Linked R key') :
    ResultRel R (Found.Linked R) (writableAt v key) (writableAt w key') := by
  unfold writableAt
  split
  · rename_i fs name
    obtain ⟨gs, rfl⟩ := h.of_object
    cases hk
    exact .ok ⟨linked_field_getD h.fields name, rfl⟩
  · split
    · cases h <;> cases hk <;> simp_all
    · exact linked_element h hk

theorem linked_checkWritten (step : Option Inward) {v w : Value} (h : v.Linked R w) :
    ResultRel R Eq (checkWritten step v) (checkWritten step w) := by
  have e : checkWritten step w = checkWritten step v := by
    cases h with
    | plain => rfl
    | _ =>
      unfold checkWritten
      split <;> simp_all [Datum.typeName]
  rw [e]
  unfold checkWritten
  split
  all_goals first | exact .ok rfl | exact .error (.same fun _ h => nomatch h)

end Access

theorem forall₂_modify {α β : Type} {A : α → β → Prop} {xs : List α} {ys : List β}
    (h : List.Forall₂ A xs ys) {f : α → α} {g : β → β} (hf : ∀ a b, A a b → A (f a) (g b)) (k : Nat) :
    List.Forall₂ A (xs.modify k f) (ys.modify k g) := by
  induction h generalizing k with
  | nil => simp
  | cons hx hs ih =>
    cases k with
    | zero => exact .cons (hf _ _ hx) hs
    | succ k => exact .cons hx (ih k)

/-- **Replacing a value in linked values** by linked ones leaves linked values. -/
theorem linked_replaced (way : List Inward) {v w new new' : Value} (h : v.Linked R w)
    (hn : new.Linked R new') : (v.replaced way new).Linked R (w.replaced way new') := by
  induction way generalizing v w with
  | nil => exact hn
  | cons step rest ih =>
    unfold Datum.replaced
    split
    · rename_i e
      cases e
    · rename_i e
      cases e
      obtain ⟨ys, rfl⟩ := h.of_array
      exact .array (forall₂_modify h.items (fun _ _ hx => ih hx) _)
    · rename_i e
      cases e
      obtain ⟨gs, rfl⟩ := h.of_object
      exact .objects (FieldsLinked.setField h.fields _ (ih (Access.linked_field_getD h.fields _)))
    · rename_i e
      cases e
      cases h
      cases hn
      exact .plain trivial
    · rename_i e
      cases e
      cases h
      cases hn
      exact .plain trivial
    · -- the way leads nowhere in one value, and so in the other
      split
      all_goals first | exact h | (cases h <;> cases hn <;> grind)

end Dialogue.Script
