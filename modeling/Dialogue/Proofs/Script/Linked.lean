import Dialogue.Script.Call
import Mathlib.Data.List.Forall2
/-!
# `Dialogue.Proofs.Script.Linked` — values up to the numbers of their cells.

A value holds cells by number, in the arguments that a function was given in advance and nowhere else. Two values are
*linked* by a relation on cell numbers when they are the same but for those numbers, and corresponding numbers are
related. Main statements: no text, type, operator, property or function of the library tells linked values apart.
-/

namespace Dialogue.Script

/-! ## §1 — the relation -/

/-- Optional values are related when both are absent, or both are there and related. -/
theorem rel_cases {α β : Type} {A : α → β → Prop} {x : Option α} {y : Option β} (h : Option.Rel A x y) :
    (x = none ∧ y = none) ∨ ∃ a b, x = some a ∧ y = some b ∧ A a b := by
  cases h with
  | none => exact .inl ⟨rfl, rfl⟩
  | some h => exact .inr ⟨_, _, rfl, rfl, h⟩

/-- A value with no other values in it, and so with no cells. -/
def Datum.IsPlain : Value → Prop
  | .array _ | .object _ | .function .. => False
  | _ => True

mutual

/-- **Values that differ in the numbers of their cells only**, where related numbers stand for each other. -/
inductive Datum.Linked (R : Nat → Nat → Prop) : Value → Value → Prop
  | plain {v : Value} (h : v.IsPlain) : Datum.Linked R v v
  | array {xs ys : List Value} (h : List.Forall₂ (Datum.Linked R) xs ys) :
      Datum.Linked R (.array xs) (.array ys)
  | object {fs gs : List (String × Value)} (names : fs.map Prod.fst = gs.map Prod.fst)
      (values : List.Forall₂ (Datum.Linked R) (fs.map Prod.snd) (gs.map Prod.snd)) :
      Datum.Linked R (.object fs) (.object gs)
  | function {name : String} {given given' : List (Slot Function)} {code : Option Function}
      (h : List.Forall₂ (Slot.Linked R) given given') :
      Datum.Linked R (.function name given code) (.function name given' code)

/-- Slots that differ in the numbers of their cells only. -/
inductive Slot.Linked (R : Nat → Nat → Prop) : Slot Function → Slot Function → Prop
  | own {v w : Value} (h : Datum.Linked R v w) : Slot.Linked R (.own v) (.own w)
  | cell {i j : Nat} (h : R i j) : Slot.Linked R (.cell i) (.cell j)

end

variable {R S : Nat → Nat → Prop}

/-- Fields of the same names with linked values. -/
abbrev FieldsLinked (R : Nat → Nat → Prop) : List (String × Value) → List (String × Value) → Prop :=
  List.Forall₂ fun f g => f.1 = g.1 ∧ f.2.Linked R g.2

theorem fieldsLinked_iff {fs gs : List (String × Value)} :
    FieldsLinked R fs gs ↔ fs.map Prod.fst = gs.map Prod.fst ∧
      List.Forall₂ (Datum.Linked R) (fs.map Prod.snd) (gs.map Prod.snd) := by
  induction fs generalizing gs with
  | nil => cases gs <;> simp
  | cons f fs ih =>
    cases gs with
    | nil => simp
    | cons g gs =>
      simp only [List.forall₂_cons, ih, List.map_cons, List.cons.injEq]
      tauto

namespace Datum

theorem linked_unit : Linked R .unit .unit := .plain trivial

theorem Linked.objects {fs gs : List (String × Value)} (h : FieldsLinked R fs gs) :
    Linked R (.object fs) (.object gs) :=
  .object (fieldsLinked_iff.mp h).1 (fieldsLinked_iff.mp h).2

theorem Linked.fields {fs gs : List (String × Value)} (h : Linked R (.object fs) (.object gs)) :
    FieldsLinked R fs gs := by
  cases h with
  | plain hp => exact hp.elim
  | object hn hv => exact fieldsLinked_iff.mpr ⟨hn, hv⟩

theorem Linked.items {xs ys : List Value} (h : Linked R (.array xs) (.array ys)) :
    List.Forall₂ (Linked R) xs ys := by
  cases h with
  | plain hp => exact hp.elim
  | array h => exact h

theorem Linked.of_array {xs : List Value} {w : Value} (h : Linked R (.array xs) w) :
    ∃ ys, w = .array ys := by
  cases h with
  | plain hp => exact hp.elim
  | array => exact ⟨_, rfl⟩

theorem Linked.of_object {fs : List (String × Value)} {w : Value} (h : Linked R (.object fs) w) :
    ∃ gs, w = .object gs := by
  cases h with
  | plain hp => exact hp.elim
  | object => exact ⟨_, rfl⟩

/-- A plain value is linked to itself only. -/
theorem Linked.eq_of_plain {v w : Value} (h : v.Linked R w) (hp : v.IsPlain) : w = v := by
  cases h with
  | plain => rfl
  | array => exact hp.elim
  | object => exact hp.elim
  | function => exact hp.elim

mutual

private theorem mono_value (h : ∀ i j, R i j → S i j) : ∀ (v : Value) {w : Value}, v.Linked R w → v.Linked S w
  | .array xs, _, .array hs => .array (mono_items h xs hs)
  | .object fs, _, .object hn hs => .object hn (mono_fields h fs hs)
  | .function _ given _, _, .function hs => .function (mono_slots h given hs)
  | _, _, .plain hp => .plain hp

private theorem mono_items (h : ∀ i j, R i j → S i j) : ∀ (xs : List Value) {ys : List Value},
    List.Forall₂ (Linked R) xs ys → List.Forall₂ (Linked S) xs ys
  | [], _, .nil => .nil
  | x :: xs, _, .cons a as => .cons (mono_value h x a) (mono_items h xs as)

private theorem mono_fields (h : ∀ i j, R i j → S i j) : ∀ (fs : List (String × Value)) {ys : List Value},
    List.Forall₂ (Linked R) (fs.map Prod.snd) ys → List.Forall₂ (Linked S) (fs.map Prod.snd) ys
  | [], _, .nil => .nil
  | (_, x) :: fs, _, .cons a as => .cons (mono_value h x a) (mono_fields h fs as)

private theorem mono_slots (h : ∀ i j, R i j → S i j) : ∀ (xs : List (Slot Function))
    {ys : List (Slot Function)}, List.Forall₂ (Slot.Linked R) xs ys → List.Forall₂ (Slot.Linked S) xs ys
  | [], _, .nil => .nil
  | x :: xs, _, .cons a as => .cons (mono_slot h x a) (mono_slots h xs as)

private theorem mono_slot (h : ∀ i j, R i j → S i j) : ∀ (x : Slot Function) {y : Slot Function},
    x.Linked R y → x.Linked S y
  | .own v, _, .own a => .own (mono_value h v a)
  | .cell _, _, .cell a => .cell (h _ _ a)

end

/-- **Links stay when more numbers are related.** -/
theorem Linked.mono {v w : Value} (hv : v.Linked R w) (h : ∀ i j, R i j → S i j) : v.Linked S w :=
  mono_value h v hv

theorem linked_mono_slot {a b : Slot Function} (hs : a.Linked R b)
    (h : ∀ i j, R i j → S i j) : a.Linked S b :=
  mono_slot h a hs

/-- Plain values are linked to themselves, item by item. -/
theorem forall₂_linked_of_plain {xs : List Value} (h : ∀ x ∈ xs, x.IsPlain) :
    List.Forall₂ (Linked R) xs xs :=
  List.forall₂_same.mpr fun x hx => .plain (h x hx)

theorem eq_of_forall₂_linked {xs ys : List Value} (h : List.Forall₂ (Linked R) xs ys)
    (hp : ∀ x ∈ xs, x.IsPlain) : ys = xs := by
  induction h with
  | nil => rfl
  | cons a _ ih =>
    rw [a.eq_of_plain (hp _ (by simp)), ih fun x hx => hp x (by simp [hx])]

/-! ## §2 — types and texts -/

theorem Linked.typeName {v w : Value} (h : v.Linked R w) : w.typeName = v.typeName := by
  cases h <;> rfl

theorem IsPlain.typeName_ne {v : Value} (h : v.IsPlain) : v.typeName ≠ "array" ∧ v.typeName ≠ "map" := by
  cases v with
  | range first last inclusive => cases inclusive <;> simp [Datum.typeName]
  | array | object | function => exact h.elim
  | _ => simp [Datum.typeName]

theorem Linked.signatureName {v w : Value} (h : v.Linked R w) : w.signatureName = v.signatureName := by
  cases h <;> rfl

theorem Linked.isPlain {v w : Value} (h : v.Linked R w) : w.IsPlain ↔ v.IsPlain := by
  cases h <;> rfl

theorem Linked.sameType {v v' w w' : Value} (h : v.Linked R v') (k : w.Linked R w') :
    v'.sameType w' = v.sameType w := by
  cases h with
  | plain hv =>
    cases k with
    | plain => rfl
    | _ => cases v <;> rfl
  | _ =>
    cases k with
    | plain hw => cases w <;> rfl
    | _ => rfl

mutual

theorem Linked.innerText (part : Inclusion → String) : ∀ (v : Value) {w : Value}, v.Linked R w →
    w.innerText part = v.innerText part
  | .array xs, _, .array hs => by
      simp only [Datum.innerText, Linked.innerTexts part xs hs]
  | .object fs, .object gs, h => by
      simp only [Datum.innerText, Linked.fieldTexts part fs h.fields]
  | .function _ _ _, _, .function _ => by simp only [Datum.innerText]
  | _, _, .plain _ => rfl

theorem Linked.innerTexts (part : Inclusion → String) : ∀ (xs : List Value) {ys : List Value},
    List.Forall₂ (Linked R) xs ys → Datum.innerTexts part ys = Datum.innerTexts part xs
  | [], _, .nil => rfl
  | x :: xs, _, .cons a as => by
      simp only [Datum.innerTexts, Linked.innerText part x a, Linked.innerTexts part xs as]

theorem Linked.fieldTexts (part : Inclusion → String) : ∀ (fs : List (String × Value))
    {gs : List (String × Value)}, FieldsLinked R fs gs → Datum.fieldTexts part gs = Datum.fieldTexts part fs
  | [], _, .nil => rfl
  | (k, v) :: fs, _, .cons (b := (l, w)) ⟨hk, hv⟩ as => by
      obtain rfl : k = l := hk
      simp only [Datum.fieldTexts, Linked.innerText part v hv, Linked.fieldTexts part fs as]

end

theorem Linked.outerText (whole part : Inclusion → String) {v w : Value} (h : v.Linked R w) :
    w.outerText whole part = v.outerText whole part := by
  cases h with
  | plain => rfl
  | array hs => exact Linked.innerText part _ (.array hs)
  | object hn hs => exact Linked.innerText part _ (.object hn hs)
  | function hs => exact Linked.innerText part _ (.function hs)

theorem Linked.shown {v w : Value} (h : v.Linked R w) : w.shown = v.shown := h.outerText _ _

theorem Linked.scriptText {v w : Value} (h : v.Linked R w) : w.scriptText = v.scriptText := h.outerText _ _

theorem map_scriptText {xs ys : List Value} (h : List.Forall₂ (Linked R) xs ys) :
    ys.map Datum.scriptText = xs.map Datum.scriptText := by
  induction h with
  | nil => rfl
  | cons a _ ih => simp only [List.map_cons, a.scriptText, ih]

end Datum

/-! ## §3 — fields and constants -/

theorem FieldsLinked.field? {fs gs : List (String × Value)} (h : FieldsLinked R fs gs) (name : String) :
    Option.Rel (Datum.Linked R) (Datum.field? fs name) (Datum.field? gs name) := by
  induction h with
  | nil => exact .none
  | @cons f g _ _ hfg _ ih =>
    obtain ⟨k, v⟩ := f
    obtain ⟨l, w⟩ := g
    obtain ⟨rfl : k = l, hv⟩ := hfg
    unfold Datum.field?
    -- the names are the same, so the search stops at one place on both sides
    by_cases hk : (k == name) = true
    · rw [List.find?_cons_of_pos (by exact hk), List.find?_cons_of_pos (by exact hk)]
      exact .some hv
    · rw [List.find?_cons_of_neg (by exact hk), List.find?_cons_of_neg (by exact hk)]
      exact ih

theorem FieldsLinked.setField {fs gs : List (String × Value)} (h : FieldsLinked R fs gs) (name : String)
    {v w : Value} (hv : v.Linked R w) :
    FieldsLinked R (Datum.setField name v fs) (Datum.setField name w gs) := by
  induction h with
  | nil => exact .cons ⟨rfl, hv⟩ .nil
  | @cons f g fs gs hfg hs ih =>
    obtain ⟨k, x⟩ := f
    obtain ⟨l, y⟩ := g
    obtain ⟨rfl : k = l, hx⟩ := hfg
    unfold Datum.setField
    -- where a field goes depends on the names only
    split
    · exact .cons ⟨rfl, hv⟩ hs
    · split
      · exact .cons ⟨rfl, hv⟩ (.cons ⟨rfl, hx⟩ hs)
      · exact .cons ⟨rfl, hx⟩ ih

/-- Putting linked fields over linked fields. -/
theorem FieldsLinked.foldl_setField {fs gs : List (String × Value)} (h : FieldsLinked R fs gs)
    {upper upper' : List (String × Value)} (hu : FieldsLinked R upper upper') :
    FieldsLinked R (upper.foldl (fun fs f => Datum.setField f.1 f.2 fs) fs)
      (upper'.foldl (fun fs f => Datum.setField f.1 f.2 fs) gs) := by
  induction hu generalizing fs gs with
  | nil => exact h
  | @cons f g _ _ hfg _ ih =>
    obtain ⟨k, x⟩ := f
    obtain ⟨l, y⟩ := g
    obtain ⟨rfl : k = l, hx⟩ := hfg
    exact ih (FieldsLinked.setField h k hx)

theorem FieldsLinked.ofFields {fs gs : List (String × Value)} (h : FieldsLinked R fs gs) :
    FieldsLinked R (Datum.ofFields fs) (Datum.ofFields gs) :=
  FieldsLinked.foldl_setField .nil h

namespace Datum

mutual

/-- A constant of the code is the same value everywhere. -/
theorem linked_ofConstant : ∀ c : Constant, Linked R (ofConstant c) (ofConstant c)
  | .unit | .bool _ | .int _ | .float _ | .char _ | .str _ | .range .. | .timestamp _ | .inclusion _ | .failure _ =>
      .plain trivial
  | .array items => .array (linked_ofConstants items)
  | .object fields => .objects (linked_ofConstantFields fields)
  | .function _ _ _ => .function .nil

theorem linked_ofConstants : ∀ cs : List Constant,
    List.Forall₂ (Linked R) (ofConstants cs) (ofConstants cs)
  | [] => .nil
  | c :: cs => .cons (linked_ofConstant c) (linked_ofConstants cs)

theorem linked_ofConstantFields : ∀ fs : List (String × Constant),
    FieldsLinked R (ofConstantFields fs) (ofConstantFields fs)
  | [] => .nil
  | (_, c) :: fs => .cons ⟨rfl, linked_ofConstant c⟩ (linked_ofConstantFields fs)

end

mutual

theorem Linked.toConstant? : ∀ (v : Value) {w : Value}, v.Linked R w → w.toConstant? = v.toConstant?
  | .array xs, _, .array hs => by
      simp only [Datum.toConstant?, Linked.toConstants? xs hs]
  | .object fs, .object gs, h => by
      simp only [Datum.toConstant?, Linked.toConstantFields? fs h.fields]
  | .function _ _ _, _, .function _ => rfl
  | _, _, .plain _ => rfl

theorem Linked.toConstants? : ∀ (xs : List Value) {ys : List Value}, List.Forall₂ (Linked R) xs ys →
    Datum.toConstants? ys = Datum.toConstants? xs
  | [], _, .nil => rfl
  | x :: xs, _, .cons a as => by
      simp only [Datum.toConstants?, Linked.toConstant? x a, Linked.toConstants? xs as]

theorem Linked.toConstantFields? : ∀ (fs : List (String × Value)) {gs : List (String × Value)},
    FieldsLinked R fs gs → Datum.toConstantFields? gs = Datum.toConstantFields? fs
  | [], _, .nil => rfl
  | (k, v) :: fs, _, .cons (b := (l, w)) ⟨hk, hv⟩ as => by
      obtain rfl : k = l := hk
      simp only [Datum.toConstantFields?, Linked.toConstant? v hv, Linked.toConstantFields? fs as]

end

mutual

private theorem eq_value (same : ∀ i j, R i j → j = i) : ∀ (v : Value) {w : Value}, v.Linked R w → w = v
  | .array xs, _, .array hs => congrArg array (eq_items same xs hs)
  | .object fs, .object _, h => congrArg object (eq_fields same fs h.fields)
  | .function name given code, _, .function hs => congrArg (function name · code) (eq_slots same given hs)
  | _, _, .plain _ => rfl

private theorem eq_items (same : ∀ i j, R i j → j = i) : ∀ (xs : List Value) {ys : List Value},
    List.Forall₂ (Linked R) xs ys → ys = xs
  | [], _, .nil => rfl
  | x :: xs, _, .cons a as => congrArg₂ List.cons (eq_value same x a) (eq_items same xs as)

private theorem eq_fields (same : ∀ i j, R i j → j = i) : ∀ (fs : List (String × Value)) {gs : List (String × Value)},
    FieldsLinked R fs gs → gs = fs
  | [], _, .nil => rfl
  | (_, v) :: fs, _, .cons (b := (_, _)) ⟨hk, hv⟩ as =>
    congrArg₂ List.cons (Prod.ext hk.symm (eq_value same v hv)) (eq_fields same fs as)

private theorem eq_slots (same : ∀ i j, R i j → j = i) : ∀ (xs : List (Slot Function)) {ys : List (Slot Function)},
    List.Forall₂ (Slot.Linked R) xs ys → ys = xs
  | [], _, .nil => rfl
  | x :: xs, _, .cons a as => congrArg₂ List.cons (eq_slot same x a) (eq_slots same xs as)

private theorem eq_slot (same : ∀ i j, R i j → j = i) : ∀ (x : Slot Function) {y : Slot Function}, x.Linked R y → y = x
  | .own v, _, .own a => congrArg Slot.own (eq_value same v a)
  | .cell i, _, .cell h => congrArg Slot.cell (same _ _ h)

end

/-- **Values that are linked by the same numbers** are the same. -/
theorem Linked.eq {v w : Value} (h : v.Linked R w) (same : ∀ i j, R i j → j = i) : w = v := eq_value same v h

end Datum

end Dialogue.Script
