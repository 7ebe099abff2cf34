import Dialogue.Proofs.Script.Linked.Access
/-!
# `Dialogue.Proofs.Script.Linked.Library` — the library on linked values.

Functions on texts, numbers and paths take plain values only, which are linked to themselves only. Functions on arrays
and maps move values about without looking at cells. Main statement: on linked arguments, a function of the
library yields linked outcomes, or none on either side.
-/

namespace Dialogue.Script.Library

variable {R : Nat → Nat → Prop}

/-! ## §1 — linked outcomes -/

/-- Outcomes with linked results and linked changes. -/
structure Outcome.Linked (R : Nat → Nat → Prop) (x y : Outcome) : Prop where
  result : x.result.Linked R y.result
  changed : Option.Rel (Datum.Linked R) x.changed y.changed

/-- **Calls that both find no function**, or both one whose outcomes are linked. -/
abbrev Call.Linked (R : Nat → Nat → Prop) : Call → Call → Prop :=
  Option.Rel (ResultRel R (Outcome.Linked R))

namespace Call

theorem linked_yields {v w : Value} (h : v.Linked R w) : Call.Linked R (yields v) (yields w) :=
  .some (.ok ⟨h, .none⟩)

theorem linked_plain {v : Value} (h : v.IsPlain) : Call.Linked R (yields v) (yields v) :=
  linked_yields (.plain h)

theorem linked_becomes {v v' w w' : Value} (hv : v.Linked R v') (hw : w.Linked R w') :
    Call.Linked R (becomes v w) (becomes v' w') :=
  .some (.ok ⟨hw, .some hv⟩)

theorem linked_attempt {x y : Except Cause Value} (h : ResultRel R (Datum.Linked R) x y) :
    Call.Linked R (attempt x) (attempt y) :=
  .some (h.map fun _ _ hv => ⟨hv, .none⟩)

theorem linked_given {α : Type} (a : Option α) {f g : α → Call} (h : ∀ x, Call.Linked R (f x) (g x)) :
    Call.Linked R (given a f) (given a g) := by
  cases a with
  | none => exact .none
  | some x => exact h x

theorem linked_orElse {a b c d : Call} (h : Call.Linked R a b) (k : Call.Linked R c d) :
    Call.Linked R (a <|> c) (b <|> d) := by
  cases h with
  | none => exact k
  | some h => exact .some h

end Call

theorem plain_of_linked {vs ws : List Value} (h : List.Forall₂ (Datum.Linked R) vs ws)
    (hw : ∀ w ∈ ws, w.IsPlain) : ∀ v ∈ vs, v.IsPlain := by
  induction h with
  | nil => exact fun _ hv => nomatch hv
  | cons hx _ ih =>
    rw [List.forall_mem_cons] at hw ⊢
    exact ⟨hx.isPlain.mp hw.1, ih hw.2⟩

/-- **A function of plain values only** does not tell linked arguments apart. -/
theorem linked_of_plain_only {f : List Value → Call} {vs ws : List Value}
    (hv : ∀ r, f vs = some r → ∀ v ∈ vs, v.IsPlain) (hw : ∀ r, f ws = some r → ∀ w ∈ ws, w.IsPlain)
    (hs : Call.Linked R (f vs) (f vs)) (h : List.Forall₂ (Datum.Linked R) vs ws) :
    Call.Linked R (f vs) (f ws) := by
  -- whichever side the function takes, that side is plain and so the other is the same
  cases ev : f vs with
  | some r =>
    have e : ws = vs := Datum.eq_of_forall₂_linked h (hv r ev)
    rw [e, ← ev]
    exact hs
  | none =>
    cases ew : f ws with
    | none => exact .none
    | some r =>
      have e : ws = vs := Datum.eq_of_forall₂_linked h (plain_of_linked h (hw r ew))
      rw [e, ev] at ew
      cases ew

/-! ## §2 — functions on texts, numbers and paths -/

theorem isPlain_of_phrase? {v : Value} {p : List Char} (h : phrase? v = some p) : v.IsPlain := by
  unfold phrase? at h
  split at h
  all_goals trivial

theorem linked_texts {α : Type} (xs : List α) (f : α → List Char) :
    Call.Linked R (.yields (.array (xs.map fun x => textOf (f x))))
      (.yields (.array (xs.map fun x => textOf (f x)))) := by
  refine Call.linked_yields (.array (Datum.forall₂_linked_of_plain ?_))
  intro v hv
  obtain ⟨x, -, rfl⟩ := List.mem_map.mp hv
  trivial

theorem phrase_of_given {v : Value} {f : List Char → Call} {r : Except Cause Outcome}
    (h : Call.given (phrase? v) f = some r) : ∃ p, phrase? v = some p ∧ f p = some r :=
  Option.bind_eq_some_iff.mp h

theorem plain_of_onTexts? (name : String) (vs : List Value) (r : Except Cause Outcome)
    (h : onTexts? name vs = some r) : ∀ v ∈ vs, v.IsPlain := by
  unfold onTexts? at h
  split at h
  · dsimp only at h
    split at h
    all_goals first
      | cases h; done
      | (simp [Datum.IsPlain]; done)
      | skip
    -- what is left takes a phrase, or two
    all_goals obtain ⟨p, hp, hf⟩ := phrase_of_given h
    all_goals have plain := isPlain_of_phrase? hp
    all_goals first
      | (simp_all [Datum.IsPlain]; done)
      | obtain ⟨q, hq, -⟩ := phrase_of_given hf
        have plain' := isPlain_of_phrase? hq
        simp_all [Datum.IsPlain]
  · split at h
    all_goals simp [Datum.IsPlain]
  · cases h

theorem linked_self_onTexts? (name : String) (vs : List Value) :
    Call.Linked R (onTexts? name vs) (onTexts? name vs) := by
  unfold onTexts?
  split
  · dsimp only
    split
    all_goals first
      | exact .none
      | exact Call.linked_plain trivial
      | exact Call.linked_becomes (.plain trivial) (.plain trivial)
      | exact Call.linked_given _ fun _ => Call.linked_plain trivial
      | exact Call.linked_given _ fun _ => Call.linked_given _ fun _ =>
          Call.linked_becomes (.plain trivial) (.plain trivial)
      | exact linked_texts _ _
      | exact Call.linked_given _ fun _ => linked_texts _ _
      | exact Call.linked_yields (.array (.cons (.plain trivial) (.cons (.plain trivial) .nil)))
  · split
    all_goals first
      | exact Call.linked_given _ fun _ => Call.linked_plain trivial
      | exact .none
  · exact .none

theorem isPlain_of_extreme? {greater : Bool} {v w u : Value} (h : extreme? greater v w = some u) :
    v.IsPlain ∧ w.IsPlain ∧ u.IsPlain := by
  unfold extreme? at h
  split at h
  all_goals cases h
  all_goals refine ⟨trivial, trivial, ?_⟩
  all_goals first
    | trivial
    | (split <;> split <;> trivial)

/-- A result that is plain, or a fault with a text of its own. -/
theorem linked_absolute (n : Int64) : ResultRel R (Datum.Linked R) (absolute n) (absolute n) := by
  unfold absolute
  split
  · exact Operation.linked_unary "-" (.plain trivial)
  · exact .ok (.plain trivial)

theorem linked_wholePart (x : Float) : ResultRel R (Datum.Linked R) (wholePart x) (wholePart x) := by
  unfold wholePart
  split
  · exact .error (.same fun _ h => nomatch h)
  · exact .ok (.plain trivial)

theorem linked_parseWhole (s : String) (base : Int64) :
    ResultRel R (Datum.Linked R) (parseWhole s base) (parseWhole s base) := by
  unfold parseWhole
  split
  · exact .error (.same fun _ h => nomatch h)
  · split
    · exact .ok (.plain trivial)
    · exact .error (.same fun _ h => nomatch h)

theorem linked_parseFloat (s : String) : ResultRel R (Datum.Linked R) (parseFloat s) (parseFloat s) := by
  unfold parseFloat
  dsimp only
  split
  · exact .ok (.plain trivial)
  · exact .error (.same fun _ h => nomatch h)

theorem linked_extreme? (greater : Bool) (v w : Value) : Call.Linked R
    (.given (extreme? greater v w) .yields) (.given (extreme? greater v w) .yields) := by
  cases h : extreme? greater v w with
  | none => exact .none
  | some u => exact Call.linked_plain (isPlain_of_extreme? h).2.2

theorem plain_of_onNumbers? (name : String) (vs : List Value) (r : Except Cause Outcome)
    (h : onNumbers? name vs = some r) : ∀ v ∈ vs, v.IsPlain := by
  unfold onNumbers? at h
  split at h
  all_goals first
    | cases h; done
    | (simp [Datum.IsPlain]; done)
    | skip
  all_goals
    obtain ⟨u, hu, -⟩ := Option.bind_eq_some_iff.mp h
    have plain := isPlain_of_extreme? hu
    simp_all [Datum.IsPlain]

theorem linked_self_onNumbers? (name : String) (vs : List Value) :
    Call.Linked R (onNumbers? name vs) (onNumbers? name vs) := by
  unfold onNumbers?
  split
  case h_1 => exact Call.linked_attempt (linked_absolute _)
  case h_4 => exact linked_extreme? ..
  case h_5 => exact linked_extreme? ..
  case h_21 => exact Call.linked_attempt (linked_wholePart _)
  case h_23 => exact Call.linked_attempt (linked_parseWhole ..)
  case h_24 => exact Call.linked_attempt (linked_parseWhole ..)
  case h_25 => exact Call.linked_attempt (linked_parseFloat _)
  all_goals first | exact .none | exact Call.linked_plain trivial

theorem plain_of_onPaths? (name : String) (vs : List Value) (r : Except Cause Outcome)
    (h : onPaths? name vs = some r) : ∀ v ∈ vs, v.IsPlain := by
  unfold onPaths? at h
  split at h
  all_goals first
    | cases h; done
    | simp [Datum.IsPlain]

theorem linked_self_onPaths? (name : String) (vs : List Value) :
    Call.Linked R (onPaths? name vs) (onPaths? name vs) := by
  unfold onPaths?
  split
  all_goals first
    | exact .none
    | exact Call.linked_plain trivial

/-! ## §3 — arrays and maps -/

theorem isPlain_of_sameType {v w : Value} (h : v.sameType w = true) (hp : v.IsPlain) : w.IsPlain := by
  unfold Datum.sameType at h
  split at h
  all_goals trivial

theorem all_sameType_of_linked {v w : Value} (h : v.Linked R w) {xs ys : List Value}
    (hs : List.Forall₂ (Datum.Linked R) xs ys) : ys.all w.sameType = xs.all v.sameType := by
  induction hs with
  | nil => rfl
  | cons hx _ ih => simp only [List.all_cons, h.sameType hx, ih]

/-- What is put in order stays the same values. -/
theorem mem_of_ordered? {xs ys : List Value} (h : ordered? xs = some ys) {v : Value} (hv : v ∈ ys) :
    v ∈ xs := by
  unfold ordered? at h
  split at h
  all_goals first
    | (obtain rfl := Option.some.inj h; exact List.mem_mergeSort.mp hv)
    | cases h

/-- **Linked arrays are put in order alike.** Only plain values have an order. -/
theorem linked_sorted {xs ys : List Value} (h : List.Forall₂ (Datum.Linked R) xs ys) :
    ResultRel R (List.Forall₂ (Datum.Linked R)) (sorted xs) (sorted ys) := by
  cases h with
  | nil => exact .ok .nil
  | cons hx hxs =>
    cases hxs with
    | nil => exact .ok (.cons hx .nil)
    | @cons x' y' xs ys hx' hxs =>
      have hs := List.Forall₂.cons hx (List.Forall₂.cons hx' hxs)
      unfold sorted
      dsimp only
      rw [all_sameType_of_linked hx (.cons hx' hxs)]
      split
      · rename_i same
        cases hx with
        | plain hp =>
          -- the other items are of the same type, so all are plain
          have plain : ∀ v ∈ _ :: x' :: xs, v.IsPlain :=
            List.forall_mem_cons.mpr ⟨hp, fun v hv => isPlain_of_sameType (List.all_eq_true.mp same v hv) hp⟩
          rw [Datum.eq_of_forall₂_linked hs plain]
          refine .ok (Datum.forall₂_linked_of_plain ?_)
          intro v hv
          cases ho : ordered? (_ :: x' :: xs) with
          | none =>
            rw [ho] at hv
            exact plain v hv
          | some zs =>
            rw [ho] at hv
            exact plain v (mem_of_ordered? ho hv)
        | array => exact .ok hs
        | object => exact .ok hs
        | function => exact .ok hs
      · exact .error (.same fun _ h => nomatch h)

theorem forall₂_insertIdx {α β : Type} {A : α → β → Prop} {xs : List α} {ys : List β}
    (h : List.Forall₂ A xs ys) {a : α} {b : β} (ha : A a b) (k : Nat) :
    List.Forall₂ A (xs.insertIdx k a) (ys.insertIdx k b) := by
  induction h generalizing k with
  | nil =>
    cases k with
    | zero => exact .cons ha .nil
    | succ k => exact .nil
  | cons hx hs ih =>
    cases k with
    | zero => exact .cons ha (.cons hx hs)
    | succ k => exact .cons hx (ih k)

theorem forall₂_eraseIdx {α β : Type} {A : α → β → Prop} {xs : List α} {ys : List β}
    (h : List.Forall₂ A xs ys) (k : Nat) : List.Forall₂ A (xs.eraseIdx k) (ys.eraseIdx k) := by
  induction h generalizing k with
  | nil => exact .nil
  | cons hx hs ih =>
    cases k with
    | zero => exact hs
    | succ k => exact .cons hx (ih k)

theorem forall₂_dropLast {α β : Type} {A : α → β → Prop} {xs : List α} {ys : List β}
    (h : List.Forall₂ A xs ys) : List.Forall₂ A xs.dropLast ys.dropLast := by
  rw [List.dropLast_eq_take, List.dropLast_eq_take, h.length_eq]
  exact List.forall₂_take _ h

theorem forall₂_getLast? {α β : Type} {A : α → β → Prop} {xs : List α} {ys : List β}
    (h : List.Forall₂ A xs ys) : Option.Rel A xs.getLast? ys.getLast? := by
  rw [List.getLast?_eq_getElem?, List.getLast?_eq_getElem?, h.length_eq]
  exact Access.forall₂_getElem? h _

theorem linked_inserted {xs ys : List Value} (h : List.Forall₂ (Datum.Linked R) xs ys) (n : Int64)
    {v w : Value} (hv : v.Linked R w) :
    List.Forall₂ (Datum.Linked R) (inserted xs n v) (inserted ys n w) := by
  unfold inserted
  rw [h.length_eq]
  exact forall₂_insertIdx h hv _

theorem linked_getD {v w : Option Value} (h : Option.Rel (Datum.Linked R) v w) :
    (v.getD .unit).Linked R (w.getD .unit) := by
  cases h with
  | none => exact .plain trivial
  | some h => exact h

/-- Taking an item out of linked arrays takes linked items out. -/
theorem linked_without {xs ys : List Value} (h : List.Forall₂ (Datum.Linked R) xs ys) (n : Int64) :
    (without xs n).1.Linked R (without ys n).1 ∧
      List.Forall₂ (Datum.Linked R) (without xs n).2 (without ys n).2 := by
  unfold without
  rw [← h.length_eq]
  split
  · exact ⟨linked_getD (Access.forall₂_getElem? h _), forall₂_eraseIdx h _⟩
  · exact ⟨.plain trivial, h⟩

theorem onArrays?_of_not_array {v : Value} (h : ∀ xs, v ≠ .array xs) (name : String) (rest : List Value) :
    onArrays? name (v :: rest) = none := by
  unfold onArrays?
  split
  · rename_i e
    cases e
    exact absurd rfl (h _)
  · rfl

theorem not_array_of_linked {v w : Value} (h : v.Linked R w) (hv : ∀ xs, v ≠ .array xs) :
    ∀ xs, w ≠ .array xs := by
  rintro xs rfl
  cases h with
  | plain hp => exact hp
  | array => exact hv _ rfl

theorem linked_isAmong {v w : Value} (h : v.Linked R w) {xs ys : List Value}
    (hs : List.Forall₂ (Datum.Linked R) xs ys) : Call.Linked R
      (.attempt ((Operation.isAmong v xs).map .bool)) (.attempt ((Operation.isAmong w ys).map .bool)) := by
  rw [Operation.isAmong_of_linked h hs]
  refine Call.linked_attempt ?_
  cases hr : Operation.isAmong v xs with
  | ok r => exact .ok (.plain trivial)
  | error c =>
    obtain ⟨s, rfl⟩ := Operation.failsUnknown_isAmong v xs hr
    exact .error (Operation.linked_functionNotFound s)

theorem linked_indexAmong {v w : Value} (h : v.Linked R w) (start : Nat) {xs ys : List Value}
    (hs : List.Forall₂ (Datum.Linked R) xs ys) : Call.Linked R
      (.attempt ((Operation.indexAmong v start xs).map fun i => .int (Int64.ofInt i)))
      (.attempt ((Operation.indexAmong w start ys).map fun i => .int (Int64.ofInt i))) := by
  rw [Operation.indexAmong_of_linked h hs]
  refine Call.linked_attempt ?_
  cases hr : Operation.indexAmong v start xs with
  | ok r => exact .ok (.plain trivial)
  | error c =>
    obtain ⟨s, rfl⟩ := Operation.failsUnknown_indexAmong v start xs hr
    exact .error (Operation.linked_functionNotFound s)

theorem linked_onArray (name : String) {xs ys : List Value} (hs : List.Forall₂ (Datum.Linked R) xs ys)
    {rest rest' : List Value} (hr : List.Forall₂ (Datum.Linked R) rest rest') :
    Call.Linked R (onArrays? name (.array xs :: rest)) (onArrays? name (.array ys :: rest')) := by
  have nothing : Datum.Linked R .unit .unit := .plain trivial
  have hl : xs.length = ys.length := hs.length_eq
  unfold onArrays?
  dsimp only
  split
  case h_1 =>
    cases hr
    rw [hl]
    exact Call.linked_plain trivial
  case h_2 =>
    cases hr
    have empty : xs.isEmpty = ys.isEmpty := by cases hs <;> rfl
    rw [empty]
    exact Call.linked_plain trivial
  case h_3 =>
    cases hr
    exact Call.linked_becomes (.array (forall₂_dropLast hs)) (linked_getD (forall₂_getLast? hs))
  case h_4 =>
    cases hr
    cases hs with
    | nil => exact Call.linked_becomes (.array .nil) nothing
    | cons hx hs => exact Call.linked_becomes (.array hs) hx
  case h_5 =>
    cases hr
    exact Call.linked_becomes (.array .nil) nothing
  case h_6 =>
    cases hr
    exact Call.linked_becomes (.array (List.rel_reverse hs)) nothing
  case h_7 =>
    cases hr
    have sort := linked_sorted hs
    generalize sorted xs = x, sorted ys = y at sort
    cases sort with
    | ok h => exact Call.linked_becomes (.array h) nothing
    | error h => exact .some (.error h)
  case h_8 =>
    obtain _ | ⟨hv, _ | _⟩ := hr
    exact Call.linked_becomes (.array (List.rel_append hs (.cons hv .nil))) nothing
  case h_9 =>
    obtain _ | ⟨hv, _ | _⟩ := hr
    obtain ⟨zs, rfl⟩ := hv.of_array
    exact Call.linked_becomes (.array (List.rel_append hs hv.items)) nothing
  case h_10 =>
    obtain _ | ⟨hv, _ | _⟩ := hr
    exact linked_isAmong hv hs
  case h_11 =>
    obtain _ | ⟨hv, _ | _⟩ := hr
    exact linked_indexAmong hv 0 hs
  case h_12 =>
    obtain _ | ⟨hn, _ | _⟩ := hr
    cases hn
    exact Call.linked_becomes (.array (linked_without hs _).2) (linked_without hs _).1
  case h_13 =>
    obtain _ | ⟨hn, _ | ⟨hv, _ | _⟩⟩ := hr
    cases hn
    exact Call.linked_becomes (.array (linked_inserted hs _ hv)) nothing
  case h_14 =>
    obtain _ | ⟨hv, _ | ⟨hn, _ | _⟩⟩ := hr
    cases hn
    rw [hl]
    exact linked_indexAmong hv _ (List.forall₂_drop _ hs)
  case h_15 =>
    -- arguments of no such shape on the left, and so on the right
    split
    case h_15 => exact .none
    all_goals
      exfalso
      clear hs hl nothing
      obtain _ | ⟨hv, _ | ⟨hw, _ | _⟩⟩ := hr
      all_goals first
        | (simp_all; done)
        | (cases hv <;> simp_all; done)
        | (cases hw; simp_all)

theorem linked_onArrays? (name : String) {vs ws : List Value} (h : List.Forall₂ (Datum.Linked R) vs ws) :
    Call.Linked R (onArrays? name vs) (onArrays? name ws) := by
  cases h with
  | nil => exact .none
  | @cons v w rest rest' hv hr =>
    -- a function on arrays takes nothing else on either side
    by_cases ha : ∀ xs, v ≠ .array xs
    · rw [onArrays?_of_not_array ha, onArrays?_of_not_array (not_array_of_linked hv ha)]
      exact .none
    · push Not at ha
      obtain ⟨xs, rfl⟩ := ha
      obtain ⟨ys, rfl⟩ := hv.of_array
      exact linked_onArray name hv.items hr

/-- Besides maps, only whole numbers and ranges of them are asked. -/
theorem plain_of_onMaps? {v : Value} (ho : ∀ fs, v ≠ .object fs) (name : String) (rest : List Value)
    (r : Except Cause Outcome) (h : onMaps? name (v :: rest) = some r) : ∀ u ∈ v :: rest, u.IsPlain := by
  unfold onMaps? at h
  split at h
  · rename_i e
    cases e
    exact absurd rfl (ho _)
  · rename_i e
    cases e
    simp [Datum.IsPlain]
  · cases h

theorem linked_self_onMaps? {v : Value} (ho : ∀ fs, v ≠ .object fs) (name : String) (rest : List Value) :
    Call.Linked R (onMaps? name (v :: rest)) (onMaps? name (v :: rest)) := by
  unfold onMaps?
  split
  · rename_i e
    cases e
    exact absurd rfl (ho _)
  · split
    · exact Call.linked_plain trivial
    · exact .none
  · exact .none

theorem linked_values {fs gs : List (String × Value)} (h : FieldsLinked R fs gs) :
    List.Forall₂ (Datum.Linked R) (fs.map (·.2)) (gs.map (·.2)) :=
  (fieldsLinked_iff.mp h).2

theorem linked_keys {fs gs : List (String × Value)} (h : FieldsLinked R fs gs) :
    Datum.Linked R (.array (fs.map fun f => .str f.1)) (.array (gs.map fun f => .str f.1)) := by
  refine .array ?_
  induction h with
  | nil => exact .nil
  | cons hf _ ih =>
    rw [List.map_cons, List.map_cons, hf.1]
    exact .cons (.plain trivial) ih

theorem linked_removed {fs gs : List (String × Value)} (h : FieldsLinked R fs gs) (name : String) :
    FieldsLinked R (fs.filter (·.1 != name)) (gs.filter (·.1 != name)) := by
  induction h with
  | nil => exact .nil
  | @cons f g _ _ hf _ ih =>
    rw [List.filter_cons, List.filter_cons, hf.1]
    split
    · exact .cons hf ih
    · exact ih

theorem linked_onObject (name : String) {fs gs : List (String × Value)} (hs : FieldsLinked R fs gs)
    {rest rest' : List Value} (hr : List.Forall₂ (Datum.Linked R) rest rest') :
    Call.Linked R (onMaps? name (.object fs :: rest)) (onMaps? name (.object gs :: rest')) := by
  have nothing : Datum.Linked R .unit .unit := .plain trivial
  unfold onMaps?
  dsimp only
  split
  case h_1 =>
    cases hr
    rw [hs.length_eq]
    exact Call.linked_plain trivial
  case h_2 =>
    cases hr
    have empty : fs.isEmpty = gs.isEmpty := by cases hs <;> rfl
    rw [empty]
    exact Call.linked_plain trivial
  case h_3 =>
    cases hr
    exact Call.linked_yields (linked_keys hs)
  case h_4 =>
    cases hr
    exact Call.linked_yields (.array (linked_values hs))
  case h_5 k =>
    obtain _ | ⟨hk, _ | _⟩ := hr
    cases hk
    have found := FieldsLinked.field? hs k
    have some_iff : (Datum.field? fs k).isSome = (Datum.field? gs k).isSome := by
      generalize Datum.field? fs k = x, Datum.field? gs k = y at found
      cases found <;> rfl
    rw [some_iff]
    exact Call.linked_plain trivial
  case h_6 k =>
    obtain _ | ⟨hk, _ | _⟩ := hr
    cases hk
    exact Call.linked_yields (Access.linked_field_getD hs k)
  case h_7 =>
    obtain _ | ⟨hk, _ | ⟨hv, _ | _⟩⟩ := hr
    cases hk
    exact Call.linked_becomes (.objects (FieldsLinked.setField hs _ hv)) nothing
  case h_8 k =>
    obtain _ | ⟨hk, _ | _⟩ := hr
    cases hk
    exact Call.linked_becomes (.objects (linked_removed hs k)) (Access.linked_field_getD hs k)
  case h_9 =>
    cases hr
    exact Call.linked_becomes (.objects .nil) nothing
  case h_10 =>
    obtain _ | ⟨hv, _ | _⟩ := hr
    obtain ⟨more, rfl⟩ := hv.of_object
    exact Call.linked_becomes (.objects (Operation.overlaid_of_linked hs hv.fields)) nothing
  case h_11 =>
    split
    all_goals first
      | exact .none
      | obtain _ | ⟨hv, _ | ⟨hw, _ | _⟩⟩ := hr
        all_goals first
          | (simp_all; done)
          | (cases hv <;> simp_all)

theorem linked_onMaps? (name : String) {vs ws : List Value} (h : List.Forall₂ (Datum.Linked R) vs ws) :
    Call.Linked R (onMaps? name vs) (onMaps? name ws) := by
  cases h with
  | nil => exact .none
  | @cons v w rest rest' hv hr =>
    by_cases ho : ∀ fs, v ≠ .object fs
    · exact linked_of_plain_only (plain_of_onMaps? ho name rest)
        (plain_of_onMaps? (Access.not_object_of_linked hv ho) name rest') (linked_self_onMaps? ho name rest)
        (.cons hv hr)
    · push Not at ho
      obtain ⟨fs, rfl⟩ := ho
      obtain ⟨gs, rfl⟩ := hv.of_object
      exact linked_onObject name hv.fields hr

/-! ## §4 — all functions -/

theorem linked_detailed {v w : Value} (h : v.Linked R w) : detailed w = detailed v :=
  Datum.Linked.innerText _ v h

theorem linked_self_onAll? (name : String) (vs : List Value) :
    Call.Linked R (onAll? name vs) (onAll? name vs) := by
  unfold onAll?
  split
  all_goals first
    | exact .none
    | exact Call.linked_plain trivial
    | exact Call.linked_becomes (.plain trivial) (.plain trivial)

theorem onAll?_of_not_plain {v : Value} (h : ¬v.IsPlain) (name : String) :
    onAll? name [v] =
      match name with
      | "to_string" => .text v.scriptText
      | "to_debug" => .text (detailed v)
      | "type_of" => .text v.typeName
      | "print" | "debug" => .yields .unit
      | _ => none := by
  unfold onAll?
  split <;> simp_all [Datum.IsPlain]

theorem onAll?_of_two (name : String) (v w : Value) (rest : List Value) :
    onAll? name (v :: w :: rest) = none := by
  unfold onAll?
  split <;> simp_all

theorem linked_onAll? (name : String) {vs ws : List Value} (h : List.Forall₂ (Datum.Linked R) vs ws) :
    Call.Linked R (onAll? name vs) (onAll? name ws) := by
  obtain _ | ⟨hv, _ | ⟨_, _⟩⟩ := h
  · exact linked_self_onAll? name []
  · rename_i v w
    have same : onAll? name [w] = onAll? name [v] := by
      by_cases hp : v.IsPlain
      · rw [hv.eq_of_plain hp]
      · rw [onAll?_of_not_plain hp, onAll?_of_not_plain (mt hv.isPlain.mp hp), hv.scriptText, linked_detailed hv,
          hv.typeName]
    rw [same]
    exact linked_self_onAll? name [v]
  · rw [onAll?_of_two, onAll?_of_two]
    exact .none

/-- **A function of the library yields linked outcomes on linked arguments**, or does not take either. -/
theorem linked_call? (name : String) {vs ws : List Value} (h : List.Forall₂ (Datum.Linked R) vs ws) :
    Call.Linked R (call? name vs) (call? name ws) := by
  have texts : Call.Linked R (onTexts? name vs) (onTexts? name ws) :=
    linked_of_plain_only (plain_of_onTexts? name vs) (plain_of_onTexts? name ws) (linked_self_onTexts? name vs) h
  have numbers : Call.Linked R (onNumbers? name vs) (onNumbers? name ws) :=
    linked_of_plain_only (plain_of_onNumbers? name vs) (plain_of_onNumbers? name ws)
      (linked_self_onNumbers? name vs) h
  have paths : Call.Linked R (onPaths? name vs) (onPaths? name ws) :=
    linked_of_plain_only (plain_of_onPaths? name vs) (plain_of_onPaths? name ws) (linked_self_onPaths? name vs) h
  unfold call?
  exact Call.linked_orElse (linked_onAll? name h) (Call.linked_orElse texts (Call.linked_orElse
    (linked_onArrays? name h) (Call.linked_orElse (linked_onMaps? name h) (Call.linked_orElse numbers paths))))

end Dialogue.Script.Library
