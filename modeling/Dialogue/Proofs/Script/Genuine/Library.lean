import Dialogue.Proofs.Script.Genuine
import Dialogue.Proofs.Script.Linked.Library
import Dialogue.Script.Library
import Mathlib.Data.List.InsertIdx
/-!
# `Dialogue.Proofs.Script.Genuine.Library` — operators and functions hand on failures as they are.

What an operator, a property or a function of the library yields is a scalar, or made of parts of the values that it
was given. Main statements: given genuine values, each of them yields a genuine value, or fails with a cause that
throws nothing else.
-/

namespace Dialogue.Script

variable {P : Failure → Prop}

/-! ## §1 — faults -/

/-- **A cause** is genuine when the value that it throws is. -/
def Cause.Genuine (P : Failure → Prop) : Cause → Prop
  | .thrown v => v.Genuine P
  | _ => True

/-- **A fault** is genuine when its cause is. -/
abbrev Fault.Genuine (P : Failure → Prop) (f : Fault) : Prop := f.cause.Genuine P

namespace Fault

@[simp] theorem cause_moveTo (pos : Option Position) (f : Fault) : (f.moveTo pos).cause = f.cause := by
  cases f <;> rfl

/-- The description of a fault holds texts and numbers only. -/
theorem genuine_description (f : Fault) : FieldsHold P (Function.Genuine P) f.description := by
  have details (c : Cause) : FieldsHold P (Function.Genuine P) c.details := by
    cases c with
    | arrayBounds | stringBounds | bitBounds | mismatch => exact .cons (.scalar trivial) (.scalar _ trivial)
    | notIterable | unboundThis | stackOverflow | arithmetic | thrown | tooComplex => exact .nil
    | _ => exact .scalar _ trivial
  cases f with
  | raised c pos => exact .cons (Datum.holds_str _) (details c)
  | inCall function inner pos => exact .cons (Datum.holds_str _) (.cons (Datum.holds_str _) (.scalar _ trivial))

theorem genuine_placeFields (p : Option Position) : FieldsHold P (Function.Genuine P) (placeFields p) := by
  cases p with
  | none => exact .nil
  | some p => exact .cons (Datum.holds_int _) (.scalar _ trivial)

/-- **What is caught of a genuine fault** is genuine. -/
theorem Genuine.caught {f : Fault} (h : f.Genuine P) : f.caught.Genuine P := by
  unfold Fault.caught
  split
  · rename_i v thrown
    unfold Fault.Genuine at h
    rw [thrown] at h
    exact h
  · apply Datum.Holds.object
    apply FieldsHold.ofFields
    apply FieldsHold.append
    · exact .cons (Datum.holds_str _) (genuine_placeFields _)
    · exact genuine_description f

/-- **The failure behind a genuine fault** is in `P`. -/
theorem Genuine.failure? {f : Fault} (h : f.Genuine P) {e : Failure} (held : f.failure? = some e) : P e := by
  unfold Fault.failure? at held
  unfold Fault.Genuine at h
  split at held
  · rename_i thrown
    cases held
    rw [thrown] at h
    exact Datum.holds_failure_iff.mp h
  · cases held

end Fault

/-- **A result with a property**, or a genuine cause of a fault. -/
inductive Ends (P : Failure → Prop) {α : Type} (Q : α → Prop) : Except Cause α → Prop
  | ok {a : α} (h : Q a) : Ends P Q (.ok a)
  | error {cause : Cause} (h : cause.Genuine P) : Ends P Q (.error cause)

namespace Ends

variable {α β : Type} {Q : α → Prop} {R : β → Prop} {r : Except Cause α}

theorem bind (h : Ends P Q r) {f : α → Except Cause β} (hf : ∀ a, Q a → Ends P R (f a)) : Ends P R (r >>= f) := by
  cases h with
  | ok h => exact hf _ h
  | error h => exact .error h

theorem map (h : Ends P Q r) {f : α → β} (hf : ∀ a, Q a → R (f a)) : Ends P R (r.map f) := by
  cases h with
  | ok h => exact .ok (hf _ h)
  | error h => exact .error h

/-- Whatever the result, where only a missing function makes it fail. -/
theorem of_failsUnknown (h : Operation.FailsUnknown r) : Ends P (fun _ => True) r := by
  cases r with
  | ok a => exact .ok trivial
  | error cause =>
    obtain ⟨s, rfl⟩ := h rfl
    exact .error trivial

end Ends

/-- Genuine values. -/
abbrev Genuines (P : Failure → Prop) (vs : List Value) : Prop := ∀ v ∈ vs, v.Genuine P

/-- Genuine fields. -/
abbrev FieldsGenuine (P : Failure → Prop) (fs : List (String × Value)) : Prop := ∀ f ∈ fs, f.2.Genuine P

/-- A result that is a genuine value. -/
abbrev EndsGenuine (P : Failure → Prop) (r : Except Cause Value) : Prop := Ends P (Datum.Genuine P) r

namespace Operation

/-! ## §2 — operators -/

variable {v w : Value}

/-- A scalar made of the outcome of a comparison. -/
theorem genuine_equal_map (f : Bool → Bool) (v w : Value) : EndsGenuine P ((equal v w).map fun r => .bool (f r)) :=
  (Ends.of_failsUnknown (failsUnknown_equal v w)).map fun r _ => Datum.holds_bool (f r)

theorem genuine_binary (op : String) (hv : v.Genuine P) (hw : w.Genuine P) : EndsGenuine P (binary op v w) := by
  have scalar := Operator.yieldsScalar_result? op v w
  unfold binary
  generalize Operator.result? op v w = r at scalar
  cases scalar with
  | ok h => exact .ok (.scalar h)
  | error text => exact .error trivial
  | none =>
    dsimp only
    split
    · exact .ok (Datum.holds_str _)
    · exact .ok (Datum.holds_str _)
    · exact .ok (.array (List.forall_mem_append.mpr ⟨hv.items, hw.items⟩))
    · exact .ok (.object (hv.fields.foldl_setField hw.fields))
    · exact genuine_equal_map id _ _
    · exact genuine_equal_map id _ _
    · exact genuine_equal_map not _ _
    · exact genuine_equal_map not _ _
    · exact .error trivial

theorem genuine_unary (op : String) (v : Value) : EndsGenuine P (unary op v) := by
  unfold unary
  split
  · split
    · exact .ok (Datum.holds_int _)
    · exact .error trivial
  · exact .ok (Datum.holds_float _)
  · exact .ok (Datum.holds_int _)
  · exact .ok (Datum.holds_float _)
  · exact .ok (Datum.holds_bool _)
  · exact .error trivial

theorem genuine_assigned (op : String) (hv : v.Genuine P) (hw : w.Genuine P) : EndsGenuine P (assigned op v w) := by
  unfold assigned
  split
  · exact .ok (.array (List.forall_mem_append.mpr ⟨hv.items, hw.items⟩))
  · exact .ok (.array (List.forall_mem_append.mpr ⟨hv.items, List.forall_mem_singleton.mpr hw⟩))
  · exact genuine_binary op hv hw

end Operation

namespace Access

/-! ## §3 — properties and indices -/

variable {v : Value}

/-- A step into a value leads to a genuine one. -/
abbrev Found.Genuine (P : Failure → Prop) (found : Found) : Prop := found.value.Genuine P

theorem genuine_property (h : v.Genuine P) (name : String) : Ends P (Found.Genuine P) (property v name) := by
  unfold property
  split
  · split
    · rename_i w found
      exact .ok (h.fields.field? found)
    · exact .ok Datum.holds_unit
  · split
    · rename_i w computed
      exact .ok (.scalar (isScalar_of_computed? computed))
    · exact .error trivial

theorem genuine_writable (h : v.Genuine P) (name : String) (new : Value) :
    Ends P (Found.Genuine P) (writable v name new) := by
  unfold writable
  split
  · exact .ok (h.fields.fieldOr name)
  · exact .error trivial

theorem ends_wholeKey (key : Value) : Ends P (fun _ => True) (wholeKey key) := by
  unfold wholeKey
  split
  · exact .ok trivial
  · exact .error trivial

theorem ends_slice (cs : List Char) (first last : Int) : Ends P (fun _ => True) (slice cs first last) := by
  unfold slice
  dsimp only
  split
  · exact .ok trivial
  · split
    · exact .ok trivial
    · exact .error trivial

theorem genuine_element (h : v.Genuine P) (key : Value) : Ends P (Found.Genuine P) (element v key) := by
  unfold element
  split
  · apply (ends_wholeKey key).bind
    intro i _
    split
    · rename_i k w there
      obtain ⟨j, -, found⟩ := Option.bind_eq_some_iff.mp there
      obtain ⟨u, item, same⟩ := Option.map_eq_some_iff.mp found
      cases same
      exact .ok (h.items _ (List.mem_of_getElem? item))
    · exact .error trivial
  · split
    · split
      · rename_i w found
        exact .ok (h.fields.field? found)
      · exact .ok Datum.holds_unit
    · exact .error trivial
  · dsimp only
    split
    · exact (ends_slice _ _ _).bind fun cs _ => .ok (Datum.holds_str _)
    · apply (ends_wholeKey key).bind
      intro i _
      split
      · exact .ok (Datum.holds_char _)
      · exact .error trivial
  · apply (ends_wholeKey key).bind
    intro i _
    split
    · exact .ok (Datum.holds_bool _)
    · exact .error trivial
  · exact .error trivial

theorem genuine_writableAt (h : v.Genuine P) (key : Value) : Ends P (Found.Genuine P) (writableAt v key) := by
  unfold writableAt
  split
  · exact .ok (h.fields.fieldOr _)
  · exact genuine_element h key

theorem ends_checkWritten (step : Option Inward) (new : Value) : Ends P (fun _ => True) (checkWritten step new) := by
  unfold checkWritten
  split
  · exact .ok trivial
  · exact .ok trivial
  · exact .error trivial
  · exact .error trivial
  · exact .ok trivial

/-- **A value with a genuine value put into it** is genuine. -/
theorem genuine_replaced (way : List Inward) {v new : Value} (hv : v.Genuine P) (hn : new.Genuine P) :
    (v.replaced way new).Genuine P := by
  induction way generalizing v with
  | nil => exact hn
  | cons step rest ih =>
    unfold Datum.replaced
    split
    · rename_i e
      cases e
    · rename_i i way items there
      obtain ⟨rfl, rfl⟩ : step = .item i ∧ rest = way := List.cons.inj there
      refine .array fun w mem => ?_
      obtain ⟨k, item⟩ := List.mem_iff_getElem?.mp mem
      rw [List.getElem?_modify] at item
      obtain ⟨u, here, rfl⟩ := Option.map_eq_some_iff.mp item
      have hu := hv.items u (List.mem_of_getElem? here)
      split
      · exact ih hu
      · exact hu
    · rename_i there
      cases there
      exact .object (hv.fields.setField _ (ih (hv.fields.fieldOr _)))
    · exact Datum.holds_str _
    · exact Datum.holds_int _
    · exact hv

end Access

namespace Library

/-! ## §4 — functions of the library -/

/-- **A function yields genuine values:** its result, and what its first argument has become. -/
structure Outcome.Genuine (P : Failure → Prop) (out : Outcome) : Prop where
  result : out.result.Genuine P
  changed : ∀ v ∈ out.changed, v.Genuine P

/-- A call that yields genuine values, if there is such a function. -/
def Call.Genuine (P : Failure → Prop) (call : Call) : Prop := ∀ r ∈ call, Ends P (Outcome.Genuine P) r

namespace Call

variable {v w : Value}

theorem genuine_none : Call.Genuine P none := nofun

theorem genuine_yields (h : v.Genuine P) : (yields v).Genuine P := by
  rintro r ⟨⟩
  exact .ok ⟨h, nofun⟩

theorem genuine_becomes (hv : v.Genuine P) (hw : w.Genuine P) : (becomes v w).Genuine P := by
  rintro r ⟨⟩
  refine .ok ⟨hw, ?_⟩
  rintro u ⟨⟩
  exact hv

theorem genuine_attempt {r : Except Cause Value} (h : EndsGenuine P r) : (attempt r).Genuine P := by
  rintro r' ⟨⟩
  exact h.map fun v hv => ⟨hv, nofun⟩

theorem genuine_given {α : Type} {a : Option α} {f : α → Call} (h : ∀ x, a = some x → (f x).Genuine P) :
    (given a f).Genuine P := by
  intro r mem
  obtain ⟨x, there, call⟩ := Option.bind_eq_some_iff.mp mem
  exact h x there r call

theorem genuine_orElse {a b : Call} (ha : a.Genuine P) (hb : b.Genuine P) : Call.Genuine P (a <|> b) := by
  cases a with
  | none => exact hb
  | some r => exact ha

end Call

theorem genuine_texts (pieces : List (List Char)) : (Datum.array (pieces.map textOf)).Genuine P := by
  simp [textOf]

theorem genuine_onTexts? (name : String) (vs : List Value) : (onTexts? name vs).Genuine P := by
  unfold onTexts?
  split
  · dsimp only
    split
    all_goals first
      | exact Call.genuine_none
      | exact Call.genuine_yields (.scalar trivial)
      | exact Call.genuine_yields (genuine_texts _)
      | exact Call.genuine_yields (by simp [cutIn, textOf])
      | exact Call.genuine_becomes (.scalar trivial) (.scalar trivial)
      | exact Call.genuine_given fun _ _ => Call.genuine_yields (.scalar trivial)
      | exact Call.genuine_given fun _ _ => Call.genuine_yields (genuine_texts _)
      | exact Call.genuine_given fun _ _ => Call.genuine_given fun _ _ =>
          Call.genuine_becomes (.scalar trivial) (.scalar trivial)
  · split
    · exact Call.genuine_given fun _ _ => Call.genuine_yields (.scalar trivial)
    · exact Call.genuine_given fun _ _ => Call.genuine_yields (.scalar trivial)
    · exact Call.genuine_none
  · exact Call.genuine_none

theorem genuine_extreme? {greater : Bool} {v w : Value} : (Call.given (extreme? greater v w) .yields).Genuine P := by
  apply Call.genuine_given
  intro u found
  apply Call.genuine_yields
  unfold extreme? at found
  split at found
  all_goals cases found
  all_goals first
    | exact .scalar trivial
    | (split <;> split <;> exact .scalar trivial)

theorem genuine_absolute (n : Int64) : EndsGenuine P (absolute n) := by
  unfold absolute
  split
  · exact Operation.genuine_unary "-" _
  · exact .ok (Datum.holds_int n)

theorem genuine_wholePart (x : Float) : EndsGenuine P (wholePart x) := by
  unfold wholePart
  split
  · exact .error trivial
  · exact .ok (Datum.holds_int _)

theorem genuine_parseWhole (s : String) (base : Int64) : EndsGenuine P (parseWhole s base) := by
  unfold parseWhole
  split
  · exact .error trivial
  · split
    · exact .ok (Datum.holds_int _)
    · exact .error trivial

theorem genuine_parseFloat (s : String) : EndsGenuine P (parseFloat s) := by
  unfold parseFloat
  dsimp only
  split
  · exact .ok (Datum.holds_float _)
  · exact .error trivial

theorem genuine_computed (vs : List Value) (name : String) :
    (Call.given (vs.head?.bind (Access.computed? · name)) .yields).Genuine P := by
  apply Call.genuine_given
  intro w found
  obtain ⟨v, -, computed⟩ := Option.bind_eq_some_iff.mp found
  exact Call.genuine_yields (.scalar (Access.isScalar_of_computed? computed))

theorem genuine_onNumbers? (name : String) (vs : List Value) : (onNumbers? name vs).Genuine P := by
  unfold onNumbers?
  split
  case h_1 => exact Call.genuine_attempt (genuine_absolute _)
  case h_4 | h_5 => exact genuine_extreme?
  case h_21 => exact Call.genuine_attempt (genuine_wholePart _)
  case h_23 | h_24 => exact Call.genuine_attempt (genuine_parseWhole ..)
  case h_25 => exact Call.genuine_attempt (genuine_parseFloat _)
  all_goals first
    | exact Call.genuine_none
    | exact genuine_computed _ _
    | exact Call.genuine_yields (.scalar trivial)

theorem genuine_onPaths? (name : String) (vs : List Value) : (onPaths? name vs).Genuine P := by
  unfold onPaths?
  split
  all_goals first
    | exact Call.genuine_none
    | exact Call.genuine_yields (.scalar trivial)

/-- What is put in order stays the same values. -/
theorem genuine_sorted {items : List Value} (h : Genuines P items) : Ends P (Genuines P) (sorted items) := by
  unfold sorted
  split
  · exact .ok h
  · exact .ok h
  · split
    · refine .ok fun v mem => ?_
      cases order : ordered? _ with
      | none =>
        rw [order] at mem
        exact h v mem
      | some ys =>
        rw [order] at mem
        exact h v (mem_of_ordered? order mem)
    · exact .error trivial

theorem genuine_inserted {items : List Value} (h : Genuines P items) (n : Int64) {v : Value} (hv : v.Genuine P) :
    Genuines P (inserted items n v) := by
  intro w mem
  unfold inserted at mem
  rcases List.eq_or_mem_of_mem_insertIdx mem with rfl | old
  · exact hv
  · exact h w old

theorem genuine_getD {v : Option Value} (h : ∀ w ∈ v, w.Genuine P) : (v.getD .unit).Genuine P := by
  cases v with
  | none => exact Datum.holds_unit
  | some w => exact h w rfl

theorem genuine_without {items : List Value} (h : Genuines P items) (n : Int64) :
    (without items n).1.Genuine P ∧ Genuines P (without items n).2 := by
  unfold without
  split
  · exact ⟨genuine_getD fun w item => h w (List.mem_of_getElem? item), fun w mem => h w (List.mem_of_mem_eraseIdx mem)⟩
  · exact ⟨Datum.holds_unit, h⟩

theorem genuine_onArrays? (name : String) {vs : List Value} (h : Genuines P vs) : (onArrays? name vs).Genuine P := by
  unfold onArrays?
  split
  · obtain ⟨array, hr⟩ := List.forall_mem_cons.mp h
    have hi := array.items
    have changed {items : List Value} (h : Genuines P items) {v : Value} (hv : v.Genuine P) :
        (Call.becomes (.array items) v).Genuine P := Call.genuine_becomes (.array h) hv
    split
    · exact Call.genuine_yields (.scalar trivial)
    · exact Call.genuine_yields (.scalar trivial)
    · exact changed (fun v mem => hi v ((List.dropLast_sublist _).subset mem))
        (genuine_getD fun v last => hi v (List.mem_of_getLast? last))
    · exact changed (fun v mem => hi v (List.mem_of_mem_tail mem))
        (genuine_getD fun v first => hi v (List.mem_of_head? first))
    · exact changed (List.forall_mem_nil _) Datum.holds_unit
    · exact changed (fun v mem => hi v (List.mem_reverse.mp mem)) Datum.holds_unit
    · have order := genuine_sorted hi
      generalize sorted _ = r at order
      cases order with
      | ok h => exact changed h Datum.holds_unit
      | error h =>
        rintro r ⟨⟩
        exact .error h
    · have hv := List.forall_mem_singleton.mp hr
      exact changed (List.forall_mem_append.mpr ⟨hi, List.forall_mem_singleton.mpr hv⟩) Datum.holds_unit
    · have hv := List.forall_mem_singleton.mp hr
      exact changed (List.forall_mem_append.mpr ⟨hi, hv.items⟩) Datum.holds_unit
    · exact Call.genuine_attempt ((Ends.of_failsUnknown (Operation.failsUnknown_isAmong _ _)).map
        fun _ _ => Datum.holds_bool _)
    · exact Call.genuine_attempt ((Ends.of_failsUnknown (Operation.failsUnknown_indexAmong _ _ _)).map
        fun _ _ => Datum.holds_int _)
    · exact changed (genuine_without hi _).2 (genuine_without hi _).1
    · have hv := (List.forall_mem_cons.mp (List.forall_mem_cons.mp hr).2).1
      exact changed (genuine_inserted hi _ hv) Datum.holds_unit
    · exact Call.genuine_attempt ((Ends.of_failsUnknown (Operation.failsUnknown_indexAmong _ _ _)).map
        fun _ _ => Datum.holds_int _)
    · exact Call.genuine_none
  · exact Call.genuine_none

theorem genuine_onMaps? (name : String) {vs : List Value} (h : Genuines P vs) : (onMaps? name vs).Genuine P := by
  unfold onMaps?
  split
  · obtain ⟨object, hr⟩ := List.forall_mem_cons.mp h
    have hf := object.fields
    have changed {fields : List (String × Value)} (h : FieldsGenuine P fields) {v : Value} (hv : v.Genuine P) :
        (Call.becomes (.object fields) v).Genuine P := Call.genuine_becomes (.object h) hv
    split
    · exact Call.genuine_yields (.scalar trivial)
    · exact Call.genuine_yields (.scalar trivial)
    · refine Call.genuine_yields (.array fun v mem => ?_)
      obtain ⟨f, -, rfl⟩ := List.mem_map.mp mem
      exact Datum.holds_str _
    · refine Call.genuine_yields (.array fun v mem => ?_)
      obtain ⟨f, there, rfl⟩ := List.mem_map.mp mem
      exact hf f there
    · exact Call.genuine_yields (.scalar trivial)
    · exact Call.genuine_yields (hf.fieldOr _)
    · have hv := (List.forall_mem_cons.mp (List.forall_mem_cons.mp hr).2).1
      exact changed (hf.setField _ hv) Datum.holds_unit
    · exact changed (fun f mem => hf f (List.mem_filter.mp mem).1) (hf.fieldOr _)
    · exact changed (List.forall_mem_nil _) Datum.holds_unit
    · have hm := List.forall_mem_singleton.mp hr
      exact changed (hf.foldl_setField hm.fields) Datum.holds_unit
    · exact Call.genuine_none
  · split
    · exact Call.genuine_yields (.scalar trivial)
    · exact Call.genuine_none
  · exact Call.genuine_none

theorem genuine_onAll? (name : String) (vs : List Value) : (onAll? name vs).Genuine P := by
  unfold onAll?
  split
  all_goals first
    | exact Call.genuine_none
    | exact Call.genuine_yields (.scalar trivial)
    | exact Call.genuine_becomes (.scalar trivial) (.scalar trivial)

/-- **The functions of the library** yield genuine values of genuine ones. -/
theorem genuine_call? (name : String) {vs : List Value} (h : Genuines P vs) : (call? name vs).Genuine P := by
  unfold call?
  apply Call.genuine_orElse (genuine_onAll? name vs)
  apply Call.genuine_orElse (genuine_onTexts? name vs)
  apply Call.genuine_orElse (genuine_onArrays? name h)
  apply Call.genuine_orElse (genuine_onMaps? name h)
  apply Call.genuine_orElse (genuine_onNumbers? name vs)
  exact genuine_onPaths? name vs

end Library

end Dialogue.Script
