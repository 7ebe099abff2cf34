import Dialogue.Script.Call
/-!
# `Dialogue.Proofs.Script.Library` — functions that leave what they are called on.

A function of the library that changes what it is called on has one of a few names. Main statement: a function of any
other name yields its result and nothing else, whether it calls back into the script or not.
-/

namespace Dialogue.Script

namespace Library

/-- **The functions that change what they are called on.** How an include is shown counts as a change to it. -/
def changers : List String :=
  ["to_string", "to_debug", "trim", "clear", "replace", "pop", "shift", "reverse", "sort", "push", "append", "remove",
    "insert", "set", "mixin"]

/-! ## §1 — calls that leave what they are made on -/

/-- **A call that changes nothing:** if it yields anything, then a result only. -/
def Call.Leaves (r : Call) : Prop := ∀ out, r = some (.ok out) → out.changed = none

namespace Call

theorem leaves_none : Leaves none := by rintro _ ⟨⟩

theorem leaves_yields (v : Value) : (yields v).Leaves := by
  rintro out same
  cases same
  rfl

theorem leaves_text (s : String) : (text s).Leaves := leaves_yields _

theorem leaves_count (n : Nat) : (count n).Leaves := leaves_yields _

theorem leaves_truth (b : Bool) : (truth b).Leaves := leaves_yields _

theorem leaves_attempt (r : Except Cause Value) : (attempt r).Leaves := by
  rintro out same
  cases r with
  | error cause => cases same
  | ok v =>
    cases same
    rfl

theorem leaves_given {α : Type} (a : Option α) {f : α → Call} (h : ∀ a, (f a).Leaves) : (given a f).Leaves := by
  cases a with
  | none => exact leaves_none
  | some a => exact h a

theorem leaves_orElse {r s : Call} (hr : r.Leaves) (hs : s.Leaves) : Leaves (r <|> s) := by
  cases r with
  | none => exact hs
  | some found => exact hr

end Call

open Call

/-! ## §2 — the functions of the library -/

section

variable {name : String} (other : name ∉ changers) (arguments : List Value)

include other

theorem leaves_onAll : (onAll? name arguments).Leaves := by
  unfold onAll?
  split
  all_goals with_reducible first
    | exact leaves_none
    | exact leaves_text _
    | exact leaves_yields _
    | exact absurd (by decide) other

theorem leaves_onTexts : (onTexts? name arguments).Leaves := by
  unfold onTexts?
  split
  · dsimp only
    split
    all_goals with_reducible first
      | exact leaves_none
      | exact leaves_count _
      | exact leaves_text _
      | exact leaves_truth _
      | exact leaves_yields _
      | exact leaves_given _ fun _ => leaves_truth _
      | exact leaves_given _ fun _ => leaves_yields _
      | exact absurd (by decide) other
  · split
    all_goals with_reducible first
      | exact leaves_none
      | exact leaves_given _ fun _ => leaves_yields _
  · exact leaves_none

theorem leaves_onArrays : (onArrays? name arguments).Leaves := by
  unfold onArrays?
  split
  · split
    all_goals with_reducible first
      | exact leaves_none
      | exact leaves_count _
      | exact leaves_truth _
      | exact leaves_attempt _
      | exact absurd (by decide) other
  · exact leaves_none

theorem leaves_onMaps : (onMaps? name arguments).Leaves := by
  unfold onMaps?
  split
  · split
    all_goals with_reducible first
      | exact leaves_none
      | exact leaves_count _
      | exact leaves_truth _
      | exact leaves_yields _
      | exact absurd (by decide) other
  · split
    · exact leaves_truth _
    · exact leaves_none
  · exact leaves_none

omit other

theorem leaves_onNumbers (name : String) : (onNumbers? name arguments).Leaves := by
  unfold onNumbers?
  split
  all_goals with_reducible first
    | exact leaves_none
    | exact leaves_count _
    | exact leaves_yields _
    | exact leaves_attempt _
    | exact leaves_given _ leaves_yields

theorem leaves_onPaths (name : String) : (onPaths? name arguments).Leaves := by
  unfold onPaths?
  split
  all_goals with_reducible first
    | exact leaves_none
    | exact leaves_text _

include other

/-- **A function of another name leaves** what it is called on. -/
theorem leaves_call : (call? name arguments).Leaves := by
  unfold call?
  refine leaves_orElse (leaves_onAll other arguments) (leaves_orElse (leaves_onTexts other arguments) ?_)
  refine leaves_orElse (leaves_onArrays other arguments) (leaves_orElse (leaves_onMaps other arguments) ?_)
  exact leaves_orElse (leaves_onNumbers arguments name) (leaves_onPaths arguments name)

end

end Library

/-! ## §3 — functions that call back, or ask -/

namespace Interpreter

open Library (changers Outcome)

/-- **A step of evaluation that yields a result**, and nothing else. -/
def Leaves (call : Eval Outcome) : Prop := ∃ x : Eval Value, call = x >>= fun v => return ⟨v, none⟩

theorem Leaves.done (v : Value) : Leaves (return ⟨v, none⟩) := ⟨return v, rfl⟩

/-- It does not matter what was done before. -/
theorem Leaves.after {α : Type} (x : Eval α) {f : α → Eval Outcome} (h : ∀ a, Leaves (f a)) : Leaves (x >>= f) := by
  refine ⟨x >>= fun a => (h a).choose, ?_⟩
  rw [bind_assoc]
  exact bind_congr fun a => (h a).choose_spec

theorem leaves_orFail {r : Except Cause Outcome} (leaves : ∀ out, r = .ok out → out.changed = none)
    (pos : Position) : Leaves (orFail pos r) := by
  cases r with
  | error cause => exact ⟨Eval.failAt pos cause, rfl⟩
  | ok out =>
    obtain ⟨v, changed⟩ := out
    obtain rfl : changed = none := leaves _ rfl
    exact .done v

section

variable {name : String} (other : name ∉ changers) {arguments : List Value} {pos : Position} {call : Eval Outcome}

include other

theorem leaves_plainCall (h : plainCall? name arguments pos = some call) : Leaves call := by
  unfold plainCall? at h
  split at h
  · cases h
    exact .after _ fun i => .done i
  · cases h
    exact .after _ fun options => .after _ fun i => .done i
  · cases h
    exact .after _ fun now => .done (.timestamp now)
  · cases h
    exact .after _ fun seconds => .done seconds
  · obtain ⟨r, found, rfl⟩ := Option.map_eq_some_iff.mp h
    exact leaves_orFail (fun out same => Library.leaves_call other arguments out (found.trans (congrArg some same))) pos

variable (I : Interpreter)

theorem leaves_callback (h : I.callback? name arguments pos = some call) : Leaves call := by
  unfold callback? at h
  split at h
  · split at h
    · cases h
      exact .after _ fun vs => .done (.array vs)
    · cases h
      exact .after _ fun vs => .done (.array vs)
    · cases h
      exact .after _ fun i => .done (.bool i.isSome)
    · cases h
      exact .after _ fun i => .done (.bool i.isNone)
    · cases h
      refine .after _ fun i => ?_
      cases i <;> exact .done _
    · cases h
      exact .after _ fun _ => .done .unit
    · cases h
      exact .after _ fun v => .done v
    · cases h
      exact .after _ fun v => .done v
    · exact absurd (by decide) other
    · cases h
  · cases h

/-- **A function of the library of another name** yields its result, and nothing else. -/
theorem leaves_native (h : I.native? name arguments pos = some call) : Leaves call := by
  unfold native? at h
  cases found : I.callback? name arguments pos with
  | some callback =>
    rw [found] at h
    cases h
    exact leaves_callback other I found
  | none =>
    rw [found] at h
    exact leaves_plainCall other h

end

end Interpreter

end Dialogue.Script
