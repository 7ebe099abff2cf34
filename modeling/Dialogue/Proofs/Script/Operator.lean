import Dialogue.Script.Operation
/-!
# `Dialogue.Proofs.Script.Operator` — operators on constants, and operators that compare.

Operators work on plain values, so it does not matter what code closures would carry. Main statements: an operator makes
of constants, seen as values of a run, what it makes of the constants; and a comparison yields a truth value, if it
yields a value at all.
-/

namespace Dialogue.Script

namespace Operator

variable {κ : Type}

/-! ## §1 — constants -/

/-- **The outcome of an operator on constants**, among the outcomes on other values. -/
def recast : Option (Outcome Empty) → Option (Outcome κ) := Option.map (Except.map Datum.ofConstant)

theorem recast_compare (op : String) (eq lt : Bool) :
    recast ((compare? op eq lt).map fun r => .ok (.bool r)) =
      ((compare? op eq lt).map fun r => .ok (.bool r) : Option (Outcome κ)) := by
  cases compare? op eq lt <;> rfl

theorem recast_checked (n : Int) (what : String) (a : Int64) (op : String) (b : Int64) :
    recast (some (checked n what a op b)) = some (checked n what a op b : Outcome κ) := by
  unfold checked
  split <;> rfl

theorem recast_power (a b : Int64) : recast (some (power a b)) = some (power a b : Outcome κ) := by
  unfold power
  dsimp only
  repeat' split
  all_goals rfl

theorem recast_onInts? (op : String) (a b : Int64) :
    recast (onInts? op a b) = (onInts? op a b : Option (Outcome κ)) := by
  unfold onInts?
  dsimp only
  split
  all_goals first
    | rfl
    | exact recast_checked ..
    | exact recast_power ..
    | exact recast_compare ..
    | skip
  -- division and remainder look at the divisor first
  all_goals split
  all_goals first
    | rfl
    | exact recast_checked ..

theorem recast_onFloats? (op : String) (a b : Float) :
    recast (onFloats? op a b) = (onFloats? op a b : Option (Outcome κ)) := by
  unfold onFloats?
  split <;> rfl

theorem recast_onStrings? (op a b : String) :
    recast (onStrings? op a b) = (onStrings? op a b : Option (Outcome κ)) := by
  unfold onStrings?
  split
  all_goals first | rfl | exact recast_compare ..

theorem recast_onChars? (op : String) (a b : Char) :
    recast (onChars? op a b) = (onChars? op a b : Option (Outcome κ)) := by
  unfold onChars?
  split
  all_goals first | rfl | exact recast_compare ..

theorem recast_onBools? (op : String) (a b : Bool) :
    recast (onBools? op a b) = (onBools? op a b : Option (Outcome κ)) := by
  unfold onBools?
  split
  all_goals first | rfl | exact recast_compare ..

theorem recast_onDifferent? (op : String) : recast (onDifferent? op) = (onDifferent? op : Option (Outcome κ)) := by
  unfold onDifferent?
  split <;> rfl

theorem recast_onTimes? (op : String) (a b : Instant) :
    recast (onTimes? op a b) = (onTimes? op a b : Option (Outcome κ)) := by
  unfold onTimes?
  split
  all_goals first | rfl | exact recast_compare ..

theorem recast_moved (t : Instant) (nanoseconds : Int) (what : String) :
    recast (some (moved t nanoseconds what)) = some (moved t nanoseconds what : Outcome κ) := by
  unfold moved
  split <;> rfl

theorem recast_onTimeAndInt? (op : String) (t : Instant) (n : Int64) :
    recast (onTimeAndInt? op t n) = (onTimeAndInt? op t n : Option (Outcome κ)) := by
  unfold onTimeAndInt?
  dsimp only
  split
  all_goals first | rfl | exact recast_moved ..

theorem recast_onTimeAndFloat? (op : String) (t : Instant) (x : Float) :
    recast (onTimeAndFloat? op t x) = (onTimeAndFloat? op t x : Option (Outcome κ)) := by
  unfold onTimeAndFloat?
  dsimp only
  split
  all_goals first | rfl | skip
  all_goals split
  all_goals first | rfl | exact recast_moved ..

/-- What is different where the operator has no other meaning. -/
theorem recast_or {r : Option (Outcome Empty)} {s : Option (Outcome κ)} (h : recast r = s) (op : String) :
    recast (r.or (onDifferent? op)) = s.or (onDifferent? op) := by
  subst h
  cases r with
  | none => exact recast_onDifferent? op
  | some _ => rfl

/-- **An operator makes of constants** what it makes of them among other values. -/
theorem result?_ofConstant (op : String) (a b : Constant) :
    result? op (.ofConstant a : Datum κ) (.ofConstant b) = recast (result? op a b) := by
  symm
  -- the types of both operands say which table the operator is looked up in
  cases a <;> cases b <;> first
    | exact recast_onDifferent? op
    | exact recast_onInts? ..
    | exact recast_onFloats? ..
    | exact recast_or (recast_onFloats? ..) op
    | exact recast_onStrings? ..
    | exact recast_onChars? ..
    | exact recast_onBools? ..
    | exact recast_onTimes? ..
    | exact recast_or (recast_onTimeAndInt? ..) op
    | exact recast_or (recast_onTimeAndFloat? ..) op
    | rfl
    | skip
  case unit.unit =>
    unfold result? Datum.ofConstant
    dsimp only
    split <;> rfl
  case unit.str | str.unit =>
    unfold result? Datum.ofConstant
    dsimp only
    split
    · rfl
    · exact recast_onDifferent? op
  case range.range =>
    unfold result? Datum.ofConstant Datum.sameType
    dsimp only
    split
    · rfl
    · exact recast_onDifferent? op

/-! ## §2 — comparisons -/

/-- The operators that compare. -/
def comparisons : List String := ["==", "!=", "<", "<=", ">", ">="]

/-- **A truth value, if any value,** is what an operator yields. -/
inductive Tells : Option (Outcome κ) → Prop
  | none : Tells none
  | error (text : String) : Tells (some (.error text))
  | ok (b : Bool) : Tells (some (.ok (.bool b)))

theorem tells_compare (op : String) (eq lt : Bool) :
    Tells ((compare? op eq lt).map fun r => (.ok (.bool r) : Outcome κ)) := by
  cases compare? op eq lt with
  | none => exact .none
  | some b => exact .ok b

theorem Tells.or {r s : Option (Outcome κ)} (hr : Tells r) (hs : Tells s) : Tells (r.or s) := by
  cases hr with
  | none => exact hs
  | error text => exact .error text
  | ok b => exact .ok b

theorem tells_onDifferent? (op : String) : Tells (onDifferent? op : Option (Outcome κ)) := by
  unfold onDifferent?
  split
  all_goals first | exact .ok _ | exact .none

theorem tells_onBools? (op : String) (a b : Bool) : Tells (onBools? op a b : Option (Outcome κ)) := by
  unfold onBools?
  split
  all_goals first | exact .ok _ | exact tells_compare ..

section

variable {op : String} (compares : op ∈ comparisons)

include compares

theorem tells_onInts? (a b : Int64) : Tells (onInts? op a b : Option (Outcome κ)) := by
  unfold onInts?
  dsimp only
  split
  all_goals first | exact tells_compare .. | exact absurd compares (by decide)

theorem tells_onFloats? (a b : Float) : Tells (onFloats? op a b : Option (Outcome κ)) := by
  unfold onFloats?
  split
  all_goals first | exact .ok _ | exact .none | exact absurd compares (by decide)

theorem tells_onStrings? (a b : String) : Tells (onStrings? op a b : Option (Outcome κ)) := by
  unfold onStrings?
  split
  all_goals first | exact tells_compare .. | exact absurd compares (by decide)

theorem tells_onChars? (a b : Char) : Tells (onChars? op a b : Option (Outcome κ)) := by
  unfold onChars?
  split
  all_goals first | exact tells_compare .. | exact absurd compares (by decide)

theorem tells_onTimes? (a b : Instant) : Tells (onTimes? op a b : Option (Outcome κ)) := by
  unfold onTimes?
  split
  all_goals first | exact tells_compare .. | exact absurd compares (by decide)

theorem tells_onTimeAndInt? (t : Instant) (n : Int64) : Tells (onTimeAndInt? op t n : Option (Outcome κ)) := by
  unfold onTimeAndInt?
  dsimp only
  split
  all_goals first | exact .none | exact absurd compares (by decide)

theorem tells_onTimeAndFloat? (t : Instant) (x : Float) : Tells (onTimeAndFloat? op t x : Option (Outcome κ)) := by
  unfold onTimeAndFloat?
  dsimp only
  split
  all_goals first | exact .none | exact absurd compares (by decide)

/-- **A comparison** yields a truth value, if any value. -/
theorem tells_result? (v w : Datum κ) : Tells (result? op v w) := by
  have noPlus : (op == "+") = false := beq_eq_false_iff_ne.mpr fun e => absurd (e ▸ compares) (by decide)
  unfold result?
  split
  · exact tells_onInts? compares ..
  · exact tells_onFloats? compares ..
  · exact (tells_onFloats? compares ..).or (tells_onDifferent? _)
  · exact (tells_onFloats? compares ..).or (tells_onDifferent? _)
  · exact tells_onStrings? compares ..
  · exact tells_onStrings? compares ..
  · exact tells_onStrings? compares ..
  · exact tells_onChars? compares ..
  · exact tells_onBools? ..
  · exact tells_onTimes? compares ..
  · exact (tells_onTimeAndInt? compares ..).or (tells_onDifferent? _)
  · exact (tells_onTimeAndFloat? compares ..).or (tells_onDifferent? _)
  · split
    all_goals first | exact .ok _ | exact .none
  · rw [noPlus]
    exact tells_onDifferent? _
  · rw [noPlus]
    exact tells_onDifferent? _
  · split
    · exact .none
    · exact tells_onDifferent? _

end

end Operator

namespace Operation

/-- **A comparison at run time** comes to a truth value, if it comes to a value. -/
theorem bool_of_binary {op : String} (compares : op ∈ Operator.comparisons) {a b v : Value}
    (h : binary op a b = .ok v) : ∃ r, v = .bool r := by
  have tells := Operator.tells_result? compares a b
  unfold binary at h
  generalize Operator.result? op a b = found at tells h
  cases tells with
  | error text => cases h
  | ok r =>
    cases h
    exact ⟨r, rfl⟩
  | none =>
    -- only arrays and maps are left to compare, item by item
    dsimp only at h
    split at h
    all_goals first
      | exact absurd compares (by decide)
      | (cases h)
      | skip
    all_goals
      generalize equal _ _ = found at h
      cases found with
      | error cause => cases h
      | ok r => exact ⟨_, (Except.ok.inj h).symm⟩

/-- **A negation** comes to a truth value, if it comes to a value. -/
theorem bool_of_unary {a v : Value} (h : unary "!" a = .ok v) : ∃ r, v = .bool r := by
  cases a with
  | bool b => exact ⟨_, (Except.ok.inj h).symm⟩
  | _ => cases h

end Operation

end Dialogue.Script
