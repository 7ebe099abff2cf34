import Dialogue.Script.Access
/-!
# `Dialogue.Proofs.Script.Scalar` — what operators and computed properties yield.

Operators work on values one by one and do not hand on anything that is in them. Main statements: what an operator
yields, and what is computed as a property of a value, is a number, a text or the like.
-/

namespace Dialogue.Script

variable {κ : Type}

/-- **A value with no other values in it**, and which is no failure. -/
def Datum.IsScalar : Datum κ → Prop
  | .array _ | .object _ | .failure _ | .function .. => False
  | _ => True

namespace Operator

/-- **A scalar, if any value,** is what an operator yields. -/
inductive YieldsScalar : Option (Outcome κ) → Prop
  | none : YieldsScalar none
  | error (text : String) : YieldsScalar (some (.error text))
  | ok {v : Datum κ} (h : v.IsScalar) : YieldsScalar (some (.ok v))

theorem yieldsScalar_compare (op : String) (eq lt : Bool) :
    YieldsScalar ((compare? op eq lt).map fun r => (.ok (.bool r) : Outcome κ)) := by
  cases compare? op eq lt with
  | none => exact .none
  | some r => exact .ok trivial

theorem yieldsScalar_checked (n : Int) (what : String) (a : Int64) (op : String) (b : Int64) :
    YieldsScalar (some (checked n what a op b : Outcome κ)) := by
  unfold checked
  split
  · exact .ok trivial
  · exact .error _

theorem yieldsScalar_power (a b : Int64) : YieldsScalar (some (power a b : Outcome κ)) := by
  unfold power
  dsimp only
  repeat' split
  all_goals first | exact .error _ | exact .ok trivial

theorem yieldsScalar_onInts? (op : String) (a b : Int64) : YieldsScalar (onInts? op a b : Option (Outcome κ)) := by
  unfold onInts?
  dsimp only
  split
  all_goals first
    | exact yieldsScalar_checked ..
    | exact yieldsScalar_power ..
    | exact yieldsScalar_compare ..
    | exact .ok trivial
    | skip
  -- division and remainder look at the divisor first
  all_goals split
  all_goals first
    | exact .error _
    | exact yieldsScalar_checked ..
    | exact .ok trivial

theorem yieldsScalar_onFloats? (op : String) (a b : Float) :
    YieldsScalar (onFloats? op a b : Option (Outcome κ)) := by
  unfold onFloats?
  split
  all_goals first | exact .ok trivial | exact .none

theorem yieldsScalar_onStrings? (op a b : String) : YieldsScalar (onStrings? op a b : Option (Outcome κ)) := by
  unfold onStrings?
  split
  all_goals first | exact .ok trivial | exact yieldsScalar_compare ..

theorem yieldsScalar_onChars? (op : String) (a b : Char) : YieldsScalar (onChars? op a b : Option (Outcome κ)) := by
  unfold onChars?
  split
  · exact .ok trivial
  · exact yieldsScalar_compare ..

theorem yieldsScalar_onBools? (op : String) (a b : Bool) : YieldsScalar (onBools? op a b : Option (Outcome κ)) := by
  unfold onBools?
  split
  all_goals first | exact .ok trivial | exact yieldsScalar_compare ..

theorem yieldsScalar_onDifferent? (op : String) : YieldsScalar (onDifferent? op : Option (Outcome κ)) := by
  unfold onDifferent?
  split
  all_goals first | exact .ok trivial | exact .none

theorem yieldsScalar_onTimes? (op : String) (a b : Instant) : YieldsScalar (onTimes? op a b : Option (Outcome κ)) := by
  unfold onTimes?
  split
  · exact .ok trivial
  · exact yieldsScalar_compare ..

theorem yieldsScalar_moved (t : Instant) (nanoseconds : Int) (what : String) :
    YieldsScalar (some (moved t nanoseconds what) : Option (Outcome κ)) := by
  unfold moved
  split
  · exact .ok trivial
  · exact .error _

theorem yieldsScalar_onTimeAndInt? (op : String) (t : Instant) (n : Int64) :
    YieldsScalar (onTimeAndInt? op t n : Option (Outcome κ)) := by
  unfold onTimeAndInt?
  dsimp only
  split
  · exact yieldsScalar_moved ..
  · exact yieldsScalar_moved ..
  · exact .none

theorem yieldsScalar_onTimeAndFloat? (op : String) (t : Instant) (x : Float) :
    YieldsScalar (onTimeAndFloat? op t x : Option (Outcome κ)) := by
  unfold onTimeAndFloat?
  extract_lets shifted
  have yieldsScalar_shifted (by_ : Float) : YieldsScalar (some (shifted by_) : Option (Outcome κ)) := by
    dsimp only [shifted]
    split
    · exact .error _
    · exact yieldsScalar_moved ..
  split
  · exact yieldsScalar_shifted _
  · exact yieldsScalar_shifted _
  · exact .none

theorem YieldsScalar.or {r s : Option (Outcome κ)} (hr : YieldsScalar r) (hs : YieldsScalar s) :
    YieldsScalar (r.or s) := by
  cases hr with
  | none => exact hs
  | error text => exact .error text
  | ok h => exact .ok h

/-- **What an operator yields** holds nothing of its operands. -/
theorem yieldsScalar_result? (op : String) (v w : Datum κ) : YieldsScalar (result? op v w) := by
  unfold result?
  split
  · exact yieldsScalar_onInts? ..
  · exact yieldsScalar_onFloats? ..
  · exact (yieldsScalar_onFloats? ..).or (yieldsScalar_onDifferent? _)
  · exact (yieldsScalar_onFloats? ..).or (yieldsScalar_onDifferent? _)
  · exact yieldsScalar_onStrings? ..
  · exact yieldsScalar_onStrings? ..
  · exact yieldsScalar_onStrings? ..
  · exact yieldsScalar_onChars? ..
  · exact yieldsScalar_onBools? ..
  · exact yieldsScalar_onTimes? ..
  · exact (yieldsScalar_onTimeAndInt? ..).or (yieldsScalar_onDifferent? _)
  · exact (yieldsScalar_onTimeAndFloat? ..).or (yieldsScalar_onDifferent? _)
  · split
    all_goals first | exact .ok trivial | exact .none
  · split
    · exact .ok trivial
    · exact yieldsScalar_onDifferent? _
  · split
    · exact .ok trivial
    · exact yieldsScalar_onDifferent? _
  · split
    · exact .none
    · exact yieldsScalar_onDifferent? _

end Operator

/-- **What is computed as a property** holds nothing of the value. -/
theorem Access.isScalar_of_computed? {v w : Value} {name : String} (h : computed? v name = some w) : w.IsScalar := by
  unfold computed? at h
  split at h
  all_goals first | cases h; trivial | cases h

end Dialogue.Script
