import Dialogue.Script.Fault
import Dialogue.Script.Operator
/-!
# `Dialogue.Script.Operation` — operators at run time.

Besides what operators do with plain values: a text takes in any value, arrays and maps are joined and compared
item by item, and assignment with `+=` appends to an array. An operator that is none of these is a function that
does not exist.
-/

namespace Dialogue.Script.Operation

/-- **The signature of a call**, as faults quote it. -/
def signature (name : String) (arguments : List Value) : String :=
  name ++ " " ++ Datum.joined "(" (arguments.map Datum.signatureName) ")"

/-- The fault of a call that no function fits. -/
def unknown (name : String) (arguments : List Value) : Cause :=
  .functionNotFound (signature name arguments)

mutual

/-- **Are two values equal?** Values of one type that has no order of its own cannot be compared. -/
def equal : Value → Value → Except Cause Bool
  | .array xs, .array ys => if xs.length = ys.length then equalItems xs ys else .ok false
  | .object fs, .object gs => if fs.length = gs.length then equalFields fs gs else .ok false
  | a, b =>
    match Operator.result? "==" a b with
    | some (.ok (.bool r)) => .ok r
    | _ => .error (unknown "==" [a, b])

/-- Are items equal, pair by pair? -/
def equalItems : List Value → List Value → Except Cause Bool
  | [], _ => .ok true
  | _ :: _, [] => .ok false
  | x :: xs, y :: ys => do
    if ← equal x y then equalItems xs ys else return false

/-- Has every field an equal one of its name? -/
def equalFields : List (String × Value) → List (String × Value) → Except Cause Bool
  | [], _ => .ok true
  | (k, x) :: fs, gs =>
    match Datum.field? gs k with
    | none => .ok false
    | some y => do
      if ← equal x y then equalFields fs gs else return false

end

/-- Fields with others put over them. -/
def overlaid (fields upper : List (String × Value)) : List (String × Value) :=
  upper.foldl (fun fs f => Datum.setField f.1 f.2 fs) fields

/-- **A binary operator.** -/
def binary (op : String) (a b : Value) : Except Cause Value :=
  match Operator.result? op a b with
  | some (.ok v) => .ok v
  | some (.error text) => .error (.arithmetic text)
  | none =>
    match op, a, b with
    | "+", .str s, v => .ok (.str (s ++ v.scriptText))
    | "+", v, .str s => .ok (.str (v.scriptText ++ s))
    | "+", .array xs, .array ys => .ok (.array (xs ++ ys))
    | "+", .object fs, .object gs => .ok (.object (overlaid fs gs))
    | "==", .array _, .array _ | "==", .object _, .object _ => (equal a b).map .bool
    | "!=", .array _, .array _ | "!=", .object _, .object _ => (equal a b).map fun r => .bool !r
    | _, _, _ => .error (unknown op [a, b])

/-- **A unary operator.** -/
def unary (op : String) (v : Value) : Except Cause Value :=
  match op, v with
  | "-", .int n =>
    match Operator.fitting? (-n.toInt) with
    | some m => .ok (.int m)
    | none => .error (.arithmetic ("Negation overflow: -" ++ toString n.toInt))
  | "-", .float x => .ok (.float (-x))
  | "+", .int n => .ok (.int n)
  | "+", .float x => .ok (.float x)
  | "!", .bool b => .ok (.bool !b)
  | _, _ => .error (unknown op [v])

/-- **What a variable becomes** by an assignment that goes through an operator. -/
def assigned (op : String) (old new : Value) : Except Cause Value :=
  match op, old, new with
  | "+", .array xs, .array ys => .ok (.array (xs ++ ys))
  | "+", .array xs, v => .ok (.array (xs ++ [v]))
  | _, _, _ => binary op old new

/-- Is there a value equal to this one? -/
def isAmong (v : Value) : List Value → Except Cause Bool
  | [] => .ok false
  | x :: xs => do
    if ← equal x v then return true else isAmong v xs

/-- The position of the first value equal to this one, counted from `start`. -/
def indexAmong (v : Value) (start : Nat) : List Value → Except Cause Int
  | [] => .ok (-1)
  | x :: xs => do
    if ← equal x v then return start else indexAmong v (start + 1) xs

end Dialogue.Script.Operation
