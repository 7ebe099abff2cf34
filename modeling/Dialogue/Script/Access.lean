import Dialogue.Script.Machine
import Dialogue.Script.Operator
/-!
# `Dialogue.Script.Access` — properties and indices of values.

A step into a value leads to a value, and to the way there if it can be changed in place: fields of maps, items of
arrays, characters of texts, bits of numbers. Other properties are computed and yield copies. A negative index
counts from the end.
-/

namespace Dialogue.Script.Access

/-- **What a step into a value leads to.** -/
structure Found where
  value : Value
  /-- The way there; a copy has none. -/
  inward : Option Inward := none

/-- A copy. -/
def copy (v : Value) : Found := ⟨v, none⟩

/-- **The position that an index stands for**, if it is in bounds. -/
def position? (length : Nat) (index : Int) : Option Nat :=
  if 0 ≤ index then (if index < length then some index.toNat else none)
  else if -index ≤ length then some (length - (-index).toNat)
  else none

/-- Whole numbers that are not whole are cut off. -/
def truncated (x : Float) : Float := if x < 0.0 then x.ceil else x.floor

/-- **A property that is computed from a value.** -/
def computed? (v : Value) (name : String) : Option Value :=
  match v, name with
  | .str s, "len" => some (.int (Int64.ofNat s.length))
  | .str s, "bytes" => some (.int (Int64.ofNat s.utf8ByteSize))
  | .str s, "is_empty" => some (.bool s.isEmpty)
  | .array items, "len" => some (.int (Int64.ofNat items.length))
  | .array items, "is_empty" => some (.bool items.isEmpty)
  | .int n, "is_odd" => some (.bool (n.toInt % 2 == 1))
  | .int n, "is_even" => some (.bool (n.toInt % 2 == 0))
  | .int n, "is_zero" => some (.bool (n == 0))
  | .float x, "floor" => some (.float x.floor)
  | .float x, "ceiling" => some (.float x.ceil)
  | .float x, "round" => some (.float x.round)
  | .float x, "int" => some (.float (truncated x))
  | .float x, "fraction" => some (.float (x - truncated x))
  | .float x, "is_zero" => some (.bool (x == 0.0))
  | .float x, "is_nan" => some (.bool x.isNaN)
  | .float x, "is_finite" => some (.bool x.isFinite)
  | .float x, "is_infinite" => some (.bool x.isInf)
  | .range first _ _, "start" => some (.int first)
  | .range _ last _, "end" => some (.int last)
  | .range _ _ inclusive, "is_inclusive" => some (.bool inclusive)
  | .range _ _ inclusive, "is_exclusive" => some (.bool !inclusive)
  | .function name .., "name" => some (.str name)
  | _, _ => none

/-- **Read a property.** A map has every property: one without a field is `()`. -/
def property (v : Value) (name : String) : Except Cause Found :=
  match v with
  | .object fields =>
    match Datum.field? fields name with
    | some w => .ok ⟨w, some (.field name)⟩
    | none => .ok (copy .unit)
  | _ =>
    match computed? v name with
    | some w => .ok (copy w)
    | none => .error (.property
        s!"Unknown property '{name}' - a getter is not registered for type '{v.typeName}'")

/-- **The property to write to.** Only maps have any. -/
def writable (v : Value) (name : String) (new : Value) : Except Cause Found :=
  match v with
  | .object fields => .ok ⟨(Datum.field? fields name).getD .unit, some (.field name)⟩
  | _ => .error (.property (s!"No writable property '{name}' - a setter is not registered for type "
      ++ s!"'{v.typeName}' to handle '{new.typeName}'"))

/-- The key as a whole number. -/
def wholeKey (key : Value) : Except Cause Int :=
  match key with
  | .int n => .ok n.toInt
  | _ => .error (.mismatch "i64" key.typeName)

/-- The part of a text between two positions. -/
def slice (cs : List Char) (first last : Int) : Except Cause (List Char) := do
  let start ← if 0 ≤ first then pure first.toNat else
    match position? cs.length first with
    | some i => pure i
    | none => throw (.stringBounds cs.length first)
  let stop := if 0 ≤ last then last.toNat else (position? cs.length last).getD 0
  return (cs.drop start).take (stop - start)

/-- **Read at an index.** -/
def element (v key : Value) : Except Cause Found :=
  match v with
  | .array items => do
    let i ← wholeKey key
    match (position? items.length i).bind fun k => (items[k]?).map ((k, ·)) with
    | some (k, w) => return ⟨w, some (.item k)⟩
    | none => throw (.arrayBounds items.length i)
  | .object fields =>
    match key with
    | .str name =>
      match Datum.field? fields name with
      | some w => .ok ⟨w, some (.field name)⟩
      | none => .ok (copy .unit)
    | _ => .error (.mismatch "string" key.typeName)
  | .str s =>
    let cs := s.toList
    match key with
    | .range first last inclusive => do
      let last := if inclusive then last.toInt + 1 else last.toInt
      return copy (.str (String.ofList (← slice cs first.toInt last)))
    | _ => do
      let i ← wholeKey key
      match (position? cs.length i).bind fun k => (cs[k]?).map ((k, ·)) with
      | some (k, c) => return ⟨.char c, some (.char k)⟩
      | none => throw (.stringBounds cs.length i)
  | .int n => do
    let i ← wholeKey key
    match position? 64 i with
    | some k => return ⟨.bool (n.toInt / Int.pow 2 k % 2 == 1), some (.bit k)⟩
    | none => throw (.bitBounds i)
  | _ => .error (.notIndexable (v.typeName ++ " [" ++ key.typeName ++ "]"))

/-- **The spot at an index to write to.** A map gets a field that it does not have. -/
def writableAt (v key : Value) : Except Cause Found :=
  match v, key with
  | .object fields, .str name => .ok ⟨(Datum.field? fields name).getD .unit, some (.field name)⟩
  | _, _ => element v key

/-- **What may be written where a step leads:** a character into a text, a truth value into a number. -/
def checkWritten (step : Option Inward) (new : Value) : Except Cause Unit :=
  match step, new with
  | some (.char _), .char _ | some (.bit _), .bool _ => .ok ()
  | some (.char _), _ => .error (.mismatch "char" new.typeName)
  | some (.bit _), _ => .error (.mismatch "bool" new.typeName)
  | _, _ => .ok ()

theorem position?_lt {length : Nat} {index : Int} {i : Nat} (h : position? length index = some i) :
    i < length := by
  unfold position? at h
  split at h
  · split at h
    · simp at h; omega
    · simp at h
  · split at h
    · simp at h; omega
    · simp at h

end Dialogue.Script.Access
