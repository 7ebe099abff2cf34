import Dialogue.Script.Value
import Dialogue.Text.Split
/-!
# `Dialogue.Script.Operator` — binary operators on plain values.

`result?` says what an operator does with two values: a value, an arithmetic fault, or nothing when the operator is
not one of these types. Values of different types are unequal and in no order. Whole numbers have 64 bits, and a
result that does not fit is a fault.
-/

namespace Dialogue.Script.Operator

variable {κ : Type}

/-- The outcome of an operator: a value, or the text of an arithmetic fault. -/
abbrev Outcome (κ : Type) := Except String (Datum κ)

/-- The number as a value, unless it does not fit. -/
def fitting? (n : Int) : Option Int64 :=
  if -Int.pow 2 63 ≤ n ∧ n < Int.pow 2 63 then some (Int64.ofInt n) else none

/-- An expression of two numbers, as it is quoted in faults. -/
def quoteBinary (a : Int64) (op : String) (b : Int64) : String :=
  toString a.toInt ++ " " ++ op ++ " " ++ toString b.toInt

/-- A checked result. -/
def checked (n : Int) (what : String) (a : Int64) (op : String) (b : Int64) : Outcome κ :=
  match fitting? n with
  | some m => .ok (.int m)
  | none => .error (what ++ " overflow: " ++ quoteBinary a op b)

/-- Shift to the left; to the right when the amount is negative. Bits beyond the word are lost. -/
def shiftLeft (a b : Int64) : Int64 :=
  let n := b.toInt
  if 64 ≤ n then 0
  else if 0 ≤ n then Int64.ofInt (a.toInt * Int.pow 2 n.toNat)
  else if n ≤ -64 then (if a.toInt < 0 then -1 else 0)
  else Int64.ofInt (a.toInt.fdiv (Int.pow 2 (-n).toNat))

/-- Shift to the right; to the left when the amount is negative. -/
def shiftRight (a b : Int64) : Int64 :=
  let n := b.toInt
  if 64 ≤ n then (if a.toInt < 0 then -1 else 0)
  else if 0 ≤ n then Int64.ofInt (a.toInt.fdiv (Int.pow 2 n.toNat))
  else if n ≤ -64 then 0
  else Int64.ofInt (a.toInt * Int.pow 2 (-n).toNat)

/-- A power of a whole number. -/
def power (a b : Int64) : Outcome κ :=
  let n := b.toInt
  if n < 0 then .error ("Integer raised to a negative power: " ++ quoteBinary a "**" b)
  else
    let overflow : Outcome κ := .error ("Exponential overflow: " ++ quoteBinary a "**" b)
    let base := a.toInt
    if n < 64 then
      match fitting? (base.pow n.toNat) with
      | some m => .ok (.int m)
      | none => overflow
    else if (UInt32.size : Int) ≤ n then overflow
    else if base = 0 then .ok (.int 0)
    else if base = 1 then .ok (.int 1)
    else if base = -1 then .ok (.int (if n % 2 = 0 then 1 else -1))
    else overflow

/-- A comparison of two values in an order. -/
def compare? (op : String) (eq lt : Bool) : Option Bool :=
  match op with
  | "==" => some eq
  | "!=" => some !eq
  | "<" => some lt
  | "<=" => some (lt || eq)
  | ">" => some (!lt && !eq)
  | ">=" => some !lt
  | _ => none

/-- Two whole numbers. -/
def onInts? (op : String) (a b : Int64) : Option (Outcome κ) :=
  let x := a.toInt
  let y := b.toInt
  match op with
  | "+" => some (checked (x + y) "Addition" a "+" b)
  | "-" => some (checked (x - y) "Subtraction" a "-" b)
  | "*" => some (checked (x * y) "Multiplication" a "*" b)
  | "/" =>
    if y = 0 then some (.error ("Division by zero: " ++ quoteBinary a "/" b))
    else some (checked (x.tdiv y) "Division" a "/" b)
  | "%" =>
    if y = 0 ∨ (fitting? (x.tdiv y)).isNone then
      some (.error ("Modulo division by zero or overflow: " ++ quoteBinary a "%" b))
    else some (.ok (.int (Int64.ofInt (x.tmod y))))
  | "**" => some (power a b)
  | "<<" => some (.ok (.int (shiftLeft a b)))
  | ">>" => some (.ok (.int (shiftRight a b)))
  | "&" => some (.ok (.int (a &&& b)))
  | "|" => some (.ok (.int (a ||| b)))
  | "^" => some (.ok (.int (a ^^^ b)))
  | ".." => some (.ok (.range a b false))
  | "..=" => some (.ok (.range a b true))
  | _ => (compare? op (x == y) (x < y)).map fun r => .ok (.bool r)

/-- The remainder of two fractions: exact, with the sign of the first. -/
def floatRemainder (a b : Float) : Float :=
  if a.isNaN || a.isInf || b.isNaN || b == 0.0 then 0.0 / 0.0
  else if b.isInf then a
  else
    let (m, e) := parts a.abs
    let (n, f) := parts b.abs
    let low := min e f
    let r := (m * Nat.pow 2 (e - low).toNat) % (n * Nat.pow 2 (f - low).toNat)
    let x := (Float.ofNat r).scaleB low
    if a.toBits.toNat ≥ Nat.pow 2 63 then -x else x
where
  /-- A positive fraction as a whole number times a power of two. -/
  parts (x : Float) : Nat × Int :=
    match Decimal.Binary.ofBits? x.toBits with
    | some b => (b.mantissa, b.exponent)
    | none => (0, 0)

/-- Two fractions. -/
def onFloats? (op : String) (a b : Float) : Option (Outcome κ) :=
  match op with
  | "+" => some (.ok (.float (a + b)))
  | "-" => some (.ok (.float (a - b)))
  | "*" => some (.ok (.float (a * b)))
  | "/" => some (.ok (.float (a / b)))
  | "%" => some (.ok (.float (floatRemainder a b)))
  | "**" => some (.ok (.float (a.pow b)))
  | "==" => some (.ok (.bool (a == b)))
  | "!=" => some (.ok (.bool (a != b)))
  | "<" => some (.ok (.bool (a < b)))
  | "<=" => some (.ok (.bool (a ≤ b)))
  | ">" => some (.ok (.bool (b < a)))
  | ">=" => some (.ok (.bool (b ≤ a)))
  | _ => none

/-- A text without any occurrence of a phrase. -/
def without (phrase : List Char) : (fuel : Nat) → List Char → List Char
  | 0, cs => cs
  | fuel + 1, cs =>
    match Text.cutAt? phrase cs with
    | some (before, rest) => before ++ without phrase fuel rest
    | none => cs

/-- The text without a phrase; the empty phrase takes nothing away. -/
def removeAll (s phrase : String) : String :=
  if phrase.isEmpty then s else String.ofList (without phrase.toList (s.length + 1) s.toList)

/-- Two texts. -/
def onStrings? (op : String) (a b : String) : Option (Outcome κ) :=
  match op with
  | "+" => some (.ok (.str (a ++ b)))
  | "-" => some (.ok (.str (removeAll a b)))
  | _ => (compare? op (a == b) (a < b)).map fun r => .ok (.bool r)

/-- Two characters. -/
def onChars? (op : String) (a b : Char) : Option (Outcome κ) :=
  match op with
  | "+" => some (.ok (.str (String.ofList [a, b])))
  | _ => (compare? op (a == b) (a < b)).map fun r => .ok (.bool r)

/-- Two truth values. -/
def onBools? (op : String) (a b : Bool) : Option (Outcome κ) :=
  match op with
  | "&" => some (.ok (.bool (a && b)))
  | "|" => some (.ok (.bool (a || b)))
  | "^" => some (.ok (.bool (a != b)))
  | _ => (compare? op (a == b) (!a && b)).map fun r => .ok (.bool r)

/-- Two values of different types: unequal, and in no order. -/
def onDifferent? (op : String) : Option (Outcome κ) :=
  match op with
  | "!=" => some (.ok (.bool true))
  | "==" | "<" | "<=" | ">" | ">=" => some (.ok (.bool false))
  | _ => none

/-- The whole number as a fraction. -/
def toFloat (n : Int64) : Float := Float.ofInt n.toInt

/-- Two moments. -/
def onTimes? (op : String) (a b : Instant) : Option (Outcome κ) :=
  match op with
  | "-" => some (.ok (.float (b.until_ a)))
  | _ => (compare? op (a == b) (a.nanoseconds < b.nanoseconds)).map fun r => .ok (.bool r)

/-- The moment that is `nanoseconds` after another; `what` says how it would be come by. -/
def moved (t : Instant) (nanoseconds : Int) (what : String) : Outcome κ :=
  match t.later? nanoseconds with
  | some u => .ok (.timestamp u)
  | none => .error ("Timestamp overflow when " ++ what ++ " second(s)")

/-- A moment and whole seconds. -/
def onTimeAndInt? (op : String) (t : Instant) (n : Int64) : Option (Outcome κ) :=
  let k := n.toInt
  let shifted (by_ : Int) : Outcome κ :=
    moved t (by_ * Instant.second) ((if by_ < 0 then "subtracting " else "adding ") ++ toString by_.natAbs)
  match op with
  | "+" => some (shifted k)
  | "-" => some (shifted (-k))
  | _ => none

/-- A moment and a fraction of seconds, of which thousandths count. -/
def onTimeAndFloat? (op : String) (t : Instant) (x : Float) : Option (Outcome κ) :=
  let shifted (by_ : Float) : Outcome κ :=
    let size := by_.abs
    let (sign, doing, kind) : Int × String × String :=
      if by_ < 0.0 then (-1, "subtracting ", "subtract") else (1, "adding ", "add")
    if Float.ofInt (Int.pow 2 63) < size then
      .error ("Integer overflow for timestamp " ++ kind ++ ": " ++ Decimal.positional size)
    else moved t (sign * (size * 1000.0).toUInt64.toNat * 1000000) (doing ++ Decimal.positional size)
  match op with
  | "+" => some (shifted x)
  | "-" => some (shifted (-x))
  | _ => none

/-- **What an operator does with two plain values.** -/
def result? (op : String) (a b : Datum κ) : Option (Outcome κ) :=
  match a, b with
  | .int x, .int y => onInts? op x y
  | .float x, .float y => onFloats? op x y
  | .int x, .float y => (onFloats? op (toFloat x) y).or (onDifferent? op)
  | .float x, .int y => (onFloats? op x (toFloat y)).or (onDifferent? op)
  | .str x, .str y => onStrings? op x y
  | .str x, .char y => onStrings? op x y.toString
  | .char x, .str y => onStrings? op x.toString y
  | .char x, .char y => onChars? op x y
  | .bool x, .bool y => onBools? op x y
  | .timestamp t, .timestamp u => onTimes? op t u
  | .timestamp t, .int n => (onTimeAndInt? op t n).or (onDifferent? op)
  | .timestamp t, .float x => (onTimeAndFloat? op t x).or (onDifferent? op)
  | .unit, .unit =>
    match op with
    | "==" => some (.ok (.bool true))
    | "!=" | "<" | "<=" | ">" | ">=" => some (.ok (.bool false))
    | _ => none
  | .str x, .unit => if op == "+" then some (.ok (.str x)) else onDifferent? op
  | .unit, .str y => if op == "+" then some (.ok (.str y)) else onDifferent? op
  | a, b => if a.sameType b then none else onDifferent? op

end Dialogue.Script.Operator
