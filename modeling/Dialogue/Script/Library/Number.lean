import Dialogue.Script.Access
import Dialogue.Script.Lexer
import Dialogue.Script.Library.Outcome
import Dialogue.Text.Blank
/-!
# `Dialogue.Script.Library.Number` — functions on numbers.
-/

namespace Dialogue.Script.Library

/-- Why a text is no whole number. -/
inductive WholeFault
  | empty
  | digit
  | tooLarge
  | tooSmall

/-- The wording. -/
def WholeFault.message : WholeFault → String
  | empty => "cannot parse integer from empty string"
  | digit => "invalid digit found in string"
  | tooLarge => "number too large to fit in target type"
  | tooSmall => "number too small to fit in target type"

/-- The value of a digit; letters go on after nine. -/
def digitValue (c : Char) : Nat :=
  if '0' ≤ c ∧ c ≤ '9' then c.toNat - 48
  else if 'a' ≤ c ∧ c ≤ 'z' then c.toNat - 87
  else if 'A' ≤ c ∧ c ≤ 'Z' then c.toNat - 55
  else 99

/-- **The number that digits spell after others.** Each digit is looked at before the number is found too big. -/
def readDigits (base : Nat) (negative : Bool) (n : Int) : List Char → Except WholeFault Int64
  | [] => .ok (Int64.ofInt n)
  | c :: cs =>
    let d := digitValue c
    if base ≤ d then .error .digit
    else
      let next := if negative then n * base - d else n * base + d
      if (Operator.fitting? next).isSome then readDigits base negative next cs
      else .error (if negative then .tooSmall else .tooLarge)

/-- **Read a whole number**, with a sign in front of it or without. -/
def readWhole (base : Nat) (cs : List Char) : Except WholeFault Int64 :=
  match cs with
  | [] => .error .empty
  | ['+'] | ['-'] => .error .digit
  | '+' :: digits => readDigits base false 0 digits
  | '-' :: digits => readDigits base true 0 digits
  | digits => readDigits base false 0 digits

/-- Read the digits of a fraction: before the point, after it, and the exponent. -/
def readFraction? (cs : List Char) : Option Float :=
  let whole := cs.takeWhile Lexer.isDigit
  let rest := cs.dropWhile Lexer.isDigit
  let (fraction, rest) := match rest with
    | '.' :: r => (r.takeWhile Lexer.isDigit, r.dropWhile Lexer.isDigit)
    | r => ([], r)
  if whole = [] ∧ fraction = [] then none
  else
    match rest with
    | [] => some (Lexer.floatOf whole fraction 0)
    | e :: r =>
      if e = 'e' ∨ e = 'E' then
        let (negative, digits) := match r with
          | '-' :: ds => (true, ds)
          | '+' :: ds => (false, ds)
          | ds => (false, ds)
        if digits = [] ∨ !digits.all Lexer.isDigit then none
        else
          let n : Int := Lexer.natOfDigits 10 (digits.dropWhile (· == '0') |>.take 6)
          some (Lexer.floatOf whole fraction (if negative then -n else n))
      else none

/-- **Read a fraction**, or one of the words for what is none. -/
def readFloat? (cs : List Char) : Option Float :=
  let (negative, body) := match cs with
    | '-' :: r => (true, r)
    | '+' :: r => (false, r)
    | r => (false, r)
  let word := String.ofList (body.map Char.toLower)
  let size : Option Float :=
    if word == "inf" || word == "infinity" then some (1.0 / 0.0)
    else if word == "nan" then some (0.0 / 0.0)
    else readFraction? body
  size.map fun x => if negative then -x else x

/-- Read a whole number from a text. -/
def parseWhole (s : String) (base : Int64) : Except Cause Value :=
  if base.toInt < 2 ∨ 36 < base.toInt then
    .error (.arithmetic s!"Invalid radix: '{base.toInt}'")
  else
    match readWhole base.toInt.toNat (Text.trim s.toList) with
    | .ok n => .ok (.int n)
    | .error fault => .error (.arithmetic s!"Error parsing integer number '{s}': {fault.message}")

/-- Read a fraction from a text. -/
def parseFloat (s : String) : Except Cause Value :=
  let cs := Text.trim s.toList
  match readFloat? cs with
  | some x => .ok (.float x)
  | none =>
    let reason := if cs = [] then "cannot parse float from empty string" else "invalid float literal"
    .error (.arithmetic s!"Error parsing floating-point number '{s}': {reason}")

/-- The whole part of a fraction. -/
def wholePart (x : Float) : Except Cause Value :=
  if 9223372036854775807.0 < x || x < -9223372036854775808.0 then
    .error (.arithmetic ("Integer overflow: to_int(" ++ Decimal.positional x ++ ")"))
  else .ok (.int (Access.truncated x).toInt64)

/-- The size of a whole number. -/
def absolute (n : Int64) : Except Cause Value :=
  if n.toInt < 0 then Operation.unary "-" (.int n) else .ok (.int n)

/-- The greater (or smaller) of two values; whole numbers and fractions are compared as fractions. -/
def extreme? (greater : Bool) (a b : Value) : Option Value :=
  match a, b with
  | .int x, .int y => some (if (if greater then y.toInt ≤ x.toInt else x.toInt ≤ y.toInt) then a else b)
  | .float x, .float y => some (.float (ofFloats x y))
  | .int x, .float y => some (.float (ofFloats (Operator.toFloat x) y))
  | .float x, .int y => some (.float (ofFloats x (Operator.toFloat y)))
  | .char x, .char y => some (if (if greater then y ≤ x else x ≤ y) then a else b)
  | .str x, .str y => some (if (if greater then ¬ x < y else ¬ y < x) then a else b)
  | _, _ => none
where
  /-- The greater (or smaller) of two fractions. -/
  ofFloats (x y : Float) : Float := if (if greater then y ≤ x else x ≤ y) then x else y

/-- **Functions on numbers.** -/
def onNumbers? (name : String) (arguments : List Value) : Call :=
  match name, arguments with
  | "abs", [.int n] => .attempt (absolute n)
  | "abs", [.float x] => .yields (.float x.abs)
  | "sign", [.int n] => .yields (.int (Int64.ofInt n.toInt.sign))
  | "min", [a, b] => .given (extreme? false a b) .yields
  | "max", [a, b] => .given (extreme? true a b) .yields
  | "sqrt", [.float x] => .yields (.float x.sqrt)
  | "floor", [.float _] | "ceiling", [.float _] | "round", [.float _] | "int", [.float _]
  | "fraction", [.float _] | "is_nan", [.float _] | "is_finite", [.float _]
  | "is_infinite", [.float _] | "is_zero", [.float _] | "is_zero", [.int _] | "is_odd", [.int _]
  | "is_even", [.int _] => .given (arguments.head?.bind (Access.computed? · name)) .yields
  | "to_int", [.int n] => .yields (.int n)
  | "to_int", [.char c] => .count c.toNat
  | "to_int", [.float x] => .attempt (wholePart x)
  | "to_float", [.int n] => .yields (.float (Operator.toFloat n))
  | "parse_int", [.str s] => .attempt (parseWhole s 10)
  | "parse_int", [.str s, .int base] => .attempt (parseWhole s base)
  | "parse_float", [.str s] => .attempt (parseFloat s)
  | _, _ => none

end Dialogue.Script.Library
