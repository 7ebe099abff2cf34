/-!
# `Dialogue.Decimal.Shortest` — the fewest digits that read back.

A positive binary number is a whole number times a power of two. Among all decimals it is read back from, the
one with the fewest digits is taken, and of those the nearest. `Layout` says how digits and an exponent become
text; the layouts in use are `plain` and `nested`.
-/

namespace Dialogue.Decimal

/-- **A binary number** `mantissa · 2 ^ exponent`, with the bounds of the reals that are read as it given by
the neighbours on either side. -/
structure Binary where
  mantissa : Nat
  exponent : Int
  /-- Is the neighbour below only half as far away as the one above? -/
  narrowBelow : Bool

/-- The binary number with the given bits (the sign left out), unless it is zero or not finite. -/
def Binary.ofBits? (bits : UInt64) : Option Binary :=
  let n := bits.toNat % Nat.pow 2 63
  let field : Nat := n / Nat.pow 2 52
  let fraction : Nat := n % Nat.pow 2 52
  if field = 2047 ∨ n = 0 then none
  else if field = 0 then some ⟨fraction, -1074, false⟩
  else some ⟨fraction + Nat.pow 2 52, (field : Int) - 1075, fraction = 0 && field != 1⟩

/-- A number of quarter steps of a binary number as an exact fraction. -/
def Binary.quarters (b : Binary) (n : Nat) : Nat × Nat :=
  if 0 ≤ b.exponent then (n * Nat.pow 2 b.exponent.toNat, 4)
  else (n, 4 * Nat.pow 2 (-b.exponent).toNat)

/-- Is the decimal `digits · 10 ^ place` read as the number? The ends of the interval belong to it when the
mantissa is even. -/
def Binary.reads (b : Binary) (digits : Nat) (place : Int) : Bool :=
  let (lo, den) := b.quarters (4 * b.mantissa - (if b.narrowBelow then 1 else 2))
  let (hi, _) := b.quarters (4 * b.mantissa + 2)
  let (num, scale) :=
    if 0 ≤ place then (digits * Nat.pow 10 place.toNat, 1) else (digits, Nat.pow 10 (-place).toNat)
  let x := num * den
  let lo := lo * scale
  let hi := hi * scale
  if b.mantissa % 2 = 0 then lo ≤ x && x ≤ hi else lo < x && x < hi

/-- The number on the grid of `10 ^ place`: the point below, and whether the point above is nearer. -/
def Binary.onGrid (b : Binary) (place : Int) : Nat × Bool :=
  let (num, den) := b.quarters (4 * b.mantissa)
  let (num, den) :=
    if 0 ≤ place then (num, den * Nat.pow 10 place.toNat) else (num * Nat.pow 10 (-place).toNat, den)
  (num / den, den < 2 * (num % den) || (2 * (num % den) == den && (num / den) % 2 == 1))

/-- The decimal on a grid that is read as the number, the nearer one of two. -/
def Binary.onGrid? (b : Binary) (place : Int) : Option Nat :=
  let (below, upper) := b.onGrid place
  let (first, second) := if upper then (below + 1, below) else (below, below + 1)
  if first ≠ 0 ∧ b.reads first place then some first
  else if second ≠ 0 ∧ b.reads second place then some second
  else none

/-- The place of the leading digit of a binary number, or the place above it. -/
def Binary.leadingPlace (b : Binary) : Int :=
  let bits : Int := (Nat.log2 b.mantissa : Int) + b.exponent
  (bits * 30103).fdiv 100000 + 1

/-- Try coarser grids first: `tries` grids from `place` downwards. -/
def Binary.search (b : Binary) : (tries : Nat) → (place : Int) → Option (Nat × Int)
  | 0, _ => none
  | tries + 1, place =>
    match b.onGrid? place with
    | some digits => some (digits, place)
    | none => b.search tries (place - 1)

/-- A decimal without the zeros it ends with; every zero moves the place. -/
def dropZeros : (fuel : Nat) → Nat → Int → Nat × Int
  | 0, digits, place => (digits, place)
  | fuel + 1, digits, place =>
    if digits ≠ 0 ∧ digits % 10 = 0 then dropZeros fuel (digits / 10) (place + 1)
    else (digits, place)

/-- **The shortest decimal** that is read as a binary number: digits, and the place of the last one. Seventeen
digits are always enough, so that nineteen grids from the leading place hold one. -/
def Binary.shortest (b : Binary) : Nat × Int :=
  match b.search 20 b.leadingPlace with
  | some (digits, place) => dropZeros 400 digits place
  | none => (b.mantissa, b.exponent)

/-- **How a number becomes text.** -/
structure Layout where
  /-- Is a number of this size written with an exponent? -/
  scientific : Float → Bool
  /-- Is the sign of zero kept? -/
  signedZero : Bool

/-- Digits with an exponent after them: one digit, a point if more follow, and the exponent. -/
def withExponent (digits : List Char) (place : Int) : List Char :=
  let exponent : Int := place + digits.length - 1
  let mantissa := match digits with
    | [d] => [d]
    | d :: ds => d :: '.' :: ds
    | [] => []
  mantissa ++ 'e' :: (toString exponent).toList

/-- Digits at their places, with a point and at least one digit after it. -/
def atPlaces (digits : List Char) (place : Int) : List Char :=
  if 0 ≤ place then digits ++ List.replicate place.toNat '0' ++ ['.', '0']
  else
    let after := (-place).toNat
    if digits.length ≤ after then
      '0' :: '.' :: List.replicate (after - digits.length) '0' ++ digits
    else digits.take (digits.length - after) ++ '.' :: digits.drop (digits.length - after)

/-- **The text of a number** in a layout. -/
def Layout.write (layout : Layout) (x : Float) : String :=
  let negative := x.toBits.toNat ≥ Nat.pow 2 63
  if x.isNaN then "NaN"
  else if x.isInf then (if negative then "-inf" else "inf")
  else match Binary.ofBits? x.toBits with
    | none => if negative && layout.signedZero then "-0.0" else "0.0"
    | some b =>
      let (n, place) := b.shortest
      let digits := (toString n).toList
      let body := if layout.scientific x.abs then withExponent digits place
        else atPlaces digits place
      String.ofList (if negative then '-' :: body else body)

/-- Numbers on their own: very large and very small ones have an exponent, and zero has no sign. -/
def plainLayout : Layout := ⟨fun x => 1e10 < x || x < 1e-13, false⟩

/-- Numbers inside arrays and maps. -/
def nestedLayout : Layout := ⟨fun x => 1e16 ≤ x || x < 1e-4, true⟩

/-- Numbers in digits alone. -/
def positionalLayout : Layout := ⟨fun _ => false, true⟩

/-- The text of a number on its own. -/
def plain (x : Float) : String := plainLayout.write x

/-- The text of a number inside an array or a map. -/
def nested (x : Float) : String := nestedLayout.write x

/-- The text of a number in digits alone; a whole number has no point. -/
def positional (x : Float) : String :=
  let text := (positionalLayout.write x).toList
  match text.reverse with
  | '0' :: '.' :: whole => String.ofList whole.reverse
  | _ => String.ofList text

end Dialogue.Decimal
