import Dialogue.Text.Utf8
/-!
# `Dialogue.Text.Percent` — file names as they are written in a reference.

A reference spells a blank as `+` and any byte as `%` and two hexadecimal digits. Everything else stands for
itself, a `%` without two digits after it included.
-/

namespace Dialogue.Text.Percent

/-- The value of a hexadecimal digit of either case. -/
def hexValue? (b : UInt8) : Option Nat :=
  let n := b.toNat
  if 48 ≤ n ∧ n ≤ 57 then some (n - 48)
  else if 65 ≤ n ∧ n ≤ 70 then some (n - 55)
  else if 97 ≤ n ∧ n ≤ 102 then some (n - 87)
  else none

/-- The byte that two hexadecimal digits spell. -/
def hexPair? (a b : UInt8) : Option UInt8 :=
  match hexValue? a, hexValue? b with
  | some x, some y => some (UInt8.ofNat (x * 16 + y))
  | _, _ => none

/-- **The bytes behind the escapes**, read from left to right. -/
def unescape : Bytes → Bytes
  | [] => []
  | b :: bs =>
    if b = 0x25 then
      match bs with
      | x :: y :: rest =>
        match hexPair? x y with
        | some byte => byte :: unescape rest
        | none => b :: unescape (x :: y :: rest)
      | _ => b :: bs
    else b :: unescape bs

/-- **The path that a reference names.** -/
def decode (path : List Char) : String :=
  let spaced := path.map fun c => if c = '+' then ' ' else c
  Utf8.decodeLenient (unescape (Utf8.encodeList spaced))

end Dialogue.Text.Percent
