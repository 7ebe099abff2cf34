import Dialogue.Text.Printable
/-!
# `Dialogue.Text.Quoted` — text in quotes.

Quotes, back-slashes and the common control characters are written with a back-slash; whatever else cannot be
shown is written by its code point in hexadecimal.
-/

namespace Dialogue.Text.Quoted

/-- The hexadecimal digits of a code point, in lower case. -/
def hexDigits (n : Nat) : List Char := Nat.toDigits 16 n

/-- A code point by number. -/
def byNumber (c : Char) : List Char :=
  ['\\', 'u', '\x7b'] ++ hexDigits c.toNat ++ ['\x7d']

/-- A character between quotes of the kind `mark`. -/
def escape (mark : Char) (c : Char) : List Char :=
  if c = mark then ['\\', c]
  else if c = '\\' then ['\\', '\\']
  else if c = '\t' then ['\\', 't']
  else if c = '\r' then ['\\', 'r']
  else if c = '\n' then ['\\', 'n']
  else if c = '\x00' then ['\\', '0']
  else if isExtending c || !isPrintable c then byNumber c
  else [c]

/-- **A text in double quotes.** -/
def text (s : String) : String :=
  String.ofList ('"' :: s.toList.flatMap (escape '"') ++ ['"'])

/-- **A character in single quotes.** -/
def char (c : Char) : String :=
  String.ofList ('\'' :: escape '\'' c ++ ['\''])

end Dialogue.Text.Quoted
