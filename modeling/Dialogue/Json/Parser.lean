import Dialogue.Json
/-!
# `Dialogue.Json.Parser` — reading JSON documents.

`parse?` reads one document with blanks around it and nothing else. Fields keep their order, and a field that
occurs twice is kept twice: what that means is for the reader of the document to say.
-/

namespace Dialogue.Json

/-- The blanks that may stand between tokens. -/
def isSpace (c : Char) : Bool := c == ' ' || c == '\n' || c == '\t' || c == '\r'

/-- The text without the blanks it starts with. -/
def skipSpace (cs : List Char) : List Char := cs.dropWhile isSpace

/-- The value of a hexadecimal digit of either case. -/
def hexValue? (c : Char) : Option Nat :=
  if '0' ≤ c ∧ c ≤ '9' then some (c.toNat - 48)
  else if 'a' ≤ c ∧ c ≤ 'f' then some (c.toNat - 87)
  else if 'A' ≤ c ∧ c ≤ 'F' then some (c.toNat - 55)
  else none

/-- The number that four hexadecimal digits spell. -/
def unit? (a b c d : Char) : Option Nat := do
  let w ← hexValue? a
  let x ← hexValue? b
  let y ← hexValue? c
  let z ← hexValue? d
  return ((w * 16 + x) * 16 + y) * 16 + z

/-- The character behind an escape of one letter. -/
def simpleEscape? : Char → Option Char
  | '"' => some '"'
  | '\\' => some '\\'
  | '/' => some '/'
  | 'b' => some '\x08'
  | 'f' => some '\x0C'
  | 'n' => some '\n'
  | 'r' => some '\r'
  | 't' => some '\t'
  | _ => none

/-- Is the number a unit that starts a pair? -/
def isHigh (n : Nat) : Bool := 0xD800 ≤ n && n < 0xDC00

/-- Is the number a unit that ends a pair? -/
def isLow (n : Nat) : Bool := 0xDC00 ≤ n && n < 0xE000

/-- **The rest of a written string**, after its opening quote, and what follows it. -/
def stringBody? : List Char → Option (List Char × List Char)
  | [] => none
  | '"' :: rest => some ([], rest)
  | '\\' :: 'u' :: a :: b :: c :: d :: rest =>
    match unit? a b c d with
    | none => none
    | some n =>
      if isLow n then none
      else if isHigh n then
        match rest with
        | '\\' :: 'u' :: e :: f :: g :: h :: rest =>
          match unit? e f g h with
          | some m =>
            if isLow m then
              (stringBody? rest).map fun (s, rest) =>
                (Char.ofNat (0x10000 + (n - 0xD800) * 0x400 + (m - 0xDC00)) :: s, rest)
            else none
          | none => none
        | _ => none
      else (stringBody? rest).map fun (s, rest) => (Char.ofNat n :: s, rest)
  | '\\' :: c :: rest =>
    match simpleEscape? c with
    | some e => (stringBody? rest).map fun (s, rest) => (e :: s, rest)
    | none => none
  | c :: rest =>
    if c.toNat < 0x20 ∨ c = '\\' then none
    else (stringBody? rest).map fun (s, rest) => (c :: s, rest)

/-- Is the character a decimal digit? -/
def isDigit (c : Char) : Bool := '0' ≤ c && c ≤ '9'

/-- The digits of a whole part: a single zero, or digits that do not start with one. -/
def wholePart? (cs : List Char) : Option (List Char × List Char) :=
  match cs with
  | '0' :: rest => if (rest.head?.map isDigit).getD false then none else some (['0'], rest)
  | _ =>
    match cs.takeWhile isDigit with
    | [] => none
    | digits => some (digits, cs.dropWhile isDigit)

/-- A point and digits after it, if there is a point. -/
def fraction? (cs : List Char) : Option (List Char × List Char) :=
  match cs with
  | '.' :: rest =>
    match rest.takeWhile isDigit with
    | [] => none
    | digits => some ('.' :: digits, rest.dropWhile isDigit)
  | _ => some ([], cs)

/-- An exponent, if there is one. -/
def exponent? (cs : List Char) : Option (List Char × List Char) :=
  match cs with
  | c :: rest =>
    if c = 'e' ∨ c = 'E' then
      let (sign, rest) := match rest with
        | '+' :: r => (['+'], r)
        | '-' :: r => (['-'], r)
        | r => ([], r)
      match rest.takeWhile isDigit with
      | [] => none
      | digits => some (c :: sign ++ digits, rest.dropWhile isDigit)
    else some ([], cs)
  | [] => some ([], [])

/-- The number that digits spell. -/
def natOf (digits : List Char) : Nat :=
  digits.foldl (fun n c => n * 10 + (c.toNat - 48)) 0

/-- **A number.** A minus sign before zero does not make a whole number. -/
def number? (cs : List Char) : Option (Json × List Char) := do
  let (negative, cs) := match cs with
    | '-' :: rest => (true, rest)
    | _ => (false, cs)
  let (whole, cs) ← wholePart? cs
  let (fraction, cs) ← fraction? cs
  let (exponent, cs) ← exponent? cs
  let sign := if negative then ['-'] else []
  if fraction = [] ∧ exponent = [] ∧ ¬ (negative ∧ natOf whole = 0) then
    return (.int (if negative then - (natOf whole : Int) else natOf whole), cs)
  else
    return (.decimal (String.ofList (sign ++ whole ++ fraction ++ exponent)), cs)

/-- The text after a word, if it starts with it. -/
def afterWord? (word : String) (cs : List Char) : Option (List Char) :=
  if word.toList.isPrefixOf cs then some (cs.drop word.toList.length) else none

mutual

/-- **One value** at the start of a text, and what follows it. -/
def value? : Nat → List Char → Option (Json × List Char)
  | 0, _ => none
  | fuel + 1, cs =>
    match skipSpace cs with
    | '"' :: rest => (stringBody? rest).map fun (s, rest) => (.str (String.ofList s), rest)
    | '[' :: rest =>
      match skipSpace rest with
      | ']' :: rest => some (.arr [], rest)
      | rest => (items? fuel rest).map fun (js, rest) => (.arr js, rest)
    | '\x7b' :: rest =>
      match skipSpace rest with
      | '\x7d' :: rest => some (.obj [], rest)
      | rest => (fields? fuel rest).map fun (fs, rest) => (.obj fs, rest)
    | cs =>
      match afterWord? "null" cs, afterWord? "true" cs, afterWord? "false" cs with
      | some rest, _, _ => some (.null, rest)
      | _, some rest, _ => some (.bool true, rest)
      | _, _, some rest => some (.bool false, rest)
      | _, _, _ => number? cs

/-- Items up to the closing bracket. -/
def items? : Nat → List Char → Option (List Json × List Char)
  | 0, _ => none
  | fuel + 1, cs =>
    match value? fuel cs with
    | none => none
    | some (j, rest) =>
      match skipSpace rest with
      | ']' :: rest => some ([j], rest)
      | ',' :: rest => (items? fuel rest).map fun (js, rest) => (j :: js, rest)
      | _ => none

/-- Fields up to the closing brace. -/
def fields? : Nat → List Char → Option (List (String × Json) × List Char)
  | 0, _ => none
  | fuel + 1, cs =>
    match skipSpace cs with
    | '"' :: rest =>
      match stringBody? rest with
      | none => none
      | some (key, rest) =>
        match skipSpace rest with
        | ':' :: rest =>
          match value? fuel rest with
          | none => none
          | some (j, rest) =>
            match skipSpace rest with
            | '\x7d' :: rest => some ([(String.ofList key, j)], rest)
            | ',' :: rest =>
              (fields? fuel rest).map fun (fs, rest) => ((String.ofList key, j) :: fs, rest)
            | _ => none
        | _ => none
    | _ => none

end

/-- **Read a document.** Every level of nesting uses up two characters of the text at least, so its length
bounds the recursion. -/
def parse? (text : String) : Option Json :=
  let cs := text.toList
  match value? (2 * cs.length + 1) cs with
  | some (j, rest) => if skipSpace rest = [] then some j else none
  | none => none

end Dialogue.Json
