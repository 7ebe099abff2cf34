/-!
# `Dialogue.Json` — JSON documents and their written forms.

Objects keep their fields in the order given. There are two written forms: on one line without spaces, and
spread over lines with two blanks a level.
-/

namespace Dialogue

/-- **A JSON document.** -/
inductive Json
  | null
  | bool (b : Bool)
  /-- A whole number. -/
  | int (n : Int)
  /-- Any other number, as it is written. -/
  | decimal (lexeme : String)
  | str (s : String)
  | arr (items : List Json)
  | obj (fields : List (String × Json))

namespace Json

/-- A hexadecimal digit, in lower case. -/
def hexDigit (n : Nat) : Char :=
  if n < 10 then Char.ofNat (48 + n) else Char.ofNat (87 + n)

/-- A character as it stands in a written string. -/
def escapeChar (c : Char) : List Char :=
  if c = '"' then ['\\', '"']
  else if c = '\\' then ['\\', '\\']
  else if c.toNat < 0x20 then
    if c = '\n' then ['\\', 'n']
    else if c = '\r' then ['\\', 'r']
    else if c = '\t' then ['\\', 't']
    else if c.toNat = 8 then ['\\', 'b']
    else if c.toNat = 12 then ['\\', 'f']
    else ['\\', 'u', '0', '0', hexDigit (c.toNat / 16), hexDigit (c.toNat % 16)]
  else [c]

/-- **A written string.** -/
def quote (s : String) : List Char :=
  '"' :: s.toList.flatMap escapeChar ++ ['"']

/-- The digits of a natural number. -/
def natDigits (n : Nat) : List Char := (toString n).toList

/-- A written whole number. -/
def intText (n : Int) : List Char :=
  match n with
  | .ofNat m => natDigits m
  | .negSucc m => '-' :: natDigits (m + 1)

mutual

/-- **The document on one line.** -/
def compact : Json → List Char
  | null => ['n', 'u', 'l', 'l']
  | bool true => ['t', 'r', 'u', 'e']
  | bool false => ['f', 'a', 'l', 's', 'e']
  | int n => intText n
  | decimal l => l.toList
  | str s => quote s
  | arr items => '[' :: compactItems items ++ [']']
  | obj fields => '{' :: compactFields fields ++ ['}']

/-- Items on one line. -/
def compactItems : List Json → List Char
  | [] => []
  | [j] => compact j
  | j :: js => compact j ++ ',' :: compactItems js

/-- Fields on one line. -/
def compactFields : List (String × Json) → List Char
  | [] => []
  | [(k, j)] => quote k ++ ':' :: compact j
  | (k, j) :: fs => quote k ++ ':' :: compact j ++ ',' :: compactFields fs

end

/-- The start of a line at a level. -/
def newline (level : Nat) : List Char :=
  '\n' :: List.replicate (2 * level) ' '

mutual

/-- **The document over several lines**, at an indentation level. -/
def pretty (level : Nat) : Json → List Char
  | null => ['n', 'u', 'l', 'l']
  | bool true => ['t', 'r', 'u', 'e']
  | bool false => ['f', 'a', 'l', 's', 'e']
  | int n => intText n
  | decimal l => l.toList
  | str s => quote s
  | arr [] => ['[', ']']
  | arr items => '[' :: prettyItems (level + 1) items ++ newline level ++ [']']
  | obj [] => ['{', '}']
  | obj fields => '{' :: prettyFields (level + 1) fields ++ newline level ++ ['}']

/-- Items, each on a line of its own. -/
def prettyItems (level : Nat) : List Json → List Char
  | [] => []
  | [j] => newline level ++ pretty level j
  | j :: js => newline level ++ pretty level j ++ ',' :: prettyItems level js

/-- Fields, each on a line of its own. -/
def prettyFields (level : Nat) : List (String × Json) → List Char
  | [] => []
  | [(k, j)] => newline level ++ quote k ++ ':' :: ' ' :: pretty level j
  | (k, j) :: fs =>
    newline level ++ quote k ++ ':' :: ' ' :: pretty level j ++ ',' :: prettyFields level fs

end

/-- `compact` as a string. -/
def compactString (j : Json) : String := String.ofList j.compact

/-- `pretty` as a string. -/
def prettyString (j : Json) : String := String.ofList (j.pretty 0)

end Json

end Dialogue
