import Dialogue.Position
import Dialogue.Script.Token
import Dialogue.Text.Blank
import Dialogue.Text.Split
/-!
# `Dialogue.Script.Lexer` — scripts cut into tokens.

Each step reads one blank, one comment or one token off the text and says where it stopped. A template ends its
text at an interpolation; the tokens of the interpolated code follow, and at its closing brace the text goes on.
Reading stops at the first piece that is no token.
-/

namespace Dialogue.Script.Lexer

/-- A token and where it starts. -/
abbrev Located := Token × Position

/-- **Where reading has come to:** the text that is left and its place. -/
structure Cursor where
  rest : List Char
  place : Position

namespace Cursor

/-- The cursor after one more character. -/
def step (c : Cursor) : Cursor :=
  match c.rest with
  | [] => c
  | x :: xs => ⟨xs, c.place.advance x⟩

/-- The cursor after `n` more characters. -/
def skip : Nat → Cursor → Cursor
  | 0, c => c
  | n + 1, c => skip n c.step

end Cursor

/-! ## Comments -/

/-- How many characters a comment up to the end of its line has. -/
def lineCommentLength (cs : List Char) : Nat :=
  (cs.takeWhile (· != '\n')).length

/-- How many characters there are up to the end of a block comment; inner comments are comments too. -/
def blockCommentLength : (depth : Nat) → List Char → Nat
  | 0, _ => 0
  | _ + 1, [] => 0
  | depth + 1, '*' :: '/' :: cs => 2 + blockCommentLength depth cs
  | depth + 1, '/' :: '*' :: cs => 2 + blockCommentLength (depth + 2) cs
  | depth + 1, _ :: cs => 1 + blockCommentLength (depth + 1) cs

/-! ## Numbers -/

/-- Is the character a decimal digit? -/
def isDigit (c : Char) : Bool := '0' ≤ c && c ≤ '9'

/-- The value of a digit in the bases up to sixteen. -/
def digitValue (c : Char) : Nat :=
  if isDigit c then c.toNat - 48
  else if 'a' ≤ c ∧ c ≤ 'f' then c.toNat - 87
  else if 'A' ≤ c ∧ c ≤ 'F' then c.toNat - 55
  else 99

/-- The number that digits spell in a base. -/
def natOfDigits (base : Nat) (digits : List Char) : Nat :=
  digits.foldl (fun n c => n * base + digitValue c) 0

/-- Digits with separators in between: the digits, and how many characters they take. -/
def digitRun (base : Nat) (cs : List Char) : List Char × Nat :=
  let run := cs.takeWhile fun c => c == '_' || digitValue c < base
  (run.filter (· != '_'), run.length)

/-- The base that the letter after a leading zero stands for. -/
def baseOf? : Char → Option Nat
  | 'x' | 'X' => some 16
  | 'o' | 'O' => some 8
  | 'b' | 'B' => some 2
  | _ => none

/-- **The number behind decimal digits**, read with correct rounding. -/
def floatOf (whole fraction : List Char) (exponent : Int) : Float :=
  let n := natOfDigits 10 (whole ++ fraction)
  let shift := exponent - fraction.length
  if 0 ≤ shift then Float.ofScientific n false shift.toNat
  else Float.ofScientific n true (-shift).toNat

/-- A point and the digits after it. A point counts when a digit follows, or something that cannot start a
property; it does not when another point follows. -/
def fractionRun (cs : List Char) : Option (List Char × Nat) :=
  match cs with
  | '.' :: c :: rest =>
    if isDigit c then
      let (digits, n) := digitRun 10 (c :: rest)
      some (digits, n + 1)
    else if c = '.' ∨ c = '_' ∨ Token.startsName c then none
    else some (['0'], 1)
  | _ => none

/-- An exponent: its value and how many characters it takes. -/
def exponentRun (cs : List Char) : Option (Int × Nat) :=
  match cs with
  | 'e' :: '+' :: rest =>
    let (digits, n) := digitRun 10 rest
    if digits = [] then none else some (natOfDigits 10 digits, n + 2)
  | 'e' :: '-' :: rest =>
    let (digits, n) := digitRun 10 rest
    if digits = [] then none else some (-(natOfDigits 10 digits : Int), n + 2)
  | 'e' :: c :: rest =>
    if isDigit c then
      let (digits, n) := digitRun 10 (c :: rest)
      some (natOfDigits 10 digits, n + 1)
    else none
  | _ => none

/-- A whole number in a base other than ten, after its mark. It may use all 64 bits. -/
def basedNumber (mark : Char) (base : Nat) (cs : List Char) : Token × Nat :=
  let (digits, n) := digitRun base cs
  let value := natOfDigits base digits
  if digits = [] ∨ UInt64.size ≤ value then
    (.invalid (.badNumber (String.ofList ('0' :: mark :: digits))), n + 2)
  else (.int (Int64.ofNat value), n + 2)

/-- **A number** and how many characters it takes. A whole number that is too large is taken as a fraction. -/
def number (cs : List Char) : Token × Nat :=
  match cs with
  | '0' :: mark :: rest =>
    match baseOf? mark with
    | some base => basedNumber mark base rest
    | none => decimal cs
  | _ => decimal cs
where
  /-- A number in base ten. -/
  decimal (cs : List Char) : Token × Nat :=
    let (whole, n) := digitRun 10 cs
    let fraction := fractionRun (cs.drop n)
    let n := n + (fraction.map (·.2)).getD 0
    let exponent := exponentRun (cs.drop n)
    let n := n + (exponent.map (·.2)).getD 0
    let value := natOfDigits 10 whole
    if fraction.isNone ∧ exponent.isNone ∧ value < Nat.pow 2 63 then (.int (Int64.ofNat value), n)
    else
      (.float (floatOf whole ((fraction.map (·.1)).getD []) ((exponent.map (·.1)).getD 0)), n)

/-! ## Strings -/

/-- **What a quoted text ends in.** -/
inductive Quoted
  /-- The text, and the cursor after its closing quote. -/
  | closed (text : List Char) (rest : Cursor)
  /-- The text, and the cursor at the brace that opens an interpolation. -/
  | opened (text : List Char) (rest : Cursor)
  /-- A fault; a place when it is not the start of the text. -/
  | broken (fault : LexicalFault) (place : Option Position)

/-- Put characters in front of a quoted text. -/
def Quoted.prepend (cs : List Char) : Quoted → Quoted
  | closed text rest => closed (cs ++ text) rest
  | opened text rest => opened (cs ++ text) rest
  | broken fault place => broken fault place

/-- The character behind an escape of one letter. -/
def simpleEscape? : Char → Option Char
  | '\\' => some '\\'
  | 't' => some '\t'
  | 'n' => some '\n'
  | 'r' => some '\r'
  | _ => none

/-- How many digits an escape by number has. -/
def escapeDigits? : Char → Option Nat
  | 'x' => some 2
  | 'u' => some 4
  | 'U' => some 8
  | _ => none

/-- The character that digits name, if they do. -/
def escapedChar? (digits : List Char) (count : Nat) : Option Char :=
  let n := natOfDigits 16 digits
  if digits.length = count ∧ digits.all (digitValue · < 16) ∧ n.isValidChar then some (Char.ofNat n)
  else none

/-- **A text between quotes of the kind `mark`**, after the opening one. A quote is escaped, or written twice; a
back-slash at the end of a line joins it to the next one, without the blanks up to the column `margin`. -/
def quoted (mark : Char) (margin : Nat) : (fuel : Nat) → (skipping : Bool) → Cursor → Quoted
  | 0, _, _ => .broken .unterminatedString none
  | fuel + 1, skipping, c =>
    match c.rest with
    | [] => .broken .unterminatedString none
    | '\n' :: _ => .broken .unterminatedString none
    | '\\' :: e :: rest =>
      match escapeDigits? e with
      | some count =>
        let digits := rest.take count
        match escapedChar? digits count with
        | some x => (quoted mark margin fuel false (c.skip (count + 2))).prepend [x]
        | none =>
          let good := digits.takeWhile (digitValue · < 16)
          let shown := digits.take (good.length + 1)
          .broken (.badEscape (String.ofList ('\\' :: e :: shown)))
            (some (c.skip (shown.length + 1)).place)
      | none =>
        if e = mark then (quoted mark margin fuel false (c.skip 2)).prepend [e]
        else if e = '\n' ∧ mark = '"' then quoted mark margin fuel true (c.skip 2)
        else match simpleEscape? e with
          | some x => (quoted mark margin fuel false (c.skip 2)).prepend [x]
          | none => .broken (.badEscape (String.ofList ['\\', e])) (some c.step.place)
    | x :: rest =>
      if x = mark then
        if rest.head? = some mark then (quoted mark margin fuel false (c.skip 2)).prepend [x]
        else .closed [] c.step
      else if skipping && Text.isBlank x && c.place.column < margin then
        quoted mark margin fuel true c.step
      else (quoted mark margin fuel false c.step).prepend [x]

/-- **The text of a template** up to its end or to an interpolation. -/
def templateText : (fuel : Nat) → Cursor → Quoted
  | 0, _ => .broken .unterminatedString none
  | fuel + 1, c =>
    match c.rest with
    | [] => .broken .unterminatedString none
    | '`' :: '`' :: _ => (templateText fuel (c.skip 2)).prepend ['`']
    | '`' :: _ => .closed [] c.step
    | '$' :: '\x7b' :: _ => .opened [] c.step
    | x :: _ => (templateText fuel c.step).prepend [x]

/-- The cursor without a line end directly after the opening quote. -/
def dropLineEnd (c : Cursor) : Cursor :=
  match c.rest with
  | '\r' :: '\n' :: _ => c.skip 2
  | '\n' :: _ => c.step
  | _ => c

/-! ## The whole script -/

/-- The symbol that a text starts with, and whether it is set aside. -/
def symbol? (cs : List Char) : Option (String × Bool) :=
  Token.symbols.find? fun (s, _) => s.toList.isPrefixOf cs

/-- The operator `!in`, when no name goes on after it. -/
def startsNotIn : List Char → Bool
  | '!' :: 'i' :: 'n' :: c :: _ => !Token.inName c
  | ['!', 'i', 'n'] => true
  | _ => false

/-- **Read on.** For every interpolation that is open, `nest` tells how many braces are open inside it. -/
def readFrom : (fuel : Nat) → (nest : List Nat) → Cursor → List Located
  | 0, _, c => [(.done, c.place)]
  | fuel + 1, nest, c =>
    let start := c.place
    let afterTemplate (nest : List Nat) (q : Quoted) : List Located :=
      match q with
      | .closed text rest => (.str (String.ofList text), start) :: readFrom fuel nest rest
      | .opened text rest =>
        (.template (String.ofList text), start) :: readFrom fuel (0 :: nest) rest
      | .broken fault place => [(.invalid fault, place.getD start)]
    match c.rest with
    | [] => [(.done, c.place)]
    | x :: xs =>
      if Text.isBlank x then readFrom fuel nest c.step
      else if x = '/' ∧ xs.head? = some '/' then
        readFrom fuel nest (c.skip (lineCommentLength c.rest))
      else if x = '/' ∧ xs.head? = some '*' then
        readFrom fuel nest (c.skip (2 + blockCommentLength 1 (xs.drop 1)))
      else if isDigit x then
        match number c.rest with
        | (.invalid fault, _) => [(.invalid fault, start)]
        | (token, n) => (token, start) :: readFrom fuel nest (c.skip n)
      else if Token.startsName x then
        let word := c.rest.takeWhile Token.inName
        match Token.ofWord (String.ofList word) with
        | .invalid fault => [(.invalid fault, start)]
        | token => (token, start) :: readFrom fuel nest (c.skip word.length)
      else if x = '"' then
        match quoted '"' (start.column + 1) (xs.length + 1) false c.step with
        | .broken fault place => [(.invalid fault, place.getD start)]
        | .closed text rest | .opened text rest =>
          (.str (String.ofList text), start) :: readFrom fuel nest rest
      else if x = '\'' then
        match quoted '\'' 0 (xs.length + 1) false c.step with
        | .broken fault place => [(.invalid fault, place.getD start)]
        | .closed text rest | .opened text rest =>
          match text with
          | [ch] => (.char ch, start) :: readFrom fuel nest rest
          | _ => [(.invalid (.badCharacter (String.ofList text)), start)]
      else if x = '`' then
        let body := dropLineEnd c.step
        afterTemplate nest (templateText (body.rest.length + 1) body)
      else if x = '(' ∧ xs.head? = some ')' then
        (.unit, start) :: readFrom fuel nest (c.skip 2)
      else if startsNotIn c.rest then
        (.mark "!in", start) :: readFrom fuel nest (c.skip 3)
      else match symbol? c.rest with
        | none => [(.invalid (.unexpected x.toString), start)]
        | some (s, true) =>
          match Token.ofReservedSymbol s with
          | .invalid fault => [(.invalid fault, start)]
          | token => (token, start) :: readFrom fuel nest (c.skip s.length)
        | some (s, false) =>
          let rest := c.skip s.length
          match s, nest with
          | "\x7d", 1 :: nest =>
            (.mark s, start) :: afterTemplate nest (templateText (rest.rest.length + 1) rest)
          | "\x7d", (n + 2) :: nest => (.mark s, start) :: readFrom fuel ((n + 1) :: nest) rest
          | "\x7b", n :: nest | "#\x7b", n :: nest =>
            (.mark s, start) :: readFrom fuel ((n + 1) :: nest) rest
          | _, _ => (.mark s, start) :: readFrom fuel nest rest

/-- **The tokens of a script.** Every step uses up a character, so the length of the text bounds them. The last
token is the end of the script, or whatever reading stopped at. -/
def tokens (script : String) : List Located :=
  let cs := script.toList
  readFrom (cs.length + 1) [] ⟨cs, .start⟩

end Dialogue.Script.Lexer
