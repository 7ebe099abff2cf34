import Dialogue.Decimal.Shortest
/-!
# `Dialogue.Script.Token` — the words of the script language.

A token is a literal, a name, or one of a fixed set of marks: operators, punctuation and keywords. Words and
symbols that are set aside for later are tokens of their own, so that using one can be reported as such.
-/

namespace Dialogue.Script

/-- **Why a piece of a script is no token.** -/
inductive LexicalFault
  /-- A character that starts no token. -/
  | unexpected (text : String)
  | unterminatedString
  | badEscape (sequence : String)
  | badNumber (text : String)
  | badCharacter (text : String)
  | badName (text : String)
  /-- A symbol or word that is refused with a text of its own. -/
  | refused (explanation : String)

/-- The wording of a lexical fault. -/
def LexicalFault.message : LexicalFault → String
  | unexpected text => s!"Unexpected '{text}'"
  | unterminatedString => "Open string is not terminated"
  | badEscape sequence => s!"Invalid escape sequence: '{sequence}'"
  | badNumber text => s!"Invalid number: '{text}'"
  | badCharacter text => s!"Invalid character: '{text}'"
  | badName text => s!"Variable name is not proper: '{text}'"
  | refused explanation => explanation

/-- **A token.** -/
inductive Token
  /-- `()`, as one token. -/
  | unit
  | int (n : Int64)
  | float (x : Float)
  | char (c : Char)
  | str (s : String)
  /-- Template text up to an interpolation. -/
  | template (s : String)
  | name (s : String)
  /-- An operator, a punctuation mark or a keyword. -/
  | mark (s : String)
  /-- A word or symbol that is set aside. -/
  | reserved (s : String)
  | invalid (fault : LexicalFault)
  /-- The end of the script. -/
  | done

/-- A token as it is quoted in messages. -/
def Token.text : Token → String
  | unit => "()"
  | int n => toString n.toInt
  | float x => Decimal.plain x
  | char c => c.toString
  | str s => "\"" ++ s ++ "\""
  | template s => "\"" ++ s ++ "\""
  | name s | mark s | reserved s => s
  | invalid fault => fault.message
  | done => "\x7bEOF\x7d"

namespace Token

/-- The words with a fixed meaning. -/
def keywords : List String :=
  ["true", "false", "let", "const", "if", "else", "switch", "do", "while", "until", "loop", "for",
    "in", "continue", "break", "fn", "private", "import", "export", "as", "return", "throw", "try",
    "catch", "_"]

/-- Words that are set aside, and may still be called like a function. -/
def callableWords : List String :=
  ["print", "debug", "type_of", "eval", "Fn", "call", "curry", "is_shared", "is_def_fn",
    "is_def_var"]

/-- Words that are set aside, and may still be called like a method. -/
def methodWords : List String := ["type_of", "call", "curry", "is_shared"]

/-- Words that are set aside. -/
def reservedWords : List String :=
  callableWords ++ ["this", "var", "static", "shared", "goto", "exit", "match", "case", "public",
    "protected", "new", "use", "with", "is", "module", "package", "super", "thread", "spawn", "go",
    "await", "async", "sync", "yield", "default", "void", "null", "nil", "begin", "end", "each",
    "then", "unless"]

/-- The symbols of the language and those set aside, longest first where one starts another. The flag tells
whether the symbol is set aside. -/
def symbols : List (String × Bool) := [
  ("(*", true), ("(", false), (")", false), ("\x7b", false), ("\x7d", false), ("[", false),
  ("]", false), ("#\x7b", false), ("#!", true), ("#", true),
  ("+=", false), ("++", true), ("+", false),
  ("-=", false), ("->", true), ("--", true), ("-", false),
  ("*)", true), ("*=", false), ("**=", false), ("**", false), ("*", false),
  ("/=", false), ("/", false), (";", false), (",", false),
  ("..=", false), ("...", true), ("..", false), (".", false),
  ("===", true), ("==", false), ("=>", false), ("=", false),
  ("::<", true), ("::", false), (":=", true), (":;", true), (":", false),
  ("<=", false), ("<-", true), ("<<=", false), ("<<", false), ("<|", true), ("<", false),
  (">=", false), (">>=", false), (">>", false), (">", false),
  ("!==", true), ("!=", false), ("!.", true), ("!", false),
  ("||", false), ("|=", false), ("|>", true), ("|", false),
  ("&&", false), ("&=", false), ("&", false),
  ("^=", false), ("^", false), ("%=", false), ("%", false), ("~", true), ("@", true), ("$", true),
  ("?.", false), ("??", false), ("?[", false), ("?", true)]

/-- What is said about symbols of other notations. -/
def misused? (symbol : String) : Option String :=
  match symbol with
  | "===" => some "'===' is not a valid operator. This is not JavaScript! Should it be '=='?"
  | "!==" => some "'!==' is not a valid operator. This is not JavaScript! Should it be '!='?"
  | "->" => some "'->' is not a valid symbol. This is not C or C++!"
  | "<-" => some "'<-' is not a valid symbol. This is not Go! Should it be '<='?"
  | ":=" =>
    some "':=' is not a valid assignment operator. This is not Go or Pascal! Should it be simply '='?"
  | ":;" => some "':;' is not a valid symbol. Should it be '::'?"
  | "::<" => some "'::<>' is not a valid symbol. This is not Rust! Should it be '::'?"
  | "(*" | "*)" =>
    some "'(* .. *)' is not a valid comment format. This is not Pascal! Should it be '/* .. */'?"
  | _ => none

/-- The token for a symbol that is set aside. -/
def ofReservedSymbol (symbol : String) : Token :=
  match misused? symbol with
  | some explanation => invalid (.refused explanation)
  | none => reserved symbol

/-- May a character start a name? -/
def startsName (c : Char) : Bool :=
  ('a' ≤ c && c ≤ 'z') || ('A' ≤ c && c ≤ 'Z') || c == '_'

/-- May a character stand in a name? -/
def inName (c : Char) : Bool := startsName c || ('0' ≤ c && c ≤ '9')

/-- **Is a word a proper name?** Its first character other than `_` is a letter. -/
def isProperName (word : List Char) : Bool :=
  match word.dropWhile (· == '_') with
  | c :: rest => startsName c && rest.all inName
  | [] => false

/-- **The token for a word.** The word `eval` is switched off. -/
def ofWord (word : String) : Token :=
  if keywords.contains word then mark word
  else if word == "eval" then invalid (.refused "reserved keyword 'eval' is disabled")
  else if reservedWords.contains word then reserved word
  else if isProperName word.toList then name word
  else invalid (.badName word)

/-- Is this the given mark? -/
def isMark (t : Token) (s : String) : Bool :=
  match t with
  | mark m => m == s
  | _ => false

/-- **How strongly a mark binds as a binary operator**; zero when it is none. -/
def precedence : Token → Nat
  | mark m =>
    match m with
    | "||" | "^" | "|" => 30
    | "&&" | "&" => 60
    | "==" | "!=" => 90
    | "in" | "!in" => 110
    | "<" | "<=" | ">" | ">=" => 130
    | "??" => 135
    | ".." | "..=" => 140
    | "+" | "-" => 150
    | "*" | "/" | "%" => 180
    | "**" => 190
    | "<<" | ">>" => 210
    | _ => 0
  | _ => 0

/-- Do equal operators group from the right? -/
def groupsRight (t : Token) : Bool := t.isMark "**"

/-- The operator behind a mark such as `+=`. -/
def assignOperator? : Token → Option String
  | mark m =>
    if ["+=", "-=", "*=", "/=", "%=", "**=", "<<=", ">>=", "&=", "|=", "^="].contains m then
      some (String.ofList m.toList.dropLast)
    else none
  | _ => none

end Token

end Dialogue.Script
