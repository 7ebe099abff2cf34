/-!
# `Dialogue.Toml` — settings written in TOML.

A document is a table of tables. Texts, truth values and lists are kept; a value of any other kind is refused, as
no setting has one, and so is a list of tables with headers. A key is given once, and a table has one header.
-/

namespace Dialogue.Toml

/-- **How a table came to be**, which decides what may still be added to it. -/
inductive Origin
  /-- It was on the way to a table with a header. -/
  | implied
  | header
  /-- It was on the way to a key. -/
  | dotted
  /-- It was written between braces. -/
  | inline
  deriving DecidableEq, Repr

/-- **A setting.** -/
inductive Value
  | text (s : String)
  | truth (b : Bool)
  | list (items : List Value)
  | table (origin : Origin) (entries : List (String × Value))

/-- Named settings. -/
abbrev Table := List (String × Value)

/-- The setting of a name. -/
def find? (t : Table) (name : String) : Option Value := (t.find? (·.1 == name)).map (·.2)

/-- Set the setting of a name. -/
def put (t : Table) (name : String) (v : Value) : Table :=
  if t.any (·.1 == name) then t.map fun e => if e.1 == name then (name, v) else e else t ++ [(name, v)]

/-! ## Tables -/

/-- **Change the table under a path of names**, tables on the way being made if `Origin` allows. -/
def within (make : Origin) (enter : Origin → Bool) (change : Table → Option Table) :
    List String → Table → Option Table
  | [], t => change t
  | name :: names, t =>
    match find? t name with
    | none => (within make enter change names []).map fun inner => put t name (.table make inner)
    | some (.table origin inner) =>
      if enter origin then
        (within make enter change names inner).map fun inner => put t name (.table origin inner)
      else none
    | some _ => none

/-- Add a setting that is not there yet. -/
def addNew (name : String) (v : Value) (t : Table) : Option Table :=
  if (find? t name).isSome then none else some (put t name v)

/-- **Add a setting under a dotted key.** -/
def addKey (path : List String) (v : Value) (t : Table) : Option Table :=
  match path.getLast? with
  | none => none
  | some name => within .dotted (· == .dotted) (addNew name v) path.dropLast t

/-- **Add a table with a header.** -/
def addHeader (path : List String) (t : Table) : Option Table :=
  match path.getLast? with
  | none => none
  | some name =>
    let open_ (t : Table) : Option Table := match find? t name with
      | none => some (put t name (.table .header []))
      | some (.table .implied inner) => some (put t name (.table .header inner))
      | some _ => none
    within .implied (· != .inline) open_ path.dropLast t

/-- Add a setting in the table of a header. -/
def addUnder (header path : List String) (v : Value) (t : Table) : Option Table :=
  within .implied (fun _ => true) (addKey path v) header t

/-! ## Reading -/

/-- Blanks inside a line. -/
def isBlank (c : Char) : Bool := c == ' ' || c == '\t'

/-- Skip blanks. -/
def skipBlanks (cs : List Char) : List Char := cs.dropWhile isBlank

/-- May a character stand in a text or a comment as it is? -/
def isPlain (c : Char) : Bool := c == '\t' || (0x20 ≤ c.toNat && c.toNat != 0x7F)

/-- What follows the end of a line, if there is nothing before it but blanks and a comment. -/
def lineEnd? (cs : List Char) : Option (List Char) :=
  let rest := match skipBlanks cs with
    | '#' :: comment => comment.dropWhile isPlain
    | rest => rest
  match rest with
  | [] => some []
  | '\n' :: rest => some rest
  | '\r' :: '\n' :: rest => some rest
  | _ => none

/-- Skip blanks, comments and line ends. -/
def skipLines : (fuel : Nat) → List Char → List Char
  | 0, cs => cs
  | fuel + 1, cs =>
    match skipBlanks cs, lineEnd? cs with
    | [], _ => []
    | _, some rest => skipLines fuel rest
    | cs, none => cs

/-- The number that hexadecimal digits spell. -/
def hex? (cs : List Char) : Option Nat :=
  cs.foldlM (fun n c =>
    if '0' ≤ c ∧ c ≤ '9' then some (n * 16 + (c.toNat - 48))
    else if 'a' ≤ c ∧ c ≤ 'f' then some (n * 16 + (c.toNat - 87))
    else if 'A' ≤ c ∧ c ≤ 'F' then some (n * 16 + (c.toNat - 55))
    else none) 0

/-- The character of an escape by number. -/
def numbered? (digits : Nat) (cs : List Char) : Option (Char × List Char) := do
  if cs.length < digits then none
  else
    let n ← hex? (cs.take digits)
    if n.isValidChar then some (Char.ofNat n, cs.drop digits) else none

/-- The character of an escape, after its backslash. -/
def escape? : List Char → Option (Char × List Char)
  | 'b' :: cs => some ('\x08', cs)
  | 't' :: cs => some ('\t', cs)
  | 'n' :: cs => some ('\n', cs)
  | 'f' :: cs => some ('\x0c', cs)
  | 'r' :: cs => some ('\r', cs)
  | '"' :: cs => some ('"', cs)
  | '\\' :: cs => some ('\\', cs)
  | 'u' :: cs => numbered? 4 cs
  | 'U' :: cs => numbered? 8 cs
  | _ => none

/-- **A text up to its quote**, on one line; with or without escapes. -/
def quoted? (mark : Char) (escapes : Bool) : (fuel : Nat) → List Char → Option (List Char × List Char)
  | 0, _ => none
  | fuel + 1, cs =>
    match cs with
    | [] => none
    | c :: cs =>
      if c = mark then some ([], cs)
      else if escapes ∧ c = '\\' then do
        let (e, cs) ← escape? cs
        let (s, rest) ← quoted? mark escapes fuel cs
        some (e :: s, rest)
      else if isPlain c then do
        let (s, rest) ← quoted? mark escapes fuel cs
        some (c :: s, rest)
      else none

/-- **A text of several lines up to its three quotes.** Two more quotes may belong to it. -/
def block? (mark : Char) (escapes : Bool) : (fuel : Nat) → List Char → Option (List Char × List Char)
  | 0, _ => none
  | fuel + 1, cs =>
    match cs with
    | [] => none
    | c :: cs =>
      if c = mark ∧ cs.take 2 = [mark, mark] then
        let more := ((cs.drop 2).takeWhile (· == mark)).length
        if 2 < more then none
        else some (List.replicate more mark, cs.drop (2 + more))
      else if escapes ∧ c = '\\' then
        match lineEnd? cs with
        | some rest =>
          if (skipBlanks cs).head? = some '#' then none
          else block? mark escapes fuel
            (rest.dropWhile fun c => isBlank c || c == '\n' || c == '\r')
        | none => do
          let (e, cs) ← escape? cs
          let (s, rest) ← block? mark escapes fuel cs
          some (e :: s, rest)
      else if isPlain c ∨ c = '\n' ∨ (c = '\r' ∧ cs.head? = some '\n') then do
        let (s, rest) ← block? mark escapes fuel cs
        some (c :: s, rest)
      else none

/-- A text of several lines after its opening quotes, a line end right behind them not counting. -/
def blockBody? (mark : Char) (escapes : Bool) (cs : List Char) : Option (List Char × List Char) :=
  let body := match cs with
    | '\n' :: rest => rest
    | '\r' :: '\n' :: rest => rest
    | cs => cs
  block? mark escapes (body.length + 1) body

/-- A text in quotes. -/
def text? (cs : List Char) : Option (List Char × List Char) :=
  match cs with
  | '"' :: '"' :: '"' :: cs => blockBody? '"' true cs
  | '\'' :: '\'' :: '\'' :: cs => blockBody? '\'' false cs
  | '"' :: cs => quoted? '"' true (cs.length + 1) cs
  | '\'' :: cs => quoted? '\'' false (cs.length + 1) cs
  | _ => none

/-- May a character stand in a key without quotes? -/
def inKey (c : Char) : Bool := c.isAlphanum || c == '_' || c == '-'

/-- One part of a key. -/
def keyPart? (cs : List Char) : Option (String × List Char) :=
  match cs with
  | '"' :: rest => (quoted? '"' true (rest.length + 1) rest).map fun (s, r) => (String.ofList s, r)
  | '\'' :: rest => (quoted? '\'' false (rest.length + 1) rest).map fun (s, r) => (String.ofList s, r)
  | cs =>
    let word := cs.takeWhile inKey
    if word = [] then none else some (String.ofList word, cs.dropWhile inKey)

/-- **A key**, its parts separated by dots. -/
def key? : (fuel : Nat) → List Char → Option (List String × List Char)
  | 0, _ => none
  | fuel + 1, cs => do
    let (part, rest) ← keyPart? (skipBlanks cs)
    match skipBlanks rest with
    | '.' :: rest => do
      let (parts, rest) ← key? fuel rest
      some (part :: parts, rest)
    | rest => some ([part], rest)

mutual

/-- **A value.** -/
def value? : (fuel : Nat) → List Char → Option (Value × List Char)
  | 0, _ => none
  | fuel + 1, cs =>
    match cs with
    | 't' :: 'r' :: 'u' :: 'e' :: rest => some (.truth true, rest)
    | 'f' :: 'a' :: 'l' :: 's' :: 'e' :: rest => some (.truth false, rest)
    | '{' :: rest =>
      match skipBlanks rest with
      | '}' :: rest => some (.table .inline [], rest)
      | rest => do
        let (t, rest) ← entries? fuel [] rest
        some (.table .inline t, rest)
    | '[' :: rest => (items? fuel rest).map fun (vs, rest) => (.list vs, rest)
    | cs => (text? cs).map fun (s, rest) => (.text (String.ofList s), rest)

/-- The values of a list up to its bracket; a comma may follow the last. -/
def items? : (fuel : Nat) → List Char → Option (List Value × List Char)
  | 0, _ => none
  | fuel + 1, cs =>
    match skipLines (cs.length + 1) cs with
    | ']' :: rest => some ([], rest)
    | cs => do
      let (v, rest) ← value? fuel cs
      match skipLines (rest.length + 1) rest with
      | ',' :: rest => do
        let (vs, rest) ← items? fuel rest
        some (v :: vs, rest)
      | ']' :: rest => some ([v], rest)
      | _ => none

/-- A setting: its key and its value. -/
def pair? : (fuel : Nat) → List Char → Option ((List String × Value) × List Char)
  | 0, _ => none
  | fuel + 1, cs => do
    let (path, rest) ← key? (cs.length + 1) cs
    match skipBlanks rest with
    | '=' :: rest => do
      let (v, rest) ← value? fuel (skipBlanks rest)
      some ((path, v), rest)
    | _ => none

/-- The settings of a table between braces, after those in `t`. -/
def entries? : (fuel : Nat) → Table → List Char → Option (Table × List Char)
  | 0, _, _ => none
  | fuel + 1, t, cs => do
    let ((path, v), rest) ← pair? fuel cs
    let t ← addKey path v t
    match skipBlanks rest with
    | ',' :: rest => entries? fuel t rest
    | '}' :: rest => some (t, rest)
    | _ => none

end

/-- The lines of a document, `header` being the table that settings go to. -/
def lines? : (fuel : Nat) → (header : List String) → Table → List Char → Option Table
  | 0, _, _, _ => none
  | fuel + 1, header, t, cs =>
    match lineEnd? cs with
    | some [] => some t
    | some rest => lines? fuel header t rest
    | none =>
      match skipBlanks cs with
      | '[' :: rest => do
        let (path, rest) ← key? (rest.length + 1) rest
        match rest with
        | ']' :: rest => do
          let t ← addHeader path t
          let rest ← lineEnd? rest
          lines? fuel path t rest
        | _ => none
      | cs => do
        let ((path, v), rest) ← pair? (cs.length + 1) cs
        let t ← addUnder header path v t
        let rest ← lineEnd? rest
        lines? fuel header t rest

/-- **Read a document**, if its settings are all of kinds that are kept. A mark of the byte order may stand
first. -/
def parse? (text : String) : Option Table :=
  let cs := match text.toList with
    | '\uFEFF' :: cs => cs
    | cs => cs
  lines? (cs.length + 1) [] [] cs

theorem find?_put_self (t : Table) (name : String) (v : Value) : find? (put t name v) name = some v := by
  unfold put find?
  split
  · rename_i h
    induction t with
    | nil => simp at h
    | cons e t ih =>
      by_cases he : e.1 = name
      · simp [he]
      · have h' : (t.any fun x => x.1 == name) = true := by simpa [he] using h
        simp [he]
        simpa using ih h'
  · rename_i h
    have none_of : t.find? (·.1 == name) = none :=
      List.find?_eq_none.2 fun e he hn => h (List.any_eq_true.2 ⟨e, he, hn⟩)
    rw [List.find?_append, none_of]
    simp

end Dialogue.Toml
