import Dialogue.CommandLine.Config
/-!
# `Dialogue.CommandLine.Arguments` — what the tool is asked to do.

A command has options before and after it; options after it go first. An option is given at most once in either
place, and a word that starts with a dash is never its value. The first word that does not fit decides.
-/

namespace Dialogue.CommandLine

/-- The form of output. -/
inductive Format
  | text
  | json
  deriving DecidableEq, Repr

/-- The forms of output by their names. -/
def Format.ofName? : String → Option Format
  | "text" => some .text
  | "json" => some .json
  | _ => none

/-- **Options**, as far as they are given. -/
structure Options where
  output : Option Format := none
  quiet : Bool := false
  config : Option String := none
  logLevel : Option String := none
  detection : Option Detection := none
  deriving DecidableEq, Repr

/-- Options with others to fall back on. -/
def Options.orElse (inner outer : Options) : Options where
  output := inner.output.or outer.output
  quiet := inner.quiet || outer.quiet
  config := inner.config.or outer.config
  logLevel := inner.logLevel.or outer.logLevel
  detection := inner.detection.or outer.detection

/-- The form of output that options ask for. -/
def Options.format (o : Options) : Format := o.output.getD .text

/-- **What is to be done.** -/
inductive Command
  | parts (document : String)
  | chunks (file : String)
  | eval (document expression : String)
  deriving DecidableEq, Repr

/-- **What the arguments ask for.** -/
inductive Invocation
  | run (options : Options) (command : Command)
  | help
  | version
  /-- The arguments make no sense. -/
  | misuse
  deriving DecidableEq, Repr

namespace Arguments

/-- Reading goes on, or the arguments have been decided on. -/
abbrev Step := Except Invocation

/-- An option without its dashes, and the value after its equals sign. -/
def splitOption (word : List Char) : String × Option String :=
  match word.dropWhile (· != '=') with
  | [] => (String.ofList word, none)
  | _ :: v => (String.ofList (word.takeWhile (· != '=')), some (String.ofList v))

/-- Does a word look like an option? -/
def looksLikeOption (s : String) : Bool :=
  match s.toList with
  | '-' :: _ :: _ => true
  | _ => false

/-- The value of an option: after its equals sign, or the next word. -/
def valueOf (given : Option String) (rest : List String) : Step (String × List String) :=
  match given, rest with
  | some v, rest => .ok (v, rest)
  | none, v :: rest => if looksLikeOption v then .error .misuse else .ok (v, rest)
  | none, [] => .error .misuse

/-- Give an option that has not been given. -/
def give (old new : Option α) : Step (Option α) :=
  match old, new with
  | none, some v => .ok (some v)
  | _, _ => .error .misuse

/-- A value that is not empty. -/
def nonempty? (s : String) : Option String := if s.isEmpty then none else some s

/-- **Read an option with two dashes.** -/
def long (top : Bool) (o : Options) (word : List Char) (rest : List String) :
    Step (Options × List String) := do
  let (name, given) := splitOption word
  match name, given with
  | "quiet", none => if o.quiet then throw .misuse else return ({ o with quiet := true }, rest)
  | "help", none => throw .help
  | "version", none => throw (if top then .version else .misuse)
  | "output", given =>
    let (v, rest) ← valueOf given rest
    return ({ o with output := ← give o.output (Format.ofName? v) }, rest)
  | "config", given =>
    let (v, rest) ← valueOf given rest
    return ({ o with config := ← give o.config (nonempty? v) }, rest)
  | "log-level", given =>
    let (v, rest) ← valueOf given rest
    return ({ o with logLevel := ← give o.logLevel (some v) }, rest)
  | "mime", given =>
    let (v, rest) ← valueOf given rest
    return ({ o with detection := ← give o.detection (Detection.ofName? v) }, rest)
  | _, _ => throw .misuse

/-- **Read options with one dash.** There are two, and the first decides. -/
def short (top : Bool) (c : Char) : Invocation :=
  if c = 'h' then .help
  else if c = 'V' ∧ top then .version
  else .misuse

/-- The command of a name with its words. -/
def command? (name : String) (words : List String) : Option Command :=
  match name, words with
  | "parts", [d] => if d.isEmpty then none else some (.parts d)
  | "chunks", [f] => if f.isEmpty then none else some (.chunks f)
  | "eval", [d, e] => if d.isEmpty then none else some (.eval d e)
  | _, _ => none

/-- How many words a command takes. -/
def wordCount? : String → Option Nat
  | "parts" | "chunks" => some 1
  | "eval" => some 2
  | _ => none

/-- **The words and options after a command.** After two dashes there are only words. -/
def afterCommand (count : Nat) : (fuel : Nat) → Options → (words : List String) → (bare : Bool) →
    List String → Step (Options × List String)
  | 0, _, _, _, _ => .error .misuse
  | _, o, words, _, [] => .ok (o, words)
  | fuel + 1, o, words, bare, a :: rest =>
    let word : Step (Options × List String) :=
      if words.length < count then afterCommand count fuel o (words ++ [a]) bare rest
      else .error .misuse
    if bare then word
    else
      match a.toList with
      | ['-', '-'] => afterCommand count fuel o words true rest
      | '-' :: '-' :: name => do
        let (o, rest) ← long false o name rest
        afterCommand count fuel o words bare rest
      | '-' :: c :: _ => .error (short false c)
      | _ => word

/-- What is asked for after `help`. -/
def helpOn : List String → Invocation
  | [] => .help
  | [name] => if (wordCount? name).isSome || name == "help" then .help else .misuse
  | _ => .misuse

/-- **The options before a command**, and the command. -/
def beforeCommand : (fuel : Nat) → Options → List String → Step (Options × Command)
  | 0, _, _ => .error .misuse
  | _, _, [] => .error .misuse
  | fuel + 1, o, a :: rest =>
    match a.toList with
    | ['-', '-'] => .error .misuse
    | '-' :: '-' :: name => do
      let (o, rest) ← long true o name rest
      beforeCommand fuel o rest
    | '-' :: c :: _ => .error (short true c)
    | _ =>
      if a == "help" then .error (helpOn rest)
      else
        match wordCount? a with
        | none => .error .misuse
        | some count => do
          let (inner, words) ← afterCommand count (rest.length + 1) {} [] false rest
          match command? a words with
          | some c => .ok (inner.orElse o, c)
          | none => .error .misuse

/-- **Read arguments.** -/
def parse (args : List String) : Invocation :=
  match beforeCommand (args.length + 1) {} args with
  | .ok (o, c) => .run o c
  | .error i => i

end Arguments

end Dialogue.CommandLine
