import Dialogue.Toml
/-!
# `Dialogue.CommandLine.Config` — settings of the command line tool.

Every setting may be left out; one that is not known is refused.
-/

namespace Dialogue.CommandLine

/-- **How media types are found.** The extension is always the fallback. -/
inductive Detection
  /-- Ask a program. -/
  | program
  /-- Go by the extension only. -/
  | extension
  deriving DecidableEq, Repr

/-- The ways to find media types, by their names in settings and arguments. -/
def Detection.ofName? : String → Option Detection
  | "file-command" => some .program
  | "extension" => some .extension
  | _ => none

/-- **The settings.** -/
structure Config where
  detection : Detection := .program
  logLevel : String := "warn"
  logJson : Bool := false
  deriving DecidableEq, Repr

namespace Config

/-- The file that is looked for when none is named. -/
def defaultFile : String := "parley.toml"

/-- The name that a value chooses: a text, or a table with nothing under that one name. -/
def choice? : Toml.Value → Option String
  | .text s => some s
  | .table _ [(name, .table _ [])] | .table _ [(name, .list [])] => some name
  | _ => none

/-- A setting about media types. -/
def setMedia (c : Config) : String × Toml.Value → Option Config
  | ("detector", v) => ((choice? v).bind Detection.ofName?).map fun d => { c with detection := d }
  | _ => none

/-- A setting about logging. -/
def setLog (c : Config) : String × Toml.Value → Option Config
  | ("level", .text s) => some { c with logLevel := s }
  | ("json", .truth b) => some { c with logJson := b }
  | _ => none

/-- The settings of a group: by their names in a table, or a list in the order of `names`. -/
def entries? (names : List String) : Toml.Value → Option Toml.Table
  | .table _ entries => some entries
  | .list items => some (names.zip items)
  | _ => none

/-- A group of settings. -/
def setGroup (c : Config) : String × Toml.Value → Option Config
  | ("mime", v) => entries? ["detector"] v >>= List.foldlM setMedia c
  | ("log", v) => entries? ["level", "json"] v >>= List.foldlM setLog c
  | _ => none

/-- **Read settings.** -/
def parse? (text : String) : Option Config := do
  let t ← Toml.parse? text
  t.foldlM setGroup {}

end Config

end Dialogue.CommandLine
