import Dialogue.CommandLine.Outcome
import Dialogue.CommandLine.Summary
/-!
# `Dialogue.CommandLine` — the tool `parley`.

A run reads its arguments, then its settings, then the file it is to work on; the first of these that fails ends
it. A run is a function of the files it can see, of the readings of the clock, and of what is logged on the way.
-/

namespace Dialogue.CommandLine

/-- **What is to be logged:** of which events, and whether as JSON. -/
structure Logging where
  /-- The filter that events have to pass. -/
  filter : String
  json : Bool
  deriving DecidableEq, Repr

/-- **What a run can see.** -/
structure Host where
  provider : Provider
  workingDirectory : Path
  /-- The program that is asked for media types. -/
  tool : Media.Tool
  /-- The media types of extensions. -/
  byExtension : Path → Option String := Media.ofPath?
  /-- The readings that the clock will give. -/
  clock : Clock := .stopped
  /-- The lines that are logged while a command is carried out, media types being found in the way given. -/
  logged : Logging → Detection → Command → String := fun _ _ _ => ""

/-- The files of a host, with media types found in the way given. -/
def Host.files (h : Host) (d : Detection) : FileAccess where
  provider := h.provider
  detector := match d with
    | .program => { h.tool.detector with byExtension := h.byExtension }
    | .extension => .ofNames h.byExtension
  workingDirectory := h.workingDirectory
  clock := h.clock

/-- The version of the tool. -/
def version : String := "0.1.0"

/-- How the tool is called. -/
def usage : List String := [
  "Usage: parley [OPTIONS] <COMMAND>",
  "",
  "Commands:",
  "  parts   Prepare a transcript document and print its content parts",
  "  chunks  Tokenize a file's content into text and file-reference chunks",
  "  eval    Evaluate an expression against a document's frontmatter bindings",
  "  help    Print this message",
  "",
  "Options:",
  "      --output <OUTPUT>        Output format [default: text] [possible values: text, json]",
  "      --quiet                  Suppress warnings and diagnostics on stderr",
  "      --config <CONFIG>        Path to a configuration file (default: ./parley.toml if present)",
  "      --log-level <LOG_LEVEL>  Log filter directive",
  "      --mime <MIME>            MIME detection strategy [possible values: file-command, extension]",
  "  -h, --help                   Print help",
  "  -V, --version                Print version"]

/-! ## Settings -/

/-- Does a failed read show that no file is there? -/
def noFile (e : ReadError) : Bool :=
  [ReadError.Kind.notFound, .isADirectory, .notADirectory].contains e.kind

/-- Settings from what was read of their file. -/
def configOf (name : String) : Except ReadError String → Except String Config
  | .error e => .error s!"could not read '{name}': {e.message}"
  | .ok text =>
    match Config.parse? text with
    | some c => .ok c
    | none => .error s!"could not parse '{name}': not a table of known settings"

/-- **Load the settings:** of the file named, or of the usual file if it is there. -/
def loadConfig (files : FileAccess) (named : Option String) : Logged (Except String Config) := do
  match named with
  | some name => return configOf name (← files.readText (.ofString name))
  | none =>
    match ← files.readText (.ofString Config.defaultFile) with
    | .error e =>
      if noFile e then return .ok {}
      else return configOf Config.defaultFile (.error e)
    | .ok text => return configOf Config.defaultFile (.ok text)

/-! ## Commands -/

/-- The parts of a document that could be prepared. -/
def showParts (o : Options) (document : String) (p : Document.Prepared) : Outcome where
  stdout := match o.format with
    | .json => jsonLines p.json
    | .text => unlines (p.messages.flatMap messageSummary)
  stderr := o.warnUnloaded (p.warnings.map (·.diagnostic document)) ++ o.warnUnsupported p.diagnostics

/-- **The parts of a document.** -/
def parts (o : Options) (files : FileAccess) (document source : String) : Logged Outcome := do
  match ← Document.prepare files (.ofString document) source with
  | .error f => return o.fail f.message f.diagnostic
  | .ok p => return showParts o document p

/-- The warnings of a chunk. -/
def chunkWarnings : Chunk → List Warning
  | .warnings entries => entries
  | _ => []

/-- **The chunks of a text file.** As JSON they include the warnings. -/
def chunks (o : Options) (files : FileAccess) (file content : String) : Logged Outcome := do
  let cs ← Chunk.read files (Path.ofString file).parent? content
  match o.format with
  | .json => return { stdout := jsonLines (.arr (cs.map Chunk.json)) }
  | .text => return {
      stdout := unlines (cs.filterMap chunkSummary?)
      stderr := o.warnUnloaded ((cs.flatMap chunkWarnings).map (·.diagnostic file)) }

/-- The parts that the value of an expression is sent on as. -/
def valueParts (v : Script.Value) : List Part :=
  (({} : Emission).emit (Environment.emittable v)).parts.map Part.ofEmitted

/-- The value of an expression. -/
def showValue (o : Options) (expression : String) (v : Script.Value) : Outcome where
  stdout := match o.format with
    | .json => jsonLines (.obj [("expression", .str (Text.trimmed expression)),
        ("parts", .arr ((valueParts v).map Part.json))])
    | .text => unlines ((valueParts v).map partSummary)

/-- **The value of an expression** after the script block of a document. -/
def eval (o : Options) (files : FileAccess) (document expression source : String) : Logged Outcome := do
  let work : Document.Work Outcome := do
    match ← Document.environment files (.ofString document) source with
    | .error f => return o.fail f.message f.diagnostic
    | .ok env =>
      match (← env.evaluateAt files files.clock.rest expression).1 with
      | .error f => return o.fail f.message (f.diagnostic none)
      | .ok v => return showValue o expression v
  return (← work.run #[]).1

/-- The file that a command works on. -/
def Command.file : Command → String
  | .parts document | .eval document _ => document
  | .chunks file => file

/-- Carry out a command on the text of its file. -/
def Command.perform (o : Options) (files : FileAccess) (source : String) : Command → Logged Outcome
  | .parts document => CommandLine.parts o files document source
  | .chunks file => CommandLine.chunks o files file source
  | .eval document expression => CommandLine.eval o files document expression source

/-- How media types are found. -/
def detectionOf (o : Options) (config : Config) : Detection := o.detection.getD config.detection

/-- What is to be logged. -/
def loggingOf (o : Options) (config : Config) : Logging := ⟨o.logLevel.getD config.logLevel, config.logJson⟩

/-- Carry out a command on its file, if that can be read. -/
def work (o : Options) (files : FileAccess) (c : Command) : Logged Outcome := do
  match ← files.readText (.ofString c.file) with
  | .error e => return o.stop s!"error reading file '{c.file}': {e.message}"
  | .ok source => c.perform o files source

/-- **Carry out a command.** What is logged on the way comes before all reports. Nothing is logged unless there are
settings, and whether reports are wanted has no say in it. -/
def execute (h : Host) (o : Options) (c : Command) : Logged Outcome := do
  match ← loadConfig (h.files .extension) o.config with
  | .error message => return o.stop ("error: " ++ message)
  | .ok config =>
    let detection := detectionOf o config
    return (← work o (h.files detection) c).after (h.logged (loggingOf o config) detection c)

/-- **A run of the tool.** -/
def run (h : Host) (args : List String) : Logged Outcome :=
  match Arguments.parse args with
  | .run o c => execute h o c
  | .help => return { stdout := unlines usage }
  | .version => return { stdout := s!"parley {version}\n" }
  | .misuse => return { exit := 2, stderr := unlines usage }

end Dialogue.CommandLine
