import Dialogue.Media.Extension
import Dialogue.Text.Utf8
/-!
# `Dialogue.Media.Detector` — finding the media type of a file.

A detector looks at a file (live) and knows extensions. Whichever detector is used, the order is the same: a
type given by hand, then the live answer, then the extension.
-/

namespace Dialogue.Media

/-- **Why live detection gave no media type.** -/
inductive DetectionError
  /-- The detection program is not there or did not start. -/
  | unavailable (reason : String)
  /-- The program ran and reported a failure. -/
  | failed (path : Path) (reason : String)
  /-- No extension of the table fits. -/
  | unknownExtension (path : Path)
  deriving Repr

/-- The wording of a detection error. -/
def DetectionError.message : DetectionError → String
  | .unavailable reason => s!"MIME detection tool unavailable: {reason}"
  | .failed path reason => s!"MIME detection failed for {path}: {reason}"
  | .unknownExtension path => s!"unknown file extension: {path}"

/-- **Something that knows media types.** -/
structure Detector where
  /-- Detection on the file itself. -/
  live : Path → Except DetectionError String
  /-- Detection by name alone. -/
  byExtension : Path → Option String := ofPath?

/-- The detector that goes by names only. -/
def Detector.ofNames (byExtension : Path → Option String) : Detector where
  live p := match byExtension p with
    | some m => .ok m
    | none => .error (.unknownExtension p)
  byExtension

/-- The detector that consults the extension table only. -/
def Detector.extensionTable : Detector := .ofNames ofPath?

/-- What a run of a detection program left behind. -/
structure ToolRun where
  /-- Did it end with exit code zero? -/
  success : Bool
  /-- Its standard output. -/
  stdout : Bytes
  /-- Its standard error. -/
  stderr : Bytes

/-- **A detection program**, as far as it can be observed. -/
structure Tool where
  /-- The name it is started by. -/
  program : String
  /-- Did it answer when it was first asked for its version? -/
  available : Bool
  /-- Running it on a path; a reason when it does not start. -/
  run : Path → Except String ToolRun

/-- The text a program printed, trimmed. -/
def printed (bs : Bytes) : String :=
  Text.trimmed (Text.Utf8.decodeLenient bs)

/-- What a run says about the media type of `p`. A program may report an unreadable file on its standard
output and still end well, so an answer without a `/` is a failure. -/
def ToolRun.answer (run : ToolRun) (p : Path) : Except DetectionError String :=
  if !run.success then .error (.failed p (printed run.stderr))
  else
    let answer := printed run.stdout
    if answer.isEmpty then .error (.failed p "empty output")
    else if !answer.toList.contains '/' then .error (.failed p answer)
    else .ok answer

/-- **The detector that asks a program.** -/
def Tool.detector (tool : Tool) : Detector where
  live p :=
    if !tool.available then .error (.unavailable tool.program)
    else match tool.run p with
      | .error reason => .error (.unavailable s!"{tool.program}: {reason}")
      | .ok run => run.answer p

/-- A media type given by hand, unless it is blank. -/
def given? (override : Option String) : Option String :=
  match override with
  | none => none
  | some m =>
    let m := Text.trimmed m
    if m.isEmpty then none else some m

/-- **The media type of the file at `p`**, if anything yields one. -/
def Detector.resolve (d : Detector) (p : Path) (override : Option String) : Option String :=
  match given? override with
  | some m => some m
  | none =>
    match d.live p with
    | .ok m => some m
    | .error _ => d.byExtension p

end Dialogue.Media
