import Dialogue.Diagnostic
/-!
# `Dialogue.Failure` — how running a script can fail.

Four failures come from includes and keep their form however deep they arise; three describe a fault of the
script itself.
-/

namespace Dialogue

/-- **Why a script or an include failed.** -/
inductive Failure
  /-- The path of an include leads to no readable file. -/
  | fileNotFound (path : String)
  /-- Nothing yields a media type for a binary include. -/
  | mimeUndetermined (path : String)
  /-- The file is there and reading it failed. -/
  | readFailure (path message : String)
  /-- A file is being included already; the chain ends in the path that closed the cycle. -/
  | circularInclude (chain : List String)
  /-- A script block is not well formed. -/
  | load (file message : String)
  /-- A script block failed while it ran. -/
  | execution (file message : String)
  /-- A single expression failed. -/
  | evaluation (file expression message : String)
  deriving DecidableEq

namespace Failure

/-- **The wording of a failure.** -/
def message : Failure → String
  | fileNotFound path => s!"file not found: {path}"
  | mimeUndetermined path => s!"could not determine MIME type of {path}"
  | readFailure path reason => s!"failed to read {path}: {reason}"
  | circularInclude chain => "circular include detected: " ++ " → ".intercalate chain
  | load file reason => s!"failed to load script in {file}: {reason}"
  | execution file reason => s!"script in {file} failed: {reason}"
  | evaluation file expression reason =>
    s!"failed to evaluate `{expression}` in {file}: {reason}"

/-- Did an include fail, and not the script? -/
def isIncludeFault : Failure → Bool
  | fileNotFound _ | mimeUndetermined _ | readFailure .. | circularInclude _ => true
  | load .. | execution .. | evaluation .. => false

/-- **The failure as a diagnostic.** A cycle is reported against the outermost file. -/
def diagnostic (f : Failure) (position : Option Position) : Diagnostic :=
  match f with
  | fileNotFound path | mimeUndetermined path | readFailure path _ =>
    ⟨.include, path, path, f.message, position⟩
  | circularInclude chain =>
    ⟨.include, chain.head?.getD "", chain.getLast?.getD "", f.message, position⟩
  | load file reason | execution file reason => ⟨.frontmatter, file, file, reason, position⟩
  | evaluation file expression reason => ⟨.expression, file, expression, reason, position⟩

end Failure

end Dialogue
