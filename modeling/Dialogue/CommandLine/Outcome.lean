import Dialogue.CommandLine.Arguments
import Dialogue.Diagnostic
/-!
# `Dialogue.CommandLine.Outcome` — what a run of the tool leaves behind.

Results go to the standard output; what went wrong goes to the standard error, in the form of output that was
asked for, or nowhere if that was asked for.
-/

namespace Dialogue.CommandLine

/-- **What a run of the tool leaves behind.** -/
structure Outcome where
  /-- The exit code. -/
  exit : Nat := 0
  stdout : String := ""
  stderr : String := ""
  deriving DecidableEq, Repr

/-- The outcome of a run that has written to the standard error before. -/
def Outcome.after (out : Outcome) (written : String) : Outcome := { out with stderr := written ++ out.stderr }

/-- Lines of output, each with its end. -/
def unlines (ls : List String) : String := String.join (ls.map (· ++ "\n"))

/-- A document as lines of output. -/
def jsonLines (j : Json) : String := j.prettyString ++ "\n"

namespace Options

/-- A report, unless reports are unwanted. -/
def report (o : Options) (text json : String) : String :=
  if o.quiet then ""
  else match o.format with
    | .text => text
    | .json => json

/-- **The run stops at an error** that is no more than its message. -/
def stop (o : Options) (message : String) : Outcome where
  exit := 1
  stderr := o.report (message ++ "\n") ((Json.obj [("error", .str message)]).compactString ++ "\n")

/-- **The run stops at a failure** of the work itself. -/
def fail (o : Options) (message : String) (d : Diagnostic) : Outcome where
  exit := 1
  stderr := o.report (s!"error: {message}\n") (jsonLines d.fullJson)

/-- **Report what did not stop the run.** -/
def warn (o : Options) (heading : String) (ds : List Diagnostic) : String :=
  if ds = [] then ""
  else o.report (unlines (s!"warning: {heading}:" :: ds.map fun d => "  " ++ d.text))
    (jsonLines (.arr (ds.map Diagnostic.fullJson)))

/-- Report the file references that could not be loaded. -/
def warnUnloaded (o : Options) (ds : List Diagnostic) : String :=
  o.warn "file references could not be loaded" ds

/-- Report the content that cannot be sent on. -/
def warnUnsupported (o : Options) (ds : List Diagnostic) : String := o.warn "unsupported content" ds

@[simp] theorem report_quiet (o : Options) (h : o.quiet = true) (text json : String) :
    o.report text json = "" := by simp [report, h]

theorem warn_quiet (o : Options) (h : o.quiet = true) (heading : String) (ds : List Diagnostic) :
    o.warn heading ds = "" := by simp [warn, h]

end Options

end Dialogue.CommandLine
