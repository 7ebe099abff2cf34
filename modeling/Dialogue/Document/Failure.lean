import Dialogue.Failure
import Dialogue.Transcript
/-!
# `Dialogue.Document.Failure` — why a document could not be prepared.
-/

namespace Dialogue.Document

/-- **Why a document could not be prepared.** -/
inductive Failure
  /-- The text is no chat document. -/
  | transcript (file : String) (cause : TranscriptError)
  /-- The script block is in an unknown language. -/
  | unsupportedLanguage (file language : String)
  /-- The script block failed. -/
  | frontmatter (file : String) (cause : Dialogue.Failure)
  /-- An expression failed. -/
  | expression (file expression : String) (position : Position) (cause : Dialogue.Failure)

namespace Failure

/-- What is said of an expression that failed. An include fault does not name the expression, so that is
added. -/
def expressionMessage (expression : String) (cause : Dialogue.Failure) : String :=
  if cause.isIncludeFault then s!"failed to evaluate `{expression}`: " ++ cause.message
  else cause.message

/-- **The wording of a failure.** -/
def message : Failure → String
  | transcript file cause => s!"{file}: " ++ cause.message
  | unsupportedLanguage file language =>
    s!"{file}: unsupported frontmatter language `{language}` (expected `rhai`)"
  | frontmatter file cause => s!"{file}: frontmatter failed: " ++ cause.message
  | expression file code ⟨line, column⟩ cause =>
    s!"{file}:{line}:{column}: " ++ expressionMessage code cause

/-- The failure of the script behind this one. -/
def cause? : Failure → Option Dialogue.Failure
  | transcript .. | unsupportedLanguage .. => none
  | frontmatter _ cause | expression _ _ _ cause => some cause

/-- **The failure as a diagnostic** against the document. -/
def diagnostic : Failure → Diagnostic
  | transcript file cause => ⟨.frontmatter, file, file, cause.message, none⟩
  | unsupportedLanguage file language =>
    ⟨.frontmatter, file, language, s!"unsupported frontmatter language `{language}`", none⟩
  | frontmatter _ cause => cause.diagnostic none
  | expression file code position cause =>
    if cause.isIncludeFault then { cause.diagnostic (some position) with file }
    else ⟨.expression, file, code, cause.message, some position⟩

end Failure

end Dialogue.Document
