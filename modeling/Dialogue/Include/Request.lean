import Dialogue.Failure
import Dialogue.Inclusion
/-!
# `Dialogue.Include.Request` — what a script asks for when it includes a file.
-/

namespace Dialogue.Include

/-- **How a file is to be included.** -/
structure Options where
  /-- As bytes, and not as text to expand. -/
  binary : Bool := false
  /-- The media type to use, in place of finding one. -/
  mediaType : Option String := none
  deriving DecidableEq

/-- **A request to include the file at a path.** -/
structure Request where
  path : String
  options : Options := {}
  deriving DecidableEq

/-- The answer to a request. -/
abbrev Answer := Except Failure Inclusion

end Dialogue.Include
