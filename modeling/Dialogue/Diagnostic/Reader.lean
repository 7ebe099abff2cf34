import Dialogue.Diagnostic
import Dialogue.Json.Parser
/-!
# `Dialogue.Diagnostic.Reader` — reading diagnostics back.

A diagnostic is an object or the sequence of its fields. In an object, unknown fields do not matter, a known
field may stand only once, and the position may be absent or null. Lines and columns are whole numbers below
2³².
-/

namespace Dialogue.Diagnostic

/-- The only field of a given name: nothing when it is missing, a failure when it stands twice. -/
def single? (fields : List (String × Json)) (name : String) : Option (Option Json) :=
  match fields.filter (·.1 = name) with
  | [] => some none
  | [(_, j)] => some (some j)
  | _ => none

/-- A required field. -/
def field? (fields : List (String × Json)) (name : String) : Option Json := do
  (← single? fields name)

/-- A text. -/
def textOf? : Json → Option String
  | .str s => some s
  | _ => none

/-- A line or a column. -/
def coordinate? : Json → Option Nat
  | .int n => if 0 ≤ n ∧ n < UInt32.size then some n.toNat else none
  | _ => none

/-- A position, or none. -/
def positionOf? : Json → Option (Option Position)
  | .null => some none
  | .arr [line, column] => do return some ⟨← coordinate? line, ← coordinate? column⟩
  | .obj fields => do
    return some ⟨← coordinate? (← field? fields "line"), ← coordinate? (← field? fields "column")⟩
  | _ => none

/-- A kind: its name, or an object with nothing under its name. -/
def kindOf? : Json → Option Kind
  | .str name => Kind.ofName? name
  | .obj [(name, .null)] => Kind.ofName? name
  | _ => none

/-- **The diagnostic that a document describes.** -/
def ofJson? : Json → Option Diagnostic
  | .arr [kind, file, raw, error, position] => do
    return ⟨← kindOf? kind, ← textOf? file, ← textOf? raw, ← textOf? error,
      ← positionOf? position⟩
  | .obj fields => do
    let position ← single? fields "position"
    return ⟨← kindOf? (← field? fields "type"), ← textOf? (← field? fields "filename"),
      ← textOf? (← field? fields "raw"), ← textOf? (← field? fields "error"),
      ← positionOf? (position.getD .null)⟩
  | _ => none

/-- **Read a diagnostic** from a text. -/
def parse? (text : String) : Option Diagnostic := do
  ofJson? (← Json.parse? text)

end Dialogue.Diagnostic
