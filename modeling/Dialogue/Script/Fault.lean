import Dialogue.Script.Syntax
import Dialogue.Script.SyntaxError
/-!
# `Dialogue.Script.Fault` — what can go wrong while a script runs.

A fault has a cause and, once it is known, a place. A fault that leaves a function is reported as a fault in the
call of that function. What a script catches is what was thrown, or a description of the fault.
-/

namespace Dialogue.Script

/-- **The cause of a fault.** -/
inductive Cause
  | variableNotFound (name : String)
  /-- No function fits the call. -/
  | functionNotFound (signature : String)
  /-- A property that cannot be read or written. -/
  | property (explanation : String)
  /-- A value that cannot be indexed so. -/
  | notIndexable (types : String)
  | arrayBounds (length : Nat) (index : Int)
  | stringBounds (length : Nat) (index : Int)
  | bitBounds (index : Int)
  | mismatch (wanted found : String)
  | constantModified (name : String)
  /-- A method that changes a value, called on a constant. -/
  | constantReceiver (name : String)
  | moduleNotFound (path : String)
  | notIterable
  | unboundThis
  | stackOverflow
  | arithmetic (text : String)
  /-- A value thrown by the script, or a failure of an include. -/
  | thrown (value : Value)
  /-- The script nests too deeply to be run. -/
  | tooComplex

namespace Cause

/-- A number of things in words. -/
def onlyText (length : Nat) (one many whole : String) : String :=
  match length with
  | 0 => s!"{whole} is empty"
  | 1 => s!"only 1 {one} in {whole}"
  | n => s!"only {n} {many} in {whole}"

/-- **The wording of a cause.** -/
def message : Cause → String
  | variableNotFound name => s!"Variable not found: {name}"
  | functionNotFound signature => s!"Function not found: {signature}"
  | property explanation => explanation
  | notIndexable types => s!"Indexer unavailable: {types}"
  | arrayBounds length index =>
    s!"Array index {index} out of bounds: " ++ onlyText length "element" "elements" "array"
  | stringBounds length index =>
    s!"String index {index} out of bounds: " ++ onlyText length "character" "characters" "string"
  | bitBounds index => s!"Bit-field index {index} out of bounds: only 64 bits in bit-field"
  | mismatch wanted found => s!"Data type incorrect: {found} (expecting {wanted})"
  | constantModified name => s!"Cannot modify constant: {name}"
  | constantReceiver name => s!"Non-pure method '{name}' cannot be called on constant"
  | moduleNotFound path => s!"Module not found: {path}"
  | notIterable => "For loop expects iterable type"
  | unboundThis => "'this' not bound"
  | stackOverflow => "Stack overflow"
  | arithmetic text => text
  | thrown value =>
    let text := value.shown
    if text.isEmpty then "Runtime error" else s!"Runtime error: {text}"
  | tooComplex => "Expression exceeds maximum complexity"

/-- The name that a script sees for a cause. -/
def name : Cause → String
  | variableNotFound _ => "ErrorVariableNotFound"
  | functionNotFound _ => "ErrorFunctionNotFound"
  | property _ => "ErrorDotExpr"
  | notIndexable _ => "ErrorIndexingType"
  | arrayBounds .. => "ErrorArrayBounds"
  | stringBounds .. => "ErrorStringBounds"
  | bitBounds _ => "ErrorBitFieldBounds"
  | mismatch .. => "ErrorMismatchDataType"
  | constantModified _ => "ErrorAssignmentToConstant"
  | constantReceiver _ => "ErrorNonPureMethodCallOnConstant"
  | moduleNotFound _ => "ErrorModuleNotFound"
  | notIterable => "ErrorFor"
  | unboundThis => "ErrorUnboundThis"
  | stackOverflow => "ErrorStackOverflow"
  | arithmetic _ => "ErrorArithmetic"
  | thrown _ => "ErrorRuntime"
  | tooComplex => "ErrorTooManyOperations"

/-- What a description of the cause holds besides its name. -/
def details : Cause → List (String × Value)
  | variableNotFound name | constantModified name => [("variable", .str name)]
  | functionNotFound signature => [("function", .str signature)]
  | property explanation => [("property", .str explanation)]
  | notIndexable types => [("type", .str types)]
  | arrayBounds length index | stringBounds length index =>
    [("length", .int (Int64.ofNat length)), ("index", .int (Int64.ofInt index))]
  | bitBounds index => [("length", .int 64), ("index", .int (Int64.ofInt index))]
  | mismatch wanted found => [("requested", .str wanted), ("actual", .str found)]
  | constantReceiver name => [("function", .str name)]
  | moduleNotFound path => [("module", .str path)]
  | notIterable | unboundThis | stackOverflow | arithmetic _ | thrown _ | tooComplex => []

/-- Does the cause end the script, whatever it catches? -/
def isFatal : Cause → Bool
  | stackOverflow | tooComplex => true
  | _ => false

end Cause

/-- **A fault.** -/
inductive Fault
  | raised (cause : Cause) (pos : Option Position)
  /-- A fault inside the call of a function; closures have no name. -/
  | inCall (function : Option String) (inner : Fault) (pos : Option Position)

namespace Fault

/-- The place of a fault, if it is known. -/
def place? : Fault → Option Position
  | raised _ pos | inCall _ _ pos => pos

/-- Give a fault that has no place yet the place `pos`. -/
def orAt (pos : Position) : Fault → Fault
  | raised cause none => raised cause (some pos)
  | inCall function inner none => inCall function inner (some pos)
  | fault => fault

/-- The fault at another place, or at none. -/
def moveTo (pos : Option Position) : Fault → Fault
  | raised cause _ => raised cause pos
  | inCall function inner _ => inCall function inner pos

/-- A place at the end of a message. -/
def placeSuffix : Option Position → String
  | some p => " (" ++ placeText p ++ ")"
  | none => ""

/-- What is said of a call. -/
def callText : Option String → String
  | some name => s!"\nin call to function '{name}'"
  | none => "\nin call to closure"

/-- **The wording of a fault**, place included. -/
def message : Fault → String
  | raised cause pos => cause.message ++ placeSuffix pos
  | inCall function inner pos => inner.message ++ callText function ++ placeSuffix pos

/-- The cause behind all calls. -/
def cause : Fault → Cause
  | raised c _ => c
  | inCall _ inner _ => inner.cause

/-- **The include failure behind a fault**, if that is what was thrown. -/
def failure? (f : Fault) : Option Failure :=
  match f.cause with
  | .thrown (.failure e) => some e
  | _ => none

/-- The name and the details of a fault in a description. -/
def description : Fault → List (String × Value)
  | raised c _ => ("error", .str c.name) :: c.details
  | inCall function _ _ =>
    [("error", .str "ErrorInFunctionCall"), ("function", .str (function.getD "")), ("source", .str "")]

/-- A place as it is described, if it is known. -/
def placeFields : Option Position → List (String × Value)
  | some p => [("line", .int (Int64.ofNat p.line)), ("position", .int (Int64.ofNat p.column))]
  | none => []

/-- **What a script catches:** the value thrown, or a description of the fault. -/
def caught (f : Fault) : Value :=
  match f.cause with
  | .thrown v => v
  | _ =>
    .object (Datum.ofFields
      (("message", .str (f.moveTo none).message) :: placeFields f.place? ++ f.description))

@[simp] theorem cause_orAt (pos : Position) (f : Fault) : (f.orAt pos).cause = f.cause := by
  unfold orAt
  split <;> simp [cause]

end Fault

end Dialogue.Script
