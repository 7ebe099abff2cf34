import Dialogue.Position
import Dialogue.Script.Token
/-!
# `Dialogue.Script.SyntaxError` — why a text is no script.
-/

namespace Dialogue.Script

/-- **What is wrong with a script.** -/
inductive SyntaxCause
  /-- A piece that is no token. -/
  | lexical (fault : LexicalFault)
  | incomplete
  | unknownOperator (symbol : String)
  /-- A token that has to stand here, and what for. -/
  | missing (token purpose : String)
  | reserved (word : String)
  | variableExpected
  | propertyExpected
  | expressionExpected (what : String)
  /-- An expression of the wrong kind. -/
  | mismatched (wanted found : String)
  | badIndex (explanation : String)
  | duplicatedProperty (name : String)
  | duplicatedVariable (name : String)
  | constantAssigned (name : String)
  | notAssignable
  | breakOutsideLoop
  | functionNotGlobal
  | functionNameMissing
  | functionParametersMissing (name : String)
  | functionBodyMissing (name : String)
  | functionDuplicated (name : String) (arity : Nat)
  | parameterDuplicated (function parameter : String)
  | defaultCaseNotLast
  | caseAfterRange
  | caseWithCondition

/-- **A syntax error:** what is wrong, and where. -/
structure SyntaxError where
  cause : SyntaxCause
  pos : Position

/-- A number of parameters in words. -/
def arityText : Nat → String
  | 0 => "no parameters"
  | 1 => "1 parameter"
  | n => s!"{n} parameters"

/-- Is a word or symbol set aside a word? -/
def isWord (s : String) : Bool := Token.isProperName s.toList

/-- The wording of a cause. -/
def SyntaxCause.message : SyntaxCause → String
  | lexical fault => fault.message
  | incomplete => "Script is incomplete"
  | unknownOperator symbol => s!"Unknown operator: '{symbol}'"
  | missing token purpose => s!"Expecting '{token}' {purpose}"
  | reserved word =>
    if isWord word then s!"'{word}' is a reserved keyword" else s!"'{word}' is a reserved symbol"
  | variableExpected => "Expecting name of a variable"
  | propertyExpected => "Expecting name of a property"
  | expressionExpected what => s!"Expecting {what} expression"
  | mismatched wanted found => s!"Expecting {wanted}, not {found}"
  | badIndex explanation => explanation
  | duplicatedProperty name => s!"Duplicated property for object map literal: '{name}'"
  | duplicatedVariable name => s!"Duplicated variable name: '{name}'"
  | constantAssigned "" => "Cannot assign to a constant value"
  | constantAssigned name => s!"Cannot assign to constant {name}"
  | notAssignable => "Expression cannot be assigned to"
  | breakOutsideLoop => "Break statement should only be used inside a loop"
  | functionNotGlobal =>
    "Function definitions must be at global level and cannot be inside a block or another function"
  | functionNameMissing => "Expecting function name in function declaration"
  | functionParametersMissing name => s!"Expecting parameters for function '{name}'"
  | functionBodyMissing "" => "Expecting body statement block for anonymous function"
  | functionBodyMissing name => s!"Expecting body statement block for function '{name}'"
  | functionDuplicated name arity => s!"Function {name} with " ++ arityText arity ++ " already exists"
  | parameterDuplicated function parameter =>
    s!"Duplicated parameter '{parameter}' for function '{function}'"
  | defaultCaseNotLast => "Default switch case must be the last"
  | caseAfterRange => "Numeric switch case cannot follow a range case"
  | caseWithCondition => "This switch case cannot have a condition"

/-- A place in messages. -/
def placeText (p : Position) : String := s!"line {p.line}, position {p.column}"

/-- **The wording of a syntax error.** -/
def SyntaxError.message (e : SyntaxError) : String :=
  e.cause.message ++ " (" ++ placeText e.pos ++ ")"

end Dialogue.Script
