import Dialogue.Script.Syntax
/-!
# `Dialogue.Script.Purity` — code that only looks at things.

Pure code changes nothing and may be left out where its value is not used. Looking at a variable counts as pure,
also at one that does not exist; calling anything does not.
-/

namespace Dialogue.Script

mutual

/-- **Is an expression pure?** -/
def Expr.isPure : Expr → Bool
  | .constant .. | .var .. => true
  | .template items _ | .array items _ => Expr.allPure items
  | .object fields _ => Expr.allFieldsPure fields
  | .both a b _ | .either a b _ | .orElse a b _ => a.isPure && b.isPure
  | .closure captured _ _ => captured.isEmpty
  | .statements body _ => Stmt.allPure body
  | .this _ | .operation .. | .call .. | .chain .. => false

/-- Are all items pure? -/
def Expr.allPure : List Expr → Bool
  | [] => true
  | e :: es => e.isPure && Expr.allPure es

/-- Are all fields pure? -/
def Expr.allFieldsPure : List (String × Expr) → Bool
  | [] => true
  | (_, e) :: es => e.isPure && Expr.allFieldsPure es

/-- **Is a statement pure?** A loop is, when it is sure to end. -/
def Stmt.isPure : Stmt → Bool
  | .noop _ => true
  | .expr e => e.isPure
  | .branch cond yes no _ => cond.isPure && Stmt.allPure yes && Stmt.allPure no
  | .switch item arms (some fallback) _ => item.isPure && Arm.allPure arms && fallback.isPure
  | .repeatWhile (some (.constant (.bool false) _)) _ _ => true
  | .repeatAfter body (.constant (.bool b) _) goOn _ => b != goOn && Stmt.allPure body
  | .each _ _ items body _ => items.isPure && Stmt.allPure body
  | .block body _ => Stmt.allPure body
  | .attempt body _ handler _ => Stmt.allPure body && Stmt.allPure handler
  | _ => false

/-- Are all statements pure? -/
def Stmt.allPure : List Stmt → Bool
  | [] => true
  | s :: ss => s.isPure && Stmt.allPure ss

/-- Are all arms pure? -/
def Arm.allPure : List Arm → Bool
  | [] => true
  | .mk _ none action :: arms => action.isPure && Arm.allPure arms
  | .mk _ (some guard) action :: arms => guard.isPure && action.isPure && Arm.allPure arms

end

namespace Stmt

/-- Is a statement pure as seen from outside its block? Variables of the block do not count. -/
def isPureInside : Stmt → Bool
  | declare _ _ _ value _ => value.isPure
  | importModule path _ => path.isPure
  | s => s.isPure

/-- Does a statement leave something behind in its block? -/
def bindsInBlock : Stmt → Bool
  | declare .. | importModule .. => true
  | _ => false

/-- Can the value of a statement be that of its block? -/
def hasValue : Stmt → Bool
  | branch .. | switch .. | block .. | expr _ => true
  | _ => false

/-- Does nothing after the statement get its turn? -/
def endsBlock : Stmt → Bool
  | leave .. | proceed _ | giveBack .. | raise .. => true
  | _ => false

end Stmt

end Dialogue.Script
