import Dialogue.Position
import Dialogue.Script.Value
/-!
# `Dialogue.Script.Syntax` — the structure of scripts.

Expressions, statements and functions, each with the places that faults are reported at. A chain is a root
followed by steps: a property, an index or a method call each.
-/

namespace Dialogue.Script

mutual

/-- **An expression.** -/
inductive Expr
  | constant (value : Constant) (pos : Position)
  | var (name : String) (pos : Position)
  /-- The value that a function was called on. -/
  | this (pos : Position)
  /-- A text with expressions in it. -/
  | template (pieces : List Expr) (pos : Position)
  | array (items : List Expr) (pos : Position)
  | object (fields : List (String × Expr)) (pos : Position)
  /-- An operator and its operands. -/
  | operation (op : String) (operands : List Expr) (pos : Position)
  /-- A call by name. With an exclamation mark, a function of the script runs in the scope that it is called from. -/
  | call (name : String) (arguments : List Expr) (pos : Position) (here : Bool)
  /-- `left && right` -/
  | both (left right : Expr) (pos : Position)
  /-- `left || right` -/
  | either (left right : Expr) (pos : Position)
  /-- `left ?? right` -/
  | orElse (left right : Expr) (pos : Position)
  | chain (root : Expr) (steps : List Step)
  /-- A closure with the variables it shares. -/
  | closure (captured : List (String × Position)) (code : Function) (pos : Position)
  /-- Statements for their value. -/
  | statements (body : List Stmt) (pos : Position)

/-- **A step of a chain.** An optional step on `()` ends the chain. -/
inductive Step
  | property (name : String) (pos dot : Position) (optional : Bool)
  | index (key : Expr) (bracket : Position) (optional : Bool)
  | method (name : String) (arguments : List Expr) (pos dot : Position) (optional : Bool)

/-- **A function.** -/
inductive Function
  | mk (name : String) (params : List String) (body : List Stmt)

/-- **A statement.** -/
inductive Stmt
  | noop (pos : Position)
  /-- A new variable, or one that takes the place of a variable declared before in the same block: that many
  entries back. -/
  | declare (name : String) (constant : Bool) (inPlace : Option Nat) (value : Expr) (pos : Position)
  | assign (target : Expr) (op : Option String) (value : Expr) (pos : Position)
  | expr (e : Expr)
  | block (body : List Stmt) (pos : Position)
  | branch (cond : Expr) (yes no : List Stmt) (pos : Position)
  | switch (item : Expr) (arms : List Arm) (fallback : Option Expr) (pos : Position)
  /-- `while`, or `loop` when there is no condition. -/
  | repeatWhile (cond : Option Expr) (body : List Stmt) (pos : Position)
  /-- `do … while` or `do … until`; it goes on as long as the condition is `goOn`. -/
  | repeatAfter (body : List Stmt) (cond : Expr) (goOn : Bool) (pos : Position)
  | each (name : String) (counter : Option String) (items : Expr) (body : List Stmt) (pos : Position)
  | leave (value : Option Expr) (pos : Position)
  | proceed (pos : Position)
  | giveBack (value : Option Expr) (pos : Position)
  | raise (value : Option Expr) (pos : Position)
  | attempt (body : List Stmt) (name : Option String) (handler : List Stmt) (pos : Position)
  | importModule (path : Expr) (pos : Position)

/-- **An arm of a switch:** values, a condition, and what it yields. -/
inductive Arm
  | mk (patterns : List Constant) (guard : Option Expr) (action : Expr)

end

/-- A value at run time. -/
abbrev Value := Datum Function

namespace Function

def name : Function → String
  | mk n _ _ => n

def params : Function → List String
  | mk _ ps _ => ps

def body : Function → List Stmt
  | mk _ _ b => b

/-- How many arguments the function takes. -/
def arity (f : Function) : Nat := f.params.length

end Function

/-- **A script:** its statements and the functions it defines. -/
structure Program where
  statements : List Stmt
  functions : List Function

namespace Step

/-- The place that a step is reported at: its dot or its bracket. -/
def place : Step → Position
  | property _ _ dot _ | method _ _ _ dot _ => dot
  | index _ bracket _ => bracket

end Step

namespace Expr

/-- **Where an expression is reported:** at its operator, if it has one. -/
def place : Expr → Position
  | constant _ p | var _ p | this p | template _ p | array _ p | object _ p
  | operation _ _ p | call _ _ p _ | both _ _ p | either _ _ p | orElse _ _ p | closure _ _ p
  | statements _ p => p
  | chain root steps => (steps.head?.map Step.place).getD root.place

/-- **Where an expression starts.** -/
def start : Expr → Position
  | constant _ p | var _ p | this p | template _ p | array _ p | object _ p | call _ _ p _
  | closure _ _ p | statements _ p => p
  | operation _ (first :: _ :: _) _ => first.start
  | operation _ _ p => p
  | both left _ _ | either left _ _ | orElse left _ _ => left.start
  | chain root _ => root.start

mutual

/-- **The constant that an expression stands for**, arrays and maps of constants included. -/
def literal? : Expr → Option Constant
  | constant v _ => some v
  | array items _ => (literals? items).map .array
  | object fields _ => (literalFields? fields).map fun fs => .object (Datum.ofFields fs)
  | template pieces _ =>
    (literals? pieces).map fun vs => .str (String.join (vs.map Datum.scriptText))
  | _ => none

/-- The constants that items stand for. -/
def literals? : List Expr → Option (List Constant)
  | [] => some []
  | e :: es => do return (← e.literal?) :: (← literals? es)

/-- The constants that fields stand for. -/
def literalFields? : List (String × Expr) → Option (List (String × Constant))
  | [] => some []
  | (k, e) :: fs => do return (k, ← e.literal?) :: (← literalFields? fs)

end

/-- Does the expression stand for a constant? -/
def isConstant (e : Expr) : Bool := e.literal?.isSome

end Expr

/-- Does a statement end without a semicolon? -/
def Stmt.endsItself : Stmt → Bool
  | .branch .. | .switch .. | .block .. | .repeatWhile .. | .each .. | .attempt .. => true
  | _ => false

/-- Is there nothing to do? -/
def Stmt.isNoop : Stmt → Bool
  | .noop _ => true
  | _ => false

end Dialogue.Script
