import Dialogue.Emission
import Dialogue.Include.Stack
import Dialogue.Script.Evaluator
import Dialogue.Script.Parser
import Dialogue.Script.Simplify
import Dialogue.Text.Blank
/-!
# `Dialogue.Environment` — where scripts of a file are evaluated.

An environment has variables, the functions defined so far, and the file it belongs to, whose path and directory
scripts see as two constants. Shared cells are not part of it: closures carry them from one environment to
another, so they are threaded through evaluation. Evaluation is written against whoever answers requests for
files, and against a clock; an answer holds no closures, and so no cells.
-/

namespace Dialogue

open Script (Value Entry Cell Function Context Machine)

/-- **Variables and their values**, in the order of their names. -/
abbrev Bindings := List (String × Value)

/-- **Where scripts are evaluated.** -/
structure Environment where
  file : Option Path := none
  dir : Option Path := none
  /-- The variables, newest first. -/
  scope : List Entry := []
  functions : List Function := []
  /-- The files being included, once includes can be made. -/
  stack : Option Include.Stack := none

namespace Environment

/-- The name of the constant that holds the path of the file. -/
def fileConstant : String := "__filename"

/-- The name of the constant that holds the directory of the file. -/
def dirConstant : String := "__dirname"

/-- An environment that belongs to no file. -/
def empty : Environment := {}

/-- The environment of a file. -/
def ofPath (p : Path) : Environment :=
  let constant (name : String) (q : Path) : Entry := ⟨name, true, .own (.str q.toString)⟩
  { file := some p
    dir := p.parent?
    scope := (p.parent?.map (constant dirConstant)).toList ++ [constant fileConstant p] }

/-- **The environment of a file**, whose path is seen from a directory. -/
def ofFile (directory p : Path) : Environment := ofPath (directory.resolve p)

/-- The environment of a file that is being included. -/
def child (p : Path) (stack : Include.Stack) : Environment := { ofPath p with stack := some stack }

/-- What the environment is called in failures. -/
def name (env : Environment) : String := (env.file.map Path.toString).getD "<inline>"

/-- How many variables there are. -/
def count (env : Environment) : Nat := env.scope.length

/-- Can files be included? -/
def hasInclude (env : Environment) : Bool := env.stack.isSome

/-- The files being included; at first the file itself. -/
def includes (env : Environment) : Include.Stack := env.stack.getD (.seeded env.file)

/-- The environment once files can be included. -/
def withInclude (env : Environment) : Environment := { env with stack := some env.includes }

/-- The environment's variables as a machine. -/
def machine (env : Environment) (cells : Array Cell) : Machine := { scope := env.scope, cells }

/-- **A new variable**, which hides any other of its name. -/
def set (env : Environment) (name : String) (v : Value) : Environment :=
  { env with scope := ⟨name, false, .own v⟩ :: env.scope }

/-- The value of a variable. -/
def get? (env : Environment) (cells : Array Cell) (name : String) : Option Value :=
  (env.machine cells).value? name

/-- Is there a variable of that name? -/
def contains (env : Environment) (name : String) : Bool := env.scope.any (·.name == name)

/-- Variables for bindings, in their order. -/
def seed (env : Environment) (bindings : Bindings) : Environment :=
  bindings.foldl (fun env b => env.set b.1 b.2) env

/-- Functions with later ones, which replace those of the same name and number of parameters. -/
def combined (fs new : List Function) : List Function :=
  fs.filter (fun f => !new.any fun g => g.name == f.name && g.arity == f.arity) ++ new

/-- **Make functions callable.** -/
def seedFunctions (env : Environment) (new : List Function) : Environment :=
  { env with functions := combined env.functions new }

/-- What is known of the variables before a script runs: the values of constants. -/
def known (env : Environment) (cells : Array Cell) : Script.Simplify.Known := fun name =>
  ((env.machine cells).find? name).bind fun s => if s.constant then s.value.toConstant? else none

/-- **The variables that came after the first `before`.** The constants of the file do not count, and of
variables with one name the newest does. -/
def bindingsAfter (env : Environment) (cells : Array Cell) (before : Nat) : Bindings :=
  let m := env.machine cells
  let new := (env.scope.take (env.count - before)).reverse
  Script.Datum.ofFields
    ((new.filter fun e => e.name != fileConstant && e.name != dirConstant).map fun e =>
      (e.name, m.slotValue e.slot))

/-! ## Evaluation -/

/-- The outcome of evaluation, and the environment after it. -/
abbrev Outcome (α : Type) := Except Failure α × Environment

/-- A fault as a failure: that of an include as it is, any other in its own words. -/
def failureOf (f : Script.Fault) (describe : String → Failure) : Failure :=
  f.failure?.getD (describe f.message)

/-- Run a script, requests being answered by `answer`, and the time being told by a clock. -/
def runWith [Monad m] (answer : Clock → Include.Request → m Include.Answer) (clock : Clock)
    (env : Environment) (s : Script.Program) (describe : String → Failure) :
    StateT (Array Cell) m (Outcome Value) := fun cells => do
  let s := Script.Simplify.script (env.known cells) s
  let c : Context := { functions := combined env.functions s.functions }
  let (r, m) ← (s.run c (env.machine cells)).answering answer clock
  let env := { env with scope := m.scope }
  match r with
  | .ok v => return ((.ok v, env.seedFunctions s.functions), m.cells)
  | .error f => return ((.error (failureOf f describe), env), m.cells)

/-- **Run a script block.** Yields the variables that it added. -/
def executeWith [Monad m] (answer : Clock → Include.Request → m Include.Answer) (clock : Clock)
    (env : Environment) (code : String) : StateT (Array Cell) m (Outcome Bindings) := do
  let env := env.withInclude
  match Script.Parser.script code with
  | .error e => return (.error (.load env.name e.message), env)
  | .ok s =>
    let before := env.count
    let (r, env) ← env.runWith answer clock s (.execution env.name)
    let cells ← MonadState.get
    return (r.map fun _ => env.bindingsAfter cells before, env)

/-- **Evaluate a single expression**, which is trimmed first. -/
def evaluateWith [Monad m] (answer : Clock → Include.Request → m Include.Answer) (clock : Clock)
    (env : Environment) (code : String) : StateT (Array Cell) m (Outcome Value) := do
  let env := env.withInclude
  let code := Text.trimmed code
  match Script.Parser.singleExpression code with
  | .error e => return (.error (.evaluation env.name code e.message), env)
  | .ok s => env.runWith answer clock s (.evaluation env.name code)

/-- **A value handed over for output:** `()` is nothing, an include its parts, anything else its text. -/
def emittable : Value → Emittable
  | .unit => .absent
  | .inclusion i => .inclusion i
  | v => .text v.shown

@[simp] theorem count_set (env : Environment) (name : String) (v : Value) :
    (env.set name v).count = env.count + 1 := rfl

@[simp] theorem contains_set (env : Environment) (name : String) (v : Value) :
    (env.set name v).contains name = true := by
  simp [contains, set]

@[simp] theorem includes_withInclude (env : Environment) : env.withInclude.includes = env.includes := rfl

end Environment

end Dialogue
