import Dialogue.Environment
import Dialogue.Files.Provider
import Dialogue.Segment
/-!
# `Dialogue.Include.Resolver` — including files.

A binary include yields the bytes of a file and its media type. A text include expands the expressions in the
text, each in an environment of the included file that starts with nothing but the file's own constants, and
refuses a file that is being included already. Since every text include puts another readable file on the stack,
includes cannot nest deeper than there are files, and the bound that the recursion is on is never met.
-/

namespace Dialogue.Include

open Script (Value Cell)

/-- **Where includes are resolved:** the directory that paths are seen from, and the files being included. -/
structure Resolver where
  dir : Option Path
  stack : Stack

namespace Resolver

/-- Where an environment resolves its includes. -/
def ofEnvironment (env : Environment) : Resolver := ⟨env.dir, env.includes⟩

/-- **The file that a path leads to.** Without a directory the path stands for itself. -/
def target (r : Resolver) (path : String) : Path :=
  match r.dir with
  | some dir => dir.resolve (.ofString path)
  | none => .ofString path

/-- A read as part of an include. -/
def orFailure (p : Path) : Except ReadError α → Except Failure α
  | .ok a => .ok a
  | .error e => .error (.readFailure p.toString e.message)

/-- **Include the bytes of a file.** Its name is the path that was asked for. -/
def binary (files : FileAccess) (q : Request) (p : Path) : Logged Answer := do
  match files.detector.resolve p q.options.mediaType with
  | none => return .error (.mimeUndetermined p.toString)
  | some mediaType =>
    let data ← files.readBytes p
    return (orFailure p data).map fun data => .binary q.path mediaType data

/-- What the value of an expression adds to an include. -/
def child (v : Value) : String ⊕ Inclusion :=
  match Environment.emittable v with
  | .absent => .inl ""
  | .text t => .inl t
  | .inclusion i => .inr i

/-- **Expand a template** in an environment, up to the first failure, requests being answered by `answer`. Each
expression has readings of the clock of its own. -/
def expand [Monad m] (answer : Clock → Request → m Answer) (clock : Clock) (env : Environment) (cells : Array Cell) :
    List Segment → m (Except Failure (List (String ⊕ Inclusion)))
  | [] => return .ok []
  | .text t :: rest => do
    return (← expand answer clock env cells rest).map (.inl (String.ofList t) :: ·)
  | .expression code :: rest => do
    let ((r, env), cells) ← (env.evaluateWith answer clock.first (String.ofList code)).run cells
    match r with
    | .error e => return .error e
    | .ok v => return (← expand answer clock.rest env cells rest).map (child v :: ·)

/-- **Include a text**, the includes in it being answered by `answer`. -/
def text (files : FileAccess) (clock : Clock) (r : Resolver) (p : Path)
    (answer : Resolver → Clock → Request → Logged Answer) : Logged Answer := do
  if r.stack.contains p then return .error (.circularInclude (r.stack.chainWith p))
  match orFailure p (← files.readText p) with
  | .error e => return .error e
  | .ok source =>
    let env := Environment.child p (r.stack.extended p)
    let children ← expand (answer (ofEnvironment env)) clock env #[] (Segment.ofTemplate source.toList)
    return children.map .composite

/-- What is answered if texts are nested deeper than is provided for. The chain of a circular include has a file in
it, so no include reports this. -/
def exhausted : Failure := .circularInclude []

/-- **Include a file**, texts being nested at most `depth` deep. -/
def fetchWithin (files : FileAccess) : (depth : Nat) → Resolver → Clock → Request → Logged Answer
  | 0, _, _, _ => return .error exhausted
  | depth + 1, r, clock, q => do
    let p := r.target q.path
    if !(← files.isReadable p) then return .error (.fileNotFound p.toString)
    if q.options.binary then binary files q p
    else text files clock r p (fetchWithin files depth)

/-- How deep includes can nest: each text include adds a file to the stack, and the last one finds its file
there. -/
def maxDepth (files : FileAccess) : Nat := files.provider.capacity + 4

/-- **Include a file**, with readings of the clock for the scripts in it. -/
def fetchAt (files : FileAccess) (r : Resolver) (clock : Clock) (q : Request) : Logged Answer :=
  fetchWithin files (maxDepth files) r clock q

/-- **Include a file.** -/
def fetch (files : FileAccess) (r : Resolver) (q : Request) : Logged Answer := fetchAt files r files.clock q

end Resolver

end Dialogue.Include

namespace Dialogue.Environment

open Script (Value Cell)

/-- **Run a script block** with files at hand, and readings of the clock. -/
def executeAt (files : FileAccess) (clock : Clock) (env : Environment) (code : String) :
    StateT (Array Cell) Logged (Outcome Bindings) :=
  env.executeWith (Include.Resolver.fetchAt files (.ofEnvironment env)) clock code

/-- **Evaluate an expression** with files at hand, and readings of the clock. -/
def evaluateAt (files : FileAccess) (clock : Clock) (env : Environment) (code : String) :
    StateT (Array Cell) Logged (Outcome Value) :=
  env.evaluateWith (Include.Resolver.fetchAt files (.ofEnvironment env)) clock code

/-- **Run a script block** with files at hand. -/
def execute (files : FileAccess) (env : Environment) (code : String) :
    StateT (Array Cell) Logged (Outcome Bindings) := env.executeAt files files.clock code

/-- **Evaluate an expression** with files at hand. -/
def evaluate (files : FileAccess) (env : Environment) (code : String) :
    StateT (Array Cell) Logged (Outcome Value) := env.evaluateAt files files.clock code

end Dialogue.Environment
