import Dialogue.Script.Fault
import Dialogue.Script.Run
/-!
# `Dialogue.Script.Machine` — what a running script works on.

A machine holds the variables in reach, the cells that closures share, and the value that the current function
was called on. A place is a spot in there that a value can be written to. A step of evaluation yields a value or a
signal that ends it early, and the machine as it is then: what was changed before a fault stays changed.
-/

namespace Dialogue.Script

/-- **A variable.** -/
structure Entry where
  name : String
  constant : Bool := false
  slot : Slot Function

/-- **Variables with what they hold by now**, as others in their places tell. Their names stay. -/
def Entry.refreshed : (scope now : List Entry) → List Entry
  | e :: scope, e' :: now => { e with slot := e'.slot } :: refreshed scope now
  | scope, _ => scope

/-- Nothing but what the variables hold is changed. -/
theorem Entry.map_refreshed (f : Entry → α) (hf : ∀ e slot, f { e with slot } = f e) (scope now : List Entry) :
    (Entry.refreshed scope now).map f = scope.map f := by
  fun_induction Entry.refreshed scope now with
  | case1 e scope e' now ih => simp [hf, ih]
  | case2 => rfl

theorem Entry.refreshed_append {scope now : List Entry} (same : now.length = scope.length) (older older' : List Entry) :
    Entry.refreshed (scope ++ older) (now ++ older') = Entry.refreshed scope now ++ Entry.refreshed older older' := by
  induction scope generalizing now with
  | nil =>
    rw [List.length_eq_zero_iff.mp same]
    rfl
  | cons e scope ih =>
    cases now with
    | nil => cases same
    | cons e' now => exact congrArg _ (ih (Nat.succ.inj same))

/-- **A value that is shared.** -/
structure Cell where
  value : Value
  constant : Bool := false

/-- **What a script works on.** -/
structure Machine where
  /-- The variables in reach, newest first. -/
  scope : List Entry := []
  /-- The shared values, by number. -/
  cells : Array Cell := #[]
  /-- The value that the current function was called on. -/
  this : Option Value := none

/-! ## Places -/

/-- **A way from a value to a value in it.** -/
inductive Inward
  | item (index : Nat)
  | field (name : String)
  | char (index : Nat)
  | bit (index : Nat)
  deriving DecidableEq

/-- **Where a place starts.** Variables are counted from the oldest, which new ones do not change. -/
inductive Root
  | entry (fromOldest : Nat)
  | cell (index : Nat)
  | this
  deriving DecidableEq

/-- **A spot that a value can be written to.** -/
structure Place where
  root : Root
  inward : List Inward := []
  deriving DecidableEq

/-- The place inside this one. -/
def Place.into (p : Place) (step : Inward) : Place := { p with inward := p.inward ++ [step] }

/-- Set or clear a bit. -/
def withBit (n : Int64) (index : Nat) (b : Bool) : Int64 :=
  let mask := Int64.ofNat (Nat.pow 2 index)
  if b then n ||| mask else n &&& ~~~mask

/-- **The value with a value in it replaced.** Nothing changes where the way leads nowhere. -/
def Datum.replaced : List Inward → (whole new : Value) → Value
  | [], _, new => new
  | .item i :: rest, .array items, new => .array (items.modify i fun v => v.replaced rest new)
  | .field name :: rest, .object fields, new =>
    .object (setField name (((field? fields name).getD .unit).replaced rest new) fields)
  | .char i :: _, .str s, .char c => .str (String.ofList (s.toList.set i c))
  | .bit i :: _, .int n, .bool b => .int (withBit n i b)
  | _, whole, _ => whole

namespace Machine

/-- How many variables are in reach. -/
def depth (m : Machine) : Nat := m.scope.length

/-- The position of the newest variable of a name, counted from the newest. -/
def position? (m : Machine) (name : String) : Option Nat := m.scope.findIdx? (·.name == name)

/-- What a slot holds. -/
def slotValue (m : Machine) : Slot Function → Value
  | .own v => v
  | .cell i => ((m.cells[i]?).map Cell.value).getD .unit

/-- Is a variable constant? A shared one is what its cell is. -/
def isConstant (m : Machine) (e : Entry) : Bool :=
  match e.slot with
  | .own _ => e.constant
  | .cell i => ((m.cells[i]?).map Cell.constant).getD false

/-- **A variable as it is found:** its value, where that can be written, and whether it may be. -/
structure Sighting where
  value : Value
  place : Place
  constant : Bool

/-- **Find a variable.** -/
def find? (m : Machine) (name : String) : Option Sighting :=
  match m.position? name with
  | none => none
  | some i =>
    (m.scope[i]?).map fun e =>
      let root := match e.slot with
        | .own _ => Root.entry (m.depth - 1 - i)
        | .cell c => .cell c
      ⟨m.slotValue e.slot, ⟨root, []⟩, m.isConstant e⟩

/-- The value of a variable. -/
def value? (m : Machine) (name : String) : Option Value := (m.find? name).map (·.value)

/-- **Write a value to a place.** -/
def write (m : Machine) (p : Place) (v : Value) : Machine :=
  match p.root with
  | .entry i =>
    { m with scope := m.scope.modify (m.depth - 1 - i) fun e =>
      { e with slot := .own ((m.slotValue e.slot).replaced p.inward v) } }
  | .cell i =>
    { m with cells := m.cells.modify i fun c => { c with value := c.value.replaced p.inward v } }
  | .this => { m with this := m.this.map fun t => t.replaced p.inward v }

/-- Bring a variable into reach. -/
def declare (m : Machine) (name : String) (constant : Bool) (slot : Slot Function) : Machine :=
  { m with scope := ⟨name, constant, slot⟩ :: m.scope }

/-- A new variable in the place of another, `back` entries from the newest. It has the name of the other. -/
def redeclare (m : Machine) (back : Nat) (constant : Bool) (v : Value) : Machine :=
  { m with scope := m.scope.modify back fun e => { e with constant, slot := .own v } }

/-- Forget the variables beyond the first `depth`. -/
def rewind (m : Machine) (depth : Nat) : Machine :=
  { m with scope := m.scope.drop (m.depth - depth) }

/-- **Share a variable.** Its value moves into a cell, unless it is in one already. -/
def share? (m : Machine) (name : String) : Option (Nat × Machine) :=
  match m.position? name with
  | none => none
  | some i =>
    (m.scope[i]?).map fun e => match e.slot with
      | .cell c => (c, m)
      | .own v =>
        let c := m.cells.size
        (c, { m with
          cells := m.cells.push ⟨v, e.constant⟩
          scope := m.scope.set i { e with slot := .cell c } })

@[simp] theorem depth_declare (m : Machine) (name : String) (constant : Bool) (slot : Slot Function) :
    (m.declare name constant slot).depth = m.depth + 1 := rfl

theorem find?_declare_own (m : Machine) (name : String) (constant : Bool) (v : Value) :
    (m.declare name constant (.own v)).value? name = some v := by
  simp [value?, find?, position?, declare, List.findIdx?_cons, slotValue]

/-- Leaving a block forgets exactly what was declared in it. -/
theorem rewind_declare (m : Machine) (name : String) (constant : Bool) (slot : Slot Function) :
    (m.declare name constant slot).rewind m.depth = m := by
  simp [rewind, declare, depth]

end Machine

/-! ## Evaluation -/

/-- **Why evaluation ends early.** -/
inductive Signal
  | fault (f : Fault)
  /-- A loop is left. -/
  | leave (value : Value)
  /-- A loop goes on with its next round. -/
  | proceed
  /-- A function, or the script, gives back a value. -/
  | giveBack (value : Value)

/-- **What a script is run with.** -/
structure Context where
  functions : List Function := []
  /-- How many calls are under way. -/
  level : Nat := 0

/-- The function of a name with a number of parameters; the latest definition counts. -/
def Context.function? (c : Context) (name : String) (arity : Nat) : Option Function :=
  c.functions.findRev? fun f => f.name == name && f.arity == arity

/-- **A step of evaluation.** -/
abbrev Eval := ReaderT Context (ExceptT Signal (StateT Machine Run))

namespace Eval

/-- Carry out a step. -/
def runOn (x : Eval α) (c : Context) (m : Machine) : Run (Except Signal α × Machine) :=
  ((x c).run).run m

/-- Fail, at a place if it is known. -/
def fail (cause : Cause) (pos : Option Position) : Eval α := throw (.fault (.raised cause pos))

/-- Fail at a place. -/
def failAt (pos : Position) (cause : Cause) : Eval α := fail cause (some pos)

/-- The outcome of a step, whatever it is. -/
def outcome (x : Eval α) : Eval (Except Signal α) := fun c m => do
  let (r, m) ← x.runOn c m
  return (.ok r, m)

/-- Go on with an outcome. -/
def resume : Except Signal α → Eval α
  | .ok a => pure a
  | .error s => throw s

/-- Carry out a step, and put the machine in order afterwards, however it ends. -/
def ensuring (x : Eval α) (order : Machine → Machine) : Eval α := do
  let r ← outcome x
  modify order
  resume r

/-- **Carry out a step in a scope of its own.** -/
def inBlock (x : Eval α) : Eval α := do
  let depth := (← get).depth
  ensuring x (·.rewind depth)

/-- Give faults of a step the place `pos`, if they have none. -/
def placed (pos : Position) (x : Eval α) : Eval α := do
  match ← outcome x with
  | .error (.fault f) => throw (.fault (f.orAt pos))
  | r => resume r

/-- Ask for a file. -/
def ask (q : Include.Request) : Eval Include.Answer := fun _ m =>
  .ask q fun r => .done (.ok r, m)

/-- Ask for the time. -/
def now : Eval Instant := fun _ m => .now fun t => .done (.ok t, m)

/-- Deal with a fault. Where a failed include is behind it, the run says so. -/
def catches (f : Fault) : Eval Unit := fun _ m =>
  match f.failure? with
  | some e => .caught e (.done (.ok (), m))
  | none => .done (.ok (), m)

theorem catches_of_some {f : Fault} {e : Failure} (held : f.failure? = some e) :
    catches f = fun _ m => .caught e (.done (.ok (), m)) := by
  unfold catches
  rw [held]

theorem catches_of_none {f : Fault} (held : f.failure? = none) : catches f = fun _ m => .done (.ok (), m) := by
  unfold catches
  rw [held]

end Eval

end Dialogue.Script
