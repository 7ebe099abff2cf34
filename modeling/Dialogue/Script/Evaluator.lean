import Dialogue.Script.Call
/-!
# `Dialogue.Script.Evaluator` — what expressions and statements do.

Each construct is carried out by one step that hands its parts to an interpreter; `interpreter n` carries out
code that is nested at most `n` deep. In a chain, all arguments and indices are evaluated first, then the root,
then the steps; in an assignment, the value comes before what it is assigned to.
-/

namespace Dialogue.Script

namespace Interpreter

variable (I : Interpreter)

/-! ## Expressions -/

/-- A truth value, or a fault at the place of the expression. -/
def condition (e : Expr) : Eval Bool := do
  match ← I.expr e with
  | .bool b => return b
  | v => Eval.failAt e.place (.mismatch "bool" v.typeName)

/-- The fields of a map, in the order they are written. -/
def fields : List (String × Expr) → Eval (List (String × Value))
  | [] => return []
  | (name, e) :: rest => return (name, ← I.expr e) :: (← fields rest)

/-- An operator and its operands. -/
def operation (op : String) (operands : List Expr) (pos : Position) : Eval Value := do
  match op, operands with
  | "contains", operands => I.call "contains" operands pos false
  | op, [e] => orFail pos (Operation.unary op (← I.expr e))
  | op, [a, b] =>
    let x ← I.expr a
    let y ← I.expr b
    orFail pos (Operation.binary op x y)
  | op, operands => orFail pos (.error (Operation.unknown op (← operands.mapM I.expr)))

/-- Share the variables that a closure uses. -/
def share : List (String × Position) → Eval (List (Slot Function))
  | [] => return []
  | (name, pos) :: rest => do
    match (← get).share? name with
    | some (cell, m) =>
      set m
      return .cell cell :: (← share rest)
    | none => Eval.failAt pos (.variableNotFound name)

/-! ## Chains -/

/-- **A step of a chain whose arguments and indices are evaluated.** -/
inductive Prepared
  | property (name : String) (pos : Position) (optional : Bool)
  | index (key : Value) (start bracket : Position) (optional : Bool)
  | method (name : String) (arguments : List Value) (pos : Position) (optional : Bool)

/-- May the chain end before the step, at `()`? -/
def Prepared.optional : Prepared → Bool
  | property _ _ b | index _ _ _ b | method _ _ _ b => b

/-- Does the chain end before the step, at a value? -/
def Prepared.endsAt (step : Prepared) : Value → Bool
  | .unit => step.optional
  | _ => false

/-- Evaluate the arguments and indices of steps, from left to right. -/
def prepare : List Step → Eval (List Prepared)
  | [] => return []
  | .property name pos _ optional :: rest =>
    return .property name pos optional :: (← prepare rest)
  | .index key bracket optional :: rest => do
    let k ← I.expr key
    return .index k key.start bracket optional :: (← prepare rest)
  | .method name arguments pos _ optional :: rest => do
    let values ← arguments.mapM I.expr
    return .method name values pos optional :: (← prepare rest)

/-- What a chain starts from. -/
def chainRoot (root : Expr) : Eval Standing := do
  match root with
  | .var name pos =>
    let s ← sighting name pos
    return ⟨s.value, some s.place, s.constant⟩
  | .this pos => return ⟨← thisValue pos, some ⟨.this, []⟩, false⟩
  | e => return { value := ← I.expr e }

/-- The value that a step into another leads to. -/
def Standing.into (s : Standing) (found : Access.Found) : Standing :=
  match found.inward with
  | some step => ⟨found.value, s.place.map (·.into step), s.constant⟩
  | none => { value := found.value }

/-- Where a fault of an index is reported: at the bracket if the value has no indices, else at the index. -/
def orFailIndex (start bracket : Position) : Except Cause α → Eval α
  | .ok a => return a
  | .error (.notIndexable types) => Eval.failAt bracket (.notIndexable types)
  | .error cause => Eval.failAt start cause

/-- **A property of a value.** Only the time since a moment takes more than the value to tell. -/
def propertyOf (v : Value) (name : String) (pos : Position) : Eval Access.Found :=
  match v, name with
  | .timestamp t, "elapsed" => do return Access.copy (← elapsed t pos)
  | v, name => orFail pos (Access.property v name)

/-- **Take one step.** -/
def advance (s : Standing) : Prepared → Eval Standing
  | .property name pos _ => return s.into (← propertyOf s.value name pos)
  | .index key start bracket _ => return s.into (← orFailIndex start bracket (Access.element s.value key))
  | .method name arguments pos _ => return { value := ← I.method s name arguments pos }

/-- **Go through steps.** An optional step from `()` ends the chain; `none` is the end. -/
def walk (s : Standing) : List Prepared → Eval (Option Standing)
  | [] => return some s
  | step :: rest => do
    if step.endsAt s.value then return none
    else walk (← I.advance s step) rest

/-- **A chain.** -/
def chain (root : Expr) (steps : List Step) : Eval Value := do
  let prepared ← I.prepare steps
  let s ← I.chainRoot root
  match ← I.walk s prepared with
  | some s => return s.value
  | none => return .unit

/-- **An expression**, its parts being handed on. -/
def evaluate (e : Expr) : Eval Value := do
  match e with
  | .constant v _ => return .ofConstant v
  | .var name pos => return (← sighting name pos).value
  | .this pos => thisValue pos
  | .template items _ =>
    let values ← items.mapM I.expr
    return .str (String.join (values.map Datum.scriptText))
  | .array items _ => return .array (← items.mapM I.expr)
  | .object fs _ => return .object (Datum.ofFields (← I.fields fs))
  | .operation op operands pos => I.operation op operands pos
  | .call name arguments pos here => I.call name arguments pos here
  | .both a b _ => if ← I.condition a then return .bool (← I.condition b) else return .bool false
  | .either a b _ => if ← I.condition a then return .bool true else return .bool (← I.condition b)
  | .orElse a b _ =>
    match ← I.expr a with
    | .unit => I.expr b
    | v => return v
  | .chain root steps => I.chain root steps
  | .closure captured code _ => return .function code.name (← share captured) (some code)
  | .statements body _ => I.block body

/-! ## Assignments -/

/-- The value to assign: the new one, or what an operator makes of it. -/
def assignedValue (op : Option String) (old new : Value) (pos : Position) : Eval Value :=
  match op with
  | none => return new
  | some op => orFail pos (Operation.assigned op old new)

/-- What the last step of a chain leads to, if it can be written. -/
def assignable (s : Standing) (op : Option String) (new : Value) : Prepared → Eval Access.Found
  | .property name at_ _ =>
    match op with
    | none => orFail at_ (Access.writable s.value name new)
    | some _ => do
      let _ ← propertyOf s.value name at_
      orFail at_ (Access.writable s.value name new)
  | .index key start bracket _ => orFailIndex start bracket (Access.writableAt s.value key)
  | .method .. => pure (Access.copy .unit)

/-- Assign through the last step of a chain. -/
def assignStep (s : Standing) (step : Prepared) (constantFault : Eval Unit) (op : Option String)
    (new : Value) (pos : Position) : Eval Unit := do
  let found ← assignable s op new step
  if s.constant then constantFault
  let v ← assignedValue op found.value new pos
  orFail pos (Access.checkWritten found.inward v)
  match found.inward with
  | some inward => ({ s with place := s.place.map (·.into inward) } : Standing).become v
  | none => pure ()

/-- The name and the place that a constant is reported by. -/
def constantFault (root : Expr) : Eval Unit :=
  match root with
  | .var name pos => Eval.failAt pos (.constantModified name)
  | e => Eval.failAt e.place (.constantModified "")

/-- **An assignment.** -/
def assign (target : Expr) (op : Option String) (value : Expr) (pos : Position) : Eval Unit := do
  let new ← I.expr value
  match target with
  | .chain root steps =>
    let prepared ← I.prepare steps
    let s ← I.chainRoot root
    match prepared.reverse with
    | [] => pure ()
    | last :: before =>
      match ← I.walk s before.reverse with
      | none => pure ()
      | some s =>
        if last.endsAt s.value then pure ()
        else assignStep s last (constantFault root) op new pos
  | target =>
    let s ← I.chainRoot target
    if s.constant then constantFault target
    s.become (← assignedValue op s.value new pos)

/-! ## Loops -/

/-- What the body of a loop does to the loop. -/
inductive Round
  | next
  | stop (value : Value)

/-- Carry out the body of a loop once. -/
def round (body : List Stmt) : Eval Round := do
  match ← Eval.outcome (I.block body) with
  | .ok _ | .error .proceed => return .next
  | .error (.leave v) => return .stop v
  | .error s => throw s

/-- How many rounds a loop may make. -/
def maxRounds : Nat := Nat.pow 2 48

/-- **Rounds as long as a condition holds.** -/
def loopWhile (cond : Eval Bool) (body : Eval Round) : (rounds : Nat) → Eval Value
  | 0 => Eval.fail .tooComplex none
  | n + 1 => do
    if ← cond then
      match ← body with
      | .stop v => return v
      | .next => loopWhile cond body n
    else return .unit

/-- **Rounds until a condition fails after one.** -/
def loopUntil (cond : Eval Bool) (body : Eval Round) : (rounds : Nat) → Eval Value
  | 0 => Eval.fail .tooComplex none
  | n + 1 => do
    match ← body with
    | .stop v => return v
    | .next => if ← cond then loopUntil cond body n else return .unit

/-- **What a loop goes through:** values, or whole numbers up to a last one. -/
inductive Source
  | values (vs : List Value)
  | numbers (next last : Int)

/-- The first value, and what is left. -/
def Source.pop? : Source → Option (Value × Source)
  | values [] => none
  | values (v :: vs) => some (v, values vs)
  | numbers next last =>
    if next ≤ last then some (.int (Int64.ofInt next), numbers (next + 1) last) else none

/-- What a loop goes through in a value. -/
def Source.ofValue? : Value → Option Source
  | .array items => some (values items)
  | .str s => some (values (s.toList.map .char))
  | .range first last true => some (numbers first.toInt last.toInt)
  | .range first last false => some (numbers first.toInt (last.toInt - 1))
  | _ => none

/-- Set a variable that is in reach. -/
def setVariable (name : String) (v : Value) : Eval Unit :=
  modify fun m => match m.find? name with
    | some s => m.write s.place v
    | none => m

/-- **One round with a value**, and what comes after it unless the loop is left. -/
def turn (name : String) (v : Value) (body : Eval Round) (after : Eval Value) : Eval Value := do
  setVariable name v
  match ← body with
  | .stop v => return v
  | .next => after

/-- **Rounds through a source**, with the variables set for each. -/
def loopThrough (name : String) (counter : Option String) (body : Eval Round) (index : Nat) (src : Source) :
    (rounds : Nat) → Eval Value
  | 0 => Eval.fail .tooComplex none
  | n + 1 => do
    match src.pop? with
    | none => return .unit
    | some (v, src) =>
      match counter with
      | some c => setVariable c (.int (Int64.ofNat index))
      | none => pure ()
      turn name v body (loopThrough name counter body (index + 1) src n)

/-- **A loop through the items of a value.** -/
def each (name : String) (counter : Option String) (items : Expr) (body : List Stmt) : Eval Value := do
  match Source.ofValue? (← I.expr items) with
  | none => Eval.failAt items.start .notIterable
  | some src =>
    Eval.inBlock do
      match counter with
      | some c => modify (·.declare c false (.own .unit))
      | none => pure ()
      modify (·.declare name false (.own .unit))
      loopThrough name counter (I.round body) 0 src maxRounds

/-! ## Statements -/

/-- Is a value of the type of another, and equal to it? -/
def sameAs (v w : Value) : Bool :=
  v.sameType w && match Operation.equal v w with
    | .ok b => b
    | .error _ => false

/-- Does a value fit an alternative of a switch? -/
def fits (v : Value) : Constant → Bool
  | .range first last inclusive =>
    match v with
    | .int n => first.toInt ≤ n.toInt && (n.toInt < last.toInt || (inclusive && n == last))
    | .float x =>
      Operator.toFloat first ≤ x &&
        (x < Operator.toFloat last || (inclusive && x == Operator.toFloat last))
    | _ => false
  | c => sameAs v (.ofConstant c)

/-- The first arm that fits a value and whose condition holds. -/
def choose (v : Value) : List Arm → Eval (Option Expr)
  | [] => return none
  | .mk patterns guard action :: rest => do
    if patterns.any (fits v) then
      match guard with
      | none => return some action
      | some g => if ← I.condition g then return some action else choose v rest
    else choose v rest

/-- An expression that may be absent; then it is `()`. -/
def optional : Option Expr → Eval Value
  | some e => I.expr e
  | none => return .unit

/-- Is the fault a throw without a value? -/
def isRethrow (f : Fault) : Bool :=
  match f with
  | .raised (.thrown .unit) _ => true
  | _ => false

/-- A handler, with what was caught under its name. -/
def handling (caught : Value) (name : Option String) (handler : List Stmt) : Eval Value :=
  Eval.inBlock do
    match name with
    | some n => modify (·.declare n false (.own caught))
    | none => pure ()
    I.block handler

/-- **Deal with a fault.** A throw without a value passes on the fault itself. -/
def handle (f : Fault) (name : Option String) (handler : List Stmt) : Eval Value := do
  let r ← Eval.outcome (I.handling f.caught name handler)
  match r with
  | .ok _ => return .unit
  | .error (.fault g) =>
    if isRethrow g then throw (.fault (f.moveTo g.place?)) else throw (.fault g)
  | .error s => throw s

/-- **A statement**, its parts being handed on. -/
def execute (s : Stmt) : Eval Value := do
  match s with
  | .noop _ => return .unit
  | .declare name constant inPlace e _ =>
    let v ← I.expr e
    match inPlace with
    | none => modify (·.declare name constant (.own v))
    | some back => modify (·.redeclare back constant v)
    return .unit
  | .assign target op e pos =>
    I.assign target op e pos
    return .unit
  | .expr e => I.expr e
  | .block body _ => I.block body
  | .branch cond yes no _ => if ← I.condition cond then I.block yes else I.block no
  | .switch item arms fallback _ =>
    match ← I.choose (← I.expr item) arms with
    | some action => I.expr action
    | none => I.optional fallback
  | .repeatWhile cond body _ =>
    let goesOn : Eval Bool := match cond with
      | some e => I.condition e
      | none => return true
    loopWhile goesOn (I.round body) maxRounds
  | .repeatAfter body cond goOn _ =>
    loopUntil (do return (← I.condition cond) == goOn) (I.round body) maxRounds
  | .each name counter items body _ => I.each name counter items body
  | .leave e _ => throw (.leave (← I.optional e))
  | .proceed _ => throw .proceed
  | .giveBack e _ => throw (.giveBack (← I.optional e))
  | .raise e pos => Eval.failAt pos (.thrown (← I.optional e))
  | .attempt body name handler _ =>
    match ← Eval.outcome (I.block body) with
    | .error (.fault f) =>
      if f.cause.isFatal then throw (.fault f)
      else
        Eval.catches f
        I.handle f name handler
    | r => Eval.resume r
  | .importModule path _ =>
    match ← I.expr path with
    | .str p => Eval.failAt path.start (.moduleNotFound p)
    | v => Eval.failAt path.place (.mismatch "string" v.typeName)

end Interpreter

/-- **The interpreter of code that is nested at most so deep.** -/
def interpreter : (depth : Nat) → Interpreter
  | 0 => ⟨fun _ => Eval.fail .tooComplex none, fun _ => Eval.fail .tooComplex none⟩
  | n + 1 => ⟨fun e => (interpreter n).evaluate e, fun s => (interpreter n).execute s⟩

/-- How deep code may be nested, calls included. -/
def maxNesting : Nat := Nat.pow 2 40

/-- What the statements of a script come to. -/
def Signal.settled : Except Signal Value → Except Fault Value
  | .ok v | .error (.giveBack v) | .error (.leave v) => .ok v
  | .error .proceed => .ok .unit
  | .error (.fault f) => .error f

/-- **Run a script** on a machine. Giving back a value ends it; what it changed before a fault stays changed. -/
def Program.run (s : Program) (c : Context) (m : Machine) : Run (Except Fault Value × Machine) := do
  let (r, m) ← ((interpreter maxNesting).sequence s.statements .unit).runOn c m
  return (Signal.settled r, m)

end Dialogue.Script
