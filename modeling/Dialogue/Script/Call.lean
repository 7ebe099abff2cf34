import Dialogue.Script.Library
import Dialogue.Script.Machine
/-!
# `Dialogue.Script.Call` — calling functions.

A call looks for a function of the script first, then for one of the library. A function of the script has a scope
of its own, unless it is called with an exclamation mark: then it runs on top of the scope that it is called from. What
it was called on comes back with the result, as the function may have changed it. A fault inside is reported as a fault
in the call, at the place of the call.
-/

namespace Dialogue.Script

/-- **How code is carried out.** -/
structure Interpreter where
  expr : Expr → Eval Value
  stmt : Stmt → Eval Value

namespace Interpreter

variable (I : Interpreter)

/-- Statements one after another; the value of the last. -/
def sequence : List Stmt → Value → Eval Value
  | [], v => return v
  | s :: ss, _ => do sequence ss (← I.stmt s)

/-- **A block.** Its variables are forgotten at its end. -/
def block (body : List Stmt) : Eval Value := Eval.inBlock (I.sequence body .unit)

/-- How many calls may be under way. -/
def maxLevel : Nat := 64

/-- **What a call yields:** its outcome, and what the value it was called on has become. -/
structure Returned where
  outcome : Except Signal Value
  this : Option Value

/-- What a function's body yields as the outcome of the call. -/
def callOutcome (label : Option String) (pos : Position) : Except Signal Value → Except Signal Value
  | .error (.giveBack v) => .ok v
  | .error (.fault f) =>
    .error (.fault (if f.cause.isFatal then f.moveTo (some pos) else .inCall label f (some pos)))
  | r => r

/-- **Call a function of the script**, in a scope of its own or on top of that of the caller. What the variables of the
caller hold may change in the latter case only. -/
def invoke (f : Function) (label : Option String) (this : Option Value) (arguments : List (Slot Function))
    (pos : Position) (here : Bool := false) : Eval Returned := do
  let c ← read
  if maxLevel ≤ c.level then
    return ⟨.error (.fault (.raised .stackOverflow (some pos))), this⟩
  let before ← get
  let entries := (f.params.zip arguments).map fun (name, slot) => (⟨name, false, slot⟩ : Entry)
  set { before with scope := entries.reverse ++ (if here then before.scope else []), this := this }
  let r ← withReader (fun c => { c with level := c.level + 1 }) (Eval.outcome (I.sequence f.body .unit))
  let after ← get
  let scope := if here then Entry.refreshed before.scope (after.rewind before.depth).scope else before.scope
  set { after with scope, this := before.this }
  return ⟨callOutcome label pos r, after.this⟩

/-- The result of a call that nothing was called on. -/
def Returned.value (r : Returned) : Eval Value := Eval.resume r.outcome

/-! ## Functions of the library -/

/-- What an option of an include may be. -/
def optionFault (name wanted : String) (v : Value) : Cause :=
  .thrown (.str (s!"include(): `{name}` must be a {wanted}, got " ++ v.typeName))

/-- Whether a file is included as bytes. -/
def binaryOption : Value → Except Cause Bool
  | .unit => .ok false
  | .bool b => .ok b
  | v => .error (optionFault "binary" "boolean" v)

/-- The media type given for a file. -/
def mediaTypeOption : Value → Except Cause (Option String)
  | .unit => .ok none
  | .str s => .ok (some s)
  | v => .error (optionFault "mime" "string" v)

/-- **The options of an include.** An option that is `()` is not given. -/
def includeOptions (fields : List (String × Value)) : Except Cause Include.Options := do
  let binary ← binaryOption ((Datum.field? fields "binary").getD .unit)
  let mediaType ← mediaTypeOption ((Datum.field? fields "mime").getD .unit)
  return { binary, mediaType }

/-- Ask for a file. A failure is thrown, so that a script can catch it. -/
def includeFile (path : String) (options : Include.Options) (pos : Position) : Eval Value := do
  match ← Eval.ask ⟨path, options⟩ with
  | .ok i => return .inclusion i
  | .error f => Eval.failAt pos (.thrown (.failure f))

/-- Yield a value, or fail at a place. -/
def orFail (pos : Position) : Except Cause α → Eval α
  | .ok a => return a
  | .error cause => Eval.failAt pos cause

/-- **The seconds since a moment.** The clock is read twice: the moment must not be to come. -/
def elapsed (t : Instant) (pos : Position) : Eval Value := do
  if (← Eval.now).nanoseconds < t.nanoseconds then
    Eval.failAt pos (.arithmetic "Time-stamp is later than now")
  else return .float (Instant.seconds ((← Eval.now).nanoseconds - t.nanoseconds).toNat)

/-- A function of the library that does not call back. -/
def plainCall? (name : String) (arguments : List Value) (pos : Position) :
    Option (Eval Library.Outcome) :=
  match name, arguments with
  | "include", [.str path] => some do
    return ⟨← includeFile path {} pos, none⟩
  | "include", [.str path, .object fields] => some do
    let options ← orFail pos (includeOptions fields)
    return ⟨← includeFile path options pos, none⟩
  | "timestamp", [] => some do
    return ⟨.timestamp (← Eval.now), none⟩
  | "elapsed", [.timestamp t] => some do
    return ⟨← elapsed t pos, none⟩
  | _, _ => (Library.call? name arguments).map (orFail pos)

/-! ## Function values -/

/-- **Call a function value.** Arguments given in advance come first. A closure always has a scope of its own. -/
def callValue (name : String) (given : List (Slot Function)) (code : Option Function)
    (this : Option Value) (arguments : List Value) (pos : Position) (here : Bool := false) : Eval Returned := do
  let slots := given ++ arguments.map .own
  let m ← get
  let values := slots.map m.slotValue
  let unknown : Returned :=
    ⟨.error (.fault (.raised (Operation.unknown name (this.toList ++ values)) (some pos))), this⟩
  match code with
  | some f =>
    if f.arity = slots.length then I.invoke f none this slots pos else return unknown
  | none =>
    match (← read).function? name slots.length with
    | some f => I.invoke f (some name) this slots pos here
    | none =>
      match plainCall? name (this.toList ++ values) pos with
      | some call => return ⟨(← Eval.outcome call).map (·.result), this⟩
      | none => return unknown

/-- **How many arguments a function value still takes**, if that is known. -/
def missing? (name : String) (given : List (Slot Function)) (code : Option Function)
    (choices : List Nat) : Eval (Option Nat) := do
  match code with
  | some f => return some (f.arity - given.length)
  | none =>
    let c ← read
    return choices.find? fun n => (c.function? name (given.length + n)).isSome

/-- **Call a function value for an item.** It takes `leading` arguments and the item after them, or the item as
what it is called on; if it takes one more argument, that is the position of the item. -/
def callForItem (f : Value) (leading : List Value) (item : Value) (index : Nat) (pos : Position) :
    Eval Value := do
  match f with
  | .function name given code =>
    let n := leading.length
    let position : Value := .int (Int64.ofNat index)
    match ← missing? name given code [n + 1, n + 2, n] with
    | some k =>
      if k = n then (← I.callValue name given code (some item) leading pos).value
      else if k = n + 2 then
        (← I.callValue name given code none (leading ++ [item, position]) pos).value
      else (← I.callValue name given code none (leading ++ [item]) pos).value
    | none => (← I.callValue name given code none (leading ++ [item]) pos).value
  | v => Eval.failAt pos (.mismatch "Fn" v.typeName)

/-- Is a value the truth value `true`? -/
def isTrue : Value → Bool
  | .bool b => b
  | _ => false

/-- What a function makes of each item. -/
def mapItems (f : Value) (pos : Position) : (index : Nat) → List Value → Eval (List Value)
  | _, [] => return []
  | i, x :: xs => return (← I.callForItem f [] x i pos) :: (← mapItems f pos (i + 1) xs)

/-- The items for which a function holds. -/
def filterItems (f : Value) (pos : Position) : (index : Nat) → List Value → Eval (List Value)
  | _, [] => return []
  | i, x :: xs => do
    let keep := isTrue (← I.callForItem f [] x i pos)
    let rest ← filterItems f pos (i + 1) xs
    return if keep then x :: rest else rest

/-- The position of the first item for which a function is `wanted`. -/
def findItem (f : Value) (wanted : Bool) (pos : Position) : (index : Nat) → List Value → Eval (Option Nat)
  | _, [] => return none
  | i, x :: xs => do
    if isTrue (← I.callForItem f [] x i pos) == wanted then return some i
    else findItem f wanted pos (i + 1) xs

/-- Items taken together by a function. -/
def reduceItems (f : Value) (pos : Position) : (index : Nat) → (before : Value) → List Value → Eval Value
  | _, v, [] => return v
  | i, v, x :: xs => do reduceItems f pos (i + 1) (← I.callForItem f [v] x i pos) xs

/-- Does `x` come before `y` in the order of a function? A fault is no answer. -/
def comesBefore (f : Value) (pos : Position) (x y : Value) : Eval Bool := do
  match f with
  | .function name given code =>
    match (← I.callValue name given code none [x, y] pos).outcome with
    | .ok (.int n) => return n.toInt < 0
    | .ok (.bool b) => return b
    | .error (.fault f) =>
      Eval.catches f
      return false
    | _ => return false
  | _ => return false

/-- Put an item into items that are in order. -/
def insertItem (f : Value) (pos : Position) (x : Value) : List Value → Eval (List Value)
  | [] => return [x]
  | y :: ys => do
    if ← I.comesBefore f pos x y then return x :: y :: ys
    else return y :: (← insertItem f pos x ys)

/-- Items in the order of a function. -/
def sortItems (f : Value) (pos : Position) (items : List Value) : Eval (List Value) :=
  items.foldlM (fun done x => I.insertItem f pos x done) []

/-- **Functions on arrays that call back.** -/
def callback? (name : String) (arguments : List Value) (pos : Position) :
    Option (Eval Library.Outcome) :=
  match arguments with
  | .array items :: (f@(.function ..)) :: rest =>
    match name, rest with
    | "map", [] => some do return ⟨.array (← I.mapItems f pos 0 items), none⟩
    | "filter", [] => some do return ⟨.array (← I.filterItems f pos 0 items), none⟩
    | "some", [] => some do return ⟨.bool (← I.findItem f true pos 0 items).isSome, none⟩
    | "all", [] => some do return ⟨.bool (← I.findItem f false pos 0 items).isNone, none⟩
    | "index_of", [] => some do
      match ← I.findItem f true pos 0 items with
      | some i => return ⟨.int (Int64.ofNat i), none⟩
      | none => return ⟨.int (-1), none⟩
    | "for_each", [] => some do
      let _ ← I.mapItems f pos 0 items
      return ⟨.unit, none⟩
    | "reduce", [] => some do return ⟨← I.reduceItems f pos 0 .unit items, none⟩
    | "reduce", [v] => some do return ⟨← I.reduceItems f pos 0 v items, none⟩
    | "sort", [] => some do return ⟨.unit, some (.array (← I.sortItems f pos items))⟩
    | _, _ => none
  | _ => none

/-- **A function of the library**, if there is one that takes these arguments. -/
def native? (name : String) (arguments : List Value) (pos : Position) :
    Option (Eval Library.Outcome) :=
  I.callback? name arguments pos <|> plainCall? name arguments pos

/-! ## Calls -/

/-- The text of a name as a function value. -/
def functionNamed (name : String) (pos : Position) : Eval Value :=
  if Token.isProperName name.toList then return .function name [] none
  else Eval.failAt pos (.functionNotFound name)

/-- **Call a function by name** with values. What the first argument has become is written to `place`. -/
def callNamed (name : String) (arguments : List Value) (place : Option Place) (pos : Position)
    (here : Bool := false) : Eval Value := do
  match (← read).function? name arguments.length with
  | some f => (← I.invoke f (some name) none (arguments.map .own) pos here).value
  | none =>
    match I.native? name arguments pos with
    | none => Eval.failAt pos (Operation.unknown name arguments)
    | some call =>
      let out ← call
      match out.changed, place with
      | some v, some p => modify (·.write p v)
      | _, _ => pure ()
      return out.result

/-- Find a variable, or fail. -/
def sighting (name : String) (pos : Position) : Eval Machine.Sighting := do
  match (← get).find? name with
  | some s => return s
  | none => Eval.failAt pos (.variableNotFound name)

/-- What the current function was called on. -/
def thisValue (pos : Position) : Eval Value := do
  match (← get).this with
  | some v => return v
  | none => Eval.failAt pos .unboundThis

/-- Where a variable may be written by a function that it is passed to. A constant is copied, and so is a shared
variable. -/
def openPlace? (s : Machine.Sighting) : Option Place :=
  match s.place.root with
  | .cell _ => none
  | _ => if s.constant then none else some s.place

/-- **A call in a scope of its own.** A variable as the first argument is looked at last, and may be changed by the
function. -/
def callApart (name : String) (arguments : List Expr) (pos : Position) : Eval Value := do
  match arguments with
  | .var v at_ :: rest =>
    let values ← rest.mapM I.expr
    let s ← sighting v at_
    I.callNamed name (s.value :: values) (openPlace? s) pos
  | .this at_ :: rest =>
    let values ← rest.mapM I.expr
    let v ← thisValue at_
    I.callNamed name (v :: values) (some ⟨.this, []⟩) pos
  | arguments =>
    let values ← arguments.mapM I.expr
    I.callNamed name values none pos

/-- **A call in the scope of the caller**, if that has any variables. Every argument is copied. -/
def callHere (name : String) (arguments : List Expr) (pos : Position) : Eval Value := do
  if (← get).scope.isEmpty then I.callApart name arguments pos
  else
    let values ← arguments.mapM I.expr
    I.callNamed name values none pos true

/-- **A call by name**, in a scope of its own or `here`. -/
def call (name : String) (arguments : List Expr) (pos : Position) (here : Bool) : Eval Value := do
  match name, arguments with
  | "call", f :: rest =>
    match ← I.expr f with
    | .function name given code =>
      let values ← rest.mapM I.expr
      (← I.callValue name given code none values pos here).value
    | v => Eval.failAt f.place (.mismatch "Fn" v.typeName)
  | "Fn", [e] =>
    match ← I.expr e with
    | .str s => functionNamed s e.place
    | v => Eval.failAt e.place (.mismatch "string" v.typeName)
  | "curry", f :: (rest@(_ :: _)) =>
    match ← I.expr f with
    | .function name given code =>
      let values ← rest.mapM I.expr
      return .function name (given ++ values.map .own) code
    | v => Eval.failAt f.place (.mismatch "Fn" v.typeName)
  | "is_shared", [e] =>
    let _ ← I.expr e
    match e with
    | .var name pos =>
      match (← sighting name pos).place.root with
      | .cell _ => return .bool true
      | _ => return .bool false
    | _ => return .bool false
  | name, arguments => if here then I.callHere name arguments pos else I.callApart name arguments pos

/-- **A value that a chain has come to**, where it can be written, and whether it may be. -/
structure Standing where
  value : Value
  place : Option Place := none
  constant : Bool := false

/-- Write what a value has become. -/
def Standing.become (s : Standing) (v : Value) : Eval Unit :=
  match s.place with
  | some p => if s.constant then pure () else modify (·.write p v)
  | none => pure ()

/-- The result of a call on a value, once that is written back. -/
def Standing.settle (s : Standing) (r : Returned) : Eval Value := do
  match r.this with
  | some v => s.become v
  | none => pure ()
  Eval.resume r.outcome

/-- A method that is a function of the script or of the library. What changes a constant fails. -/
def methodNamed (s : Standing) (name : String) (arguments : List Value) (pos : Position) : Eval Value := do
  match (← read).function? name arguments.length with
  | some f => s.settle (← I.invoke f (some name) (some s.value) (arguments.map .own) pos)
  | none =>
    match I.native? name (s.value :: arguments) pos with
    | none => Eval.failAt pos (Operation.unknown name (s.value :: arguments))
    | some call =>
      let out ← call
      match out.changed with
      | some w =>
        if s.constant then Eval.failAt pos (.constantReceiver name)
        s.become w
      | none => pure ()
      return out.result

/-- The function in a field of a map. -/
def fieldFunction? (v : Value) (name : String) : Option (String × List (Slot Function) × Option Function) :=
  match v with
  | .object fields =>
    match Datum.field? fields name with
    | some (.function f given code) => some (f, given, code)
    | _ => none
  | _ => none

/-- A method that is in a field of a map, or else has a name of its own. -/
def methodOf (s : Standing) (name : String) (arguments : List Value) (pos : Position) : Eval Value := do
  match fieldFunction? s.value name with
  | some (f, given, code) => s.settle (← I.callValue f given code (some s.value) arguments pos)
  | none => I.methodNamed s name arguments pos

/-- Is a place a cell? -/
def isCell : Option Place → Bool
  | some ⟨.cell _, []⟩ => true
  | _ => false

/-- **Call a method.** -/
def method (s : Standing) (name : String) (arguments : List Value) (pos : Position) : Eval Value := do
  match name, s.value, arguments with
  | "call", .function f given code, arguments =>
    (← I.callValue f given code none arguments pos).value
  | "call", _, .function f given code :: rest =>
    s.settle (← I.callValue f given code (some s.value) rest pos)
  | "call", v, _ => Eval.failAt pos (.mismatch "Fn" v.typeName)
  | "curry", .function f given code, arguments =>
    return .function f (given ++ arguments.map .own) code
  | "is_shared", _, [] => return .bool (isCell s.place)
  | name, _, arguments => I.methodOf s name arguments pos

end Interpreter

end Dialogue.Script
