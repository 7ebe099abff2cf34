import Dialogue.Script.Operator
import Dialogue.Script.Purity
/-!
# `Dialogue.Script.Simplify` — scripts made shorter before they are run.

What is known beforehand is put in its place: literals are computed with, constants are replaced by their values,
branches that cannot be taken are dropped, and so is pure code whose value is not used. Functions see the
constants of the scope that they are defined in only in this way. A step that changes something is followed by
another pass, until nothing changes.
-/

namespace Dialogue.Script.Simplify

/-- **What is known of the variables in reach**, by name: the value of a constant, or nothing. -/
abbrev Known := String → Option Constant

/-- A new variable hides what is known of its name. -/
def Known.set (k : Known) (name : String) (v : Option Constant) : Known :=
  fun other => if other == name then v else k other

/-- Nothing is known of new variables of these names. -/
def Known.without (k : Known) (names : List String) : Known :=
  fun other => if names.contains other then none else k other

/-- A pass over code; the state says whether it has changed anything. -/
abbrev Pass := StateM Bool

/-- A change. -/
def changed (a : α) : Pass α := do
  set true
  return a

/-- **What a block is to be kept for.** -/
structure Purpose where
  /-- Its value is used. -/
  value : Bool
  /-- It is inside other code, which does not see its variables. -/
  inner : Bool := true
  /-- It is the whole of a script or a function, where giving back a value is the same as having it. -/
  whole : Bool := false

/-! ## Statements of a block -/

/-- Blocks without variables of their own become part of the block around them. -/
def flattened : List Stmt → Pass (List Stmt)
  | [] => return []
  | .block body pos :: rest => do
    let rest ← flattened rest
    if body.any Stmt.bindsInBlock then return .block body pos :: rest
    else changed (body ++ rest)
  | s :: rest => return s :: (← flattened rest)

/-- The statements up to the first that ends the block. -/
def reached : List Stmt → Pass (List Stmt)
  | [] => return []
  | s :: rest =>
    if s.endsBlock then (if rest.isEmpty then return [s] else changed [s])
    else return s :: (← reached rest)

/-- Can the statement be dropped when it is not the last? -/
def droppable (p : Purpose) (s : Stmt) : Bool := if p.inner then s.isPureInside else s.isPure

/-- Does a statement matter to those before it, which may be variables that it looks at? -/
def holdsBack (p : Purpose) (s : Stmt) : Bool :=
  !droppable p s || match s with
    | .declare _ _ _ value _ => value.isConstant
    | .expr e => !e.isConstant
    | .importModule path _ => !path.isConstant
    | _ => false

/-- The position of the last statement that matters to those before it. -/
def lastHolding (p : Purpose) (ss : List Stmt) : Nat :=
  match ss.reverse.findIdx? (holdsBack p) with
  | some n => ss.length - n - 1
  | none => 0

/-- **Drop pure statements.** The last one stays if the value of the block is used. -/
def withoutPure (p : Purpose) (index holding : Nat) : List Stmt → Pass (List Stmt)
  | [] => return []
  | s :: rest =>
    if p.value && rest.isEmpty then return [s]
    else if droppable p s && holding ≤ index then do
      set true
      withoutPure p index holding rest
    else if s.isPure then do
      set true
      withoutPure p index (if index < holding then holding - 1 else holding) rest
    else return s :: (← withoutPure p (index + 1) holding rest)

/-- **Shorten the end of a block whose value is used.** The statements come last first. -/
def endForValue (p : Purpose) : (fuel : Nat) → List Stmt → Pass (List Stmt)
  | 0, ss => return ss
  | fuel + 1, ss =>
    match ss with
    | [.giveBack none pos] =>
      if p.whole then changed [] else return [.giveBack none pos]
    | [s] =>
      match s with
      | .giveBack (some e) pos =>
        if p.whole then changed [.expr e] else return [.giveBack (some e) pos]
      | s => if !s.hasValue && droppable p s then changed [] else return [s]
    | .giveBack none pos :: before :: rest =>
      if !p.whole then return ss
      else if before.hasValue then do
        set true
        endForValue p fuel (.noop pos :: before :: rest)
      else do
        set true
        endForValue p fuel (before :: rest)
    | .giveBack (some e) _ :: rest =>
      if p.whole then do
        set true
        endForValue p fuel (.expr e :: rest)
      else return ss
    | last :: before :: rest =>
      if last.isNoop && before.hasValue then return ss
      else if !last.hasValue && droppable p last then do
        set true
        if before.hasValue then return .noop (placeOf last) :: before :: rest
        else endForValue p fuel (before :: rest)
      else return ss
    | [] => return []
where
  /-- Where a statement stands. -/
  placeOf : Stmt → Position
    | .noop pos | .declare _ _ _ _ pos | .assign _ _ _ pos | .block _ pos | .branch _ _ _ pos
    | .switch _ _ _ pos | .repeatWhile _ _ pos | .repeatAfter _ _ _ pos | .each _ _ _ _ pos
    | .leave _ pos | .proceed pos | .giveBack _ pos | .raise _ pos | .attempt _ _ _ pos
    | .importModule _ pos => pos
    | .expr e => e.start

/-- **Shorten the end of a block whose value is not used.** The statements come last first. -/
def endForEffect (p : Purpose) : List Stmt → Pass (List Stmt)
  | [] => return []
  | s :: rest =>
    let idle := match s with
      | .giveBack none _ => p.whole
      | .giveBack (some e) _ => p.whole && e.isPure
      | s => droppable p s
    if idle then do
      set true
      endForEffect p rest
    else return s :: rest

/-- The statements of a block without what is not needed. -/
def pruned (p : Purpose) (ss : List Stmt) : Pass (List Stmt) := do
  let ss ← withoutPure p 0 (lastHolding p ss) ss
  let ss ← if p.value then endForValue p (ss.length + 1) ss.reverse else endForEffect p ss.reverse
  return ss.reverse

/-! ## Literals -/

/-- The value of an operator with literal operands, if it has one. -/
def folded? (op : String) (a b : Constant) : Option Constant :=
  match Operator.result? op a b with
  | some (.ok v) => some v
  | _ => none

/-- The item that a literal index means in literal items. -/
def item? (items : List Expr) (n : Int64) : Option Expr :=
  let i := n.toInt
  if 0 ≤ i then items[i.toNat]? else if -i ≤ items.length then items[items.length - (-i).toNat]? else none

/-- **The value of a single step from a literal**, if everything else in the literal is pure. -/
def literalStep? (root : Expr) (step : Step) : Option Expr :=
  match root, step with
  | .object fields pos, .property name _ _ _ => field? fields pos name
  | .object fields pos, .index (.constant (.str name) _) _ _ => field? fields pos name
  | .array items _, .index (.constant (.int n) _) _ _ =>
    if Expr.allPure items then item? items n else none
  | _, _ => none
where
  /-- The field of a literal map. -/
  field? (fields : List (String × Expr)) (pos : Position) (name : String) : Option Expr :=
    if Expr.allFieldsPure fields then
      some (((fields.find? (·.1 == name)).map (·.2)).getD (.constant .unit pos))
    else none

/-- Is the assignment one of a variable to an operation on that variable? If so, the operator, the other operand
and the place of the operator. -/
def selfOperation? (target value : Expr) : Option (String × Expr × Position) :=
  match target, value with
  | .var name _, .operation op [.var other _, e] pos =>
    if name == other && ["+", "-", "*", "/", "%", "**", "<<", ">>", "&", "|", "^"].contains op then
      some (op, e, pos)
    else none
  | _, _ => none

/-! ## The pass -/

mutual

/-- **One pass over an expression.** -/
def expr : (fuel : Nat) → Known → Expr → Pass Expr
  | 0, _, e => return e
  | fuel + 1, k, e =>
    match e with
    | .constant .. | .this _ | .closure .. => return e
    | .var name pos =>
      match k name with
      | some v => changed (.constant v pos)
      | none => return e
    | .template items pos =>
      match e.literal? with
      | some v => changed (.constant v pos)
      | none => return .template (← exprs fuel k items) pos
    | .array items pos =>
      match e.literal? with
      | some v => changed (.constant v pos)
      | none => return .array (← exprs fuel k items) pos
    | .object fs pos =>
      match e.literal? with
      | some v => changed (.constant v pos)
      | none => return .object (← fields fuel k fs) pos
    | .operation op args pos =>
      match op, args with
      | "!", [.constant (.bool b) _] => changed (.constant (.bool !b) pos)
      | op, [.constant a _, .constant b _] =>
        match folded? op a b with
        | some v => changed (.constant v pos)
        | none => return e
      | op, args => return .operation op (← exprs fuel k args) pos
    | .call name args pos here => return .call name (← exprs fuel k args) pos here
    | .both a b pos =>
      match a, b with
      | .constant (.bool true) _, b => do
        set true
        expr fuel k b
      | .constant (.bool false) p, _ => changed (.constant (.bool false) p)
      | a, .constant (.bool true) _ => do
        set true
        expr fuel k a
      | a, b => return .both (← expr fuel k a) (← expr fuel k b) pos
    | .either a b pos =>
      match a, b with
      | .constant (.bool false) _, b => do
        set true
        expr fuel k b
      | .constant (.bool true) p, _ => changed (.constant (.bool true) p)
      | a, .constant (.bool false) _ => do
        set true
        expr fuel k a
      | a, b => return .either (← expr fuel k a) (← expr fuel k b) pos
    | .orElse a b pos =>
      match a with
      | .constant .unit _ => do
        set true
        expr fuel k b
      | .constant v p => changed (.constant v p)
      | a => return .orElse (← expr fuel k a) (← expr fuel k b) pos
    | .chain root ss => do
      match ss with
      | [s] =>
        match literalStep? root s with
        | some found => changed found
        | none => return .chain (← chainRoot fuel k root) (← steps fuel k ss)
      | ss => return .chain (← chainRoot fuel k root) (← steps fuel k ss)
    | .statements [] pos => changed (.constant .unit pos)
    | .statements [.expr e] _ => do
      set true
      expr fuel k e
    | .statements body pos => do
      match ← block fuel k ⟨true, true, false⟩ body with
      | [.expr e] => changed e
      | body => return .statements body pos

/-- The root of a chain. A variable stays, as the chain may change it. -/
def chainRoot : (fuel : Nat) → Known → Expr → Pass Expr
  | 0, _, e => return e
  | fuel + 1, k, e =>
    match e with
    | .var .. => return e
    | e => expr fuel k e

/-- The steps of a chain. -/
def steps : (fuel : Nat) → Known → List Step → Pass (List Step)
  | 0, _, ss => return ss
  | _, _, [] => return []
  | fuel + 1, k, s :: ss => do
    let s ← match s with
      | .property .. => pure s
      | .index key bracket optional => pure (Step.index (← expr fuel k key) bracket optional)
      | .method name args pos dot optional =>
        pure (Step.method name (← exprs fuel k args) pos dot optional)
    return s :: (← steps fuel k ss)

/-- A list of expressions. -/
def exprs : (fuel : Nat) → Known → List Expr → Pass (List Expr)
  | 0, _, es => return es
  | _, _, [] => return []
  | fuel + 1, k, e :: es => return (← expr fuel k e) :: (← exprs fuel k es)

/-- The fields of a map. -/
def fields : (fuel : Nat) → Known → List (String × Expr) → Pass (List (String × Expr))
  | 0, _, fs => return fs
  | _, _, [] => return []
  | fuel + 1, k, (name, e) :: fs => return (name, ← expr fuel k e) :: (← fields fuel k fs)

/-- An expression that may be absent. -/
def optional : (fuel : Nat) → Known → Option Expr → Pass (Option Expr)
  | 0, _, e => return e
  | _, _, none => return none
  | fuel + 1, k, some e => return some (← expr fuel k e)

/-- The arms of a switch. -/
def arms : (fuel : Nat) → Known → List Arm → Pass (List Arm)
  | 0, _, as => return as
  | _, _, [] => return []
  | fuel + 1, k, .mk patterns guard action :: as =>
    return .mk patterns (← optional fuel k guard) (← expr fuel k action) :: (← arms fuel k as)

/-- **One pass over a statement**, whose value is used or not. -/
def stmt : (fuel : Nat) → Known → (value : Bool) → Stmt → Pass Stmt
  | 0, _, _, s => return s
  | fuel + 1, k, value, s =>
    match s with
    | .noop _ | .proceed _ => return s
    | .declare name constant inPlace e pos =>
      return .declare name constant inPlace (← expr fuel k e) pos
    | .assign target none e pos =>
      match selfOperation? target e with
      | some (op, operand, opPos) => changed (.assign target (some op) operand opPos)
      | none => return .assign (← assigned fuel k target) none (← expr fuel k e) pos
    | .assign target op e pos =>
      return .assign (← assigned fuel k target) op (← expr fuel k e) pos
    | .expr (.statements [] pos) => changed (.noop pos)
    | .expr (.statements body pos) => do
      set true
      return .block (← block fuel k ⟨true, true, false⟩ body) pos
    | .expr e => return .expr (← expr fuel k e)
    | .block body pos => do
      match ← block fuel k ⟨value, true, false⟩ body with
      | [] => changed (.noop pos)
      | [s] => if s.bindsInBlock then return .block [s] pos else changed s
      | body => return .block body pos
    | .branch cond yes no pos =>
      match cond, yes, no with
      | cond, [], [] => do
        set true
        let cond ← expr fuel k cond
        if value then return .block [.expr cond, .noop cond.start] cond.start else return .expr cond
      | .constant (.bool b) _, yes, no => do
        set true
        match ← block fuel k ⟨value, true, false⟩ (if b then yes else no) with
        | [] => return .noop pos
        | body => return .block body pos
      | cond, yes, no =>
        return .branch (← expr fuel k cond) (← block fuel k ⟨value, true, false⟩ yes)
          (← block fuel k ⟨value, true, false⟩ no) pos
    | .switch item as fallback pos =>
      return .switch (← expr fuel k item) (← arms fuel k as) (← optional fuel k fallback) pos
    | .repeatWhile (some (.constant (.bool false) _)) _ pos => changed (.noop pos)
    | .repeatWhile cond body pos =>
      return .repeatWhile (← optional fuel k cond) (← block fuel k ⟨false, true, false⟩ body) pos
    | .repeatAfter body cond goOn pos => do
      let cond ← expr fuel k cond
      return .repeatAfter (← block fuel k ⟨false, true, false⟩ body) cond goOn pos
    | .each name counter items body pos => do
      let items ← expr fuel k items
      let inner := k.without (name :: counter.toList)
      return .each name counter items (← block fuel inner ⟨false, true, false⟩ body) pos
    | .leave e pos => return .leave (← optional fuel k e) pos
    | .giveBack e pos => return .giveBack (← optional fuel k e) pos
    | .raise e pos => return .raise (← optional fuel k e) pos
    | .attempt body name handler pos =>
      if Stmt.allPure body then do
        set true
        return .block (← block fuel k ⟨false, true, false⟩ body) pos
      else do
        let body ← block fuel k ⟨false, true, false⟩ body
        let inner := k.without name.toList
        return .attempt body name (← block fuel inner ⟨false, true, false⟩ handler) pos
    | .importModule path pos => return .importModule (← expr fuel k path) pos

/-- What is assigned to. A variable stays. -/
def assigned : (fuel : Nat) → Known → Expr → Pass Expr
  | 0, _, e => return e
  | fuel + 1, k, e =>
    match e with
    | .var .. | .this _ => return e
    | e => expr fuel k e

/-- The statements of a block, each with what is known there. -/
def stmts : (fuel : Nat) → Known → (value : Bool) → List Stmt → Pass (List Stmt)
  | 0, _, _, ss => return ss
  | _, _, _, [] => return []
  | fuel + 1, k, value, s :: ss => do
    let s ← stmt fuel k value s
    let k := match s with
      | .declare name constant _ e _ => k.set name (if constant then e.literal? else none)
      | _ => k
    return s :: (← stmts fuel k value ss)

/-- **One pass over a block.** -/
def block : (fuel : Nat) → Known → Purpose → List Stmt → Pass (List Stmt)
  | 0, _, _, ss => return ss
  | fuel + 1, k, p, ss => do
    let ss ← flattened ss
    let ss ← reached ss
    let ss ← stmts fuel k p.value ss
    pruned p ss

end

/-- How deep a pass goes; code that is deeper stays as it is. -/
def depth : Nat := 100000

/-- Passes over a block until nothing changes. -/
def repeated (k : Known) (p : Purpose) : (tries : Nat) → List Stmt → List Stmt
  | 0, ss => ss
  | tries + 1, ss =>
    match (block depth k p ss).run false with
    | (ss, true) => repeated k p tries ss
    | (ss, false) => ss

/-- How often a pass is made at most. -/
def tries : Nat := 1000

/-- **A block that is the whole of a script or a function**, made shorter. -/
def wholeBlock (k : Known) (ss : List Stmt) : List Stmt :=
  repeated k ⟨true, false, true⟩ tries ss

/-- **A function** made shorter. It sees its parameters, and constants from outside. -/
def function (k : Known) (f : Function) : Function :=
  .mk f.name f.params (wholeBlock (k.without f.params) f.body)

/-- **A script** made shorter. -/
def script (k : Known) (s : Program) : Program :=
  ⟨wholeBlock k s.statements, s.functions.map (function k)⟩

end Dialogue.Script.Simplify
