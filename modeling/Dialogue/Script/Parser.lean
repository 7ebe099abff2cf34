import Dialogue.Script.Lexer
import Dialogue.Script.Operator
import Dialogue.Script.Syntax
import Dialogue.Script.SyntaxError
/-!
# `Dialogue.Script.Parser` — scripts from tokens.

A script is a sequence of statements, or a single expression in which no statements may stand. While reading, the
variables in reach are kept track of: a closure shares those that are not its own, a constant is not assigned to,
and a name declared again in the same block takes the place of the first.
-/

namespace Dialogue.Script.Parser

open Lexer (Located)

/-- **Where reading stands.** -/
structure Reading where
  /-- The tokens that are left. -/
  tokens : List Located
  /-- The variables in reach, newest first, and whether each is constant. -/
  locals : List (String × Bool) := []
  /-- How many of them were there before the current block. -/
  outside : Nat := 0
  /-- Names used that are no variables in reach, in order of first use. -/
  foreign : List (String × Position) := []
  /-- The functions defined so far. -/
  functions : List Function := []

/-- **What may stand here.** -/
structure Mode where
  /-- Only expressions may stand in blocks. -/
  plain : Bool := false
  /-- Functions may be defined. -/
  global : Bool := false
  /-- A loop can be left. -/
  inLoop : Bool := false
  /-- There may be a value that the function is called on. -/
  inFunction : Bool := false
  /-- A `|` separates alternatives. -/
  alternatives : Bool := false

/-- A step of reading. -/
abbrev Parse := StateT Reading (Except SyntaxError)

/-- Give up. -/
def fail (cause : SyntaxCause) (pos : Position) : Parse α := throw ⟨cause, pos⟩

/-! ## Single tokens -/

/-- The next token and its place. -/
def peek : Parse Located := do
  return ((← get).tokens.head?).getD (.done, .start)

/-- Go past the next token; the end of the script stays. -/
def advance : Parse Unit :=
  modify fun r => match r.tokens with
    | _ :: next :: rest => { r with tokens := next :: rest }
    | _ => r

/-- Take the next token. -/
def take : Parse Located := do
  let t ← peek
  advance
  return t

/-- Is the next token a mark? If so, go past it. -/
def skipMark (mark : String) : Parse Bool := do
  let (t, _) ← peek
  if t.isMark mark then
    advance
    return true
  return false

/-- Report a token that should not stand here: a fault of its own goes first. -/
def refuse (t : Token) (cause : SyntaxCause) (pos : Position) : Parse α :=
  match t with
  | .invalid fault => fail (.lexical fault) pos
  | _ => fail cause pos

/-- The next token has to be a mark. -/
def demand (mark purpose : String) : Parse Position := do
  let (t, pos) ← peek
  if t.isMark mark then
    advance
    return pos
  refuse t (.missing mark purpose) pos

/-- A name for a variable. -/
def variableName : Parse (String × Position) := do
  let (t, pos) ← take
  match t with
  | .name s => return (s, pos)
  | .reserved s => fail (.reserved s) pos
  | _ => refuse t .variableExpected pos

/-! ## Variables in reach -/

/-- Use a variable: a name that is not in reach is foreign. -/
def useVariable (name : String) (pos : Position) : Parse Unit :=
  modify fun r =>
    if r.locals.any (·.1 == name) || r.foreign.any (·.1 == name) then r
    else { r with foreign := r.foreign ++ [(name, pos)] }

/-- Bring a variable into reach. -/
def addLocal (name : String) (constant : Bool) : Parse Unit :=
  modify fun r => { r with locals := (name, constant) :: r.locals }

/-- Declare a variable: the entry it takes the place of, if the block has one of that name. -/
def declareLocal (name : String) (constant : Bool) : Parse (Option Nat) := do
  let r ← get
  let here := r.locals.take (r.locals.length - r.outside)
  match here.findIdx? (·.1 == name) with
  | some i =>
    set { r with locals := r.locals.set i (name, constant) }
    return some i
  | none =>
    addLocal name constant
    return none

/-- Read something in a scope of its own. -/
def inScope (p : Parse α) : Parse α := do
  let before ← get
  set { before with outside := before.locals.length }
  let a ← p
  modify fun r => { r with
    locals := r.locals.drop (r.locals.length - before.locals.length)
    outside := before.outside }
  return a

/-- **Read something with variables of its own.** Also yields the names it used and did not have. -/
def isolated (params : List String) (p : Parse α) : Parse (α × List (String × Position)) := do
  let before ← get
  set { before with locals := (params.map ((·, false))).reverse, outside := 0, foreign := [] }
  let a ← p
  let after ← get
  set { after with locals := before.locals, outside := before.outside, foreign := before.foreign }
  return (a, after.foreign)

/-! ## Checks on expressions -/

/-- What a literal is, in words. -/
def kindOf? : Constant → Option String
  | .unit => some "()"
  | .float _ => some "a floating-point number"
  | .char _ => some "a character"
  | .str _ => some "a string"
  | .int _ => some "a number"
  | .array _ => some "an array"
  | .object _ => some "an object map"
  | _ => none

/-- What a literal expression is, in words. -/
def literalKind? : Expr → Option String
  | .constant v _ => kindOf? v
  | .template .. => some "a string"
  | .array .. => some "an array"
  | .object .. => some "an object map"
  | _ => none

/-- The expression may be a truth value. -/
def checkBool (e : Expr) : Parse Expr :=
  match literalKind? e with
  | some kind => fail (.mismatched "a boolean expression" kind) e.start
  | none => return e

/-- The expression may be something to go through. -/
def checkIterable (e : Expr) : Parse Expr :=
  match e, literalKind? e with
  | .constant (.str _) _, _ | .constant (.int _) _, _ | .template .., _ | .array .., _ => return e
  | _, some kind => fail (.mismatched "an iterable value" kind) e.start
  | _, none => return e

/-- No block may stand for a condition. -/
def checkNoBlock : Parse Unit := do
  let (t, pos) ← peek
  if t.isMark "\x7b" then fail (.expressionExpected "a boolean") pos

/-- No assignment may stand for a condition. -/
def checkNoAssignment : Parse Unit := do
  let (t, pos) ← peek
  if t.isMark "=" then fail (.lexical (.refused "Possibly a typo of '=='?")) pos

/-- **A literal index fits a literal that is indexed.** -/
def checkIndex (root : Expr) (key : Expr) : Parse Unit := do
  let notIndexable : Bool := match root with
    | .constant (.float _) _ | .constant (.char _) _ | .constant (.bool _) _ | .constant .unit _
    | .both .. | .either .. => true
    | _ => false
  let refuseRoot : Parse Unit :=
    fail (.badIndex "Only arrays, object maps and strings can be indexed") root.start
  let refuseKey (text : String) : Parse Unit := fail (.badIndex text) key.start
  let noInteger (kind : String) : Parse Unit :=
    refuseKey s!"Array, string or bit-field expects integer index, not {kind}"
  match key with
  | .constant (.int _) _ =>
    match root with
    | .object .. => refuseKey "Object map expects string index, not a number"
    | _ => if notIndexable then refuseRoot
  | .constant (.str _) _ | .template .. =>
    match root with
    | .array .. | .constant (.str _) _ | .template .. =>
      refuseKey "Array, string or bit-field expects numeric index, not a string"
    | _ => if notIndexable then refuseRoot
  | .constant (.float _) _ => noInteger "a float"
  | .constant (.char _) _ => noInteger "a character"
  | .constant .unit _ => noInteger "()"
  | .constant (.bool _) _ | .both .. | .either .. => noInteger "a boolean"
  | _ => return

/-- **Build an assignment**, if the left side can be assigned to. -/
def assignment (target : Expr) (op : Option String) (value : Expr) (pos : Position) : Parse Stmt := do
  let built := Stmt.assign target op value pos
  match target with
  | .var name varPos =>
    match (← get).locals.find? (·.1 == name) with
    | some (_, true) => fail (.constantAssigned name) varPos
    | _ => return built
  | .this _ => return built
  | .chain root steps =>
    match steps.findSome? fun
      | .method _ _ pos _ _ => some pos
      | _ => none with
    | some methodPos => fail .notAssignable methodPos
    | none =>
      match root with
      | .var .. | .this _ => return built
      | _ => fail .notAssignable root.place
  | .both .. | .either .. | .orElse .. =>
    if op.isNone then fail (.lexical (.refused "Possibly a typo of '=='?")) pos
    else fail .notAssignable target.place
  | _ =>
    if target.isConstant then fail (.constantAssigned "") target.start
    else fail .notAssignable target.place

/-- **Build an operation.** Membership is a question to the right operand. -/
def operation (op : String) (left right : Expr) (pos : Position) : Parse Expr :=
  match op with
  | "&&" => return .both (← checkBool left) (← checkBool right) pos
  | "||" => return .either (← checkBool left) (← checkBool right) pos
  | "??" => return .orElse left right pos
  | "in" => return .operation "contains" [right, left] left.start
  | "!in" => return .operation "!" [.operation "contains" [right, left] left.start] pos
  | _ => return .operation op [left, right] pos

/-- **Build the negative of an expression.** The negative of a literal is a literal. -/
def negative (e : Expr) (pos : Position) : Expr :=
  match e with
  | .constant (.int n) _ =>
    match Operator.fitting? (-n.toInt) with
    | some m => .constant (.int m) pos
    | none => .constant (.float (-(Operator.toFloat n))) pos
  | .constant (.float x) _ => .constant (.float (-x)) pos
  | e => .operation "-" [e] pos

/-- The values that an alternative of a switch stands for. -/
def pattern? (e : Expr) : Option Constant :=
  match e with
  | .operation op [.constant (.int a) _, .constant (.int b) _] _ =>
    if op == ".." then some (.range a b false)
    else if op == "..=" then some (.range a b true)
    else none
  | e => e.literal?

/-! ## Parameters -/

/-- Parameters up to the closing mark, after the opening one. -/
def parameters (close function : String) : (fuel : Nat) → (before : List String) → Parse (List String)
  | 0, _ => fail .incomplete .start
  | fuel + 1, before => do
    let (t, pos) ← take
    if t.isMark close then return before
    let name ← match t with
      | .name s =>
        if before.contains s then fail (.parameterDuplicated function s) pos else pure s
      | _ => refuse t (.missing close (closeText close function)) pos
    let (t, pos) ← take
    if t.isMark close then return before ++ [name]
    else if t.isMark "," then parameters close function fuel (before ++ [name])
    else refuse t (.missing "," (separateText close function)) pos
where
  /-- What the closing mark is for. -/
  closeText (close function : String) : String :=
    if close == "|" then "to close the parameters list of anonymous function or closure"
    else s!"to close the parameters list of function '{function}'"
  /-- What a comma is for. -/
  separateText (close function : String) : String :=
    if close == "|" then "to separate the parameters of anonymous function"
    else s!"to separate the parameters of function '{function}'"

/-- How many steps the reading of a list of tokens may nest. -/
def budget (tokens : List Located) : Nat := 16 * tokens.length + 64

/-- The next token in the place of an operator. A symbol that is set aside is an unknown operator. -/
def operatorAhead : Parse Located := do
  let (t, pos) ← peek
  match t with
  | .reserved s => if isWord s then return (t, pos) else fail (.unknownOperator s) pos
  | .invalid fault => fail (.lexical fault) pos
  | _ => return (t, pos)

/-- Refuse a token that starts no expression. -/
def unexpected (t : Token) (pos : Position) : Parse α :=
  refuse t (.lexical (.unexpected t.text)) pos

/-- Take a literal. -/
def literal (v : Constant) (pos : Position) : Parse Expr := do
  advance
  return .constant v pos

/-- A word that is set aside, where it is not called. -/
def reservedWord (m : Mode) (word : String) (pos : Position) : Parse Expr :=
  if word == "this" && m.inFunction then return .this pos
  else fail (.reserved word) pos

/-- The name of a property or a method. -/
def stepName : Parse (String × Position) := do
  let (t, pos) ← take
  match t with
  | .name s => return (s, pos)
  | .reserved s =>
    if Token.methodWords.contains s then return (s, pos) else fail (.reserved s) pos
  | _ => refuse t .propertyExpected pos

/-- What a closure is called: no name of a script, and one for each place. -/
def closureName (pos : Position) : String := "anon$" ++ toString pos.line ++ "_" ++ toString pos.column

/-- The values of alternatives. A number may not follow a range. -/
def checkPatterns (afterRange : Bool) : List Expr → Parse (List Constant)
  | [] => return []
  | e :: es =>
    match pattern? e with
    | none => fail (.expressionExpected "a literal") e.start
    | some v => do
      let isRange := match v with
        | .range .. => true
        | _ => false
      let isInt := match v with
        | .int _ => true
        | _ => false
      if afterRange && isInt then fail .caseAfterRange e.start
      return v :: (← checkPatterns (afterRange || isRange) es)

/-- What follows an arm of a switch. -/
def switchSeparator (ends : Bool) : Parse Unit := do
  let (t, pos) ← peek
  match t with
  | .mark "," => advance
  | .mark "\x7d" => return
  | .done => fail (.missing "\x7d" "to end this switch block") pos
  | .invalid fault => fail (.lexical fault) pos
  | _ => if !ends then fail (.missing "," "to separate the items in this switch block") pos

/-- **What follows a statement.** One that does not end by itself needs a semicolon, unless it is the last. -/
def statementEnd (s : Stmt) (inBlock : Bool) : Parse Unit := do
  let (t, pos) ← peek
  match t with
  | .mark ";" => if inBlock || !s.endsItself then advance
  | .invalid fault => fail (.lexical fault) pos
  | t =>
    let last := if inBlock then t.isMark "\x7d" else match t with
      | .done => true
      | _ => false
    if !last && !s.endsItself then fail (.missing ";" "to terminate this statement") pos

/-! ## The grammar -/

mutual

/-- **An expression.** -/
def expression : (fuel : Nat) → Mode → Parse Expr
  | 0, _ => fail .incomplete .start
  | fuel + 1, m => do
    let left ← unary fuel m
    binary fuel m 1 left

/-- Operators that bind at least as strongly as `parent`, after their left operand. -/
def binary : (fuel : Nat) → Mode → (parent : Nat) → Expr → Parse Expr
  | 0, _, _, _ => fail .incomplete .start
  | fuel + 1, m, parent, left => do
    let (t, pos) ← operatorAhead
    let strength := if m.alternatives && t.isMark "|" then 0 else t.precedence
    if strength < parent || (strength == parent && !t.groupsRight) then return left
    advance
    let right ← unary fuel m
    let (next, _) ← operatorAhead
    let nextStrength := if m.alternatives && next.isMark "|" then 0 else next.precedence
    let right ←
      if (strength == nextStrength && t.groupsRight) || strength < nextStrength then
        binary fuel m strength right
      else pure right
    let built ← operation t.text left right pos
    binary fuel m parent built

/-- A prefix operator and its operand, or no operator. -/
def unary : (fuel : Nat) → Mode → Parse Expr
  | 0, _ => fail .incomplete .start
  | fuel + 1, m => do
    let (t, pos) ← peek
    match t with
    | .done => fail .incomplete pos
    | .mark "-" =>
      advance
      return negative (← unary fuel m) pos
    | .mark "+" =>
      advance
      match ← unary fuel m with
      | e@(.constant (.int _) _) | e@(.constant (.float _) _) => return e
      | e => return .operation "+" [e] pos
    | .mark "!" =>
      advance
      return .operation "!" [← unary fuel m] pos
    | _ =>
      let root ← primary fuel m
      match ← steps fuel m root false [] with
      | [] => return root
      | ss => return .chain root ss

/-- The steps of a chain, after those in `before`. -/
def steps : (fuel : Nat) → Mode → (root : Expr) → (afterIndex : Bool) → (before : List Step) →
    Parse (List Step)
  | 0, _, _, _, _ => fail .incomplete .start
  | fuel + 1, m, root, afterIndex, before => do
    let (t, pos) ← peek
    match t with
    | .mark "[" | .mark "?[" =>
      advance
      let key ← expression fuel { m with alternatives := false }
      if !afterIndex then
        checkIndex (if before.isEmpty then root else .this pos) key
      let _ ← demand "]" "for a matching [ in this index expression"
      steps fuel m root true (before ++ [.index key pos (t.isMark "?[")])
    | .mark "." | .mark "?." =>
      advance
      let optional := t.isMark "?."
      let (name, namePos) ← stepName
      let (next, _) ← peek
      let step ← match next with
        | .mark "(" | .unit => do
          let arguments ← callArguments fuel m name
          pure (Step.method name arguments namePos pos optional)
        | _ => pure (Step.property name namePos pos optional)
      steps fuel m root false (before ++ [step])
    | _ => return before

/-- The arguments of a call, from the opening parenthesis on. -/
def callArguments : (fuel : Nat) → Mode → (name : String) → Parse (List Expr)
  | 0, _, _ => fail .incomplete .start
  | fuel + 1, m, name => do
    let (t, _) ← take
    match t with
    | .unit => return []
    | _ =>
      let (next, pos) ← peek
      match next with
      | .done =>
        fail (.missing ")" s!"to close the arguments list of this function call '{name}'") pos
      | .mark ")" =>
        advance
        return []
      | _ => moreArguments fuel { m with alternatives := false } name []

/-- Arguments after those in `before`. -/
def moreArguments : (fuel : Nat) → Mode → (name : String) → List Expr → Parse (List Expr)
  | 0, _, _, _ => fail .incomplete .start
  | fuel + 1, m, name, before => do
    let (t, _) ← peek
    let before ← if t.isMark ")" then pure before else do
      let e ← expression fuel m
      pure (before ++ [e])
    let (t, pos) ← peek
    match t with
    | .mark ")" =>
      advance
      return before
    | .mark "," =>
      advance
      moreArguments fuel m name before
    | .done =>
      fail (.missing ")" s!"to close the arguments list of this function call '{name}'") pos
    | _ =>
      refuse t (.missing "," s!"to separate the arguments to function call '{name}'") pos

/-- An expression without operators and steps. -/
def primary : (fuel : Nat) → Mode → Parse Expr
  | 0, _ => fail .incomplete .start
  | fuel + 1, m => do
    let inner := { m with alternatives := false }
    let (t, pos) ← peek
    match t with
    | .done => fail .incomplete pos
    | .unit => literal .unit pos
    | .int n => literal (.int n) pos
    | .float x => literal (.float x) pos
    | .char c => literal (.char c) pos
    | .str s => literal (.str s) pos
    | .template s =>
      advance
      let pieces ← templatePieces fuel inner
      let text := if s.isEmpty then [] else [Expr.constant (.str s) pos]
      return .template (text ++ pieces) pos
    | .name s =>
      advance
      let (next, _) ← peek
      match next with
      | .mark "(" | .unit => return .call s (← callArguments fuel inner s) pos false
      | .mark "!" => bangCall fuel inner s pos
      | _ =>
        useVariable s pos
        return .var s pos
    | .reserved s =>
      advance
      let (next, _) ← peek
      match next with
      | .mark "(" | .unit =>
        if Token.callableWords.contains s then return .call s (← callArguments fuel inner s) pos false
        else reservedWord m s pos
      | .mark "!" =>
        if Token.callableWords.contains s then bangCall fuel inner s pos else reservedWord m s pos
      | _ => reservedWord m s pos
    | .invalid fault => fail (.lexical fault) pos
    | .mark mark =>
      match mark with
      | "true" => literal (.bool true) pos
      | "false" => literal (.bool false) pos
      | "(" =>
        advance
        if ← skipMark ")" then return .constant .unit pos
        let e ← expression fuel inner
        let _ ← demand ")" "for a matching ( in this expression"
        return e
      | "[" =>
        advance
        return .array (← arrayItems fuel inner []) pos
      | "#\x7b" =>
        advance
        return .object (← objectFields fuel inner []) pos
      | "if" => return .statements [← ifStatement fuel inner] pos
      | "switch" => return .statements [← switchStatement fuel inner] pos
      | "|" | "||" => closure fuel inner
      | "\x7b" =>
        if m.plain then unexpected t pos
        else return .statements [← block fuel inner] pos
      | "while" | "loop" | "do" | "for" =>
        if m.plain then unexpected t pos
        else return .statements [← loopStatement fuel inner] pos
      | _ => unexpected t pos

/-- A call with a `!` after the name. -/
def bangCall : (fuel : Nat) → Mode → String → Position → Parse Expr
  | 0, _, _, _ => fail .incomplete .start
  | fuel + 1, m, name, pos => do
    advance
    let (next, nextPos) ← peek
    match next with
    | .mark "(" | .unit => return .call name (← callArguments fuel m name) pos true
    | _ => refuse next (.missing "(" "to start arguments list of function call") nextPos

/-- The pieces of a template after its first text. -/
def templatePieces : (fuel : Nat) → Mode → Parse (List Expr)
  | 0, _ => fail .incomplete .start
  | fuel + 1, m => do
    let (_, blockPos) ← peek
    let body ← block fuel m
    let piece := Expr.statements [body] blockPos
    let (t, pos) ← take
    let text (s : String) : List Expr := if s.isEmpty then [] else [.constant (.str s) pos]
    match t with
    | .str s => return piece :: text s
    | .template s => return piece :: text s ++ (← templatePieces fuel m)
    | _ => refuse t .incomplete pos

/-- The items of an array, after those in `before`. -/
def arrayItems : (fuel : Nat) → Mode → List Expr → Parse (List Expr)
  | 0, _, _ => fail .incomplete .start
  | fuel + 1, m, before => do
    let close := SyntaxCause.missing "]" "to end this array literal"
    let (t, pos) ← peek
    match t with
    | .mark "]" =>
      advance
      return before
    | .done => fail close pos
    | _ =>
      let e ← expression fuel m
      let (t, pos) ← peek
      match t with
      | .mark "," =>
        advance
        arrayItems fuel m (before ++ [e])
      | .mark "]" => arrayItems fuel m (before ++ [e])
      | .done => fail close pos
      | _ => refuse t (.missing "," "to separate the items of this array literal") pos

/-- The fields of a map, after those in `before`. -/
def objectFields : (fuel : Nat) → Mode → List (String × Expr) → Parse (List (String × Expr))
  | 0, _, _ => fail .incomplete .start
  | fuel + 1, m, before => do
    let close := SyntaxCause.missing "\x7d" "to end this object map literal"
    let (t, pos) ← take
    match t with
    | .mark "\x7d" => return before
    | .done => fail close pos
    | .name s | .str s =>
      if before.any (·.1 == s) then fail (.duplicatedProperty s) pos
      let _ ← demand ":" s!"to follow the property '{s}' in this object map literal"
      let e ← expression fuel m
      let (t, pos) ← peek
      match t with
      | .mark "," =>
        advance
        objectFields fuel m (before ++ [(s, e)])
      | .mark "\x7d" => objectFields fuel m (before ++ [(s, e)])
      | .name _ => fail (.missing "," "to separate the items of this object map literal") pos
      | _ => refuse t close pos
    | .reserved s => if isWord s then fail (.reserved s) pos else fail .propertyExpected pos
    | _ => refuse t .propertyExpected pos

/-- **A closure**, from its first bar on. It shares the variables that are not its own. -/
def closure : (fuel : Nat) → Mode → Parse Expr
  | 0, _ => fail .incomplete .start
  | fuel + 1, m => do
    let (t, pos) ← take
    let params ← if t.isMark "||" then pure []
      else parameters "|" "" (budget (← get).tokens) []
    let mode : Mode := { plain := m.plain, inFunction := true }
    let (body, captured) ← isolated params (statement fuel mode)
    for (name, at_) in captured do
      useVariable name at_
    let code := Function.mk (closureName pos) (captured.map (·.1) ++ params) [body]
    return .closure captured code pos

/-- An `if`, from its keyword on. -/
def ifStatement : (fuel : Nat) → Mode → Parse Stmt
  | 0, _ => fail .incomplete .start
  | fuel + 1, m => do
    let (_, pos) ← take
    checkNoBlock
    let cond ← checkBool (← expression fuel m)
    checkNoAssignment
    let yes ← blockBody fuel m
    if ← skipMark "else" then
      let (t, _) ← peek
      if t.isMark "if" then return .branch cond yes [← ifStatement fuel m] pos
      else return .branch cond yes (← blockBody fuel m) pos
    else return .branch cond yes [] pos

/-- A `switch`, from its keyword on. -/
def switchStatement : (fuel : Nat) → Mode → Parse Stmt
  | 0, _ => fail .incomplete .start
  | fuel + 1, m => do
    let (_, pos) ← take
    let item ← expression fuel m
    let _ ← demand "\x7b" "to start a switch block"
    let (arms, fallback) ← switchArms fuel m [] none
    return .switch item arms fallback pos

/-- The arms of a switch, after those in `before`. -/
def switchArms : (fuel : Nat) → Mode → List Arm → Option (Expr × Position) →
    Parse (List Arm × Option Expr)
  | 0, _, _, _ => fail .incomplete .start
  | fuel + 1, m, before, fallback => do
    let close := SyntaxCause.missing "\x7d" "to end this switch block"
    let (t, pos) ← peek
    match t, fallback with
    | .mark "\x7d", _ =>
      advance
      return (before, fallback.map (·.1))
    | .done, _ => fail close pos
    | _, some (_, fallbackPos) => fail .defaultCaseNotLast fallbackPos
    | .mark "_", none =>
      advance
      let (t, ifPos) ← peek
      if t.isMark "if" then fail .caseWithCondition ifPos
      let (action, ends) ← switchAction fuel m
      switchSeparator ends
      switchArms fuel m before (some (action, pos))
    | _, none =>
      let patterns ← switchPatterns fuel { m with alternatives := true }
      let hasRange := before.any fun
        | .mk ps _ _ => ps.any fun
          | .range .. => true
          | _ => false
      let values ← checkPatterns hasRange patterns
      let guard ← if ← skipMark "if" then do
          checkNoBlock
          let g ← checkBool (← expression fuel m)
          pure (some g)
        else pure none
      let (action, ends) ← switchAction fuel m
      switchSeparator ends
      switchArms fuel m (before ++ [.mk values guard action]) none

/-- The alternatives of an arm. -/
def switchPatterns : (fuel : Nat) → Mode → Parse (List Expr)
  | 0, _ => fail .incomplete .start
  | fuel + 1, m => do
    let e ← fun r => match expression fuel m r with
      | .ok out => .ok out
      | .error err => .error ⟨.expressionExpected "a literal", err.pos⟩
    if ← skipMark "|" then return e :: (← switchPatterns fuel m)
    else return [e]

/-- The arrow of an arm and what follows it, which is a block of its own; also, whether that ends by itself. -/
def switchAction : (fuel : Nat) → Mode → Parse (Expr × Bool)
  | 0, _ => fail .incomplete .start
  | fuel + 1, m => do
    let _ ← demand "=>" "in this switch case"
    if m.plain then
      return (← expression fuel m, false)
    else
      let (_, pos) ← peek
      let s ← inScope (statement fuel { m with global := false })
      return (.statements [s] pos, s.endsItself)

/-- A loop, from its keyword on. -/
def loopStatement : (fuel : Nat) → Mode → Parse Stmt
  | 0, _ => fail .incomplete .start
  | fuel + 1, m => do
    let (t, pos) ← take
    let inner := { m with inLoop := true }
    match t with
    | .mark "while" =>
      checkNoBlock
      let cond ← checkBool (← expression fuel m)
      checkNoAssignment
      return .repeatWhile (some cond) (← blockBody fuel inner) pos
    | .mark "loop" => return .repeatWhile none (← blockBody fuel inner) pos
    | .mark "do" =>
      let body ← blockBody fuel inner
      let (t, kindPos) ← take
      let goOn ← match t with
        | .mark "while" => pure true
        | .mark "until" => pure false
        | _ => refuse t (.missing "while" "for the do statement") kindPos
      checkNoBlock
      let cond ← checkBool (← expression fuel m)
      checkNoAssignment
      return .repeatAfter body cond goOn pos
    | _ =>
      let (name, counter) ← if ← skipMark "(" then do
          let (name, _) ← variableName
          let _ ← demand "," "after the iteration variable name"
          let (counter, counterPos) ← variableName
          if counter == name then fail (.duplicatedVariable counter) counterPos
          let _ ← demand ")" "to close the iteration variable"
          pure (name, some counter)
        else do
          let (name, _) ← variableName
          pure (name, none)
      let _ ← demand "in" "after the iteration variable"
      checkNoBlock
      let items ← checkIterable (← expression fuel m)
      let body ← inScope do
        match counter with
        | some c => addLocal c false
        | none => pure ()
        addLocal name false
        blockBody fuel inner
      return .each name counter items body pos

/-- A block as a statement. -/
def block : (fuel : Nat) → Mode → Parse Stmt
  | 0, _ => fail .incomplete .start
  | fuel + 1, m => do
    let (_, pos) ← peek
    return .block (← blockBody fuel m) pos

/-- **The statements of a block**, braces included. -/
def blockBody : (fuel : Nat) → Mode → Parse (List Stmt)
  | 0, _ => fail .incomplete .start
  | fuel + 1, m => do
    let _ ← demand "\x7b" "to start a statement block"
    if m.plain then
      let s ← expressionStatement fuel m
      let (t, pos) ← take
      if t.isMark "\x7d" then return [s]
      refuse t (.missing "\x7b" "to start a statement block") pos
    else inScope (blockStatements fuel { m with global := false, alternatives := false } [])

/-- The statements of a block after those in `before`, up to its closing brace. -/
def blockStatements : (fuel : Nat) → Mode → List Stmt → Parse (List Stmt)
  | 0, _, _ => fail .incomplete .start
  | fuel + 1, m, before => do
    let (t, pos) ← peek
    match t with
    | .mark "\x7d" =>
      advance
      return before
    | .done => fail (.missing "\x7d" "to terminate this block") pos
    | .invalid fault => fail (.lexical fault) pos
    | _ =>
      let s ← statement fuel m
      if s.isNoop then blockStatements fuel m before
      else
        statementEnd s true
        blockStatements fuel m (before ++ [s])

/-- An expression as a statement, or an assignment. -/
def expressionStatement : (fuel : Nat) → Mode → Parse Stmt
  | 0, _ => fail .incomplete .start
  | fuel + 1, m => do
    let target ← expression fuel m
    let (t, pos) ← peek
    if t.isMark "=" then
      advance
      assignment target none (← expression fuel m) pos
    else match t.assignOperator? with
      | some op =>
        advance
        assignment target (some op) (← expression fuel m) pos
      | none => return .expr target

/-- **A statement.** -/
def statement : (fuel : Nat) → Mode → Parse Stmt
  | 0, _ => fail .incomplete .start
  | fuel + 1, m => do
    let (t, pos) ← peek
    match t with
    | .done => return .noop pos
    | .mark mark =>
      match mark with
      | ";" =>
        advance
        return .noop pos
      | "\x7b" => block fuel m
      | "fn" =>
        if !m.global then fail .functionNotGlobal pos
        advance
        functionDefinition fuel pos
        return .noop pos
      | "private" =>
        if !m.global then fail .functionNotGlobal pos
        advance
        let fnPos ← demand "fn" "following 'private'"
        functionDefinition fuel fnPos
        return .noop pos
      | "if" => ifStatement fuel { m with global := false }
      | "switch" => switchStatement fuel { m with global := false }
      | "while" | "loop" | "do" | "for" => loopStatement fuel { m with global := false }
      | "continue" =>
        if !m.inLoop then fail .breakOutsideLoop pos
        advance
        return .proceed pos
      | "break" =>
        if !m.inLoop then fail .breakOutsideLoop pos
        advance
        return .leave (← optionalValue fuel m) pos
      | "return" =>
        advance
        return .giveBack (← optionalValue fuel m) pos
      | "throw" =>
        advance
        return .raise (← optionalValue fuel m) pos
      | "try" => tryStatement fuel { m with global := false }
      | "let" => declaration fuel m false
      | "const" => declaration fuel m true
      | "import" =>
        advance
        let path ← expression fuel m
        if ← skipMark "as" then
          let _ ← variableName
        return .importModule path pos
      | _ => expressionStatement fuel m
    | _ => expressionStatement fuel m

/-- A value that may follow a keyword. -/
def optionalValue : (fuel : Nat) → Mode → Parse (Option Expr)
  | 0, _ => fail .incomplete .start
  | fuel + 1, m => do
    let (t, _) ← peek
    match t with
    | .done | .mark "\x7d" | .mark ";" => return none
    | _ => return some (← expression fuel m)

/-- A declaration, from its keyword on. -/
def declaration : (fuel : Nat) → Mode → (constant : Bool) → Parse Stmt
  | 0, _, _ => fail .incomplete .start
  | fuel + 1, m, constant => do
    advance
    let (name, pos) ← variableName
    let value ← if ← skipMark "=" then expression fuel m else pure (.constant .unit pos)
    let inPlace ← declareLocal name constant
    return .declare name constant inPlace value pos

/-- A `try`, from its keyword on. -/
def tryStatement : (fuel : Nat) → Mode → Parse Stmt
  | 0, _ => fail .incomplete .start
  | fuel + 1, m => do
    let (_, pos) ← take
    let body ← blockBody fuel m
    let _ ← demand "catch" "for the 'try' statement"
    let name ← if ← skipMark "(" then do
        let (name, _) ← variableName
        let _ ← demand ")" "to enclose the catch variable"
        pure (some name)
      else pure none
    let handler ← inScope do
      match name with
      | some n => addLocal n false
      | none => pure ()
      blockBody fuel m
    return .attempt body name handler pos

/-- **The definition of a function**, after its keyword, which stands at `pos`. -/
def functionDefinition : (fuel : Nat) → (pos : Position) → Parse Unit
  | 0, _ => fail .incomplete .start
  | fuel + 1, pos => do
    let (t, namePos) ← take
    let name ← match t with
      | .name s => pure s
      | .reserved s => fail (.reserved s) namePos
      | _ => refuse t .functionNameMissing namePos
    let (t, openPos) ← take
    let params ← match t with
      | .unit => pure []
      | .mark "(" => parameters ")" name (budget (← get).tokens) []
      | _ => refuse t (.functionParametersMissing name) openPos
    let (t, bodyPos) ← peek
    if !t.isMark "\x7b" then refuse t (.functionBodyMissing name) bodyPos
    let (body, _) ← isolated params (blockBody fuel { inFunction := true })
    let f := Function.mk name params body
    let defined := (← get).functions
    if defined.any fun g => g.name == name && g.arity == f.arity then
      fail (.functionDuplicated name f.arity) pos
    modify fun r => { r with functions := defined ++ [f] }

end

/-- The statements of a script, after those in `before`. -/
def globalStatements : (fuel : Nat) → List Stmt → Parse (List Stmt)
  | 0, _ => fail .incomplete .start
  | fuel + 1, before => do
    let (t, _) ← peek
    match t with
    | .done => return before
    | _ =>
      let s ← statement fuel { global := true }
      if s.isNoop then globalStatements fuel before
      else
        statementEnd s false
        globalStatements fuel (before ++ [s])

/-- Run a reader on a text. -/
def run (p : Nat → Parse α) (text : String) : Except SyntaxError (α × Reading) :=
  let tokens := tokens text
  (p (budget tokens)).run { tokens }
where
  /-- The tokens of a text. -/
  tokens := Lexer.tokens

/-- **Read a script.** -/
def script (text : String) : Except SyntaxError Program := do
  let (statements, reading) ← run (globalStatements · []) text
  return ⟨statements, reading.functions⟩

/-- **Read a single expression.** -/
def singleExpression (text : String) : Except SyntaxError Program := do
  let (e, _) ← run (fun fuel => do
    let e ← expression fuel { plain := true, global := true }
    let (t, pos) ← peek
    match t with
    | .done => return e
    | _ => refuse t (.lexical (.unexpected t.text)) pos) text
  return ⟨[.expr e], []⟩

end Dialogue.Script.Parser
