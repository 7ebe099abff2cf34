import Dialogue.Include.Resolver
import Dialogue.Proofs.Script.Lockstep
import Dialogue.Proofs.Script.Simplify
/-!
# `Dialogue.Proofs.Include.Call` — expressions that include a file.

The plainest expression with an effect is a call of `include` with the text of a path. Main statements: that is how
`include("…")` is read when there is nothing between the quotes that has a meaning of its own, and evaluating such a
call asks for the file and yields what the request is answered with.
-/

namespace Dialogue.Include

open Script (Value Cell Expr Machine Eval Interpreter)

/-- A call of `include` with a literal path. -/
def callOf (path : String) (at_ pos : Position) : Script.Program :=
  ⟨[.expr (.call "include" [.constant (.str path) at_] pos false)], []⟩

/-- **Code that calls `include`** with a literal path, and does nothing else. -/
def Calls (code path : String) : Prop :=
  ∃ at_ pos, Script.Parser.singleExpression (Text.trimmed code) = .ok (callOf path at_ pos)

theorem Calls.unique {code path path' : String} (h : Calls code path) (h' : Calls code path') : path' = path := by
  obtain ⟨_, _, read⟩ := h
  obtain ⟨_, _, read'⟩ := h'
  rw [read] at read'
  cases read'
  rfl

/-! ## §1 — how calls are read -/

section

open Script (Token Lexer.readFrom Lexer.quoted)

/-- The name of the function is no word with a meaning of its own. -/
theorem ofWord_include : Token.ofWord "include" = .name "include" := by
  have keyword : Token.keywords.contains "include" = false := by decide +kernel
  have disabled : ("include" == "eval") = false := by decide +kernel
  have reserved : Token.reservedWords.contains "include" = false := by decide +kernel
  have proper : Token.isProperName "include".toList = true := by decide +kernel
  simp only [Token.ofWord, keyword, disabled, reserved, proper, Bool.false_eq_true, if_false, if_true]

/-- The letters of the name. -/
def nameLetters : List Char := ['i', 'n', 'c', 'l', 'u', 'd', 'e']

/-- **The text of a call.** -/
def callText (path : List Char) : List Char := nameLetters ++ '(' :: '"' :: (path ++ ['"', ')'])

/-- **Characters that stand for themselves** between quotes. -/
def IsPlain (path : List Char) : Prop := ∀ c ∈ path, c ≠ '"' ∧ c ≠ '\\' ∧ c ≠ '\n'

instance (path : List Char) : Decidable (IsPlain path) := List.decidableBAll _ path

/-- The name is read up to the parenthesis. -/
theorem readFrom_name (fuel : Nat) (rest : List Char) (p : Position) :
    Lexer.readFrom (fuel + 1) [] ⟨nameLetters ++ '(' :: rest, p⟩ =
      (.name "include", p) :: Lexer.readFrom fuel [] ⟨'(' :: rest, p.advanceBy nameLetters⟩ := by
  have letters : (nameLetters ++ '(' :: rest).takeWhile Token.inName = nameLetters := rfl
  have word : Token.ofWord (String.ofList nameLetters) = .name "include" := ofWord_include
  have notBlank : Text.isBlank 'i' = false := rfl
  have notDigit : Script.Lexer.isDigit 'i' = false := rfl
  have starts : Token.startsName 'i' = true := rfl
  conv => lhs; unfold Lexer.readFrom
  dsimp only [nameLetters, List.cons_append] at letters word ⊢
  rw [notBlank, notDigit, starts, letters, word]
  rfl

/-- Plain characters are read up to the closing quote. -/
theorem quoted_plain (margin : Nat) {path : List Char} (plain : IsPlain path) {fuel : Nat}
    (enough : path.length < fuel) (p : Position) :
    Lexer.quoted '"' margin fuel false ⟨path ++ ['"', ')'], p⟩ =
      .closed path ⟨[')'], (p.advanceBy path).advance '"'⟩ := by
  induction path generalizing fuel p with
  | nil =>
    cases fuel with
    | zero => cases enough
    | succ fuel => rfl
  | cons c path ih =>
    cases fuel with
    | zero => cases enough
    | succ fuel =>
      obtain ⟨⟨notQuote, notEscape, notEnd⟩, later⟩ := List.forall_mem_cons.mp plain
      have next : Lexer.quoted '"' margin (fuel + 1) false ⟨c :: path ++ ['"', ')'], p⟩ =
          (Lexer.quoted '"' margin fuel false ⟨path ++ ['"', ')'], p.advance c⟩).prepend [c] := by
        conv => lhs; unfold Lexer.quoted
        simp [notQuote, notEscape, Script.Lexer.Cursor.step]
      rw [next, ih later (Nat.lt_of_succ_lt_succ enough)]
      rfl

/-- **The tokens of a call.** -/
theorem tokens_callText {path : List Char} (plain : IsPlain path) : ∃ p₀ p₁ p₂ p₃ p₄,
    Script.Lexer.tokens (String.ofList (callText path)) =
      [(.name "include", p₀), (.mark "(", p₁), (.str (String.ofList path), p₂), (.mark ")", p₃), (.done, p₄)] := by
  have length : (callText path).length = path.length + 11 := by simp [callText, nameLetters]
  unfold Script.Lexer.tokens
  dsimp only
  rw [String.toList_ofList, length]
  unfold callText
  rw [readFrom_name]
  have opening (p : Position) : Lexer.readFrom (path.length + 11) [] ⟨'(' :: '"' :: (path ++ ['"', ')']), p⟩ =
      (.mark "(", p) :: Lexer.readFrom (path.length + 10) [] ⟨'"' :: (path ++ ['"', ')']), p.advance '('⟩ := rfl
  have closing (p : Position) : Lexer.readFrom (path.length + 9) [] ⟨[')'], p⟩ =
      [(.mark ")", p), (.done, p.advance ')')] := rfl
  have text (p : Position) : Lexer.readFrom (path.length + 10) [] ⟨'"' :: (path ++ ['"', ')']), p⟩ =
      (.str (String.ofList path), p) ::
        Lexer.readFrom (path.length + 9) [] ⟨[')'], ((p.advance '"').advanceBy path).advance '"'⟩ := by
    have enough : path.length < (path ++ ['"', ')']).length + 1 := by
      rw [List.length_append]
      omega
    conv => lhs; unfold Lexer.readFrom
    dsimp only [Script.Lexer.Cursor.step]
    rw [quoted_plain _ plain enough]
    rfl
  rw [opening, text, closing]
  exact ⟨_, _, _, _, _, rfl⟩

/-- **How a call is read.** -/
theorem calls_of_trim (code path : List Char) (plain : IsPlain path) (text : Text.trim code = callText path) :
    Calls (String.ofList code) (String.ofList path) := by
  obtain ⟨p₀, p₁, p₂, p₃, p₄, tokens⟩ := tokens_callText plain
  refine ⟨p₂, p₀, ?_⟩
  unfold Text.trimmed Script.Parser.singleExpression Script.Parser.run Script.Parser.run.tokens
  rw [String.toList_ofList, text, tokens]
  rfl

end

/-! ## §2 — what calls do -/

/-- There is nothing in a call to make shorter. -/
theorem simplify_callOf (k : Script.Simplify.Known) (path : String) (at_ pos : Position) :
    Script.Simplify.script k (callOf path at_ pos) = callOf path at_ pos :=
  Script.Simplify.script_of_settled (fun _ _ => Expr.noConfusion) fun _ => rfl

/-- What a call comes to once its file is there, or is not. -/
def callOutcome (pos : Position) : Answer → Except Script.Fault Value
  | .ok i => .ok (.inclusion i)
  | .error f => .error (.raised (.thrown (.failure f)) (some pos))

/-- There is no function of a name that none of the functions has. -/
theorem function?_of_free {c : Script.Context} {name : String} (free : ∀ f ∈ c.functions, f.name ≠ name) (arity : Nat) :
    c.function? name arity = none := by
  unfold Script.Context.function?
  generalize c.functions = fs at free
  induction fs with
  | nil => rfl
  | cons f fs ih =>
    unfold List.findRev?
    rw [ih fun g mem => free g (List.mem_cons_of_mem _ mem)]
    simp [free f List.mem_cons_self]

/-- **Calling `include` with a text asks for the file**, unless the script has a function of that name. -/
theorem runOn_callNamed_include (I : Interpreter) (path : String) (pos : Position) {c : Script.Context}
    (free : c.function? "include" 1 = none) (m : Machine) :
    (I.callNamed "include" [.str path] none pos).runOn c m =
      .ask ⟨path, {}⟩ fun a => .done ((callOutcome pos a).mapError .fault, m) := by
  unfold Interpreter.callNamed
  rw [Eval.runOn_read_bind]
  simp only [List.length_cons, List.length_nil, Nat.zero_add, free]
  show Script.Run.ask _ _ = Script.Run.ask _ _
  congr 1
  funext a
  cases a <;> rfl

/-- An argument that is neither a variable nor `this` is evaluated before the call, and that is all. -/
theorem call_include (I : Interpreter) {e : Expr} (noVariable : ∀ name at_, e ≠ .var name at_)
    (noThis : ∀ at_, e ≠ .this at_) (pos : Position) :
    I.call "include" [e] pos false = I.expr e >>= fun v => I.callNamed "include" [v] none pos := by
  have arguments : [e].mapM I.expr = I.expr e >>= fun v => pure [v] := by simp
  have call : I.call "include" [e] pos false =
      [e].mapM I.expr >>= fun values => I.callNamed "include" values none pos := by
    cases e with
    | var name at_ => exact absurd rfl (noVariable name at_)
    | this at_ => exact absurd rfl (noThis at_)
    | _ => rfl
  rw [call, arguments, bind_assoc]
  rfl

/-- **A script that includes a text which an expression yields** asks for the file and does nothing else. -/
theorem run_include {e : Expr} (noVariable : ∀ name at_, e ≠ .var name at_) (noThis : ∀ at_, e ≠ .this at_)
    (pos : Position) {c : Script.Context} (free : c.function? "include" 1 = none) {m : Machine} {path : String}
    (yields : ∀ n, ((Script.interpreter (n + 2)).expr e).runOn c m = .done (.ok (.str path), m)) :
    (⟨[.expr (.call "include" [e] pos false)], []⟩ : Script.Program).run c m =
      .ask ⟨path, {}⟩ fun a => .done (callOutcome pos a, m) := by
  -- the statement and the call take a level of nesting each, and the argument has enough left
  obtain ⟨n, deep⟩ : ∃ n, Script.maxNesting = n + 4 := ⟨Nat.pow 2 40 - 4, rfl⟩
  have statement : (Script.interpreter (n + 4)).stmt (.expr (.call "include" [e] pos false)) =
      (Script.interpreter (n + 2)).expr e >>= fun v => (Script.interpreter (n + 2)).callNamed "include" [v] none pos :=
    call_include (Script.interpreter (n + 2)) noVariable noThis pos
  have call : ((Script.interpreter (n + 4)).stmt (.expr (.call "include" [e] pos false))).runOn c m =
      .ask ⟨path, {}⟩ fun a => .done ((callOutcome pos a).mapError .fault, m) := by
    rw [statement, Eval.runOn_bind, yields]
    exact runOn_callNamed_include _ path pos free m
  unfold Script.Program.run Interpreter.sequence
  rw [deep, Eval.runOn_bind, call]
  show Script.Run.ask _ _ = Script.Run.ask _ _
  congr 1
  funext a
  cases a <;> rfl

/-- **A call of `include` asks for its file** and does nothing else, unless the script has a function of that name. -/
theorem run_callOf (path : String) (at_ pos : Position) {c : Script.Context} (free : c.function? "include" 1 = none)
    (m : Machine) :
    (callOf path at_ pos).run c m = .ask ⟨path, {}⟩ fun a => .done (callOutcome pos a, m) :=
  run_include (fun _ _ => Expr.noConfusion) (fun _ => Expr.noConfusion) pos free fun _ => rfl

/-- **Evaluating code that asks for one file** yields what the request is answered with, after the questions asked for
it, and changes no variable. -/
theorem run_evaluateWith_of_asks {code path : String} {s : Script.Program} {pos : Position}
    (read : Script.Parser.singleExpression (Text.trimmed code) = .ok s) (answer : Clock → Request → Logged Answer)
    (clock : Clock) (env : Environment) (cells : Array Cell) (noFunctions : s.functions = [])
    (asks : (Script.Simplify.script (env.known cells) s).run { functions := env.functions } (env.machine cells) =
      .ask ⟨path, {}⟩ fun a => .done (callOutcome pos a, env.machine cells)) :
    (env.evaluateWith answer clock code).run cells =
      ⟨(((answer clock.first ⟨path, {}⟩).value.map .inclusion, env.withInclude), cells),
        (answer clock.first ⟨path, {}⟩).accesses⟩ := by
  obtain ⟨file, dir, scope, functions, stack⟩ := env
  have left (known : Script.Simplify.Known) : (Script.Simplify.script known s).functions = [] := by
    rw [Script.Simplify.script, noFunctions]
    rfl
  have context : Environment.combined functions [] = functions := by simp [Environment.combined]
  have known : (Environment.withInclude ⟨file, dir, scope, functions, stack⟩).known cells =
      Environment.known ⟨file, dir, scope, functions, stack⟩ cells := rfl
  unfold Environment.evaluateWith
  dsimp only
  rw [read]
  unfold Environment.runWith StateT.run
  dsimp only
  rw [known]
  replace left := left (Environment.known ⟨file, dir, scope, functions, stack⟩ cells)
  generalize Script.Simplify.script _ s = s' at left asks
  dsimp only [Environment.withInclude] at asks ⊢
  rw [left, context]
  unfold Environment.machine at asks ⊢
  rw [asks]
  simp only [Script.Run.answering]
  generalize answer clock.first ⟨path, {}⟩ = answered
  obtain ⟨value, asked⟩ := answered
  cases value with
  | error e =>
    simp only [Logged.mk_bind, Logged.value_pure, Logged.accesses_pure, callOutcome, List.append_nil]
    rfl
  | ok i =>
    simp only [Logged.mk_bind, Logged.value_pure, Logged.accesses_pure, callOutcome, List.append_nil,
      Environment.seedFunctions, context]
    rfl

/-- **Evaluating a call of `include`** yields what the request is answered with, after the questions asked for it, and
changes no variable. -/
theorem run_evaluateWith_of_calls {code path : String} (call : Calls code path)
    (answer : Clock → Request → Logged Answer) (clock : Clock) {env : Environment}
    (free : ∀ f ∈ env.functions, f.name ≠ "include") (cells : Array Cell) :
    (env.evaluateWith answer clock code).run cells =
      ⟨(((answer clock.first ⟨path, {}⟩).value.map .inclusion, env.withInclude), cells),
        (answer clock.first ⟨path, {}⟩).accesses⟩ := by
  obtain ⟨at_, pos, read⟩ := call
  have asks := run_callOf path at_ pos (@function?_of_free { functions := env.functions } "include" free 1)
    (env.machine cells)
  rw [← simplify_callOf (env.known cells)] at asks
  exact run_evaluateWith_of_asks read answer clock env cells rfl asks

/-- A call of `include` where the script has no functions. -/
theorem evaluateWith_of_calls {code path : String} (call : Calls code path) (answer : Clock → Request → Logged Answer)
    (clock : Clock) {env : Environment} (plain : env.functions = []) (cells : Array Cell) :
    ((env.evaluateWith answer clock code).run cells).value =
      (((answer clock.first ⟨path, {}⟩).value.map .inclusion, env.withInclude), cells) := by
  rw [run_evaluateWith_of_calls call answer clock (by simp [plain])]

end Dialogue.Include
