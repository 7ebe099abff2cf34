import Dialogue.Proofs.Environment.Agreement
import Dialogue.Proofs.Script.Looking.Call.Simplify
/-!
# `Dialogue.Proofs.Environment.Looking` — expressions that look at the variables of an environment, and then call.

What is known of constants before an expression is run are the values that they have. So an expression that calls
nothing comes to what it comes to with the values of its variables, whether these are constants, or shared with
closures; and one that then calls a function calls it with the same values. Main statement: such an expression yields
the same in two environments of one file, with the same functions, where its variables have the same values.
-/

namespace Dialogue.Environment

open Script (Cell Expr Mention)

variable {env env' : Environment} {cells : Array Cell} {code : String}

/-- **Does code look at variables, and then call at most one function?** It is a single expression, nested no deeper
than evaluation goes; what cannot be read does not look at anything. -/
def looksThenCalls (code : String) : Bool :=
  match Script.Parser.singleExpression (Text.trimmed code) with
  | .ok ⟨[.expr e], _⟩ => !e.isStatements && e.looksThenCalls && decide (e.height < Script.maxNesting)
  | _ => true

/-- **What is known of constants** are the values that they have. -/
theorem known_holds (env : Environment) (cells : Array Cell) : (env.known cells).Holds (env.get? cells) := by
  intro name c known
  obtain ⟨s, found, value⟩ := Option.bind_eq_some_iff.mp known
  split at value
  · unfold get? Script.Machine.value?
    rw [found, Option.map_some, Script.Datum.ofConstant_of_toConstant? value]
  · cases value

/-- **Running an expression that looks, and then calls**, asks the same and comes to the same, where its variables have
the same values. -/
theorem runWith_of_looks {e : Expr} (looks : e.looksThenCalls) (alone : e.isStatements = false)
    (fits : e.height < Script.maxNesting) (functions : env'.functions = env.functions)
    (same : ∀ x ∈ e.mentions, x.Among fun name => env'.get? cells name = env.get? cells name)
    (answer : Clock → Include.Request → Logged Include.Answer) (clock : Clock) (describe : String → Failure) :
    let s : Script.Program := ⟨[.expr e], []⟩
    ((env'.runWith answer clock s describe).run cells).accesses =
        ((env.runWith answer clock s describe).run cells).accesses ∧
      ((env'.runWith answer clock s describe).run cells).value.1.1 =
        ((env.runWith answer clock s describe).run cells).value.1.1 := by
  intro s
  obtain ⟨e₁, shorter, here⟩ := Script.Simplify.intendedAs_script (env.known_holds cells) looks alone
  obtain ⟨e₂, shorter', there⟩ := Script.Simplify.intendedAs_script (env'.known_holds cells) looks alone
  have intent : e₂.intent (env'.machine cells).value? = e₁.intent (env.machine cells).value? :=
    (there.sight.trans (Expr.intent_congr looks same)).trans here.sight.symm
  have run := Script.Program.endAlike_run here.looks there.looks (Nat.lt_of_le_of_lt here.height fits)
    (Nat.lt_of_le_of_lt there.height fits) intent rfl rfl { functions := combined env.functions [] }
  refine runWith_alike ?_ answer clock describe
  rw [shorter, shorter', functions]
  exact run

/-- **An expression that looks, and then calls, yields the same** where its variables have the same values. -/
theorem yields_of_looks (looks : looksThenCalls code) (file : env'.file = env.file)
    (functions : env'.functions = env.functions)
    (resolver : Include.Resolver.ofEnvironment env' = .ofEnvironment env)
    (same : ∀ x ∈ mentionsIn code, x.Among fun name => env'.get? cells name = env.get? cells name)
    (files : FileAccess) (clock : Clock) :
    env'.yields files clock cells code = env.yields files clock cells code := by
  have name : env'.withInclude.name = env.withInclude.name :=
    congrArg (fun p => (p.map Path.toString).getD "<inline>") file
  unfold mentionsIn at same
  unfold looksThenCalls at looks
  unfold yields evaluateAt evaluateWith
  dsimp only
  rw [name, resolver]
  cases read : Script.Parser.singleExpression (Text.trimmed code) with
  | error e => rfl
  | ok s =>
    obtain ⟨e, declares, rfl⟩ := Script.Parser.singleExpression_ok read
    rw [read] at same looks
    obtain ⟨looks, fits⟩ := Bool.and_eq_true_iff.mp looks
    obtain ⟨alone, looks⟩ := Bool.and_eq_true_iff.mp looks
    have alone : e.isStatements = false := by simpa using alone
    have functions : env'.withInclude.functions = env.withInclude.functions := functions
    have same : ∀ x ∈ e.mentions, x.Among fun name =>
        env'.withInclude.get? cells name = env.withInclude.get? cells name :=
      fun x mem => same x (List.mem_append_left [] mem)
    obtain ⟨accesses, outcome⟩ := runWith_of_looks looks alone (of_decide_eq_true fits) functions same
      (Include.Resolver.fetchAt files (.ofEnvironment env)) clock (.evaluation env.withInclude.name (Text.trimmed code))
    exact congrArg₂ Logged.mk outcome accesses

end Dialogue.Environment
