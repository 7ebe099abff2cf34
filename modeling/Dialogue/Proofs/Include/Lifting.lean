import Dialogue.Include.Resolver
/-!
# `Dialogue.Proofs.Include.Lifting` — evaluation in one monad and in another.

Evaluation is written against whoever answers requests, in whatever monad that happens, and uses nothing else of the
monad. Main statements: when results of one monad can be taken over into another, evaluating in the one and taking over
the outcome is evaluating in the other with the answers taken over.
-/

namespace Dialogue

open Script (Value Cell Program)
open Include (Request Answer Resolver)

variable {m n : Type → Type} [Monad m] [Monad n] [MonadLiftT m n] [LawfulMonadLiftT m n]
  (answer : Clock → Request → m Answer)

theorem Script.Run.liftM_answering {α : Type} (x : Script.Run α) (clock : Clock) :
    (liftM (x.answering answer clock) : n α) = x.answering (fun clock q => liftM (answer clock q)) clock := by
  induction x generalizing clock with
  | done a => exact monadLift_pure a
  | ask q k ih =>
    unfold answering
    rw [liftM_bind]
    exact congrArg _ (funext fun r => ih r clock.rest)
  | now k ih => exact ih clock.reading clock.rest
  | caught e x ih => exact ih clock

namespace Environment

variable (clock : Clock) (env : Environment) (cells : Array Cell)

theorem liftM_runWith (s : Program) (describe : String → Failure) :
    (liftM ((env.runWith answer clock s describe).run cells) : n _) =
      (env.runWith (fun clock q => liftM (answer clock q)) clock s describe).run cells := by
  unfold runWith StateT.run
  dsimp only
  rw [liftM_bind]
  refine congr (congrArg _ (Script.Run.liftM_answering answer _ clock)) (funext fun r => ?_)
  obtain ⟨r, machine⟩ := r
  cases r <;> exact monadLift_pure _

theorem liftM_evaluateWith (code : String) :
    (liftM ((env.evaluateWith answer clock code).run cells) : n _) =
      (env.evaluateWith (fun clock q => liftM (answer clock q)) clock code).run cells := by
  unfold evaluateWith
  dsimp only
  split
  · exact monadLift_pure _
  · exact liftM_runWith answer clock env.withInclude cells _ _

theorem liftM_executeWith (code : String) :
    (liftM ((env.executeWith answer clock code).run cells) : n _) =
      (env.executeWith (fun clock q => liftM (answer clock q)) clock code).run cells := by
  unfold executeWith
  dsimp only
  split
  · exact monadLift_pure _
  · rw [StateT.run_bind, StateT.run_bind, ← liftM_runWith, liftM_bind]
    refine congrArg _ (funext fun r => ?_)
    -- reading the cells is a step of its own
    rw [StateT.run_bind, StateT.run_bind, liftM_bind]
    exact congr (congrArg _ (monadLift_pure _)) (funext fun _ => monadLift_pure _)

end Environment

/-- **Expanding a template**, its expressions being evaluated in the one monad or in the other. -/
theorem Include.Resolver.liftM_expand (clock : Clock) (env : Environment) (cells : Array Cell)
    (segments : List Segment) :
    (liftM (expand answer clock env cells segments) : n _) =
      expand (fun clock q => liftM (answer clock q)) clock env cells segments := by
  induction segments generalizing clock env cells with
  | nil => exact monadLift_pure _
  | cons segment rest ih =>
    cases segment with
    | text t =>
      unfold expand
      rw [← ih, liftM_bind]
      exact congrArg _ (funext fun r => monadLift_pure _)
    | expression code =>
      unfold expand
      rw [← Environment.liftM_evaluateWith, liftM_bind]
      -- the rest is expanded in the environment that the expression leaves
      refine congrArg _ (funext fun r => ?_)
      obtain ⟨⟨r, env'⟩, cells'⟩ := r
      cases r with
      | error e => exact monadLift_pure _
      | ok v =>
        dsimp only
        rw [← ih, liftM_bind]
        exact congrArg _ (funext fun r => monadLift_pure _)

end Dialogue
