import Dialogue.Proofs.Script.Passage.Call
import Dialogue.Script.Evaluator
/-!
# `Dialogue.Proofs.Script.Passage` — failures pass through scripts.

Blocks put the variables in order when a fault leaves them, loops end, assignments are not made; none of this touches
the failure behind a fault. A `try` deals with faults, and says so. Main statement: after a request was answered with a
failure, a script asks for nothing more and does nothing to the failure; it ends with a fault that carries it, unless
the next thing it does is to deal with it.
-/

namespace Dialogue.Script

namespace Interpreter

variable {I : Interpreter} {α : Type}

/-! ## §1 — expressions -/

theorem Passes.condition (hI : I.Passes) (e : Expr) : (I.condition e).Passes Nothing := by
  refine (hI.expr e).bind fun v => ?_
  split
  · exact .pure _
  · exact .failAt _ _

theorem Passes.fields (hI : I.Passes) (fs : List (String × Expr)) : (I.fields fs).Passes Nothing := by
  induction fs with
  | nil => exact .pure []
  | cons f fs ih => exact (hI.expr f.2).bind fun _ => ih.bind fun _ => .pure _

theorem Passes.operation (hI : I.Passes) (op : String) (operands : List Expr) (pos : Position) :
    (I.operation op operands pos).Passes Nothing := by
  unfold Interpreter.operation
  split
  · exact hI.call ..
  · exact (hI.expr _).bind fun _ => passes_orFail ..
  · exact (hI.expr _).bind fun _ => (hI.expr _).bind fun _ => passes_orFail ..
  · exact (hI.arguments _).bind fun _ => passes_orFail ..

theorem passes_share (captured : List (String × Position)) : (share captured).Passes Nothing := by
  induction captured with
  | nil => exact .pure []
  | cons entry rest ih =>
    obtain ⟨name, pos⟩ := entry
    refine Eval.Passes.get.bind fun m => ?_
    split
    · exact (Eval.Passes.set _).bind fun _ => ih.bind fun _ => .pure _
    · exact .failAt _ _

theorem Passes.prepare (hI : I.Passes) (steps : List Step) : (I.prepare steps).Passes Nothing := by
  induction steps with
  | nil => exact .pure []
  | cons step rest ih =>
    cases step with
    | property name pos dot optional => exact ih.bind fun _ => .pure _
    | index key bracket optional => exact (hI.expr key).bind fun _ => ih.bind fun _ => .pure _
    | method name arguments pos dot optional => exact (hI.arguments _).bind fun _ => ih.bind fun _ => .pure _

theorem Passes.chainRoot (hI : I.Passes) (root : Expr) : (I.chainRoot root).Passes Nothing := by
  unfold Interpreter.chainRoot
  split
  · exact (passes_sighting ..).bind fun s => .pure _
  · exact (passes_thisValue _).bind fun v => .pure _
  · exact (hI.expr _).bind fun v => .pure _

theorem passes_orFailIndex (start bracket : Position) (r : Except Cause α) :
    (orFailIndex start bracket r).Passes Nothing := by
  unfold orFailIndex
  split
  · exact .pure _
  · exact .failAt _ _
  · exact .failAt _ _

theorem passes_propertyOf (v : Value) (name : String) (pos : Position) : (propertyOf v name pos).Passes Nothing := by
  unfold propertyOf
  split
  · exact (passes_elapsed _ pos).bind fun _ => .pure _
  · exact passes_orFail pos _

theorem Passes.advance (hI : I.Passes) (s : Standing) (step : Prepared) : (I.advance s step).Passes Nothing := by
  cases step with
  | property name pos optional => exact (passes_propertyOf _ name pos).bind fun found => .pure _
  | index key start bracket optional => exact (passes_orFailIndex start bracket _).bind fun found => .pure _
  | method name arguments pos optional => exact (hI.method ..).bind fun v => .pure _

theorem Passes.walk (hI : I.Passes) (s : Standing) (steps : List Prepared) : (I.walk s steps).Passes Nothing := by
  induction steps generalizing s with
  | nil => exact .pure (some s)
  | cons step rest ih =>
    unfold Interpreter.walk
    split
    · exact .pure none
    · exact (hI.advance s step).bind fun s' => ih s'

theorem Passes.chain (hI : I.Passes) (root : Expr) (steps : List Step) : (I.chain root steps).Passes Nothing := by
  refine (hI.prepare steps).bind fun prepared => (hI.chainRoot root).bind fun s => ?_
  refine (hI.walk s prepared).bind fun r => ?_
  split <;> exact .pure _

/-- **An expression** passes on the failures of its parts. -/
theorem Passes.evaluate (hI : I.Passes) (e : Expr) : (I.evaluate e).Passes Nothing := by
  cases e with
  | constant v pos => exact .pure _
  | var name pos => exact (passes_sighting ..).bind fun s => .pure _
  | this pos => exact passes_thisValue pos
  | template items pos => exact (hI.arguments items).bind fun values => .pure _
  | array items pos => exact (hI.arguments items).bind fun values => .pure _
  | object fs pos => exact (hI.fields fs).bind fun values => .pure _
  | operation op operands pos => exact hI.operation ..
  | call name arguments pos here => exact hI.call ..
  | both a b pos =>
    refine (hI.condition a).bind fun x => ?_
    split
    · exact (hI.condition b).bind fun y => .pure _
    · exact .pure _
  | either a b pos =>
    refine (hI.condition a).bind fun x => ?_
    split
    · exact .pure _
    · exact (hI.condition b).bind fun y => .pure _
  | orElse a b pos =>
    refine (hI.expr a).bind fun v => ?_
    split
    · exact hI.expr b
    · exact .pure _
  | chain root steps => exact hI.chain root steps
  | closure captured code pos => exact (passes_share captured).bind fun slots => .pure _
  | statements body pos => exact hI.block body

/-! ## §2 — assignments -/

theorem passes_assignedValue (op : Option String) (old new : Value) (pos : Position) :
    (assignedValue op old new pos).Passes Nothing := by
  cases op with
  | none => exact .pure new
  | some op => exact passes_orFail pos _

theorem passes_assignable (s : Standing) (op : Option String) (new : Value) (step : Prepared) :
    (assignable s op new step).Passes Nothing := by
  cases step with
  | property name pos optional =>
    cases op with
    | none => exact passes_orFail pos _
    | some op => exact (passes_propertyOf _ name pos).bind fun _ => passes_orFail pos _
  | index key start bracket optional => exact passes_orFailIndex start bracket _
  | method => exact .pure _

theorem passes_constantFault (root : Expr) : (constantFault root).Passes Nothing := by
  unfold constantFault
  split <;> exact .failAt _ _

theorem passes_assignStep (s : Standing) (step : Prepared) {fault : Eval Unit} (h : fault.Passes Nothing)
    (op : Option String) (new : Value) (pos : Position) : (assignStep s step fault op new pos).Passes Nothing := by
  refine (passes_assignable ..).bind fun found => .guarded h ?_
  refine (passes_assignedValue ..).bind fun v => (passes_orFail pos _).bind fun _ => ?_
  split
  · exact Standing.passes_become _ v
  · exact .pure _

/-- **An assignment.** -/
theorem Passes.assign (hI : I.Passes) (target : Expr) (op : Option String) (value : Expr) (pos : Position) :
    (I.assign target op value pos).Passes Nothing := by
  refine (hI.expr value).bind fun new => ?_
  split
  · refine (hI.prepare _).bind fun prepared => (hI.chainRoot _).bind fun s => ?_
    split
    · exact .pure _
    · refine (hI.walk s _).bind fun r => ?_
      split
      · exact .pure _
      · split
        · exact .pure _
        · exact passes_assignStep _ _ (passes_constantFault _) op new pos
  · refine (hI.chainRoot _).bind fun s => ?_
    have write : (assignedValue op s.value new pos >>= fun v => s.become v).Passes Nothing :=
      (passes_assignedValue ..).bind fun v => s.passes_become v
    dsimp only
    split
    · exact (passes_constantFault _).bind fun _ => write
    · exact write

/-! ## §3 — loops -/

theorem Passes.round (hI : I.Passes) (body : List Stmt) : (I.round body).Passes Nothing := by
  refine (hI.block body).outcome.bindHeld (fun r => ?_) fun r e held => ?_
  · split
    · exact .pure _
    · exact .pure _
    · exact .pure _
    · exact .throw _
  · match r with
    | .error (.fault f) => exact ⟨fun _ _ => held⟩
    | .ok _ | .error (.leave _) | .error .proceed | .error (.giveBack _) => exact held.elim

theorem passes_loopWhile {cond : Eval Bool} {body : Eval Round} (hc : cond.Passes Nothing) (hb : body.Passes Nothing)
    (rounds : Nat) : (loopWhile cond body rounds).Passes Nothing := by
  induction rounds with
  | zero => exact .throw _
  | succ n ih =>
    refine hc.bind fun b => ?_
    split
    · refine hb.bind fun r => ?_
      split
      · exact .pure _
      · exact ih
    · exact .pure _

theorem passes_loopUntil {cond : Eval Bool} {body : Eval Round} (hc : cond.Passes Nothing) (hb : body.Passes Nothing)
    (rounds : Nat) : (loopUntil cond body rounds).Passes Nothing := by
  induction rounds with
  | zero => exact .throw _
  | succ n ih =>
    refine hb.bind fun r => ?_
    split
    · exact .pure _
    · refine hc.bind fun b => ?_
      split
      · exact ih
      · exact .pure _

theorem passes_turn (name : String) (v : Value) {body : Eval Round} {after : Eval Value} (hb : body.Passes Nothing)
    (ha : after.Passes Nothing) : (turn name v body after).Passes Nothing := by
  refine (Eval.Passes.modify _).bind fun _ => hb.bind fun r => ?_
  split
  · exact .pure _
  · exact ha

theorem passes_loopThrough (name : String) (counter : Option String) {body : Eval Round} (hb : body.Passes Nothing)
    (index : Nat) (src : Source) (rounds : Nat) : (loopThrough name counter body index src rounds).Passes Nothing := by
  induction rounds generalizing index src with
  | zero => exact .throw _
  | succ n ih =>
    unfold loopThrough
    split
    · exact .pure _
    · have next (v : Value) (src : Source) := passes_turn name v hb (ih (index + 1) src)
      split
      · exact (Eval.Passes.modify _).bind fun _ => next ..
      · exact next ..

theorem Passes.each (hI : I.Passes) (name : String) (counter : Option String) (items : Expr) (body : List Stmt) :
    (I.each name counter items body).Passes Nothing := by
  refine (hI.expr items).bind fun v => ?_
  split
  · exact .failAt _ _
  · refine Eval.Passes.inBlock ?_
    have through (src : Source) : (modify (·.declare name false (.own .unit)) >>= fun _ =>
        loopThrough name counter (I.round body) 0 src maxRounds : Eval Value).Passes Nothing :=
      (Eval.Passes.modify _).bind fun _ => passes_loopThrough name counter (hI.round body) 0 src maxRounds
    split
    · exact (Eval.Passes.modify _).bind fun _ => through _
    · exact through _

/-! ## §4 — statements -/

theorem Passes.choose (hI : I.Passes) (v : Value) (arms : List Arm) : (I.choose v arms).Passes Nothing := by
  induction arms with
  | nil => exact .pure none
  | cons arm rest ih =>
    obtain ⟨patterns, guard, action⟩ := arm
    unfold Interpreter.choose
    split
    · cases guard with
      | none => exact .pure _
      | some g =>
        refine (hI.condition g).bind fun b => ?_
        split
        · exact .pure _
        · exact ih
    · exact ih

theorem Passes.optional (hI : I.Passes) (e : Option Expr) : (I.optional e).Passes Nothing := by
  cases e with
  | none => exact .pure _
  | some e => exact hI.expr e

theorem Passes.handling (hI : I.Passes) (caught : Value) (name : Option String) (handler : List Stmt) :
    (I.handling caught name handler).Passes Nothing := by
  refine Eval.Passes.inBlock ?_
  cases name with
  | none => exact hI.block handler
  | some n => exact (Eval.Passes.modify _).bind fun _ => hI.block handler

/-- A throw without a value carries no failure. -/
theorem not_isRethrow {f : Fault} {e : Failure} (held : f.failure? = some e) : isRethrow f = false := by
  unfold isRethrow
  split
  · cases held
  · rfl

/-- **A handler passes on failures of its own.** -/
theorem Passes.handle (hI : I.Passes) (f : Fault) (name : Option String) (handler : List Stmt) :
    (I.handle f name handler).Passes Nothing := by
  refine (hI.handling f.caught name handler).outcome.bindHeld (fun r => ?_) fun r e held => ?_
  · split
    · exact .pure _
    · split <;> exact .throw _
    · exact .throw _
  · match r with
    | .error (.fault g) =>
      dsimp only
      rw [not_isRethrow held]
      exact ⟨fun _ _ => held⟩
    | .ok _ | .error (.leave _) | .error .proceed | .error (.giveBack _) => exact held.elim

/-- **A statement** passes on the failures of its parts; a `try` deals with them first. -/
theorem Passes.execute (hI : I.Passes) (s : Stmt) : (I.execute s).Passes Nothing := by
  cases s with
  | noop pos => exact .pure _
  | declare name constant inPlace e pos =>
    refine (hI.expr e).bind fun v => ?_
    cases inPlace <;> exact (Eval.Passes.modify _).bind fun _ => .pure _
  | assign target op e pos => exact (hI.assign ..).bind fun _ => .pure _
  | expr e => exact hI.expr e
  | block body pos => exact hI.block body
  | branch cond yes no pos =>
    refine (hI.condition cond).bind fun b => ?_
    split
    · exact hI.block yes
    · exact hI.block no
  | switch item arms fallback pos =>
    refine (hI.expr item).bind fun v => (hI.choose v arms).bind fun action => ?_
    split
    · exact hI.expr _
    · exact hI.optional fallback
  | repeatWhile cond body pos =>
    refine passes_loopWhile ?_ (hI.round body) _
    cases cond with
    | none => exact .pure true
    | some e => exact hI.condition e
  | repeatAfter body cond goOn pos =>
    exact passes_loopUntil ((hI.condition cond).bind fun b => .pure _) (hI.round body) _
  | each name counter items body pos => exact hI.each ..
  | leave e pos => exact (hI.optional e).bind fun v => .throw _
  | proceed pos => exact .throw _
  | giveBack e pos => exact (hI.optional e).bind fun v => .throw _
  | raise e pos => exact (hI.optional e).bind fun v => .failAt _ _
  | attempt body name handler pos =>
    refine (hI.block body).outcome.bindHeld (fun r => ?_) fun r e held => ?_
    · split
      · split
        · exact .throw _
        · exact (Eval.Passes.catches _).bind fun _ => hI.handle ..
      · exact .resume r
    · match r with
      | .error (.fault f) =>
        dsimp only
        split
        · exact ⟨fun _ _ => held⟩
        · exact .catches held _
      | .ok _ | .error (.leave _) | .error .proceed | .error (.giveBack _) => exact held.elim
  | importModule path pos =>
    refine (hI.expr path).bind fun v => ?_
    split <;> exact .failAt _ _

end Interpreter

/-! ## §5 — scripts -/

/-- **The interpreter passes on failures.** -/
theorem passes_interpreter (depth : Nat) : (interpreter depth).Passes := by
  induction depth with
  | zero => exact ⟨fun _ => .throw _, fun _ => .throw _⟩
  | succ n ih => exact ⟨ih.evaluate, ih.execute⟩

/-- **A script passes on failures:** it ends with a fault that carries the failure. -/
theorem Program.passes_run (s : Program) (c : Context) (m : Machine) :
    (s.run c m).Passes fun r e => ∃ f, r.1 = .error f ∧ f.failure? = some e := by
  refine (((passes_interpreter maxNesting).sequence s.statements .unit).run c m).bind (fun _ => .done) ?_
  rintro ⟨r, n⟩ e held
  match r with
  | .error (.fault f) => exact ⟨f, rfl, held⟩
  | .ok _ | .error (.leave _) | .error .proceed | .error (.giveBack _) => exact held.elim

end Dialogue.Script
