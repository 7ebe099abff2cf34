import Dialogue.Proofs.Script.Scoped.Call
import Dialogue.Script.Evaluator
/-!
# `Dialogue.Proofs.Script.Scoped.Evaluator` — what scripts bring into reach.

Expressions, assignments and loops leave the variables in reach; what is declared on the way is forgotten at the end of
its block, also when a fault, a `break` or a `return` ends it early. Only a declaration brings a variable into reach,
or puts one in the place of another. By induction on the depth of nesting, the interpreter does so. Main statement: a
scoped script leaves the variables that it found, and before them those of its first declarations, up to where it came.
-/

namespace Dialogue.Script

open Eval

namespace Interpreter

variable {I : Interpreter} {J : List Label → Prop} {α : Type}

/-! ## §1 — expressions -/

theorem Scoped.condition (hI : I.Scoped) {e : Expr} (h : e.Scoped) : (I.condition e).Retains J := by
  refine (hI.expr h).bind fun v => ?_
  split
  · exact leads_pure _
  · exact leads_failAt _ _

theorem Scoped.fields (hI : I.Scoped) {fs : List (String × Expr)} (h : ∀ f ∈ fs, f.2.Scoped) :
    (I.fields fs).Retains J := by
  induction fs with
  | nil => exact leads_pure []
  | cons f fs ih =>
    obtain ⟨hf, hfs⟩ := List.forall_mem_cons.mp h
    exact (hI.expr hf).bind fun _ => (ih hfs).bind fun _ => leads_pure _

theorem Scoped.operation (hI : I.Scoped) (op : String) {operands : List Expr} (h : ∀ e ∈ operands, e.Scoped)
    (pos : Position) : (I.operation op operands pos).Retains J := by
  unfold Interpreter.operation
  split
  · exact hI.call _ h pos false
  · exact (hI.expr (List.forall_mem_singleton.mp h)).bind fun _ => retains_orFail ..
  · obtain ⟨ha, hb⟩ := List.forall_mem_cons.mp h
    exact (hI.expr ha).bind fun _ => (hI.expr (List.forall_mem_singleton.mp hb)).bind fun _ => retains_orFail ..
  · exact (hI.arguments h).bind fun _ => retains_orFail ..

/-- **Sharing variables** leaves them in reach. -/
theorem retains_share (captured : List (String × Position)) : (share captured).Retains J := by
  induction captured with
  | nil => exact leads_pure []
  | cons entry rest ih =>
    obtain ⟨name, pos⟩ := entry
    refine leads_get fun m hm => ?_
    split
    · rename_i cell n shared
      refine Leads.bind (Q := J) (leads_set ?_) fun _ => ih.bind fun _ => leads_pure _
      exact (Machine.labels_share? shared).symm ▸ hm
    · exact leads_failAt _ _

theorem Scoped.prepare (hI : I.Scoped) {steps : List Step} (h : ∀ s ∈ steps, s.Scoped) :
    (I.prepare steps).Retains J := by
  induction steps with
  | nil => exact leads_pure []
  | cons step rest ih =>
    obtain ⟨hs, hr⟩ := List.forall_mem_cons.mp h
    cases hs with
    | property name pos dot optional => exact (ih hr).bind fun _ => leads_pure _
    | index hk bracket optional => exact (hI.expr hk).bind fun _ => (ih hr).bind fun _ => leads_pure _
    | method name ha pos dot optional => exact (hI.arguments ha).bind fun _ => (ih hr).bind fun _ => leads_pure _

theorem Scoped.chainRoot (hI : I.Scoped) {root : Expr} (h : root.Scoped) : (I.chainRoot root).Retains J := by
  unfold Interpreter.chainRoot
  split
  · exact (retains_sighting ..).bind fun s => leads_pure _
  · exact (retains_thisValue _).bind fun v => leads_pure _
  · exact (hI.expr h).bind fun v => leads_pure _

theorem retains_orFailIndex (start bracket : Position) (r : Except Cause α) :
    (orFailIndex start bracket r).Retains J := by
  unfold orFailIndex
  split
  · exact leads_pure _
  · exact leads_failAt _ _
  · exact leads_failAt _ _

theorem retains_propertyOf (v : Value) (name : String) (pos : Position) : (propertyOf v name pos).Retains J := by
  unfold propertyOf
  split
  · exact (retains_elapsed _ pos).bind fun _ => leads_pure _
  · exact retains_orFail pos _

theorem retains_advance (s : Standing) (step : Prepared) : (I.advance s step).Retains J := by
  cases step with
  | property name pos optional => exact (retains_propertyOf _ name pos).bind fun found => leads_pure _
  | index key start bracket optional => exact (retains_orFailIndex start bracket _).bind fun found => leads_pure _
  | method name arguments pos optional => exact (retains_method ..).bind fun v => leads_pure _

theorem retains_walk (s : Standing) (steps : List Prepared) : (I.walk s steps).Retains J := by
  induction steps generalizing s with
  | nil => exact leads_pure (some s)
  | cons step rest ih =>
    unfold Interpreter.walk
    split
    · exact leads_pure none
    · exact (retains_advance s step).bind fun s' => ih s'

theorem Scoped.chain (hI : I.Scoped) {root : Expr} (hr : root.Scoped) {steps : List Step}
    (hs : ∀ s ∈ steps, s.Scoped) : (I.chain root steps).Retains J := by
  refine (hI.prepare hs).bind fun prepared => (hI.chainRoot hr).bind fun s => ?_
  refine (retains_walk s prepared).bind fun r => ?_
  split <;> exact leads_pure _

/-- **An expression** leaves the variables in reach. -/
theorem Scoped.evaluate (hI : I.Scoped) {e : Expr} (h : e.Scoped) : (I.evaluate e).Retains J := by
  cases h with
  | constant v pos => exact leads_pure _
  | var name pos => exact (retains_sighting ..).bind fun s => leads_pure _
  | this pos => exact retains_thisValue pos
  | template h pos => exact (hI.arguments h).bind fun values => leads_pure _
  | array h pos => exact (hI.arguments h).bind fun values => leads_pure _
  | object h pos => exact (hI.fields h).bind fun values => leads_pure _
  | operation op h pos => exact hI.operation op h pos
  | call name h pos here => exact hI.call name h pos here
  | both ha hb pos =>
    refine (hI.condition ha).bind fun x => ?_
    split
    · exact (hI.condition hb).bind fun y => leads_pure _
    · exact leads_pure _
  | either ha hb pos =>
    refine (hI.condition ha).bind fun x => ?_
    split
    · exact leads_pure _
    · exact (hI.condition hb).bind fun y => leads_pure _
  | orElse ha hb pos =>
    refine (hI.expr ha).bind fun v => ?_
    split
    · exact hI.expr hb
    · exact leads_pure _
  | chain hr hs => exact hI.chain hr hs
  | closure captured code pos => exact (retains_share captured).bind fun slots => leads_pure _
  | statements h placed pos => exact hI.block ⟨h, placed⟩

/-! ## §2 — assignments -/

theorem retains_assignedValue (op : Option String) (old new : Value) (pos : Position) :
    (assignedValue op old new pos).Retains J := by
  cases op with
  | none => exact leads_pure new
  | some op => exact retains_orFail pos _

theorem retains_assignable (s : Standing) (op : Option String) (new : Value) (step : Prepared) :
    (assignable s op new step).Retains J := by
  cases step with
  | property name pos optional =>
    cases op with
    | none => exact retains_orFail pos _
    | some op => exact (retains_propertyOf _ name pos).bind fun _ => retains_orFail pos _
  | index key start bracket optional => exact retains_orFailIndex start bracket _
  | method => exact leads_pure _

theorem retains_constantFault (root : Expr) : (constantFault root).Retains J := by
  unfold constantFault
  split <;> exact leads_failAt _ _

theorem retains_assignStep (s : Standing) (step : Prepared) {fault : Eval Unit} (h : fault.Retains J)
    (op : Option String) (new : Value) (pos : Position) : (assignStep s step fault op new pos).Retains J := by
  refine (retains_assignable ..).bind fun found => .guarded h ?_
  refine (retains_assignedValue ..).bind fun v => (retains_orFail pos _).bind fun _ => ?_
  split
  · exact Standing.retains_become _ v
  · exact leads_pure _

/-- **An assignment** leaves the variables in reach. -/
theorem Scoped.assign (hI : I.Scoped) {target value : Expr} (ht : target.Scoped) (op : Option String)
    (hv : value.Scoped) (pos : Position) : (I.assign target op value pos).Retains J := by
  refine (hI.expr hv).bind fun new => ?_
  split
  · cases ht with
    | chain hr hs =>
      refine (hI.prepare hs).bind fun prepared => (hI.chainRoot hr).bind fun s => ?_
      split
      · exact leads_pure _
      · refine (retains_walk s _).bind fun r => ?_
        split
        · exact leads_pure _
        · split
          · exact leads_pure _
          · exact retains_assignStep _ _ (retains_constantFault _) op new pos
  · refine (hI.chainRoot ht).bind fun s => ?_
    have write : (assignedValue op s.value new pos >>= fun v => s.become v).Retains J :=
      (retains_assignedValue ..).bind fun v => s.retains_become v
    exact .guarded (retains_constantFault _) write

/-! ## §3 — loops -/

theorem Scoped.round (hI : I.Scoped) {body : List Stmt} (h : ScopedBlock body) : (I.round body).Retains J := by
  refine Leads.bind (Q := J) (hI.block h).outcome fun r => ?_
  split
  · exact leads_pure _
  · exact leads_pure _
  · exact leads_pure _
  · exact leads_throw _

theorem retains_loopWhile {cond : Eval Bool} {body : Eval Round} (hc : cond.Retains J) (hb : body.Retains J)
    (rounds : Nat) : (loopWhile cond body rounds).Retains J := by
  induction rounds with
  | zero => exact leads_throw _
  | succ n ih =>
    refine hc.bind fun b => ?_
    split
    · refine hb.bind fun r => ?_
      split
      · exact leads_pure _
      · exact ih
    · exact leads_pure _

theorem retains_loopUntil {cond : Eval Bool} {body : Eval Round} (hc : cond.Retains J) (hb : body.Retains J)
    (rounds : Nat) : (loopUntil cond body rounds).Retains J := by
  induction rounds with
  | zero => exact leads_throw _
  | succ n ih =>
    refine hb.bind fun r => ?_
    split
    · exact leads_pure _
    · refine hc.bind fun b => ?_
      split
      · exact ih
      · exact leads_pure _

theorem retains_setVariable (name : String) (v : Value) : (setVariable name v).Retains J := by
  refine leads_modify fun m hm => ?_
  split
  · exact (m.labels_write _ v).symm ▸ hm
  · exact hm

theorem retains_turn (name : String) (v : Value) {body : Eval Round} {after : Eval Value} (hb : body.Retains J)
    (ha : after.Retains J) : (turn name v body after).Retains J := by
  refine (retains_setVariable name v).bind fun _ => hb.bind fun r => ?_
  split
  · exact leads_pure _
  · exact ha

theorem retains_loopThrough (name : String) (counter : Option String) {body : Eval Round} (hb : body.Retains J)
    (index : Nat) (src : Source) (rounds : Nat) : (loopThrough name counter body index src rounds).Retains J := by
  induction rounds generalizing index src with
  | zero => exact leads_throw _
  | succ n ih =>
    unfold loopThrough
    split
    · exact leads_pure _
    · have next (v : Value) (src : Source) := retains_turn name v hb (ih (index + 1) src)
      split
      · exact (retains_setVariable ..).bind fun _ => next ..
      · exact next ..

/-- A variable more keeps those in reach in their place. -/
theorem retains_declare (l : List Label) (name : String) (v : Value) :
    (modify (·.declare name false (.own v)) : Eval PUnit).Retains (l <:+ ·) :=
  leads_modify fun _ kept => kept.trans (List.suffix_cons _ _)

/-- **A block that declares variables first**, whatever it does with them then. -/
theorem retains_inBlock_of_suffix {x : Eval α} (h : ∀ l, x.Retains (l <:+ ·)) : (Eval.inBlock x).Retains J :=
  retains_inBlock fun l => (h l).weaken (fun _ same => same ▸ List.suffix_rfl) (fun _ => id) fun _ => id

/-- **The variables of a loop** are forgotten at its end. -/
theorem Scoped.each (hI : I.Scoped) (name : String) (counter : Option String) {items : Expr} (hi : items.Scoped)
    {body : List Stmt} (hb : ScopedBlock body) : (I.each name counter items body).Retains J := by
  refine (hI.expr hi).bind fun v => ?_
  split
  · exact leads_failAt _ _
  · refine retains_inBlock_of_suffix fun l => ?_
    have through (src : Source) : (modify (·.declare name false (.own .unit)) >>= fun _ =>
        loopThrough name counter (I.round body) 0 src maxRounds : Eval Value).Retains (l <:+ ·) :=
      (retains_declare l name .unit).bind fun _ => retains_loopThrough name counter (hI.round hb) 0 src maxRounds
    split
    · exact (retains_declare l _ .unit).bind fun _ => through _
    · exact through _

/-! ## §4 — statements -/

/-- **The choice of an arm**, before what is done with its action. -/
theorem Scoped.choose (hI : I.Scoped) (v : Value) {arms : List Arm} (h : ∀ a ∈ arms, a.Scoped)
    {f : Option Expr → Eval α} (hf : ∀ action, (∀ e ∈ action, e.Scoped) → (f action).Retains J) :
    (I.choose v arms >>= f).Retains J := by
  induction arms with
  | nil => exact hf none forall_mem_none
  | cons arm rest ih =>
    obtain ⟨ha, hr⟩ := List.forall_mem_cons.mp h
    cases ha with
    | @mk patterns guard hg action ha =>
      have chosen : (f (some action)).Retains J := hf _ fun e mem => Option.mem_some.mp mem ▸ ha
      unfold Interpreter.choose
      split
      · cases guard with
        | none => exact chosen
        | some g =>
          dsimp only
          rw [bind_assoc]
          refine (hI.condition (hg g rfl)).bind fun b => ?_
          split
          · exact chosen
          · exact ih hr
      · exact ih hr

theorem Scoped.optional (hI : I.Scoped) {e : Option Expr} (h : ∀ x ∈ e, x.Scoped) : (I.optional e).Retains J := by
  cases e with
  | none => exact leads_pure _
  | some e => exact hI.expr (h e rfl)

theorem Scoped.handling (hI : I.Scoped) (caught : Value) (name : Option String) {handler : List Stmt}
    (h : ScopedBlock handler) : (I.handling caught name handler).Retains J := by
  refine retains_inBlock_of_suffix fun l => ?_
  cases name with
  | none => exact hI.block h
  | some n => exact (retains_declare l n caught).bind fun _ => hI.block h

theorem Scoped.handle (hI : I.Scoped) (f : Fault) (name : Option String) {handler : List Stmt}
    (h : ScopedBlock handler) : (I.handle f name handler).Retains J := by
  refine Leads.bind (Q := J) (hI.handling f.caught name h).outcome fun r => ?_
  split
  · exact leads_pure _
  · split <;> exact leads_throw _
  · exact leads_throw _

/-- **A declaration** brings a variable into reach, or puts it in the place of one of its block. -/
theorem Scoped.declare (hI : I.Scoped) (name : String) (constant : Bool) (inPlace : Option Nat) {value : Expr}
    (h : value.Scoped) (pos : Position) {own : List String} {older : List Label}
    (fits : Declaration.Fits own ⟨name, inPlace⟩) :
    (I.execute (.declare name constant inPlace value pos)).Leads (Extends own older)
      (Extends (Declaration.after own ⟨name, inPlace⟩) older) (Extends own older) := by
  refine Leads.bind (Q := Extends own older) (hI.expr h) fun v => ?_
  cases inPlace with
  | none => exact Leads.bind (leads_modify fun m hm => hm.declare name constant) fun _ => leads_pure _
  | some back =>
    refine Leads.bind (Q := Extends own older) (leads_modify fun m hm => ?_) fun _ => leads_pure _
    rw [m.labels_redeclare]
    exact hm.redeclare (fits back rfl) constant

/-- **Any other statement** leaves the variables in reach. -/
theorem Scoped.execute_plain (hI : I.Scoped) {s : Stmt} (h : s.Plain) : (I.execute s).Retains J := by
  obtain ⟨inner, declares⟩ := h
  cases inner with
  | declare => cases declares
  | noop pos => exact leads_pure _
  | assign ht op hv pos => exact (hI.assign ht op hv pos).bind fun _ => leads_pure _
  | expr h => exact hI.expr h
  | block h placed pos => exact hI.block ⟨h, placed⟩
  | branch hc hy placedYes hn placedNo pos =>
    refine (hI.condition hc).bind fun b => ?_
    split
    · exact hI.block ⟨hy, placedYes⟩
    · exact hI.block ⟨hn, placedNo⟩
  | switch hi ha hf pos =>
    refine (hI.expr hi).bind fun v => hI.choose v ha fun action h => ?_
    split
    · exact hI.expr (h _ rfl)
    · exact hI.optional hf
  | @repeatWhile cond hc body hb placed pos =>
    refine retains_loopWhile ?_ (hI.round ⟨hb, placed⟩) _
    cases cond with
    | none => exact leads_pure true
    | some e => exact hI.condition (hc e rfl)
  | repeatAfter hb placed hc goOn pos =>
    exact retains_loopUntil ((hI.condition hc).bind fun b => leads_pure _) (hI.round ⟨hb, placed⟩) _
  | each name counter hi hb placed pos => exact hI.each name counter hi ⟨hb, placed⟩
  | leave h pos => exact (hI.optional h).bind fun v => leads_throw _
  | proceed pos => exact leads_throw _
  | giveBack h pos => exact (hI.optional h).bind fun v => leads_throw _
  | raise h pos => exact (hI.optional h).bind fun v => leads_failAt _ _
  | attempt hb placed name hh placedHandler pos =>
    refine Leads.bind (Q := J) (hI.block ⟨hb, placed⟩).outcome fun r => ?_
    split
    · split
      · exact leads_throw _
      · exact (retains_catches _).bind fun _ => hI.handle _ name ⟨hh, placedHandler⟩
    · exact retains_resume r
  | importModule h pos =>
    refine (hI.expr h).bind fun v => ?_
    split <;> exact leads_failAt _ _

/-- **A statement** brings into reach what it declares, and nothing else. -/
theorem Scoped.execute (hI : I.Scoped) {s : Stmt} (h : s.Scoped) {own : List String} {older : List Label}
    (fits : ∀ d ∈ s.declaration?, d.Fits own) :
    (I.execute s).Leads (Extends own older) (Extends (owned own (declared [s])) older) (Extends own older) := by
  rw [declared_cons]
  cases e : s.declaration? with
  | none => exact hI.execute_plain ⟨h, e⟩
  | some d =>
    cases h with
    | declare name constant inPlace h pos =>
      cases e
      exact hI.declare name constant inPlace h pos (fits _ rfl)
    | _ => cases e

end Interpreter

/-! ## §5 — scripts -/

/-- **The interpreter** leaves the variables in reach, but for what is declared. -/
theorem scoped_interpreter (depth : Nat) : (interpreter depth).Scoped := by
  induction depth with
  | zero => exact ⟨fun _ => leads_throw _, fun _ _ _ _ => leads_throw _⟩
  | succ n ih => exact ⟨fun h => ih.evaluate h, fun h _ _ fits => ih.execute h fits⟩

/-- **A scoped script** leaves the variables that it found, and before them those of its first declarations. -/
theorem Program.extends_run (s : Program) (h : ScopedBlock s.statements) (c : Context) (m : Machine) :
    (s.run c m).EndsIn fun r =>
      ∃ ds, ds <+: declared s.statements ∧ Extends (owned [] ds) m.labels r.2.labels := by
  have start : Extends [] m.labels m.labels := extends_nil.mpr rfl
  refine (((scoped_interpreter maxNesting).sequence h.statements h.placed .unit).run c m start).bind ?_
  rintro ⟨r, n⟩ ends
  cases r with
  | ok v => exact .done ⟨_, List.prefix_rfl, ends⟩
  | error s => exact .done ends

end Dialogue.Script
