import Dialogue.Proofs.Script.Genuine.Call
import Dialogue.Script.Evaluator
/-!
# `Dialogue.Proofs.Script.Genuine.Evaluator` — scripts make no failures.

What a script catches it may keep and throw again, perhaps much later; but each failure in its hands came from an
answer, or was there from the start. Each kind of expression and statement keeps to `P`, provided that its parts do; by
induction on the depth of nesting, the interpreter does. Main statement: a script that is run on a genuine machine, and
answered with failures in `P` only, leaves a genuine machine and ends in a genuine value or a genuine fault.
-/

namespace Dialogue.Script

variable {P : Failure → Prop}

namespace Interpreter

variable {I : Interpreter}

/-! ## §1 — expressions -/

theorem Keeps.condition (hI : I.Keeps P) {e : Expr} (h : e.Genuine P) : (I.condition e).Keeps P Whatever := by
  refine (hI.expr e h).after fun v => ?_
  split
  · exact .pure trivial
  · exact .failAt _ trivial

theorem Keeps.fields (hI : I.Keeps P) {fs : List (String × Expr)} (h : ∀ f ∈ fs, f.2.Genuine P) :
    (I.fields fs).Keeps P (FieldsGenuine P) := by
  induction fs with
  | nil => exact .pure (List.forall_mem_nil _)
  | cons f fs ih =>
    obtain ⟨hf, hfs⟩ := List.forall_mem_cons.mp h
    refine (hI.expr f.2 hf).bind fun v hv => (ih hfs).bind fun gs hgs => ?_
    exact .pure (List.forall_mem_cons.mpr ⟨hv, hgs⟩)

theorem Keeps.operation (hI : I.Keeps P) (op : String) {operands : List Expr} (h : ∀ e ∈ operands, e.Genuine P)
    (pos : Position) : (I.operation op operands pos).KeepsValue P := by
  unfold Interpreter.operation
  split
  · exact hI.call _ h pos false
  · refine (hI.expr _ (List.forall_mem_singleton.mp h)).after fun v => ?_
    exact keeps_orFail pos (Operation.genuine_unary _ v)
  · obtain ⟨ha, hr⟩ := List.forall_mem_cons.mp h
    refine (hI.expr _ ha).bind fun x hx => (hI.expr _ (List.forall_mem_singleton.mp hr)).bind fun y hy => ?_
    exact keeps_orFail pos (Operation.genuine_binary _ hx hy)
  · exact (hI.arguments h).after fun vs => keeps_orFail pos (.error trivial)

/-- **What a closure captures** are cells, which hold what the variables held. -/
theorem keeps_share (captured : List (String × Position)) :
    (share captured).Keeps P fun slots => ∀ s ∈ slots, s.Genuine P := by
  induction captured with
  | nil => exact .pure (List.forall_mem_nil _)
  | cons entry rest ih =>
    obtain ⟨name, pos⟩ := entry
    refine Eval.Keeps.get.bind fun m hm => ?_
    split
    · rename_i cell n shared
      refine (Eval.Keeps.set (hm.share? shared)).after fun _ => ih.bind fun slots hs => ?_
      exact .pure (List.forall_mem_cons.mpr ⟨.cell cell, hs⟩)
    · exact .failAt _ trivial

/-- A step of a chain with genuine arguments and a genuine index. -/
def Prepared.Genuine (P : Failure → Prop) : Prepared → Prop
  | .property .. => True
  | .index key _ _ _ => key.Genuine P
  | .method _ arguments _ _ => Genuines P arguments

theorem Keeps.prepare (hI : I.Keeps P) {steps : List Step} (h : ∀ s ∈ steps, s.Genuine P) :
    (I.prepare steps).Keeps P fun ps => ∀ p ∈ ps, p.Genuine P := by
  induction steps with
  | nil => exact .pure (List.forall_mem_nil _)
  | cons step rest ih =>
    obtain ⟨hs, hr⟩ := List.forall_mem_cons.mp h
    have more {p : Prepared} (hp : p.Genuine P) :
        (do return p :: (← I.prepare rest) : Eval (List Prepared)).Keeps P fun ps => ∀ p ∈ ps, p.Genuine P :=
      (ih hr).bind fun ps hps => .pure (List.forall_mem_cons.mpr ⟨hp, hps⟩)
    cases hs with
    | property name pos dot optional => exact more trivial
    | index hk bracket optional => exact (hI.expr _ hk).bind fun k hk => more hk
    | method name ha pos dot optional => exact (hI.arguments ha).bind fun vs hvs => more hvs

theorem Keeps.chainRoot (hI : I.Keeps P) {root : Expr} (h : root.Genuine P) :
    (I.chainRoot root).Keeps P (Standing.Genuine P) := by
  unfold Interpreter.chainRoot
  split
  · exact (keeps_sighting ..).bind fun s hs => .pure hs
  · exact (keeps_thisValue _).bind fun v hv => .pure hv
  · exact (hI.expr _ h).bind fun v hv => .pure hv

theorem Standing.genuine_into (s : Standing) {found : Access.Found} (h : found.Genuine P) :
    (s.into found).Genuine P := by
  unfold Standing.into
  split <;> exact h

theorem keeps_orFailIndex {α : Type} {Q : α → Prop} (start bracket : Position) {r : Except Cause α}
    (h : Ends P Q r) : (orFailIndex start bracket r).Keeps P Q := by
  cases h with
  | ok h => exact .pure h
  | error h =>
    unfold orFailIndex
    split
    · rename_i e
      cases e
    · exact .failAt _ trivial
    · rename_i e
      cases e
      exact .failAt _ h

theorem keeps_propertyOf {v : Value} (hv : v.Genuine P) (name : String) (pos : Position) :
    (propertyOf v name pos).Keeps P (Access.Found.Genuine P) := by
  unfold propertyOf
  split
  · exact (keeps_elapsed _ pos).bind fun v hv => .pure hv
  · exact keeps_orFail pos (Access.genuine_property hv _)

theorem Keeps.advance (hI : I.Keeps P) {s : Standing} (hs : s.Genuine P) {step : Prepared} (hp : step.Genuine P) :
    (I.advance s step).Keeps P (Standing.Genuine P) := by
  cases step with
  | property name pos optional =>
    exact (keeps_propertyOf hs name pos).bind fun found hf => .pure (s.genuine_into hf)
  | index key start bracket optional =>
    refine (keeps_orFailIndex start bracket (Access.genuine_element hs key)).bind fun found hf => ?_
    exact .pure (s.genuine_into hf)
  | method name arguments pos optional => exact (hI.method hs name hp pos).bind fun v hv => .pure hv

theorem Keeps.walk (hI : I.Keeps P) {s : Standing} (hs : s.Genuine P) {steps : List Prepared}
    (h : ∀ p ∈ steps, p.Genuine P) : (I.walk s steps).Keeps P fun r => ∀ t ∈ r, t.Genuine P := by
  induction steps generalizing s with
  | nil =>
    refine .pure ?_
    rintro t ⟨⟩
    exact hs
  | cons step rest ih =>
    obtain ⟨hp, hr⟩ := List.forall_mem_cons.mp h
    unfold Interpreter.walk
    split
    · exact .pure forall_mem_none
    · exact (hI.advance hs hp).bind fun t ht => ih ht hr

theorem Keeps.chain (hI : I.Keeps P) {root : Expr} (hr : root.Genuine P) {steps : List Step}
    (hs : ∀ s ∈ steps, s.Genuine P) : (I.chain root steps).KeepsValue P := by
  refine (hI.prepare hs).bind fun prepared hp => (hI.chainRoot hr).bind fun s hs => ?_
  refine (hI.walk hs hp).bind fun r ht => ?_
  split
  · exact .pure (ht _ rfl)
  · exact .pure Datum.holds_unit

/-- **An expression** keeps to `P` when its parts do. -/
theorem Keeps.evaluate (hI : I.Keeps P) {e : Expr} (h : e.Genuine P) : (I.evaluate e).KeepsValue P := by
  cases h with
  | constant h pos => exact .pure (Datum.genuine_ofConstant h)
  | var name pos => exact (keeps_sighting ..).bind fun s hs => .pure hs
  | this pos => exact keeps_thisValue pos
  | template h pos => exact (hI.arguments h).after fun _ => .pure (Datum.holds_str _)
  | array h pos => exact (hI.arguments h).bind fun vs hvs => .pure (.array hvs)
  | object h pos => exact (hI.fields h).bind fun fs hfs => .pure (.object (FieldsHold.ofFields hfs))
  | operation op h pos => exact hI.operation op h pos
  | call name h pos here => exact hI.call name h pos here
  | both ha hb pos =>
    refine (hI.condition ha).after fun x => ?_
    split
    · exact (hI.condition hb).after fun y => .pure (Datum.holds_bool _)
    · exact .pure (Datum.holds_bool _)
  | either ha hb pos =>
    refine (hI.condition ha).after fun x => ?_
    split
    · exact .pure (Datum.holds_bool _)
    · exact (hI.condition hb).after fun y => .pure (Datum.holds_bool _)
  | orElse ha hb pos =>
    refine (hI.expr _ ha).bind fun v hv => ?_
    split
    · exact hI.expr _ hb
    · exact .pure hv
  | chain hr hs => exact hI.chain hr hs
  | closure captured h pos =>
    refine (keeps_share captured).bind fun slots hs => .pure (.function _ hs ?_)
    rintro f ⟨⟩
    exact h
  | statements h pos => exact hI.block h

/-! ## §2 — assignments -/

theorem keeps_assignedValue (op : Option String) {old new : Value} (ho : old.Genuine P) (hn : new.Genuine P)
    (pos : Position) : (assignedValue op old new pos).KeepsValue P := by
  cases op with
  | none => exact .pure hn
  | some op => exact keeps_orFail pos (Operation.genuine_assigned op ho hn)

theorem keeps_assignable {s : Standing} (hs : s.Genuine P) (op : Option String) (new : Value) (step : Prepared) :
    (assignable s op new step).Keeps P (Access.Found.Genuine P) := by
  cases step with
  | property name pos optional =>
    have written := Access.genuine_writable hs name new
    cases op with
    | none => exact keeps_orFail pos written
    | some op => exact (keeps_propertyOf hs name pos).after fun _ => keeps_orFail pos written
  | index key start bracket optional => exact keeps_orFailIndex start bracket (Access.genuine_writableAt hs key)
  | method => exact .pure Datum.holds_unit

theorem keeps_constantFault (root : Expr) : (constantFault root).Keeps P Whatever := by
  unfold constantFault
  split <;> exact .failAt _ trivial

theorem keeps_assignStep {s : Standing} (hs : s.Genuine P) (step : Prepared) {fault : Eval Unit}
    (hf : fault.Keeps P Whatever) (op : Option String) {new : Value} (hn : new.Genuine P) (pos : Position) :
    (assignStep s step fault op new pos).Keeps P Whatever := by
  refine (keeps_assignable hs op new step).bind fun found hfound => .guarded hf ?_
  refine (keeps_assignedValue op hfound hn pos).bind fun v hv => ?_
  refine (keeps_orFail pos (Access.ends_checkWritten _ v)).after fun _ => ?_
  split
  · exact Standing.keeps_become _ hv
  · exact .pure trivial

/-- **An assignment.** -/
theorem Keeps.assign (hI : I.Keeps P) {target : Expr} (ht : target.Genuine P) (op : Option String) {value : Expr}
    (hv : value.Genuine P) (pos : Position) : (I.assign target op value pos).Keeps P Whatever := by
  refine (hI.expr value hv).bind fun new hn => ?_
  split
  · cases ht with
    | chain hr hs =>
      refine (hI.prepare hs).bind fun prepared hp => (hI.chainRoot hr).bind fun s hs => ?_
      split
      · exact .pure trivial
      · rename_i last before backwards
        have reached : ∀ p ∈ before.reverse, p.Genuine P := by
          intro p mem
          apply hp
          rw [← List.mem_reverse, backwards]
          exact List.mem_cons_of_mem _ (List.mem_reverse.mp mem)
        refine (hI.walk hs reached).bind fun r ht => ?_
        split
        · exact .pure trivial
        · split
          · exact .pure trivial
          · exact keeps_assignStep (ht _ rfl) _ (keeps_constantFault _) op hn pos
  · refine (hI.chainRoot ht).bind fun s hs => ?_
    have write : (assignedValue op s.value new pos >>= fun v => s.become v).Keeps P Whatever :=
      (keeps_assignedValue op hs hn pos).bind fun v hv => s.keeps_become hv
    dsimp only
    split
    · exact (keeps_constantFault _).after fun _ => write
    · exact write

/-! ## §3 — loops -/

/-- What a round yields for the loop. -/
def Round.Genuine (P : Failure → Prop) : Round → Prop
  | .next => True
  | .stop v => v.Genuine P

theorem Keeps.round (hI : I.Keeps P) {body : List Stmt} (h : AllGenuine P body) :
    (I.round body).Keeps P (Round.Genuine P) := by
  refine (hI.block h).outcome.bind fun r hr => ?_
  split
  · exact .pure trivial
  · exact .pure trivial
  · exact .pure hr
  · exact .throw hr

theorem keeps_setVariable (name : String) {v : Value} (hv : v.Genuine P) : (setVariable name v).Keeps P Whatever := by
  refine .modify fun m hm => ?_
  split
  · exact hm.write _ hv
  · exact hm

/-- A source of genuine values. -/
def Source.Genuine (P : Failure → Prop) : Source → Prop
  | .values vs => Genuines P vs
  | .numbers .. => True

theorem Source.Genuine.pop? {src rest : Source} (h : src.Genuine P) {v : Value} (popped : src.pop? = some (v, rest)) :
    v.Genuine P ∧ rest.Genuine P := by
  unfold Source.pop? at popped
  split at popped
  · cases popped
  · cases popped
    exact List.forall_mem_cons.mp h
  · split at popped
    · cases popped
      exact ⟨Datum.holds_int _, trivial⟩
    · cases popped

theorem genuine_ofValue? {v : Value} (h : v.Genuine P) {src : Source} (found : Source.ofValue? v = some src) :
    src.Genuine P := by
  unfold Source.ofValue? at found
  split at found
  all_goals cases found
  · exact h.items
  · intro w mem
    obtain ⟨c, -, rfl⟩ := List.mem_map.mp mem
    exact Datum.holds_char c
  · trivial
  · trivial

section Loops

variable {body : Eval Round} (hb : body.Keeps P (Round.Genuine P))

include hb

theorem keeps_loopWhile {cond : Eval Bool} (hc : cond.Keeps P Whatever) (rounds : Nat) :
    (loopWhile cond body rounds).KeepsValue P := by
  induction rounds with
  | zero => exact .throw trivial
  | succ n ih =>
    refine hc.after fun b => ?_
    split
    · refine hb.bind fun r hr => ?_
      split
      · exact .pure hr
      · exact ih
    · exact .pure Datum.holds_unit

theorem keeps_loopUntil {cond : Eval Bool} (hc : cond.Keeps P Whatever) (rounds : Nat) :
    (loopUntil cond body rounds).KeepsValue P := by
  induction rounds with
  | zero => exact .throw trivial
  | succ n ih =>
    refine hb.bind fun r hr => ?_
    split
    · exact .pure hr
    · refine hc.after fun b => ?_
      split
      · exact ih
      · exact .pure Datum.holds_unit

theorem keeps_turn (name : String) {v : Value} (hv : v.Genuine P) {after : Eval Value} (ha : after.KeepsValue P) :
    (turn name v body after).KeepsValue P := by
  refine (keeps_setVariable name hv).after fun _ => hb.bind fun r hr => ?_
  split
  · exact .pure hr
  · exact ha

theorem keeps_loopThrough (name : String) (counter : Option String) (index : Nat) {src : Source}
    (hs : src.Genuine P) (rounds : Nat) : (loopThrough name counter body index src rounds).KeepsValue P := by
  induction rounds generalizing index src with
  | zero => exact .throw trivial
  | succ n ih =>
    unfold loopThrough
    split
    · exact .pure Datum.holds_unit
    · rename_i v rest popped
      obtain ⟨hv, hr⟩ := hs.pop? popped
      have next := keeps_turn hb name hv (ih (index + 1) hr)
      split
      · exact (keeps_setVariable _ (Datum.holds_int _)).after fun _ => next
      · exact next

end Loops

/-- A variable that a loop or a handler brings into reach. -/
theorem keeps_declare (name : String) {v : Value} (hv : v.Genuine P) :
    (modify (·.declare name false (.own v)) : Eval PUnit).Keeps P Whatever :=
  .modify fun _ hm => hm.declare name false (.own hv)

theorem Keeps.each (hI : I.Keeps P) (name : String) (counter : Option String) {items : Expr} (hi : items.Genuine P)
    {body : List Stmt} (hb : AllGenuine P body) : (I.each name counter items body).KeepsValue P := by
  refine (hI.expr items hi).bind fun v hv => ?_
  split
  · exact .failAt _ trivial
  · rename_i src found
    refine Eval.Keeps.inBlock ?_
    have through : (modify (·.declare name false (.own .unit)) >>= fun _ =>
        loopThrough name counter (I.round body) 0 src maxRounds : Eval Value).KeepsValue P :=
      (keeps_declare name Datum.holds_unit).after fun _ =>
        keeps_loopThrough (hI.round hb) name counter 0 (genuine_ofValue? hv found) maxRounds
    split
    · exact (keeps_declare _ Datum.holds_unit).after fun _ => through
    · exact through

/-! ## §4 — statements -/

theorem Keeps.choose (hI : I.Keeps P) (v : Value) {arms : List Arm} (h : ∀ a ∈ arms, a.Genuine P) :
    (I.choose v arms).Keeps P fun r => ∀ e ∈ r, e.Genuine P := by
  induction arms with
  | nil => exact .pure forall_mem_none
  | cons arm rest ih =>
    obtain ⟨ha, hr⟩ := List.forall_mem_cons.mp h
    cases ha with
    | @mk patterns guard hg action ha =>
      have taken : (pure (some action) : Eval (Option Expr)).Keeps P fun r => ∀ e ∈ r, e.Genuine P := by
        refine .pure ?_
        rintro e ⟨⟩
        exact ha
      unfold Interpreter.choose
      split
      · cases guard with
        | none => exact taken
        | some g =>
          refine (hI.condition (hg g rfl)).after fun b => ?_
          split
          · exact taken
          · exact ih hr
      · exact ih hr

theorem Keeps.optional (hI : I.Keeps P) {e : Option Expr} (h : ∀ x ∈ e, x.Genuine P) :
    (I.optional e).KeepsValue P := by
  cases e with
  | none => exact .pure Datum.holds_unit
  | some e => exact hI.expr e (h e rfl)

theorem Keeps.handling (hI : I.Keeps P) {caught : Value} (hc : caught.Genuine P) (name : Option String)
    {handler : List Stmt} (h : AllGenuine P handler) : (I.handling caught name handler).KeepsValue P := by
  refine Eval.Keeps.inBlock ?_
  cases name with
  | none => exact hI.block h
  | some n => exact (keeps_declare n hc).after fun _ => hI.block h

/-- **A handler** has the failure in its hands, and may throw it again, with or without naming it. -/
theorem Keeps.handle (hI : I.Keeps P) {f : Fault} (hf : f.Genuine P) (name : Option String) {handler : List Stmt}
    (h : AllGenuine P handler) : (I.handle f name handler).KeepsValue P := by
  refine (hI.handling hf.caught name h).outcome.bind fun r hr => ?_
  split
  · exact .pure Datum.holds_unit
  · rename_i g
    split
    · have moved : (f.moveTo g.place?).Genuine P := by
        unfold Fault.Genuine
        rw [Fault.cause_moveTo]
        exact hf
      exact .throw moved
    · exact .throw hr
  · exact .throw hr

/-- **A statement** keeps to `P` when its parts do. -/
theorem Keeps.execute (hI : I.Keeps P) {s : Stmt} (h : s.Genuine P) : (I.execute s).KeepsValue P := by
  cases h with
  | noop pos => exact .pure Datum.holds_unit
  | declare name constant inPlace h pos =>
    refine (hI.expr _ h).bind fun v hv => ?_
    cases inPlace with
    | none =>
      exact (Eval.Keeps.modify fun m hm => hm.declare name constant (.own hv)).after fun _ => .pure Datum.holds_unit
    | some back =>
      exact (Eval.Keeps.modify fun m hm => hm.redeclare back constant hv).after fun _ => .pure Datum.holds_unit
  | assign ht op hv pos => exact (hI.assign ht op hv pos).after fun _ => .pure Datum.holds_unit
  | expr h => exact hI.expr _ h
  | block h pos => exact hI.block h
  | branch hc hy hn pos =>
    refine (hI.condition hc).after fun b => ?_
    split
    · exact hI.block hy
    · exact hI.block hn
  | switch hi ha hf pos =>
    refine (hI.expr _ hi).after fun v => (hI.choose v ha).bind fun action hc => ?_
    split
    · exact hI.expr _ (hc _ rfl)
    · exact hI.optional hf
  | @repeatWhile cond hc body hb pos =>
    refine keeps_loopWhile (hI.round hb) ?_ _
    cases cond with
    | none => exact .pure trivial
    | some e => exact hI.condition (hc e rfl)
  | repeatAfter hb hc goOn pos =>
    exact keeps_loopUntil (hI.round hb) ((hI.condition hc).after fun b => .pure trivial) _
  | each name counter hi hb pos => exact hI.each name counter hi hb
  | leave h pos => exact (hI.optional h).bind fun v hv => .throw hv
  | proceed pos => exact .throw trivial
  | giveBack h pos => exact (hI.optional h).bind fun v hv => .throw hv
  | raise h pos => exact (hI.optional h).bind fun v hv => .failAt pos hv
  | attempt hb name hh pos =>
    -- a fault that can be caught goes to the handler, and with it the failure that it may hold
    refine (hI.block hb).outcome.bind fun r hr => ?_
    split
    · split
      · exact .throw hr
      · exact (Eval.Keeps.catches _).after fun _ => hI.handle hr name hh
    · exact .resume hr
  | importModule h pos =>
    refine (hI.expr _ h).after fun v => ?_
    split <;> exact .failAt _ trivial

end Interpreter

/-! ## §5 — scripts -/

/-- **The interpreter keeps to `P`.** -/
theorem keeps_interpreter (depth : Nat) : (interpreter depth).Keeps P := by
  induction depth with
  | zero => exact ⟨fun _ _ => .throw trivial, fun _ _ => .throw trivial⟩
  | succ n ih => exact ⟨fun _ h => ih.evaluate h, fun _ h => ih.execute h⟩

/-- What a script ends in: a genuine value, or a genuine fault. -/
def Finishes (P : Failure → Prop) : Except Fault Value → Prop
  | .ok v => v.Genuine P
  | .error f => f.Genuine P

/-- **A script keeps to `P`.** -/
theorem Program.keeps_run {s : Program} (hs : AllGenuine P s.statements) {c : Context} (hc : c.Genuine P) {m : Machine}
    (hm : m.Genuine P) : (s.run c m).Keeps P fun r => Finishes P r.1 ∧ r.2.Genuine P := by
  refine (((keeps_interpreter maxNesting).sequence hs Datum.holds_unit).run c m hc hm).bind ?_
  rintro ⟨r, n⟩ ⟨outcome, machine⟩
  refine .done ⟨?_, machine⟩
  match r with
  | .ok v => exact outcome
  | .error (.fault f) => exact outcome
  | .error (.leave v) => exact outcome
  | .error .proceed => exact Datum.holds_unit
  | .error (.giveBack v) => exact outcome

end Dialogue.Script
