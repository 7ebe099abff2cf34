import Dialogue.Proofs.Script.Scoped.Machine
/-!
# `Dialogue.Proofs.Script.Scoped.Call` — calls leave the variables in reach.

A function of the script has a scope of its own, and whatever it does there, the variables of its caller are back at
its end. So no call brings a variable into reach or takes one out of it, and the code of a function needs no property
for that; only the arguments do, which are evaluated where the call stands. A block is left as it was found when it is
scoped. Main statements: one for each kind of call, and one for the statements of a block, which bring into reach the
variables that the first of their declarations are for.
-/

namespace Dialogue.Script

open Eval

namespace Interpreter

/-- **An interpreter of scoped code:** expressions leave the variables in reach as they are, and so do statements, but
for what they declare. -/
structure Scoped (I : Interpreter) : Prop where
  expr : ∀ {e : Expr}, e.Scoped → ∀ {J}, (I.expr e).Retains J
  stmt : ∀ {s : Stmt}, s.Scoped → ∀ {own older}, (∀ d ∈ s.declaration?, d.Fits own) →
    (I.stmt s).Leads (Extends own older) (Extends (owned own (declared [s])) older) (Extends own older)

variable {I : Interpreter} {J : List Label → Prop} {α : Type}

/-! ## §1 — statements one after another -/

/-- **The statements of a block** carry out the first of its declarations, and all of them unless they end early. -/
theorem Scoped.sequence (hI : I.Scoped) {body : List Stmt} (h : ∀ s ∈ body, s.Scoped) {own : List String}
    (placed : Placed own (declared body)) {older : List Label} (v : Value) :
    (I.sequence body v).Leads (Extends own older) (Extends (owned own (declared body)) older)
      (fun l => ∃ ds, ds <+: declared body ∧ Extends (owned own ds) older l) := by
  induction body generalizing own v with
  | nil => exact leads_pure v
  | cons s ss ih =>
    obtain ⟨hs, hss⟩ := List.forall_mem_cons.mp h
    have split : declared (s :: ss) = declared [s] ++ declared ss := declared_append [s] ss
    rw [split] at placed ⊢
    obtain ⟨here, later⟩ := placed_append.mp placed
    have fits : ∀ d ∈ s.declaration?, d.Fits own := by
      intro d hd
      rw [declared_cons, Option.mem_def.mp hd] at here
      exact here.1
    rw [owned_append]
    refine Leads.bind ((hI.stmt hs fits).weaken (fun _ => id) (fun _ => id) fun l early => ?_) fun u => ?_
    · exact ⟨[], List.nil_prefix, early⟩
    · refine (ih hss later u).weaken (fun _ => id) (fun _ => id) fun l early => ?_
      obtain ⟨ds, first, there⟩ := early
      exact ⟨declared [s] ++ ds, (List.prefix_append_right_inj _).mpr first, owned_append own _ ds ▸ there⟩

/-- **A block** leaves the variables that it found. -/
theorem Scoped.block (hI : I.Scoped) {body : List Stmt} (h : ScopedBlock body) : (I.block body).Retains J := by
  refine retains_inBlock fun l => ?_
  refine (hI.sequence h.statements h.placed .unit).weaken (fun l' => extends_nil.mpr) (fun l' => Extends.suffix) ?_
  rintro l' ⟨ds, -, there⟩
  exact there.suffix

/-! ## §2 — functions -/

/-- **A call of a function** puts the variables of its caller back, whatever they hold by then. -/
theorem retains_invoke (f : Function) (label : Option String) (this : Option Value)
    (arguments : List (Slot Function)) (pos : Position) (here : Bool) :
    (I.invoke f label this arguments pos here).Retains J := by
  refine Leads.bind leads_read fun c => ?_
  split
  · exact leads_pure _
  · refine leads_get fun before hb => ?_
    refine Leads.bind (Q := fun _ => True) (leads_set trivial) fun _ => ?_
    refine Leads.bind (((leads_anywhere _ _).outcome).withReader _) fun r => ?_
    refine leads_get fun after _ => ?_
    refine Leads.bind (Q := J) (leads_set ?_) fun _ => leads_pure _
    show J (List.map Entry.label (if here then _ else before.scope))
    split
    · rw [before.labels_refreshed]
      exact hb
    · exact hb

theorem retains_value {x : Eval Returned} (h : x.Retains J) : (x >>= Returned.value).Retains J :=
  h.bind fun r => retains_resume r.outcome

theorem retains_orFail (pos : Position) (r : Except Cause α) : (orFail pos r).Retains J := by
  cases r with
  | ok a => exact leads_pure a
  | error cause => exact leads_failAt pos cause

theorem retains_includeFile (path : String) (options : Include.Options) (pos : Position) :
    (includeFile path options pos).Retains J := by
  refine (retains_ask _).bind fun r => ?_
  split
  · exact leads_pure _
  · exact leads_failAt pos _

theorem retains_elapsed (t : Instant) (pos : Position) : (elapsed t pos).Retains J := by
  refine retains_now.bind fun now => ?_
  split
  · exact leads_failAt pos _
  · exact retains_now.bind fun now => leads_pure _

theorem retains_plainCall {name : String} {arguments : List Value} {pos : Position} {call : Eval Library.Outcome}
    (h : plainCall? name arguments pos = some call) : call.Retains J := by
  unfold plainCall? at h
  split at h
  · cases h
    exact (retains_includeFile _ _ pos).bind fun _ => leads_pure _
  · cases h
    exact (retains_orFail pos _).bind fun options => (retains_includeFile _ options pos).bind fun _ => leads_pure _
  · cases h
    exact retains_now.bind fun t => leads_pure _
  · cases h
    exact (retains_elapsed _ pos).bind fun _ => leads_pure _
  · obtain ⟨r, -, rfl⟩ := Option.map_eq_some_iff.mp h
    exact retains_orFail pos r

theorem retains_callValue (name : String) (given : List (Slot Function)) (code : Option Function)
    (this : Option Value) (arguments : List Value) (pos : Position) (here : Bool) :
    (I.callValue name given code this arguments pos here).Retains J := by
  refine leads_get fun m _ => ?_
  dsimp only
  cases code with
  | some f =>
    dsimp only
    split
    · exact retains_invoke ..
    · exact leads_pure _
  | none =>
    refine Leads.bind leads_read fun c => ?_
    split
    · exact retains_invoke ..
    · split
      · rename_i call known
        exact (retains_plainCall known).outcome.bind fun r => leads_pure _
      · exact leads_pure _

theorem retains_missing (name : String) (given : List (Slot Function)) (code : Option Function)
    (choices : List Nat) : (missing? name given code choices).Retains J := by
  cases code with
  | some f => exact leads_pure _
  | none => exact Leads.bind leads_read fun _ => leads_pure _

theorem retains_callForItem (f : Value) (leading : List Value) (item : Value) (index : Nat) (pos : Position) :
    (I.callForItem f leading item index pos).Retains J := by
  unfold Interpreter.callForItem
  split
  · refine (retains_missing ..).bind fun k => ?_
    split
    · split
      · exact retains_value (retains_callValue ..)
      · split <;> exact retains_value (retains_callValue ..)
    · exact retains_value (retains_callValue ..)
  · exact leads_failAt pos _

section Callbacks

variable (f : Value) (pos : Position)

theorem retains_mapItems (index : Nat) (xs : List Value) : (I.mapItems f pos index xs).Retains J := by
  induction xs generalizing index with
  | nil => exact leads_pure []
  | cons x xs ih => exact (retains_callForItem ..).bind fun _ => (ih _).bind fun _ => leads_pure _

theorem retains_filterItems (index : Nat) (xs : List Value) : (I.filterItems f pos index xs).Retains J := by
  induction xs generalizing index with
  | nil => exact leads_pure []
  | cons x xs ih => exact (retains_callForItem ..).bind fun _ => (ih _).bind fun _ => leads_pure _

theorem retains_findItem (wanted : Bool) (index : Nat) (xs : List Value) :
    (I.findItem f wanted pos index xs).Retains J := by
  induction xs generalizing index with
  | nil => exact leads_pure none
  | cons x xs ih =>
    refine (retains_callForItem ..).bind fun v => ?_
    split
    · exact leads_pure _
    · exact ih _

theorem retains_reduceItems (index : Nat) (before : Value) (xs : List Value) :
    (I.reduceItems f pos index before xs).Retains J := by
  induction xs generalizing index before with
  | nil => exact leads_pure before
  | cons x xs ih => exact (retains_callForItem ..).bind fun v => ih _ v

theorem retains_comesBefore (x y : Value) : (I.comesBefore f pos x y).Retains J := by
  unfold Interpreter.comesBefore
  split
  · refine (retains_callValue ..).bind fun r => ?_
    split
    · exact leads_pure _
    · exact leads_pure _
    · exact (retains_catches _).bind fun _ => leads_pure false
    · exact leads_pure false
  · exact leads_pure false

theorem retains_insertItem (x : Value) (ys : List Value) : (I.insertItem f pos x ys).Retains J := by
  induction ys with
  | nil => exact leads_pure [x]
  | cons y ys ih =>
    refine (retains_comesBefore f pos x y).bind fun b => ?_
    split
    · exact leads_pure _
    · exact ih.bind fun _ => leads_pure _

theorem retains_sortItems (items : List Value) : (I.sortItems f pos items).Retains J := by
  unfold Interpreter.sortItems
  generalize ([] : List Value) = sorted
  induction items generalizing sorted with
  | nil => exact leads_pure sorted
  | cons x items ih =>
    rw [List.foldlM_cons]
    exact (retains_insertItem f pos x sorted).bind fun sorted' => ih sorted'

end Callbacks

theorem retains_callback {name : String} {arguments : List Value} {pos : Position} {call : Eval Library.Outcome}
    (h : I.callback? name arguments pos = some call) : call.Retains J := by
  unfold Interpreter.callback? at h
  split at h
  · split at h <;> cases h
    · exact (retains_mapItems ..).bind fun _ => leads_pure _
    · exact (retains_filterItems ..).bind fun _ => leads_pure _
    · exact (retains_findItem ..).bind fun _ => leads_pure _
    · exact (retains_findItem ..).bind fun _ => leads_pure _
    · refine (retains_findItem ..).bind fun i => ?_
      cases i <;> exact leads_pure _
    · exact (retains_mapItems ..).bind fun _ => leads_pure _
    · exact (retains_reduceItems ..).bind fun _ => leads_pure _
    · exact (retains_reduceItems ..).bind fun _ => leads_pure _
    · exact (retains_sortItems ..).bind fun _ => leads_pure _
  · cases h

theorem retains_native {name : String} {arguments : List Value} {pos : Position} {call : Eval Library.Outcome}
    (h : I.native? name arguments pos = some call) : call.Retains J := by
  unfold Interpreter.native? at h
  cases known : I.callback? name arguments pos with
  | some found =>
    rw [known] at h
    cases h
    exact retains_callback known
  | none =>
    rw [known] at h
    exact retains_plainCall h

/-! ## §3 — calls -/

theorem retains_functionNamed (name : String) (pos : Position) : (functionNamed name pos).Retains J := by
  unfold functionNamed
  split
  · exact leads_pure _
  · exact leads_failAt pos _

theorem retains_sighting (name : String) (pos : Position) : (sighting name pos).Retains J := by
  refine leads_get fun m hm => ?_
  split
  · exact leads_pure _
  · exact leads_failAt pos _

theorem retains_thisValue (pos : Position) : (thisValue pos).Retains J := by
  refine leads_get fun m hm => ?_
  split
  · exact leads_pure _
  · exact leads_failAt pos _

/-- **Writing a value** leaves the variables in reach. -/
theorem retains_write (p : Place) (v : Value) : (modify (·.write p v) : Eval PUnit).Retains J :=
  leads_modify fun m hm => (m.labels_write p v).symm ▸ hm

theorem retains_callNamed (name : String) (arguments : List Value) (place : Option Place) (pos : Position)
    (here : Bool) : (I.callNamed name arguments place pos here).Retains J := by
  refine Leads.bind leads_read fun c => ?_
  split
  · exact retains_value (retains_invoke ..)
  · split
    · exact leads_failAt pos _
    · rename_i call known
      refine (retains_native known).bind fun out => ?_
      dsimp only
      split
      · exact (retains_write ..).bind fun _ => leads_pure _
      · exact leads_pure _

theorem Scoped.arguments (hI : I.Scoped) {es : List Expr} (h : ∀ e ∈ es, e.Scoped) : (es.mapM I.expr).Retains J :=
  retains_mapM fun e mem => hI.expr (h e mem)

/-- A call in a scope of its own. -/
theorem Scoped.callApart (hI : I.Scoped) (name : String) {arguments : List Expr} (h : ∀ e ∈ arguments, e.Scoped)
    (pos : Position) : (I.callApart name arguments pos).Retains J := by
  unfold Interpreter.callApart
  split
  · exact (hI.arguments (List.forall_mem_cons.mp h).2).bind fun values =>
      (retains_sighting ..).bind fun s => retains_callNamed ..
  · exact (hI.arguments (List.forall_mem_cons.mp h).2).bind fun values =>
      (retains_thisValue _).bind fun v => retains_callNamed ..
  · exact (hI.arguments h).bind fun values => retains_callNamed ..

/-- A call in the scope of the caller. -/
theorem Scoped.callHere (hI : I.Scoped) (name : String) {arguments : List Expr} (h : ∀ e ∈ arguments, e.Scoped)
    (pos : Position) : (I.callHere name arguments pos).Retains J := by
  refine leads_get fun m hm => ?_
  split
  · exact hI.callApart name h pos
  · exact (hI.arguments h).bind fun values => retains_callNamed ..

/-- **A call by name**, whose arguments are scoped. -/
theorem Scoped.call (hI : I.Scoped) (name : String) {arguments : List Expr} (h : ∀ e ∈ arguments, e.Scoped)
    (pos : Position) (here : Bool) : (I.call name arguments pos here).Retains J := by
  unfold Interpreter.call
  split
  · obtain ⟨hf, hr⟩ := List.forall_mem_cons.mp h
    refine (hI.expr hf).bind fun f => ?_
    split
    · exact (hI.arguments hr).bind fun values => retains_value (retains_callValue ..)
    · exact leads_failAt _ _
  · refine (hI.expr (List.forall_mem_singleton.mp h)).bind fun f => ?_
    split
    · exact retains_functionNamed ..
    · exact leads_failAt _ _
  · obtain ⟨hf, hr⟩ := List.forall_mem_cons.mp h
    refine (hI.expr hf).bind fun f => ?_
    split
    · exact (hI.arguments hr).bind fun values => leads_pure _
    · exact leads_failAt _ _
  · refine (hI.expr (List.forall_mem_singleton.mp h)).bind fun _ => ?_
    split
    · refine (retains_sighting ..).bind fun s => ?_
      split <;> exact leads_pure _
    · exact leads_pure _
  · split
    · exact hI.callHere _ h pos
    · exact hI.callApart _ h pos

theorem Standing.retains_become (s : Standing) (v : Value) : (s.become v).Retains J := by
  unfold Standing.become
  split
  · split
    · exact leads_pure _
    · exact retains_write ..
  · exact leads_pure _

theorem Standing.retains_settle (s : Standing) {x : Eval Returned} (h : x.Retains J) :
    (x >>= s.settle).Retains J := by
  refine h.bind fun r => ?_
  unfold Standing.settle
  dsimp only
  split
  · exact (s.retains_become _).bind fun _ => retains_resume _
  · exact retains_resume _

theorem retains_methodNamed (s : Standing) (name : String) (arguments : List Value) (pos : Position) :
    (I.methodNamed s name arguments pos).Retains J := by
  refine Leads.bind leads_read fun c => ?_
  split
  · exact s.retains_settle (retains_invoke ..)
  · split
    · exact leads_failAt pos _
    · rename_i call known
      refine (retains_native known).bind fun out => ?_
      dsimp only
      split
      · exact Leads.guarded (leads_failAt pos _) ((s.retains_become _).bind fun _ => leads_pure _)
      · exact leads_pure _

theorem retains_methodOf (s : Standing) (name : String) (arguments : List Value) (pos : Position) :
    (I.methodOf s name arguments pos).Retains J := by
  unfold Interpreter.methodOf
  split
  · exact s.retains_settle (retains_callValue ..)
  · exact retains_methodNamed ..

/-- **A call of a method.** -/
theorem retains_method (s : Standing) (name : String) (arguments : List Value) (pos : Position) :
    (I.method s name arguments pos).Retains J := by
  unfold Interpreter.method
  split
  · exact retains_value (retains_callValue ..)
  · exact s.retains_settle (retains_callValue ..)
  · exact leads_failAt pos _
  · exact leads_pure _
  · exact leads_pure _
  · exact retains_methodOf ..

end Interpreter

end Dialogue.Script
