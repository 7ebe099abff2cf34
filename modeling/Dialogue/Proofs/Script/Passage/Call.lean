import Dialogue.Proofs.Script.Lockstep
import Dialogue.Script.Call
/-!
# `Dialogue.Proofs.Script.Passage.Call` — failures pass through calls.

When a request is answered with a failure, the call of `include` raises a fault that carries it. Functions add
themselves to a fault on its way, and do not touch the failure; only the order of a sort takes a fault for an answer,
and says so. Main statements: the ways to put steps together pass on failures, and so does each kind of call, if the
code that it hands on does.
-/

namespace Dialogue.Script

variable {α β : Type}

/-! ## §1 — runs -/

/-- **A failure is on its way out:** the run ends with what holds it, or says next that it is dealt with. -/
def Run.Raises (holds : α → Failure → Prop) (e : Failure) : Run α → Prop
  | .done a => holds a e
  | .ask .. | .now _ => False
  | .caught f _ => f = e

/-- **Runs that pass on failures.** Whenever a request is answered with a failure, that failure is on its way out. -/
inductive Run.Passes (holds : α → Failure → Prop) : Run α → Prop
  | done {a : α} : Passes holds (.done a)
  | ask {q : Include.Request} {k : Include.Answer → Run α} (failed : ∀ e, (k (.error e)).Raises holds e)
    (later : ∀ r, Passes holds (k r)) : Passes holds (.ask q k)
  | now {k : Instant → Run α} (later : ∀ t, Passes holds (k t)) : Passes holds (.now k)
  | caught {e : Failure} {x : Run α} (later : Passes holds x) : Passes holds (.caught e x)

namespace Run

variable {holds : α → Failure → Prop} {holds' : β → Failure → Prop}

theorem Raises.bind {e : Failure} {x : Run α} (h : x.Raises holds e) {f : α → Run β}
    (hf : ∀ a, holds a e → (f a).Raises holds' e) : (x >>= f).Raises holds' e := by
  cases x with
  | done a => exact hf a h
  | ask => cases h
  | now => cases h
  | caught => exact h

theorem Passes.bind {x : Run α} (h : x.Passes holds) {f : α → Run β} (hf : ∀ a, (f a).Passes holds')
    (raised : ∀ a e, holds a e → (f a).Raises holds' e) : (x >>= f).Passes holds' := by
  induction h with
  | done => exact hf _
  | ask failed _ ih => exact .ask (fun e => (failed e).bind fun a => raised a e) ih
  | now _ ih => exact .now ih
  | caught _ ih => exact .caught ih

end Run

/-! ## §2 — steps of evaluation -/

/-- What holds no failure. -/
abbrev Nothing (_ : α) (_ : Failure) : Prop := False

/-- **An outcome carries a failure** when it is a fault that does, or a value that holds the failure. -/
def Carries (holds : α → Failure → Prop) : Except Signal α → Failure → Prop
  | .ok a, e => holds a e
  | .error (.fault f), e => f.failure? = some e
  | .error _, _ => False

namespace Eval

/-- A step of evaluation by which a failure is on its way out. -/
structure Raises (holds : α → Failure → Prop) (e : Failure) (x : Eval α) : Prop where
  run : ∀ c m, (x.runOn c m).Raises (fun r => Carries holds r.1) e

/-- **Steps of evaluation that pass on failures.** -/
structure Passes (holds : α → Failure → Prop) (x : Eval α) : Prop where
  run : ∀ c m, (x.runOn c m).Passes fun r => Carries holds r.1

variable {holds : α → Failure → Prop} {holds' : β → Failure → Prop} {x : Eval α}

/-- What a step yields may hold a failure; then the next step has to raise it. -/
theorem Passes.bindHeld (h : x.Passes holds) {f : α → Eval β} (hf : ∀ a, (f a).Passes holds')
    (raised : ∀ a e, holds a e → (f a).Raises holds' e) : (x >>= f).Passes holds' := by
  refine ⟨fun c m => ?_⟩
  rw [runOn_bind]
  refine (h.run c m).bind (fun r => ?_) fun r e held => ?_
  · obtain ⟨r, n⟩ := r
    cases r with
    | ok a => exact (hf a).run c n
    | error s => exact .done
  · obtain ⟨r, n⟩ := r
    match r with
    | .ok a => exact (raised a e held).run c n
    | .error (.fault f) => exact held
    | .error (.leave _) | .error .proceed | .error (.giveBack _) => exact held.elim

/-- **One step after another.** -/
theorem Passes.bind (h : x.Passes Nothing) {f : α → Eval β} (hf : ∀ a, (f a).Passes holds') :
    (x >>= f).Passes holds' :=
  h.bindHeld hf fun _ _ never => never.elim

theorem Passes.pure (a : α) : (Pure.pure a : Eval α).Passes holds := ⟨fun _ _ => .done⟩

theorem Passes.throw (s : Signal) : (MonadExcept.throw s : Eval α).Passes holds := ⟨fun _ _ => .done⟩

theorem Passes.failAt (pos : Position) (cause : Cause) : (Eval.failAt pos cause : Eval α).Passes holds :=
  ⟨fun _ _ => .done⟩

/-- A step that may be left out, before another one. -/
theorem Passes.guarded {c : Prop} [Decidable c] {first : Eval β} (hf : first.Passes Nothing) (h : x.Passes Nothing) :
    (if c then first >>= fun _ => x else x).Passes Nothing := by
  split
  · exact hf.bind fun _ => h
  · exact h

theorem Passes.get : (get : Eval Machine).Passes Nothing := ⟨fun _ _ => .done⟩

theorem Passes.read : (read : Eval Context).Passes Nothing := ⟨fun _ _ => .done⟩

theorem Passes.now : Eval.now.Passes Nothing := ⟨fun _ _ => .now fun _ => .done⟩

theorem Passes.set (m : Machine) : (set m : Eval PUnit).Passes Nothing := ⟨fun _ _ => .done⟩

theorem Passes.modify (f : Machine → Machine) : (modify f : Eval PUnit).Passes Nothing := ⟨fun _ _ => .done⟩

theorem Passes.withReader (h : x.Passes holds) (f : Context → Context) :
    (MonadWithReader.withReader f x : Eval α).Passes holds := ⟨fun c => h.run (f c)⟩

/-- The outcome of a step holds what the step raises. -/
theorem Passes.outcome (h : x.Passes holds) : (Eval.outcome x).Passes (Carries holds) := by
  refine ⟨fun c m => ?_⟩
  exact (h.run c m).bind (fun _ => .done) fun _ _ held => held

theorem Passes.resume (r : Except Signal α) : (Eval.resume r).Passes holds := by
  cases r <;> exact ⟨fun _ _ => .done⟩

theorem Raises.resume {r : Except Signal α} {e : Failure} (held : Carries holds r e) :
    (Eval.resume r).Raises holds e := by
  match r with
  | .ok a => exact ⟨fun _ _ => held⟩
  | .error (.fault f) => exact ⟨fun _ _ => held⟩
  | .error (.leave _) | .error .proceed | .error (.giveBack _) => exact held.elim

/-- Putting the machine in order does not touch a failure. -/
theorem Passes.ensuring (h : x.Passes holds) (order : Machine → Machine) : (Eval.ensuring x order).Passes holds := by
  refine h.outcome.bindHeld (fun r => (Passes.modify order).bind fun _ => .resume r) fun r e held => ⟨fun c m => ?_⟩
  exact (Raises.resume held).run c (order m)

theorem Passes.inBlock (h : x.Passes holds) : (Eval.inBlock x).Passes holds :=
  Passes.get.bind fun _ => h.ensuring _

theorem Passes.mapM {γ : Type} {f : γ → Eval β} (h : ∀ a, (f a).Passes Nothing) (as : List γ) :
    (as.mapM f).Passes Nothing := by
  induction as with
  | nil =>
    rw [List.mapM_nil]
    exact .pure []
  | cons a as ih =>
    rw [List.mapM_cons]
    exact (h a).bind fun b => ih.bind fun bs => .pure (b :: bs)

/-- Dealing with a fault raises no failure. -/
theorem Passes.catches (f : Fault) : (Eval.catches f).Passes Nothing := by
  refine ⟨fun c m => ?_⟩
  cases held : f.failure? with
  | some e =>
    rw [catches_of_some held]
    exact .caught .done
  | none =>
    rw [catches_of_none held]
    exact .done

/-- **What deals with a failure** says so before anything else. -/
theorem Raises.catches {f : Fault} {e : Failure} (held : f.failure? = some e) (x : Eval β) :
    (Eval.catches f >>= fun _ => x).Raises holds' e := by
  refine ⟨fun c m => ?_⟩
  rw [runOn_bind, catches_of_some held]
  rfl

end Eval

namespace Interpreter

/-- **An interpreter that passes on failures.** -/
structure Passes (I : Interpreter) : Prop where
  expr : ∀ e, (I.expr e).Passes Nothing
  stmt : ∀ s, (I.stmt s).Passes Nothing

variable {I : Interpreter}

/-! ## §3 — calls -/

theorem Passes.sequence (hI : I.Passes) (body : List Stmt) (v : Value) : (I.sequence body v).Passes Nothing := by
  induction body generalizing v with
  | nil => exact .pure v
  | cons s ss ih => exact (hI.stmt s).bind fun u => ih u

theorem Passes.block (hI : I.Passes) (body : List Stmt) : (I.block body).Passes Nothing :=
  (hI.sequence body .unit).inBlock

/-- What a call yields holds the failure that its outcome holds. -/
def Returned.Holds (r : Returned) (e : Failure) : Prop := Carries Nothing r.outcome e

/-- **A fault inside a call carries the same failure** as the fault of the call. -/
theorem carries_callOutcome {r : Except Signal Value} {e : Failure} (held : Carries Nothing r e)
    (label : Option String) (pos : Position) : Carries Nothing (callOutcome label pos r) e := by
  match r with
  | .error (.fault f) =>
    unfold callOutcome
    dsimp only
    split
    · cases f <;> exact held
    · exact held
  | .ok _ | .error (.leave _) | .error .proceed | .error (.giveBack _) => exact held.elim

theorem Passes.invoke (hI : I.Passes) (f : Function) (label : Option String) (this : Option Value)
    (arguments : List (Slot Function)) (pos : Position) (here : Bool) :
    (I.invoke f label this arguments pos here).Passes Returned.Holds := by
  refine Eval.Passes.read.bind fun c => ?_
  split
  · exact .pure _
  · refine Eval.Passes.get.bind fun before => (Eval.Passes.set _).bind fun _ => ?_
    refine ((hI.sequence f.body .unit).outcome.withReader _).bindHeld (fun r => ?_) fun r e held => ?_
    · exact Eval.Passes.get.bind fun after => (Eval.Passes.set _).bind fun _ => .pure _
    · exact ⟨fun _ _ => carries_callOutcome held label pos⟩

theorem Returned.passes (r : Returned) : r.value.Passes Nothing := .resume r.outcome

theorem Returned.raises {r : Returned} {e : Failure} (held : r.Holds e) : r.value.Raises Nothing e :=
  .resume held

/-- A call whose value is asked for. -/
theorem passes_value {x : Eval Returned} (h : x.Passes Returned.Holds) : (x >>= Returned.value).Passes Nothing :=
  h.bindHeld Returned.passes fun _ _ => Returned.raises

theorem passes_orFail (pos : Position) (r : Except Cause α) {holds : α → Failure → Prop} :
    (orFail pos r).Passes holds := by
  cases r <;> exact ⟨fun _ _ => .done⟩

/-- **A failed include** is raised as it is. -/
theorem passes_includeFile (path : String) (options : Include.Options) (pos : Position) :
    (includeFile path options pos).Passes Nothing :=
  ⟨fun _ _ => .ask (fun _ => rfl) fun r => by cases r <;> exact .done⟩

theorem passes_elapsed (t : Instant) (pos : Position) : (elapsed t pos).Passes Nothing := by
  refine Eval.Passes.now.bind fun now => ?_
  split
  · exact .failAt pos _
  · exact Eval.Passes.now.bind fun now => .pure _

theorem passes_plainCall {name : String} {arguments : List Value} {pos : Position} {call : Eval Library.Outcome}
    (h : plainCall? name arguments pos = some call) : call.Passes Nothing := by
  unfold plainCall? at h
  split at h
  · cases h
    exact (passes_includeFile _ _ pos).bind fun _ => .pure _
  · cases h
    exact (passes_orFail pos _).bind fun options => (passes_includeFile _ options pos).bind fun _ => .pure _
  · cases h
    exact Eval.Passes.now.bind fun t => .pure _
  · cases h
    exact (passes_elapsed _ pos).bind fun _ => .pure _
  · obtain ⟨r, -, rfl⟩ := Option.map_eq_some_iff.mp h
    exact passes_orFail pos r

theorem Passes.callValue (hI : I.Passes) (name : String) (given : List (Slot Function)) (code : Option Function)
    (this : Option Value) (arguments : List Value) (pos : Position) (here : Bool) :
    (I.callValue name given code this arguments pos here).Passes Returned.Holds := by
  refine Eval.Passes.get.bind fun m => ?_
  dsimp only
  cases code with
  | some f =>
    dsimp only
    split
    · exact hI.invoke ..
    · exact .pure _
  | none =>
    refine Eval.Passes.read.bind fun c => ?_
    split
    · exact hI.invoke ..
    · split
      · rename_i call known
        refine (passes_plainCall known).outcome.bindHeld (fun r => .pure _) fun r e held => ?_
        match r with
        | .error (.fault f) => exact ⟨fun _ _ => held⟩
        | .ok _ | .error (.leave _) | .error .proceed | .error (.giveBack _) => exact held.elim
      · exact .pure _

theorem passes_missing (name : String) (given : List (Slot Function)) (code : Option Function)
    (choices : List Nat) : (missing? name given code choices).Passes Nothing := by
  cases code with
  | some f => exact .pure _
  | none => exact Eval.Passes.read.bind fun _ => .pure _

theorem Passes.callForItem (hI : I.Passes) (f : Value) (leading : List Value) (item : Value) (index : Nat)
    (pos : Position) : (I.callForItem f leading item index pos).Passes Nothing := by
  unfold Interpreter.callForItem
  split
  · refine (passes_missing ..).bind fun k => ?_
    split
    · split
      · exact passes_value (hI.callValue ..)
      · split <;> exact passes_value (hI.callValue ..)
    · exact passes_value (hI.callValue ..)
  · exact .failAt pos _

section Callbacks

variable (hI : I.Passes) (f : Value) (pos : Position)

include hI

theorem Passes.mapItems (index : Nat) (xs : List Value) : (I.mapItems f pos index xs).Passes Nothing := by
  induction xs generalizing index with
  | nil => exact .pure []
  | cons x xs ih => exact (hI.callForItem ..).bind fun _ => (ih _).bind fun _ => .pure _

theorem Passes.filterItems (index : Nat) (xs : List Value) : (I.filterItems f pos index xs).Passes Nothing := by
  induction xs generalizing index with
  | nil => exact .pure []
  | cons x xs ih => exact (hI.callForItem ..).bind fun _ => (ih _).bind fun _ => .pure _

theorem Passes.findItem (wanted : Bool) (index : Nat) (xs : List Value) :
    (I.findItem f wanted pos index xs).Passes Nothing := by
  induction xs generalizing index with
  | nil => exact .pure none
  | cons x xs ih =>
    refine (hI.callForItem ..).bind fun v => ?_
    split
    · exact .pure _
    · exact ih _

theorem Passes.reduceItems (index : Nat) (before : Value) (xs : List Value) :
    (I.reduceItems f pos index before xs).Passes Nothing := by
  induction xs generalizing index before with
  | nil => exact .pure before
  | cons x xs ih => exact (hI.callForItem ..).bind fun v => ih _ v

/-- **A sort takes a fault for an answer**, and says so. -/
theorem Passes.comesBefore (x y : Value) : (I.comesBefore f pos x y).Passes Nothing := by
  unfold Interpreter.comesBefore
  split
  · refine (hI.callValue ..).bindHeld (fun r => ?_) fun r e held => ?_
    · split
      · exact .pure _
      · exact .pure _
      · exact (Eval.Passes.catches _).bind fun _ => .pure false
      · exact .pure false
    · obtain ⟨outcome, this⟩ := r
      match outcome with
      | .error (.fault g) => exact Eval.Raises.catches held _
      | .ok _ | .error (.leave _) | .error .proceed | .error (.giveBack _) => exact held.elim
  · exact .pure false

theorem Passes.insertItem (x : Value) (ys : List Value) : (I.insertItem f pos x ys).Passes Nothing := by
  induction ys with
  | nil => exact .pure [x]
  | cons y ys ih =>
    refine (hI.comesBefore f pos x y).bind fun b => ?_
    split
    · exact .pure _
    · exact ih.bind fun _ => .pure _

theorem Passes.sortItems (items : List Value) : (I.sortItems f pos items).Passes Nothing := by
  unfold Interpreter.sortItems
  generalize ([] : List Value) = sorted
  induction items generalizing sorted with
  | nil => exact .pure sorted
  | cons x items ih =>
    rw [List.foldlM_cons]
    exact (hI.insertItem f pos x sorted).bind fun sorted' => ih sorted'

omit f in
theorem Passes.callback {name : String} {arguments : List Value} {call : Eval Library.Outcome}
    (h : I.callback? name arguments pos = some call) : call.Passes Nothing := by
  unfold Interpreter.callback? at h
  split at h
  · split at h
    · cases h
      exact (hI.mapItems ..).bind fun _ => .pure _
    · cases h
      exact (hI.filterItems ..).bind fun _ => .pure _
    · cases h
      exact (hI.findItem ..).bind fun _ => .pure _
    · cases h
      exact (hI.findItem ..).bind fun _ => .pure _
    · cases h
      refine (hI.findItem ..).bind fun i => ?_
      cases i <;> exact .pure _
    · cases h
      exact (hI.mapItems ..).bind fun _ => .pure _
    · cases h
      exact (hI.reduceItems ..).bind fun _ => .pure _
    · cases h
      exact (hI.reduceItems ..).bind fun _ => .pure _
    · cases h
      exact (hI.sortItems ..).bind fun _ => .pure _
    · cases h
  · cases h

omit f in
theorem Passes.native {name : String} {arguments : List Value} {call : Eval Library.Outcome}
    (h : I.native? name arguments pos = some call) : call.Passes Nothing := by
  unfold Interpreter.native? at h
  cases known : I.callback? name arguments pos with
  | some found =>
    rw [known] at h
    cases h
    exact hI.callback pos known
  | none =>
    rw [known] at h
    exact passes_plainCall h

end Callbacks

theorem passes_functionNamed (name : String) (pos : Position) : (functionNamed name pos).Passes Nothing := by
  unfold functionNamed
  split
  · exact .pure _
  · exact .failAt pos _

theorem passes_sighting (name : String) (pos : Position) : (sighting name pos).Passes Nothing := by
  refine Eval.Passes.get.bind fun m => ?_
  split
  · exact .pure _
  · exact .failAt pos _

theorem passes_thisValue (pos : Position) : (thisValue pos).Passes Nothing := by
  refine Eval.Passes.get.bind fun m => ?_
  split
  · exact .pure _
  · exact .failAt pos _

theorem Passes.callNamed (hI : I.Passes) (name : String) (arguments : List Value) (place : Option Place)
    (pos : Position) (here : Bool) : (I.callNamed name arguments place pos here).Passes Nothing := by
  refine Eval.Passes.read.bind fun c => ?_
  split
  · exact passes_value (hI.invoke ..)
  · split
    · exact .failAt pos _
    · rename_i call known
      refine (hI.native pos known).bind fun out => ?_
      dsimp only
      split
      · exact (Eval.Passes.modify _).bind fun _ => .pure _
      · exact .pure _

theorem Passes.arguments (hI : I.Passes) (es : List Expr) : (es.mapM I.expr).Passes Nothing := .mapM hI.expr es

/-- A call in a scope of its own. -/
theorem Passes.callApart (hI : I.Passes) (name : String) (arguments : List Expr) (pos : Position) :
    (I.callApart name arguments pos).Passes Nothing := by
  unfold Interpreter.callApart
  split
  · exact (hI.arguments _).bind fun values => (passes_sighting ..).bind fun s => hI.callNamed ..
  · exact (hI.arguments _).bind fun values => (passes_thisValue _).bind fun v => hI.callNamed ..
  · exact (hI.arguments _).bind fun values => hI.callNamed ..

/-- A call in the scope of the caller. -/
theorem Passes.callHere (hI : I.Passes) (name : String) (arguments : List Expr) (pos : Position) :
    (I.callHere name arguments pos).Passes Nothing := by
  refine Eval.Passes.get.bind fun m => ?_
  split
  · exact hI.callApart ..
  · exact (hI.arguments _).bind fun values => hI.callNamed ..

/-- **A call by name.** -/
theorem Passes.call (hI : I.Passes) (name : String) (arguments : List Expr) (pos : Position) (here : Bool) :
    (I.call name arguments pos here).Passes Nothing := by
  unfold Interpreter.call
  split
  · refine (hI.expr _).bind fun f => ?_
    split
    · exact (hI.arguments _).bind fun values => passes_value (hI.callValue ..)
    · exact .failAt _ _
  · refine (hI.expr _).bind fun f => ?_
    split
    · exact passes_functionNamed ..
    · exact .failAt _ _
  · refine (hI.expr _).bind fun f => ?_
    split
    · exact (hI.arguments _).bind fun values => .pure _
    · exact .failAt _ _
  · refine (hI.expr _).bind fun _ => ?_
    split
    · refine (passes_sighting ..).bind fun s => ?_
      split <;> exact .pure _
    · exact .pure _
  · split
    · exact hI.callHere ..
    · exact hI.callApart ..

theorem Standing.passes_become (s : Standing) (v : Value) : (s.become v).Passes Nothing := by
  unfold Standing.become
  split
  · split
    · exact .pure _
    · exact .modify _
  · exact .pure _

/-- Writing back what a value has become does not touch a failure. -/
theorem Standing.passes_settle (s : Standing) {x : Eval Returned} (h : x.Passes Returned.Holds) :
    (x >>= s.settle).Passes Nothing := by
  refine h.bindHeld (fun r => ?_) fun r e held => ?_
  · unfold Standing.settle
    dsimp only
    split
    · exact (s.passes_become _).bind fun _ => .resume _
    · exact .resume _
  · have resumed := Eval.Raises.resume held
    unfold Standing.settle Standing.become
    dsimp only
    refine ⟨fun c m => ?_⟩
    split
    · split
      · split <;> exact resumed.run c _
      · exact resumed.run c m
    · exact resumed.run c m

theorem Passes.methodNamed (hI : I.Passes) (s : Standing) (name : String) (arguments : List Value) (pos : Position) :
    (I.methodNamed s name arguments pos).Passes Nothing := by
  refine Eval.Passes.read.bind fun c => ?_
  split
  · exact s.passes_settle (hI.invoke ..)
  · split
    · exact .failAt pos _
    · rename_i call known
      refine (hI.native pos known).bind fun out => ?_
      dsimp only
      split
      · split
        · exact (Eval.Passes.failAt pos _).bind fun _ => (s.passes_become _).bind fun _ => .pure _
        · exact (s.passes_become _).bind fun _ => .pure _
      · exact .pure _

theorem Passes.methodOf (hI : I.Passes) (s : Standing) (name : String) (arguments : List Value) (pos : Position) :
    (I.methodOf s name arguments pos).Passes Nothing := by
  unfold Interpreter.methodOf
  split
  · exact s.passes_settle (hI.callValue ..)
  · exact hI.methodNamed ..

/-- **A call of a method.** -/
theorem Passes.method (hI : I.Passes) (s : Standing) (name : String) (arguments : List Value) (pos : Position) :
    (I.method s name arguments pos).Passes Nothing := by
  unfold Interpreter.method
  split
  · exact passes_value (hI.callValue ..)
  · exact s.passes_settle (hI.callValue ..)
  · exact .failAt pos _
  · exact .pure _
  · exact .pure _
  · exact hI.methodOf ..

end Interpreter

end Dialogue.Script
