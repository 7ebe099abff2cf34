import Dialogue.Proofs.Script.Layout
import Dialogue.Proofs.Script.Lockstep
/-!
# `Dialogue.Proofs.Script.Layout.Call` — calls on machines that agree.

Two steps of evaluation agree when, on machines that agree, they ask the same questions, end alike, and leave machines
that agree. A function of the script has a scope of its own, which holds its arguments; inside it the two machines are
one and the same, whatever the function does. So a call never tells machines that agree apart. What it was called on
may have to be written back, to places that agree. Main statements: the ways to put steps together keep them in
agreement, and so does each kind of call, if its arguments are.
-/

namespace Dialogue.Script

variable {α β α' β' : Type} {L : Layout}

/-! ## §1 — steps of evaluation -/

/-- Every run asks the questions that it asks. -/
theorem Run.Linked.refl {P : α → α → Prop} (h : ∀ a, P a a) (x : Run α) : Run.Linked P x x := by
  induction x with
  | done a => exact .done (h a)
  | ask q k ih => exact .ask q ih
  | now k ih => exact .now ih
  | caught e x ih => exact .caught e ih

/-- **What steps that agree leave:** the same signal or related results, and machines that agree. -/
structure Machine.Left (L : Layout) (A : α → β → Prop) (r : Except Signal α × Machine)
    (r' : Except Signal β × Machine) : Prop where
  outcome : ExceptRel Eq A r.1 r'.1
  machine : Machine.Agree L r.2 r'.2

/-- **Steps of evaluation that agree.** -/
structure Eval.Agree (L : Layout) (A : α → β → Prop) (x : Eval α) (y : Eval β) : Prop where
  run : ∀ c m m', Machine.Agree L m m' → Run.Linked (Machine.Left L A) (x.runOn c m) (y.runOn c m')

/-- **A step that does not tell machines that agree apart.** -/
abbrev Eval.Steady (L : Layout) (x : Eval α) : Prop := Eval.Agree L Eq x x

namespace Eval

variable {A : α → β → Prop} {B : α' → β' → Prop} {x : Eval α}

namespace Agree

/-- **One step after another**, the first of which yield related results. -/
theorem bindRel {y : Eval β} (h : Agree L A x y) {f : α → Eval α'} {g : β → Eval β'}
    (hf : ∀ a b, A a b → Agree L B (f a) (g b)) : Agree L B (x >>= f) (y >>= g) := by
  refine ⟨fun c m m' hm => ?_⟩
  rw [runOn_bind, runOn_bind]
  refine (h.run c m m' hm).bind ?_
  rintro ⟨r, n⟩ ⟨r', n'⟩ ⟨outcome, machine⟩
  cases outcome with
  | ok ha => exact (hf _ _ ha).run c n n' machine
  | error hs => exact .done ⟨.error hs, machine⟩

/-- **One step after another**, the first of which yield the same. -/
theorem bind {y : Eval α} (h : Agree L Eq x y) {f : α → Eval α'} {g : α → Eval β'}
    (hf : ∀ a, Agree L B (f a) (g a)) : Agree L B (x >>= f) (y >>= g) :=
  h.bindRel fun a _ e => e ▸ hf a

theorem pure {a : α} {b : β} (h : A a b) : Agree L A (Pure.pure a) (Pure.pure b) :=
  ⟨fun _ _ _ hm => .done ⟨.ok h, hm⟩⟩

theorem same (a : α) : Agree L Eq (Pure.pure a) (Pure.pure a) := .pure rfl

theorem throw (s : Signal) : Agree L A (MonadExcept.throw s) (MonadExcept.throw s) :=
  ⟨fun _ _ _ hm => .done ⟨.error rfl, hm⟩⟩

theorem failAt (pos : Position) (cause : Cause) : Agree L A (Eval.failAt pos cause) (Eval.failAt pos cause) :=
  .throw _

theorem outcome {y : Eval α} (h : Agree L Eq x y) : Agree L Eq (Eval.outcome x) (Eval.outcome y) := by
  refine ⟨fun c m m' hm => (h.run c m m' hm).bind ?_⟩
  rintro ⟨r, n⟩ ⟨r', n'⟩ ⟨outcome, machine⟩
  refine .done ⟨.ok ?_, machine⟩
  cases outcome with
  | ok ha => exact congrArg _ ha
  | error hs => exact congrArg _ hs

theorem resume (r : Except Signal α) : Agree L Eq (Eval.resume r) (Eval.resume r) := by
  cases r with
  | ok a => exact .same a
  | error s => exact .throw s

theorem get : Agree L (Machine.Agree L) get get := ⟨fun _ _ _ hm => .done ⟨.ok hm, hm⟩⟩

theorem set {m m' : Machine} (h : Machine.Agree L m m') : Agree L Eq (set m : Eval PUnit) (set m') :=
  ⟨fun _ _ _ _ => .done ⟨.ok rfl, h⟩⟩

theorem read : Agree L Eq (MonadReader.read : Eval Context) MonadReader.read :=
  ⟨fun _ _ _ hm => .done ⟨.ok rfl, hm⟩⟩

theorem modify {f g : Machine → Machine} (h : ∀ m m', Machine.Agree L m m' → Machine.Agree L (f m) (g m')) :
    Agree L Eq (modify f : Eval PUnit) (modify g) :=
  ⟨fun _ m m' hm => .done ⟨.ok rfl, h m m' hm⟩⟩

/-- **A scope of its own** to which nothing is added is left as it was. -/
theorem inBlock (h : Steady L x) : Steady L (Eval.inBlock x) := by
  refine get.bindRel fun m m' hm => ?_
  rw [hm.left_depth, hm.right_depth]
  refine h.outcome.bind fun r => ?_
  exact (modify fun n n' hn => hn.rewind).bind fun _ => .resume r

theorem ask (q : Include.Request) : Agree L Eq (Eval.ask q) (Eval.ask q) :=
  ⟨fun _ _ _ hm => .ask q fun _ => .done ⟨.ok rfl, hm⟩⟩

theorem now : Agree L Eq Eval.now Eval.now := ⟨fun _ _ _ hm => .now fun _ => .done ⟨.ok rfl, hm⟩⟩

theorem catches (f : Fault) : Agree L Eq (Eval.catches f) (Eval.catches f) := by
  refine ⟨fun c m m' hm => ?_⟩
  cases held : f.failure? with
  | some e =>
    rw [catches_of_some held]
    exact .caught e (.done ⟨.ok rfl, hm⟩)
  | none =>
    rw [catches_of_none held]
    exact .done ⟨.ok rfl, hm⟩

theorem mapM {f : α → Eval β} {as : List α} (h : ∀ a ∈ as, Steady L (f a)) : Steady L (as.mapM f) := by
  induction as with
  | nil =>
    rw [List.mapM_nil]
    exact .same []
  | cons a as ih =>
    rw [List.mapM_cons]
    refine (h a List.mem_cons_self).bind fun b => ?_
    exact (ih fun a' mem => h a' (List.mem_cons_of_mem a mem)).bind fun bs => .same (b :: bs)

end Agree

end Eval

namespace Interpreter

/-! ## §2 — functions -/

/-- **A call of a function of the script** runs on one machine, which is that of either side. -/
theorem steady_invoke (I : Interpreter) (f : Function) (label : Option String) (this : Option Value)
    (arguments : List (Slot Function)) (pos : Position) : Eval.Steady L (I.invoke f label this arguments pos) := by
  refine Eval.Agree.read.bind fun c => ?_
  split
  · exact .same _
  · refine ⟨fun c m m' hm => ?_⟩
    rw [Eval.runOn_get_bind, Eval.runOn_get_bind, Eval.runOn_set_bind, Eval.runOn_set_bind,
      Eval.runOn_outcome_bind, Eval.runOn_outcome_bind]
    rw [hm.cells]
    refine (Run.Linked.refl (P := Eq) (fun _ => rfl) _).bind ?_
    rintro ⟨r, after⟩ _ rfl
    -- the scope of the caller comes back
    exact .done ⟨.ok rfl, hm.left, hm.right, hm.newest, rfl, hm.this⟩

theorem steady_value (r : Returned) : Eval.Steady L r.value := .resume r.outcome

theorem steady_orFail (pos : Position) (r : Except Cause α) : Eval.Steady L (orFail pos r) := by
  cases r with
  | ok a => exact .same a
  | error cause => exact .failAt pos cause

theorem steady_includeFile (path : String) (options : Include.Options) (pos : Position) :
    Eval.Steady L (includeFile path options pos) := by
  refine (Eval.Agree.ask _).bind fun r => ?_
  cases r with
  | ok i => exact .same _
  | error f => exact .failAt pos _

theorem steady_elapsed (t : Instant) (pos : Position) : Eval.Steady L (elapsed t pos) := by
  refine Eval.Agree.now.bind fun now => ?_
  split
  · exact .failAt pos _
  · exact Eval.Agree.now.bind fun now => .same _

theorem steady_plainCall {name : String} {arguments : List Value} {pos : Position} {call : Eval Library.Outcome}
    (h : plainCall? name arguments pos = some call) : Eval.Steady L call := by
  unfold plainCall? at h
  split at h
  · cases h
    exact (steady_includeFile _ _ pos).bind fun _ => .same _
  · cases h
    exact (steady_orFail pos _).bind fun options => (steady_includeFile _ options pos).bind fun _ => .same _
  · cases h
    exact Eval.Agree.now.bind fun t => .same _
  · cases h
    exact (steady_elapsed _ pos).bind fun _ => .same _
  · obtain ⟨r, -, rfl⟩ := Option.map_eq_some_iff.mp h
    exact steady_orFail pos r

variable (I : Interpreter)

/-- **A call of a function value** depends on the cells alone. -/
theorem steady_callValue (name : String) (given : List (Slot Function)) (code : Option Function)
    (this : Option Value) (arguments : List Value) (pos : Position) :
    Eval.Steady L (I.callValue name given code this arguments pos) := by
  refine Eval.Agree.get.bindRel fun m m' hm => ?_
  rw [hm.slotValue]
  cases code with
  | some f =>
    dsimp only
    split
    · exact I.steady_invoke ..
    · exact .same _
  | none =>
    refine Eval.Agree.read.bind fun c => ?_
    split
    · exact I.steady_invoke ..
    · split
      · rename_i call found
        exact (steady_plainCall found).outcome.bind fun r => .same _
      · exact .same _

theorem steady_callForValue (name : String) (given : List (Slot Function)) (code : Option Function)
    (this : Option Value) (arguments : List Value) (pos : Position) :
    Eval.Steady L (I.callValue name given code this arguments pos >>= Returned.value) :=
  (I.steady_callValue ..).bind fun r => steady_value r

theorem steady_missing (name : String) (given : List (Slot Function)) (code : Option Function)
    (choices : List Nat) : Eval.Steady L (missing? name given code choices) := by
  cases code with
  | some f => exact .same _
  | none => exact Eval.Agree.read.bind fun _ => .same _

theorem steady_callForItem (f : Value) (leading : List Value) (item : Value) (index : Nat) (pos : Position) :
    Eval.Steady L (I.callForItem f leading item index pos) := by
  unfold Interpreter.callForItem
  split
  · refine (steady_missing ..).bind fun k => ?_
    split
    · split
      · exact I.steady_callForValue ..
      · split <;> exact I.steady_callForValue ..
    · exact I.steady_callForValue ..
  · exact .failAt pos _

section Callbacks

variable (f : Value) (pos : Position)

theorem steady_mapItems (index : Nat) (xs : List Value) : Eval.Steady L (I.mapItems f pos index xs) := by
  induction xs generalizing index with
  | nil => exact .same []
  | cons x xs ih => exact (I.steady_callForItem ..).bind fun _ => (ih _).bind fun _ => .same _

theorem steady_filterItems (index : Nat) (xs : List Value) : Eval.Steady L (I.filterItems f pos index xs) := by
  induction xs generalizing index with
  | nil => exact .same []
  | cons x xs ih => exact (I.steady_callForItem ..).bind fun _ => (ih _).bind fun _ => .same _

theorem steady_findItem (wanted : Bool) (index : Nat) (xs : List Value) :
    Eval.Steady L (I.findItem f wanted pos index xs) := by
  induction xs generalizing index with
  | nil => exact .same none
  | cons x xs ih =>
    refine (I.steady_callForItem ..).bind fun v => ?_
    split
    · exact .same _
    · exact ih _

theorem steady_reduceItems (index : Nat) (before : Value) (xs : List Value) :
    Eval.Steady L (I.reduceItems f pos index before xs) := by
  induction xs generalizing index before with
  | nil => exact .same before
  | cons x xs ih => exact (I.steady_callForItem ..).bind fun v => ih _ v

theorem steady_comesBefore (x y : Value) : Eval.Steady L (I.comesBefore f pos x y) := by
  unfold Interpreter.comesBefore
  split
  · refine (I.steady_callValue ..).bind fun r => ?_
    split
    · exact .same _
    · exact .same _
    · exact (Eval.Agree.catches _).bind fun _ => .same false
    · exact .same false
  · exact .same false

theorem steady_insertItem (x : Value) (ys : List Value) : Eval.Steady L (I.insertItem f pos x ys) := by
  induction ys with
  | nil => exact .same [x]
  | cons y ys ih =>
    refine (I.steady_comesBefore f pos x y).bind fun b => ?_
    split
    · exact .same _
    · exact ih.bind fun _ => .same _

theorem steady_sortItems (items : List Value) : Eval.Steady L (I.sortItems f pos items) := by
  unfold Interpreter.sortItems
  generalize ([] : List Value) = sorted
  induction items generalizing sorted with
  | nil => exact .same sorted
  | cons x items ih =>
    rw [List.foldlM_cons]
    exact (I.steady_insertItem f pos x sorted).bind fun sorted' => ih sorted'

end Callbacks

/-- **A function on arrays that calls back** depends on the cells alone. -/
theorem steady_callback {name : String} {arguments : List Value} {pos : Position} {call : Eval Library.Outcome}
    (h : I.callback? name arguments pos = some call) : Eval.Steady L call := by
  unfold Interpreter.callback? at h
  split at h
  · split at h
    · cases h
      exact (I.steady_mapItems ..).bind fun _ => .same _
    · cases h
      exact (I.steady_filterItems ..).bind fun _ => .same _
    · cases h
      exact (I.steady_findItem ..).bind fun _ => .same _
    · cases h
      exact (I.steady_findItem ..).bind fun _ => .same _
    · cases h
      refine (I.steady_findItem ..).bind fun i => ?_
      cases i <;> exact .same _
    · cases h
      exact (I.steady_mapItems ..).bind fun _ => .same _
    · cases h
      exact (I.steady_reduceItems ..).bind fun _ => .same _
    · cases h
      exact (I.steady_reduceItems ..).bind fun _ => .same _
    · cases h
      exact (I.steady_sortItems ..).bind fun _ => .same _
    · cases h
  · cases h

theorem steady_native {name : String} {arguments : List Value} {pos : Position} {call : Eval Library.Outcome}
    (h : I.native? name arguments pos = some call) : Eval.Steady L call := by
  unfold Interpreter.native? at h
  cases found : I.callback? name arguments pos with
  | some callback =>
    rw [found] at h
    cases h
    exact I.steady_callback found
  | none =>
    rw [found] at h
    exact steady_plainCall h

/-! ## §3 — calls by name -/

theorem steady_functionNamed (name : String) (pos : Position) : Eval.Steady L (functionNamed name pos) := by
  unfold functionNamed
  split
  · exact .same _
  · exact .failAt pos _

/-- **What a variable is** agrees. -/
theorem agree_sighting {name : String} (used : L.used name) (pos : Position) :
    Eval.Agree L (Machine.Sighting.Agree L) (sighting name pos) (sighting name pos) := by
  refine Eval.Agree.get.bindRel fun m m' hm => ?_
  obtain ⟨hx, hy⟩ | ⟨s, t, hx, hy, found⟩ := rel_cases (hm.find? used)
  · rw [hx, hy]
    exact .failAt pos _
  · rw [hx, hy]
    exact .pure found

theorem steady_thisValue (pos : Position) : Eval.Steady L (thisValue pos) := by
  refine Eval.Agree.get.bindRel fun m m' hm => ?_
  rw [hm.this]
  split
  · exact .same _
  · exact .failAt pos _

theorem agree_openPlace? {s t : Machine.Sighting} (h : s.Agree L t) :
    Option.Rel (Place.Agree L) (openPlace? s) (openPlace? t) := by
  obtain ⟨value, place, constant⟩ := h
  have root := place.root
  unfold openPlace?
  rw [constant]
  generalize s.place = p, t.place = q at place root
  obtain ⟨r, way⟩ := p
  obtain ⟨r', way'⟩ := q
  dsimp only at root
  cases root with
  | cell i => exact .none
  | entry left right =>
    dsimp only
    split
    · exact .none
    · exact .some place
  | this =>
    dsimp only
    split
    · exact .none
    · exact .some place

/-- **A call by name:** what the first argument has become is written to places that agree. -/
theorem agree_callNamed (name : String) (arguments : List Value) {p q : Option Place}
    (hp : Option.Rel (Place.Agree L) p q) (pos : Position) :
    Eval.Agree L Eq (I.callNamed name arguments p pos) (I.callNamed name arguments q pos) := by
  refine Eval.Agree.read.bind fun c => ?_
  split
  · exact (I.steady_invoke ..).bind fun r => steady_value r
  · split
    · exact .failAt pos _
    · rename_i call found
      refine (I.steady_native found).bind fun out => ?_
      dsimp only
      cases out.changed with
      | none => exact .same _
      | some v =>
        cases hp with
        | none => exact .same _
        | some hp => exact (Eval.Agree.modify fun m m' hm => hm.write hp v).bind fun _ => .same _

/-- A call that looks for a function by its name. -/
theorem steady_callApart (name : String) {arguments : List Expr} (h : ∀ e ∈ arguments, Eval.Steady L (I.expr e))
    (named : ∀ v at_, .var v at_ ∈ arguments → L.used v) (pos : Position) :
    Eval.Steady L (I.callApart name arguments pos) := by
  unfold Interpreter.callApart
  split
  · refine (Eval.Agree.mapM (List.forall_mem_cons.mp h).2).bind fun values => ?_
    refine (agree_sighting (named _ _ List.mem_cons_self) _).bindRel fun s t hs => ?_
    rw [hs.value]
    exact I.agree_callNamed _ _ (agree_openPlace? hs) pos
  · refine (Eval.Agree.mapM (List.forall_mem_cons.mp h).2).bind fun values => ?_
    exact (steady_thisValue _).bind fun v => I.agree_callNamed _ _ (.some ⟨.this, rfl⟩) pos
  · exact (Eval.Agree.mapM h).bind fun values => I.agree_callNamed _ _ .none pos

/-- **A call in the code**, in a scope of its own, does not tell machines that agree apart, when its arguments do
not. -/
theorem steady_call (name : String) {arguments : List Expr} (h : ∀ e ∈ arguments, Eval.Steady L (I.expr e))
    (named : ∀ v at_, .var v at_ ∈ arguments → L.used v) (pos : Position) :
    Eval.Steady L (I.call name arguments pos false) := by
  unfold Interpreter.call
  split
  · obtain ⟨hf, hr⟩ := List.forall_mem_cons.mp h
    refine hf.bind fun f => ?_
    split
    · exact (Eval.Agree.mapM hr).bind fun values => I.steady_callForValue ..
    · exact .failAt _ _
  · refine (h _ List.mem_cons_self).bind fun v => ?_
    split
    · exact steady_functionNamed ..
    · exact .failAt _ _
  · obtain ⟨hf, hr⟩ := List.forall_mem_cons.mp h
    refine hf.bind fun f => ?_
    split
    · exact (Eval.Agree.mapM hr).bind fun values => .same _
    · exact .failAt _ _
  · refine (h _ List.mem_cons_self).bind fun v => ?_
    split
    · refine (agree_sighting (named _ _ List.mem_cons_self) _).bindRel fun s t hs => ?_
      have root := hs.place.root
      generalize s.place.root = r, t.place.root = r' at root
      cases root <;> exact .same _
    · exact .same _
  · exact I.steady_callApart _ h named pos

/-! ## §4 — calls of methods -/

/-- What chains have come to: the same value, at places that agree. -/
structure Standing.Agree (L : Layout) (s t : Standing) : Prop where
  value : t.value = s.value
  place : Option.Rel (Place.Agree L) s.place t.place
  constant : t.constant = s.constant

variable {s t : Standing}

theorem Standing.Agree.become (h : s.Agree L t) (v : Value) : Eval.Agree L Eq (s.become v) (t.become v) := by
  unfold Standing.become
  rw [h.constant]
  obtain ⟨hx, hy⟩ | ⟨p, q, hx, hy, hp⟩ := rel_cases h.place
  · rw [hx, hy]
    exact .same _
  · rw [hx, hy]
    dsimp only
    split
    · exact .same _
    · exact .modify fun m m' hm => hm.write hp v

theorem Standing.Agree.settle (h : s.Agree L t) (r : Returned) : Eval.Agree L Eq (s.settle r) (t.settle r) := by
  unfold Standing.settle
  cases r.this with
  | none => exact .resume r.outcome
  | some v => exact (h.become v).bind fun _ => .resume r.outcome

theorem agree_methodNamed (h : s.Agree L t) (name : String) (arguments : List Value) (pos : Position) :
    Eval.Agree L Eq (I.methodNamed s name arguments pos) (I.methodNamed t name arguments pos) := by
  unfold Interpreter.methodNamed
  rw [h.value]
  refine Eval.Agree.read.bind fun c => ?_
  split
  · exact (I.steady_invoke ..).bind fun r => h.settle r
  · split
    · exact .failAt pos _
    · rename_i call found
      refine (I.steady_native found).bind fun out => ?_
      dsimp only
      cases out.changed with
      | none => exact .same _
      | some w =>
        have written := (h.become w).bind fun _ => Eval.Agree.same out.result
        dsimp only
        rw [h.constant]
        split
        · exact (Eval.Agree.failAt pos _).bind fun _ => written
        · exact written

theorem agree_methodOf (h : s.Agree L t) (name : String) (arguments : List Value) (pos : Position) :
    Eval.Agree L Eq (I.methodOf s name arguments pos) (I.methodOf t name arguments pos) := by
  unfold Interpreter.methodOf
  rw [h.value]
  split
  · exact (I.steady_callValue ..).bind fun r => h.settle r
  · exact I.agree_methodNamed h name arguments pos

theorem isCell_of_agree {p q : Option Place} (h : Option.Rel (Place.Agree L) p q) : isCell q = isCell p := by
  cases h with
  | none => rfl
  | @some p q hp =>
    obtain ⟨r, way⟩ := p
    obtain ⟨r', way'⟩ := q
    obtain ⟨root, inward⟩ := hp
    obtain rfl : way' = way := inward
    dsimp only at root
    cases root <;> rfl

/-- **A call of a method** agrees, when what it is called on does. -/
theorem agree_method (h : s.Agree L t) (name : String) (arguments : List Value) (pos : Position) :
    Eval.Agree L Eq (I.method s name arguments pos) (I.method t name arguments pos) := by
  unfold Interpreter.method
  rw [h.value]
  split
  · exact I.steady_callForValue ..
  · exact (I.steady_callValue ..).bind fun r => h.settle r
  · exact .failAt pos _
  · exact .same _
  · rw [isCell_of_agree h.place]
    exact .same _
  · exact I.agree_methodOf h ..

end Interpreter

end Dialogue.Script
