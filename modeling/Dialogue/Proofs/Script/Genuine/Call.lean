import Dialogue.Proofs.Script.Genuine.Machine
import Dialogue.Script.Call
/-!
# `Dialogue.Proofs.Script.Genuine.Call` — calls make no failures.

A call of `include` throws the failure that it is answered with, and that is the only failure that a call adds to those
in its arguments and in its code. Main statements: each kind of call keeps to `P`, if the code that it hands on does.
-/

namespace Dialogue.Script

variable {P : Failure → Prop}

namespace Interpreter

/-- **An interpreter that keeps to `P`** as long as the code does. -/
structure Keeps (P : Failure → Prop) (I : Interpreter) : Prop where
  expr : ∀ e, e.Genuine P → (I.expr e).KeepsValue P
  stmt : ∀ s, s.Genuine P → (I.stmt s).KeepsValue P

/-- **What a call yields** is genuine: its outcome, and what the value it was called on has become. -/
structure Returned.Genuine (P : Failure → Prop) (r : Returned) : Prop where
  outcome : Settles P (Datum.Genuine P) r.outcome
  this : ∀ v ∈ r.this, v.Genuine P

variable {I : Interpreter}

/-! ## §1 — functions of the script -/

theorem Keeps.sequence (hI : I.Keeps P) {body : List Stmt} (h : AllGenuine P body) {v : Value} (hv : v.Genuine P) :
    (I.sequence body v).KeepsValue P := by
  induction body generalizing v with
  | nil => exact .pure hv
  | cons s ss ih =>
    obtain ⟨hs, hss⟩ := List.forall_mem_cons.mp h
    exact (hI.stmt s hs).bind fun u hu => ih hss hu

theorem Keeps.block (hI : I.Keeps P) {body : List Stmt} (h : AllGenuine P body) : (I.block body).KeepsValue P :=
  (hI.sequence h Datum.holds_unit).inBlock

/-- **A fault inside a call** throws what the fault of the call throws. -/
theorem settles_callOutcome {r : Except Signal Value} (h : Settles P (Datum.Genuine P) r) (label : Option String)
    (pos : Position) : Settles P (Datum.Genuine P) (callOutcome label pos r) := by
  unfold callOutcome
  split
  · exact h
  · rename_i f
    split
    · show (f.moveTo (some pos)).Genuine P
      unfold Fault.Genuine
      rw [Fault.cause_moveTo]
      exact h
    · exact h
  · exact h

/-- Arguments as the variables of a function. -/
theorem genuine_entries {arguments : List (Slot Function)} (h : ∀ s ∈ arguments, s.Genuine P) (params : List String) :
    ∀ e ∈ ((params.zip arguments).map fun (name, slot) => (⟨name, false, slot⟩ : Entry)).reverse, e.slot.Genuine P := by
  intro e mem
  obtain ⟨pair, there, rfl⟩ := List.mem_map.mp (List.mem_reverse.mp mem)
  exact h pair.2 (List.of_mem_zip there).2

/-- **A call of a function of the script.** -/
theorem Keeps.invoke (hI : I.Keeps P) {f : Function} (hf : f.Genuine P) (label : Option String) {this : Option Value}
    (ht : ∀ v ∈ this, v.Genuine P) {arguments : List (Slot Function)} (ha : ∀ s ∈ arguments, s.Genuine P)
    (pos : Position) (here : Bool := false) :
    (I.invoke f label this arguments pos here).Keeps P (Returned.Genuine P) := by
  unfold Interpreter.invoke
  refine Eval.Keeps.read.after fun c => ?_
  split
  · exact .pure ⟨trivial, ht⟩
  · refine Eval.Keeps.get.bind fun before hb => ?_
    have inside : Machine.Genuine P { before with
        scope := ((f.params.zip arguments).map fun (name, slot) => (⟨name, false, slot⟩ : Entry)).reverse ++
          if here then before.scope else []
        this := this } := by
      refine ⟨List.forall_mem_append.mpr ⟨genuine_entries ha f.params, ?_⟩, hb.cells, ht⟩
      split
      · exact hb.scope
      · exact List.forall_mem_nil _
    refine (Eval.Keeps.set inside).after fun _ => ?_
    have body := (hI.sequence hf.body Datum.holds_unit).outcome.withReader
      (f := fun c => { c with level := c.level + 1 }) fun c hc => hc
    refine body.bind fun r hr => Eval.Keeps.get.bind fun after hn => ?_
    have outside : Machine.Genuine P { after with
        scope := if here then Entry.refreshed before.scope (after.rewind before.depth).scope else before.scope
        this := before.this } := by
      refine ⟨?_, hn.cells, hb.this⟩
      dsimp only
      split
      · exact Machine.Genuine.refreshed hb.scope (hn.rewind _).scope
      · exact hb.scope
    refine (Eval.Keeps.set outside).after fun _ => ?_
    exact .pure ⟨settles_callOutcome hr label pos, hn.this⟩

theorem Returned.Genuine.keeps {r : Returned} (h : r.Genuine P) : r.value.KeepsValue P := .resume h.outcome

/-- A call whose value is asked for. -/
theorem keeps_value {x : Eval Returned} (h : x.Keeps P (Returned.Genuine P)) : (x >>= Returned.value).KeepsValue P :=
  h.bind fun _ hr => hr.keeps

/-! ## §2 — functions of the library -/

theorem keeps_orFail {α : Type} {Q : α → Prop} (pos : Position) {r : Except Cause α} (h : Ends P Q r) :
    (orFail pos r).Keeps P Q := by
  cases h with
  | ok h => exact .pure h
  | error h => exact .failAt pos h

/-- **A failed include** throws the failure that it was answered with. -/
theorem keeps_includeFile (path : String) (options : Include.Options) (pos : Position) :
    (includeFile path options pos).KeepsValue P := by
  refine (Eval.Keeps.ask _).bind fun r answered => ?_
  split
  · exact .pure (Datum.holds_inclusion _)
  · exact .failAt pos (Datum.holds_failure_iff.mpr (answered _ rfl))

theorem ends_includeOptions (fields : List (String × Value)) : Ends P Whatever (includeOptions fields) := by
  have binary (v : Value) : Ends P Whatever (binaryOption v) := by
    unfold binaryOption
    split
    · exact .ok trivial
    · exact .ok trivial
    · exact .error (Datum.holds_str _)
  have mediaType (v : Value) : Ends P Whatever (mediaTypeOption v) := by
    unfold mediaTypeOption
    split
    · exact .ok trivial
    · exact .ok trivial
    · exact .error (Datum.holds_str _)
  exact (binary _).bind fun _ _ => (mediaType _).bind fun _ _ => .ok trivial

theorem keeps_elapsed (t : Instant) (pos : Position) : (elapsed t pos).KeepsValue P := by
  refine Eval.Keeps.now.after fun now => ?_
  split
  · exact .failAt pos trivial
  · exact Eval.Keeps.now.after fun now => .pure (.scalar trivial)

/-- A call of a function of the library that keeps to `P`. -/
abbrev KeepsCall (P : Failure → Prop) (call : Eval Library.Outcome) : Prop := call.Keeps P (Library.Outcome.Genuine P)

/-- A function that only yields a result. -/
theorem keeps_result {x : Eval Value} (h : x.KeepsValue P) :
    KeepsCall P (do return ⟨← x, none⟩) :=
  h.bind fun _ hv => .pure ⟨hv, forall_mem_none⟩

theorem keeps_plainCall {name : String} {arguments : List Value} (ha : Genuines P arguments) {pos : Position}
    {call : Eval Library.Outcome} (h : plainCall? name arguments pos = some call) : KeepsCall P call := by
  unfold plainCall? at h
  split at h
  · cases h
    exact keeps_result (keeps_includeFile _ _ pos)
  · cases h
    exact (keeps_orFail pos (ends_includeOptions _)).after fun options => keeps_result (keeps_includeFile _ options pos)
  · cases h
    exact keeps_result (x := return .timestamp (← Eval.now)) (Eval.Keeps.now.after fun t => .pure (.scalar trivial))
  · cases h
    exact keeps_result (keeps_elapsed _ pos)
  · obtain ⟨r, found, rfl⟩ := Option.map_eq_some_iff.mp h
    exact keeps_orFail pos (Library.genuine_call? name ha r found)

/-! ## §3 — function values -/

/-- A function value with genuine parts. -/
structure Callable (P : Failure → Prop) (given : List (Slot Function)) (code : Option Function) : Prop where
  given : ∀ s ∈ given, s.Genuine P
  code : ∀ f ∈ code, f.Genuine P

theorem callable_of_genuine {name : String} {given : List (Slot Function)} {code : Option Function}
    (h : (Datum.function name given code).Genuine P) : Callable P given code :=
  ⟨(Datum.holds_function_iff.mp h).1, (Datum.holds_function_iff.mp h).2⟩

theorem genuine_owned {vs : List Value} (h : Genuines P vs) : ∀ s ∈ vs.map Slot.own, s.Genuine P := by
  intro s mem
  obtain ⟨v, there, rfl⟩ := List.mem_map.mp mem
  exact .own (h v there)

theorem genuine_toList {this : Option Value} (h : ∀ v ∈ this, v.Genuine P) : Genuines P this.toList :=
  fun v mem => h v (Option.mem_toList.mp mem)

/-- **A call of a function value.** -/
theorem Keeps.callValue (hI : I.Keeps P) (name : String) {given : List (Slot Function)} {code : Option Function}
    (hf : Callable P given code) {this : Option Value} (ht : ∀ v ∈ this, v.Genuine P) {arguments : List Value}
    (ha : Genuines P arguments) (pos : Position) (here : Bool := false) :
    (I.callValue name given code this arguments pos here).Keeps P (Returned.Genuine P) := by
  have slots := List.forall_mem_append.mpr ⟨hf.given, genuine_owned ha⟩
  unfold Interpreter.callValue
  refine Eval.Keeps.get.bind fun m hm => ?_
  dsimp only
  have values : Genuines P ((given ++ arguments.map Slot.own).map m.slotValue) := by
    intro v mem
    obtain ⟨s, there, rfl⟩ := List.mem_map.mp mem
    exact hm.slotValue (slots s there)
  have every : Genuines P (this.toList ++ (given ++ arguments.map Slot.own).map m.slotValue) :=
    List.forall_mem_append.mpr ⟨genuine_toList ht, values⟩
  cases code with
  | some f =>
    dsimp only
    split
    · exact hI.invoke (hf.code f rfl) none ht slots pos
    · exact .pure ⟨trivial, ht⟩
  | none =>
    refine Eval.Keeps.read.bind fun c hc => ?_
    split
    · rename_i f found
      exact hI.invoke (hc.function? found) _ ht slots pos here
    · split
      · rename_i call known
        refine (keeps_plainCall every known).outcome.bind fun r hr => .pure ⟨?_, ht⟩
        cases r with
        | ok out => exact Library.Outcome.Genuine.result hr
        | error s => exact hr
      · exact .pure ⟨trivial, ht⟩

theorem keeps_missing (name : String) (given : List (Slot Function)) (code : Option Function) (choices : List Nat) :
    (missing? name given code choices).Keeps P Whatever := by
  cases code with
  | some f => exact .pure trivial
  | none => exact Eval.Keeps.read.after fun _ => .pure trivial

theorem Keeps.callForItem (hI : I.Keeps P) {f : Value} (hf : f.Genuine P) {leading : List Value}
    (hl : Genuines P leading) {item : Value} (hv : item.Genuine P) (index : Nat) (pos : Position) :
    (I.callForItem f leading item index pos).KeepsValue P := by
  have one : Genuines P (leading ++ [item]) := List.forall_mem_append.mpr ⟨hl, List.forall_mem_singleton.mpr hv⟩
  have two : Genuines P (leading ++ [item, .int (Int64.ofNat index)]) := by
    refine List.forall_mem_append.mpr ⟨hl, List.forall_mem_cons.mpr ⟨hv, ?_⟩⟩
    exact List.forall_mem_singleton.mpr (Datum.holds_int _)
  unfold Interpreter.callForItem
  split
  · have parts := callable_of_genuine hf
    refine (keeps_missing ..).after fun k => ?_
    split
    · split
      · refine keeps_value (hI.callValue _ parts ?_ hl pos)
        rintro v ⟨⟩
        exact hv
      · split
        · exact keeps_value (hI.callValue _ parts forall_mem_none two pos)
        · exact keeps_value (hI.callValue _ parts forall_mem_none one pos)
    · exact keeps_value (hI.callValue _ parts forall_mem_none one pos)
  · exact .failAt pos trivial

section Callbacks

variable (hI : I.Keeps P) {f : Value} (hf : f.Genuine P) (pos : Position)

include hI hf

theorem Keeps.mapItems (index : Nat) {xs : List Value} (h : Genuines P xs) :
    (I.mapItems f pos index xs).Keeps P (Genuines P) := by
  induction xs generalizing index with
  | nil => exact .pure (List.forall_mem_nil _)
  | cons x xs ih =>
    obtain ⟨hx, hxs⟩ := List.forall_mem_cons.mp h
    refine (hI.callForItem hf (List.forall_mem_nil _) hx index pos).bind fun v hv => ?_
    exact (ih _ hxs).bind fun vs hvs => .pure (List.forall_mem_cons.mpr ⟨hv, hvs⟩)

theorem Keeps.filterItems (index : Nat) {xs : List Value} (h : Genuines P xs) :
    (I.filterItems f pos index xs).Keeps P (Genuines P) := by
  induction xs generalizing index with
  | nil => exact .pure (List.forall_mem_nil _)
  | cons x xs ih =>
    obtain ⟨hx, hxs⟩ := List.forall_mem_cons.mp h
    refine (hI.callForItem hf (List.forall_mem_nil _) hx index pos).bind fun v hv => (ih _ hxs).bind fun vs hvs => ?_
    refine .pure ?_
    split
    · exact List.forall_mem_cons.mpr ⟨hx, hvs⟩
    · exact hvs

theorem Keeps.findItem (wanted : Bool) (index : Nat) {xs : List Value} (h : Genuines P xs) :
    (I.findItem f wanted pos index xs).Keeps P Whatever := by
  induction xs generalizing index with
  | nil => exact .pure trivial
  | cons x xs ih =>
    obtain ⟨hx, hxs⟩ := List.forall_mem_cons.mp h
    refine (hI.callForItem hf (List.forall_mem_nil _) hx index pos).after fun v => ?_
    split
    · exact .pure trivial
    · exact ih _ hxs

theorem Keeps.reduceItems (index : Nat) {before : Value} (hb : before.Genuine P) {xs : List Value}
    (h : Genuines P xs) : (I.reduceItems f pos index before xs).KeepsValue P := by
  induction xs generalizing index before with
  | nil => exact .pure hb
  | cons x xs ih =>
    obtain ⟨hx, hxs⟩ := List.forall_mem_cons.mp h
    exact (hI.callForItem hf (List.forall_mem_singleton.mpr hb) hx index pos).bind fun v hv => ih _ hv hxs

theorem Keeps.comesBefore {x y : Value} (hx : x.Genuine P) (hy : y.Genuine P) :
    (I.comesBefore f pos x y).Keeps P Whatever := by
  unfold Interpreter.comesBefore
  split
  · have both : Genuines P [x, y] := List.forall_mem_cons.mpr ⟨hx, List.forall_mem_singleton.mpr hy⟩
    refine (hI.callValue _ (callable_of_genuine hf) forall_mem_none both pos).after fun r => ?_
    split
    · exact .pure trivial
    · exact .pure trivial
    · exact (Eval.Keeps.catches _).after fun _ => .pure trivial
    · exact .pure trivial
  · exact .pure trivial

theorem Keeps.insertItem {x : Value} (hx : x.Genuine P) {ys : List Value} (h : Genuines P ys) :
    (I.insertItem f pos x ys).Keeps P (Genuines P) := by
  induction ys with
  | nil => exact .pure (List.forall_mem_singleton.mpr hx)
  | cons y ys ih =>
    obtain ⟨hy, hys⟩ := List.forall_mem_cons.mp h
    refine (hI.comesBefore hf pos hx hy).after fun b => ?_
    split
    · exact .pure (List.forall_mem_cons.mpr ⟨hx, h⟩)
    · exact (ih hys).bind fun zs hzs => .pure (List.forall_mem_cons.mpr ⟨hy, hzs⟩)

theorem Keeps.sortItems {items : List Value} (h : Genuines P items) :
    (I.sortItems f pos items).Keeps P (Genuines P) := by
  unfold Interpreter.sortItems
  have none : Genuines P [] := List.forall_mem_nil _
  generalize ([] : List Value) = sorted at none
  induction items generalizing sorted with
  | nil => exact .pure none
  | cons x items ih =>
    obtain ⟨hx, hi⟩ := List.forall_mem_cons.mp h
    rw [List.foldlM_cons]
    exact (hI.insertItem hf pos hx none).bind fun sorted' hs => ih hi sorted' hs

omit f hf in
/-- **A function that calls back.** -/
theorem Keeps.callback {name : String} {arguments : List Value} (ha : Genuines P arguments)
    {call : Eval Library.Outcome} (h : I.callback? name arguments pos = some call) : KeepsCall P call := by
  unfold Interpreter.callback? at h
  split at h
  · obtain ⟨array, rest⟩ := List.forall_mem_cons.mp ha
    obtain ⟨hf, hr⟩ := List.forall_mem_cons.mp rest
    have hi := array.items
    split at h
    · cases h
      exact (hI.mapItems hf pos 0 hi).bind fun vs hvs => .pure ⟨.array hvs, forall_mem_none⟩
    · cases h
      exact (hI.filterItems hf pos 0 hi).bind fun vs hvs => .pure ⟨.array hvs, forall_mem_none⟩
    · cases h
      exact (hI.findItem hf pos true 0 hi).after fun _ => .pure ⟨Datum.holds_bool _, forall_mem_none⟩
    · cases h
      exact (hI.findItem hf pos false 0 hi).after fun _ => .pure ⟨Datum.holds_bool _, forall_mem_none⟩
    · cases h
      refine (hI.findItem hf pos true 0 hi).after fun i => ?_
      cases i <;> exact .pure ⟨Datum.holds_int _, forall_mem_none⟩
    · cases h
      exact (hI.mapItems hf pos 0 hi).after fun _ => .pure ⟨Datum.holds_unit, forall_mem_none⟩
    · cases h
      exact keeps_result (hI.reduceItems hf pos 0 Datum.holds_unit hi)
    · cases h
      exact keeps_result (hI.reduceItems hf pos 0 (List.forall_mem_singleton.mp hr) hi)
    · cases h
      refine (hI.sortItems hf pos hi).bind fun vs hvs => .pure ⟨Datum.holds_unit, ?_⟩
      rintro v ⟨⟩
      exact .array hvs
    · cases h
  · cases h

omit f hf in
theorem Keeps.native {name : String} {arguments : List Value} (ha : Genuines P arguments)
    {call : Eval Library.Outcome} (h : I.native? name arguments pos = some call) : KeepsCall P call := by
  unfold Interpreter.native? at h
  cases known : I.callback? name arguments pos with
  | some found =>
    rw [known] at h
    cases h
    exact hI.callback pos ha known
  | none =>
    rw [known] at h
    exact keeps_plainCall ha h

end Callbacks

/-! ## §4 — calls by name -/

theorem keeps_functionNamed (name : String) (pos : Position) : (functionNamed name pos).KeepsValue P := by
  unfold functionNamed
  split
  · exact .pure (.function _ (List.forall_mem_nil _) forall_mem_none)
  · exact .failAt pos trivial

/-- A variable with a genuine value. -/
abbrev SightingGenuine (P : Failure → Prop) (s : Machine.Sighting) : Prop := s.value.Genuine P

theorem keeps_sighting (name : String) (pos : Position) : (sighting name pos).Keeps P (SightingGenuine P) := by
  refine Eval.Keeps.get.bind fun m hm => ?_
  split
  · rename_i s found
    exact .pure (hm.find? found)
  · exact .failAt pos trivial

theorem keeps_thisValue (pos : Position) : (thisValue pos).KeepsValue P := by
  refine Eval.Keeps.get.bind fun m hm => ?_
  split
  · rename_i v bound
    exact .pure (hm.this v bound)
  · exact .failAt pos trivial

theorem Keeps.callNamed (hI : I.Keeps P) (name : String) {arguments : List Value} (ha : Genuines P arguments)
    (place : Option Place) (pos : Position) (here : Bool := false) :
    (I.callNamed name arguments place pos here).KeepsValue P := by
  refine Eval.Keeps.read.bind fun c hc => ?_
  split
  · rename_i f found
    exact keeps_value (hI.invoke (hc.function? found) _ forall_mem_none (genuine_owned ha) pos here)
  · split
    · exact .failAt pos trivial
    · rename_i call known
      refine (hI.native pos ha known).bind fun out ho => ?_
      dsimp only
      split
      · rename_i became
        exact (Eval.Keeps.modify fun m hm => hm.write _ (ho.changed _ became)).after fun _ => .pure ho.result
      · exact .pure ho.result

theorem Keeps.arguments (hI : I.Keeps P) {es : List Expr} (h : ∀ e ∈ es, e.Genuine P) :
    (es.mapM I.expr).Keeps P (Genuines P) :=
  .mapM fun e mem => hI.expr e (h e mem)

/-- A call in a scope of its own. -/
theorem Keeps.callApart (hI : I.Keeps P) (name : String) {arguments : List Expr} (ha : ∀ e ∈ arguments, e.Genuine P)
    (pos : Position) : (I.callApart name arguments pos).KeepsValue P := by
  unfold Interpreter.callApart
  split
  · obtain ⟨-, hr⟩ := List.forall_mem_cons.mp ha
    refine (hI.arguments hr).bind fun values hvs => (keeps_sighting ..).bind fun s hs => ?_
    exact hI.callNamed _ (List.forall_mem_cons.mpr ⟨hs, hvs⟩) _ pos
  · obtain ⟨-, hr⟩ := List.forall_mem_cons.mp ha
    refine (hI.arguments hr).bind fun values hvs => (keeps_thisValue _).bind fun v hv => ?_
    exact hI.callNamed _ (List.forall_mem_cons.mpr ⟨hv, hvs⟩) _ pos
  · exact (hI.arguments ha).bind fun values hvs => hI.callNamed _ hvs _ pos

/-- A call in the scope of the caller. -/
theorem Keeps.callHere (hI : I.Keeps P) (name : String) {arguments : List Expr} (ha : ∀ e ∈ arguments, e.Genuine P)
    (pos : Position) : (I.callHere name arguments pos).KeepsValue P := by
  refine Eval.Keeps.get.after fun m => ?_
  split
  · exact hI.callApart name ha pos
  · exact (hI.arguments ha).bind fun values hvs => hI.callNamed _ hvs _ pos true

/-- **A call by name.** -/
theorem Keeps.call (hI : I.Keeps P) (name : String) {arguments : List Expr} (ha : ∀ e ∈ arguments, e.Genuine P)
    (pos : Position) (here : Bool) : (I.call name arguments pos here).KeepsValue P := by
  unfold Interpreter.call
  split
  · obtain ⟨hf, hr⟩ := List.forall_mem_cons.mp ha
    refine (hI.expr _ hf).bind fun f hv => ?_
    split
    · refine (hI.arguments hr).bind fun values hvs => ?_
      exact keeps_value (hI.callValue _ (callable_of_genuine hv) forall_mem_none hvs pos here)
    · exact .failAt _ trivial
  · refine (hI.expr _ (List.forall_mem_singleton.mp ha)).after fun f => ?_
    split
    · exact keeps_functionNamed ..
    · exact .failAt _ trivial
  · obtain ⟨hf, hr⟩ := List.forall_mem_cons.mp ha
    refine (hI.expr _ hf).bind fun f hv => ?_
    split
    · refine (hI.arguments hr).bind fun values hvs => .pure ?_
      have parts := callable_of_genuine hv
      exact .function _ (List.forall_mem_append.mpr ⟨parts.given, genuine_owned hvs⟩) parts.code
    · exact .failAt _ trivial
  · refine (hI.expr _ (List.forall_mem_singleton.mp ha)).after fun _ => ?_
    split
    · refine (keeps_sighting ..).after fun s => ?_
      split <;> exact .pure (Datum.holds_bool _)
    · exact .pure (Datum.holds_bool _)
  · split
    · exact hI.callHere _ ha pos
    · exact hI.callApart _ ha pos

/-! ## §5 — methods -/

/-- A chain that has come to a genuine value. -/
abbrev Standing.Genuine (P : Failure → Prop) (s : Standing) : Prop := s.value.Genuine P

theorem Standing.keeps_become (s : Standing) {v : Value} (hv : v.Genuine P) : (s.become v).Keeps P Whatever := by
  unfold Standing.become
  split
  · split
    · exact .pure trivial
    · exact .modify fun m hm => hm.write _ hv
  · exact .pure trivial

/-- What a value has become is written back. -/
theorem Standing.keeps_settle (s : Standing) {x : Eval Returned} (h : x.Keeps P (Returned.Genuine P)) :
    (x >>= s.settle).KeepsValue P := by
  refine h.bind fun r hr => ?_
  unfold Standing.settle
  dsimp only
  split
  · rename_i v became
    exact (s.keeps_become (hr.this v became)).after fun _ => .resume hr.outcome
  · exact .resume hr.outcome

theorem mem_some {v : Value} (h : v.Genuine P) : ∀ w ∈ some v, w.Genuine P := by
  rintro w ⟨⟩
  exact h

theorem Keeps.methodNamed (hI : I.Keeps P) {s : Standing} (hs : s.Genuine P) (name : String) {arguments : List Value}
    (ha : Genuines P arguments) (pos : Position) : (I.methodNamed s name arguments pos).KeepsValue P := by
  refine Eval.Keeps.read.bind fun c hc => ?_
  split
  · rename_i f found
    exact s.keeps_settle (hI.invoke (hc.function? found) _ (mem_some hs) (genuine_owned ha) pos)
  · split
    · exact .failAt pos trivial
    · rename_i call known
      refine (hI.native pos (List.forall_mem_cons.mpr ⟨hs, ha⟩) known).bind fun out ho => ?_
      dsimp only
      split
      · rename_i w became
        have written := (s.keeps_become (ho.changed w became)).after fun _ => Eval.Keeps.pure ho.result
        have refused : (Eval.failAt pos (.constantReceiver name) : Eval PUnit).Keeps P Whatever := .failAt pos trivial
        split
        · exact refused.after fun _ => written
        · exact written
      · exact .pure ho.result

/-- The function in a field of a genuine map. -/
theorem callable_of_fieldFunction? {v : Value} (h : v.Genuine P) {name f : String} {given : List (Slot Function)}
    {code : Option Function} (found : fieldFunction? v name = some (f, given, code)) : Callable P given code := by
  unfold fieldFunction? at found
  split at found
  · split at found
    · rename_i held
      cases found
      exact callable_of_genuine (h.fields.field? held)
    · cases found
  · cases found

theorem Keeps.methodOf (hI : I.Keeps P) {s : Standing} (hs : s.Genuine P) (name : String) {arguments : List Value}
    (ha : Genuines P arguments) (pos : Position) : (I.methodOf s name arguments pos).KeepsValue P := by
  unfold Interpreter.methodOf
  split
  · rename_i found
    exact s.keeps_settle (hI.callValue _ (callable_of_fieldFunction? hs found) (mem_some hs) ha pos)
  · exact hI.methodNamed hs name ha pos

/-- **A call of a method.** -/
theorem Keeps.method (hI : I.Keeps P) {s : Standing} (hs : s.Genuine P) (name : String) {arguments : List Value}
    (ha : Genuines P arguments) (pos : Position) : (I.method s name arguments pos).KeepsValue P := by
  unfold Interpreter.method
  split
  · rename_i same
    unfold Standing.Genuine at hs
    rw [same] at hs
    exact keeps_value (hI.callValue _ (callable_of_genuine hs) forall_mem_none ha pos)
  · obtain ⟨hf, hr⟩ := List.forall_mem_cons.mp ha
    exact s.keeps_settle (hI.callValue _ (callable_of_genuine hf) (mem_some hs) hr pos)
  · exact .failAt pos trivial
  · rename_i same
    unfold Standing.Genuine at hs
    rw [same] at hs
    have parts := callable_of_genuine hs
    exact .pure (.function _ (List.forall_mem_append.mpr ⟨parts.given, genuine_owned ha⟩) parts.code)
  · exact .pure (Datum.holds_bool _)
  · exact hI.methodOf hs _ ha pos

end Interpreter

end Dialogue.Script
