import Dialogue.Proofs.Script.Library
import Dialogue.Proofs.Script.Lockstep
import Dialogue.Proofs.Script.Operator
import Dialogue.Proofs.Script.Undeclaring
import Dialogue.Script.Evaluator
/-!
# `Dialogue.Proofs.Script.Looking` — expressions that only look.

An expression that calls nothing and makes no closure changes nothing and asks for nothing. What it comes to can be said
without a machine, from the values of the variables alone: it does not matter where these stand, whether they are
constant, or whether closures share them. Main statement: on any machine such an expression comes to what is seen in the
values of the variables, and leaves the machine as it was.
-/

namespace Dialogue.Script

open Interpreter (Prepared)

/-! ## §1 — looking -/

/-- **Does an expression tell whether something is so?** It comes to a truth value, if to anything. -/
def Expr.tells : Expr → Bool
  | .constant (.bool _) _ => true
  | .operation op [_] _ => op == "!"
  | .operation op [_, _] _ => Operator.comparisons.contains op
  | .both a b _ | .either a b _ => a.tells && b.tells
  | _ => false

/-- Is an expression a literal or a variable? -/
def Expr.isAtom : Expr → Bool
  | .constant .. | .var .. => true
  | _ => false

/-- Does an expression consist of statements? -/
def Expr.isStatements : Expr → Bool
  | .statements .. => true
  | _ => false

/-- Is an expression a variable? -/
def Expr.isVar : Expr → Bool
  | .var .. => true
  | _ => false

/-- **Does an expression stay what it is**, unless it becomes a literal? Of what connectives join, one part may stay. -/
def Expr.settles : Expr → Bool
  | .both .. | .either .. | .orElse .. | .statements .. => false
  | _ => true

mutual

/-- **Does an expression only look at variables?** Nothing is called, so `in` is not among the operators. What the
connectives join tells whether something is so. A way into a variable goes through properties and through indices that
are literals or variables; the time since a moment is no property of the moment alone. In a text, an expression stands
in a block of its own. -/
def Expr.looks : Expr → Bool
  | .constant .. | .var .. => true
  | .template items _ | .array items _ => Expr.allLook items
  | .object fields _ => Expr.allFieldsLook fields
  | .operation op operands _ => op != "contains" && Expr.allLook operands
  | .both a b _ | .either a b _ => a.tells && b.tells && (a.looks && b.looks)
  | .orElse a b _ => !b.isStatements && (a.looks && b.looks)
  | .chain (.var ..) steps => Step.allLook steps
  | .statements [.block [.expr e] _] _ => !e.isStatements && e.looks
  | .chain .. | .this _ | .call .. | .closure .. | .statements .. => false

/-- Do all items only look at variables? -/
def Expr.allLook : List Expr → Bool
  | [] => true
  | e :: es => e.looks && Expr.allLook es

/-- Do all fields only look at variables? -/
def Expr.allFieldsLook : List (String × Expr) → Bool
  | [] => true
  | (_, e) :: fs => e.looks && Expr.allFieldsLook fs

/-- Do all steps only look at variables? -/
def Step.allLook : List Step → Bool
  | [] => true
  | .property name _ _ _ :: ss => name != "elapsed" && Step.allLook ss
  | .index key _ _ :: ss => key.isAtom && key.looks && Step.allLook ss
  | .method .. :: _ => false

end

/-- Does a method neither change what it is called on, nor ask how that stands? -/
def Step.harmless (name : String) : Bool := !Library.changers.contains name && name != "is_shared"

/-- **Do steps only look at variables**, but for a call of a method as the last? -/
def Step.lookThenCall : List Step → Bool
  | [] => true
  | .property name _ _ _ :: ss => name != "elapsed" && Step.lookThenCall ss
  | .index key _ _ :: ss => key.isAtom && key.looks && Step.lookThenCall ss
  | .method name arguments _ _ _ :: ss => ss.isEmpty && (Step.harmless name && Expr.allLook arguments)

mutual

/-- **How deep an expression that only looks is nested**, or a call with such arguments. -/
def Expr.height : Expr → Nat
  | .template items _ | .array items _ | .operation _ items _ | .call _ items _ _ => Expr.heights items + 1
  | .object fields _ => Expr.fieldHeights fields + 1
  | .both a b _ | .either a b _ | .orElse a b _ => max a.height b.height + 1
  | .chain _ steps => Step.heights steps + 1
  | .statements [.block [.expr e] _] _ => e.height + 3
  | .constant .. | .var .. | .this _ | .closure .. | .statements .. => 1

/-- How deep items are nested. -/
def Expr.heights : List Expr → Nat
  | [] => 0
  | e :: es => max e.height (Expr.heights es)

/-- How deep fields are nested. -/
def Expr.fieldHeights : List (String × Expr) → Nat
  | [] => 0
  | (_, e) :: fs => max e.height (Expr.fieldHeights fs)

/-- How deep the indices and arguments of steps are nested. -/
def Step.heights : List Step → Nat
  | [] => 0
  | .index key _ _ :: ss => max key.height (Step.heights ss)
  | .method _ arguments _ _ _ :: ss => max (Expr.heights arguments) (Step.heights ss)
  | .property .. :: ss => Step.heights ss

end

/-! ## §2 — what is seen -/

/-- **What is seen in values:** something, or a fault. -/
abbrev Sight (α : Type) := Except Fault α

/-- What is found in a value, or a fault at a place. -/
def Sight.at_ (pos : Position) : Except Cause α → Sight α
  | .ok a => .ok a
  | .error cause => .error (.raised cause (some pos))

/-- **What an operator makes of values.** -/
def Sight.operation (op : String) (pos : Position) : List Value → Sight Value
  | [v] => Sight.at_ pos (Operation.unary op v)
  | [v, w] => Sight.at_ pos (Operation.binary op v w)
  | vs => .error (.raised (Operation.unknown op vs) (some pos))

/-- What is found at an index, or a fault at the index or at its bracket. -/
def Sight.atIndex (start bracket : Position) : Except Cause α → Sight α
  | .ok a => .ok a
  | .error (.notIndexable types) => .error (.raised (.notIndexable types) (some bracket))
  | .error cause => .error (.raised cause (some start))

/-- **What a step leads to in a value.** -/
def Sight.step (v : Value) : Prepared → Sight Value
  | .property name pos _ => (Sight.at_ pos (Access.property v name)).map (·.value)
  | .index key start bracket _ => (Sight.atIndex start bracket (Access.element v key)).map (·.value)
  | .method _ _ pos _ => .error (.raised .tooComplex (some pos))

/-- **What steps lead to**, one after another; an optional one ends the way at `()`. -/
def Sight.walk (v : Value) : List Prepared → Sight Value
  | [] => .ok v
  | step :: rest => if step.endsAt v then .ok .unit else Sight.step v step >>= fun w => Sight.walk w rest

/-- The value of a variable, or a fault. -/
def Sight.variable (seen : String → Option Value) (name : String) (pos : Position) : Sight Value :=
  match seen name with
  | some v => .ok v
  | none => .error (.raised (.variableNotFound name) (some pos))

section

variable (seen : String → Option Value)

mutual

/-- **What an expression that only looks comes to**, the values of variables being what is `seen` of them. -/
def Expr.sight : Expr → Sight Value
  | .constant v _ => .ok (.ofConstant v)
  | .var name pos => Sight.variable seen name pos
  | .template items _ => (Expr.sights items).map fun vs => .str (String.join (vs.map Datum.scriptText))
  | .array items _ => (Expr.sights items).map .array
  | .object fields _ => (Expr.fieldSights fields).map fun fs => .object (Datum.ofFields fs)
  | .operation op operands pos => Expr.sights operands >>= Sight.operation op pos
  | .both a b _ => a.sight >>= fun
    | .bool true => b.sight
    | v => .ok v
  | .either a b _ => a.sight >>= fun
    | .bool false => b.sight
    | v => .ok v
  | .orElse a b _ => a.sight >>= fun
    | .unit => b.sight
    | v => .ok v
  | .chain (.var name pos) steps => do
    let steps ← Step.sights steps
    let v ← Sight.variable seen name pos
    Sight.walk v steps
  | .statements [.block [.expr e] _] _ => e.sight
  | .chain .. | .this _ | .call .. | .closure .. | .statements .. => .error (.raised .tooComplex none)

/-- What items come to, from left to right. -/
def Expr.sights : List Expr → Sight (List Value)
  | [] => .ok []
  | e :: es => do return (← e.sight) :: (← Expr.sights es)

/-- What fields come to. -/
def Expr.fieldSights : List (String × Expr) → Sight (List (String × Value))
  | [] => .ok []
  | (name, e) :: fs => do return (name, ← e.sight) :: (← Expr.fieldSights fs)

/-- What the indices and arguments of steps come to. -/
def Step.sights : List Step → Sight (List Prepared)
  | [] => .ok []
  | .property name pos _ optional :: ss => do return .property name pos optional :: (← Step.sights ss)
  | .index key bracket optional :: ss => do
    let k ← key.sight
    return .index k key.start bracket optional :: (← Step.sights ss)
  | .method name arguments pos _ optional :: ss => do
    let vs ← Expr.sights arguments
    return .method name vs pos optional :: (← Step.sights ss)

end

end

/-- What is seen in two steps, is seen in each. -/
theorem Sight.bind_ok {x : Sight α} {f : α → Sight β} {b : β} (h : x >>= f = .ok b) :
    ∃ a, x = .ok a ∧ f a = .ok b := by
  cases x with
  | error e => cases h
  | ok a => exact ⟨a, rfl, h⟩

theorem Sight.at_ok {pos : Position} {found : Except Cause α} {a : α} (h : Sight.at_ pos found = .ok a) :
    found = .ok a := by
  cases found with
  | error cause => cases h
  | ok b => exact congrArg Except.ok (Except.ok.inj h)

section

variable {seen : String → Option Value}

theorem sights_cons_ok {e : Expr} {es : List Expr} {vs : List Value} (h : Expr.sights seen (e :: es) = .ok vs) :
    ∃ v ws, e.sight seen = .ok v ∧ Expr.sights seen es = .ok ws ∧ vs = v :: ws := by
  obtain ⟨v, first, h⟩ := Sight.bind_ok h
  obtain ⟨ws, rest, h⟩ := Sight.bind_ok h
  exact ⟨v, ws, first, rest, (Except.ok.inj h).symm⟩

/-- A variable depends on what is seen of its name. -/
theorem Sight.variable_congr {seen' : String → Option Value} {name : String} (same : seen' name = seen name)
    (pos : Position) : Sight.variable seen' name pos = Sight.variable seen name pos := by
  unfold Sight.variable
  rw [same]

/-- There are as many values as items. -/
theorem length_of_sights {es : List Expr} {vs : List Value} (h : Expr.sights seen es = .ok vs) :
    vs.length = es.length := by
  induction es generalizing vs with
  | nil =>
    cases h
    rfl
  | cons e es ih =>
    obtain ⟨v, ws, -, rest, rfl⟩ := sights_cons_ok h
    exact congrArg (· + 1) (ih rest)

/-- Comparisons, negations, and what the connectives join **come to a truth value**, if to anything. -/
theorem bool_of_tells {e : Expr} (tells : e.tells) {v : Value} (h : e.sight seen = .ok v) : ∃ b, v = .bool b := by
  fun_induction Expr.tells e generalizing v with
  | case1 b => exact ⟨b, (Except.ok.inj h).symm⟩
  | case2 op a pos =>
    obtain rfl : op = "!" := beq_iff_eq.mp tells
    obtain ⟨vs, values, h⟩ := Sight.bind_ok h
    obtain ⟨w, ws, -, none, rfl⟩ := sights_cons_ok values
    cases none
    exact Operation.bool_of_unary (Sight.at_ok h)
  | case3 op a b pos =>
    obtain ⟨vs, values, h⟩ := Sight.bind_ok h
    obtain ⟨x, ws, -, rest, rfl⟩ := sights_cons_ok values
    obtain ⟨y, ws, -, none, rfl⟩ := sights_cons_ok rest
    cases none
    exact Operation.bool_of_binary (List.contains_iff_mem.mp tells) (Sight.at_ok h)
  | case4 a b pos left right =>
    obtain ⟨tellsLeft, tellsRight⟩ := Bool.and_eq_true_iff.mp tells
    obtain ⟨x, first, h⟩ := Sight.bind_ok h
    obtain ⟨_ | _, rfl⟩ := left tellsLeft first
    · exact ⟨false, (Except.ok.inj h).symm⟩
    · exact right tellsRight h
  | case5 a b pos left right =>
    obtain ⟨tellsLeft, tellsRight⟩ := Bool.and_eq_true_iff.mp tells
    obtain ⟨x, first, h⟩ := Sight.bind_ok h
    obtain ⟨_ | _, rfl⟩ := left tellsLeft first
    · exact right tellsRight h
    · exact ⟨true, (Except.ok.inj h).symm⟩
  | case6 => cases tells

end

theorem Expr.height_pos (e : Expr) : 0 < e.height := by
  unfold Expr.height
  split <;> exact Nat.succ_pos _

theorem Expr.each_looks {es : List Expr} (h : Expr.allLook es) : ∀ e ∈ es, e.looks ∧ e.height ≤ Expr.heights es := by
  induction es with
  | nil => exact fun _ mem => nomatch mem
  | cons e es ih =>
    obtain ⟨here, later⟩ := Bool.and_eq_true_iff.mp h
    refine List.forall_mem_cons.mpr ⟨⟨here, Nat.le_max_left ..⟩, fun f mem => ?_⟩
    exact ⟨(ih later f mem).1, Nat.le_trans (ih later f mem).2 (Nat.le_max_right ..)⟩

theorem Expr.each_field_looks {fs : List (String × Expr)} (h : Expr.allFieldsLook fs) :
    ∀ f ∈ fs, f.2.looks ∧ f.2.height ≤ Expr.fieldHeights fs := by
  induction fs with
  | nil => exact fun _ mem => nomatch mem
  | cons f fs ih =>
    obtain ⟨here, later⟩ := Bool.and_eq_true_iff.mp h
    refine List.forall_mem_cons.mpr ⟨⟨here, Nat.le_max_left ..⟩, fun g mem => ?_⟩
    exact ⟨(ih later g mem).1, Nat.le_trans (ih later g mem).2 (Nat.le_max_right ..)⟩

/-- Steps that only look, look before they call. -/
theorem Step.lookThenCall_of_allLook {ss : List Step} (h : Step.allLook ss) : Step.lookThenCall ss := by
  induction ss with
  | nil => rfl
  | cons s ss ih =>
    cases s with
    | property | index =>
      obtain ⟨here, later⟩ := Bool.and_eq_true_iff.mp h
      exact Bool.and_eq_true_iff.mpr ⟨here, ih later⟩
    | method => cases h

/-- Statements that only look are an expression in a block of its own. -/
theorem Expr.looks_statements {body : List Stmt} {pos : Position} (h : (Expr.statements body pos).looks) :
    ∃ e p, body = [.block [.expr e] p] ∧ e.isStatements = false ∧ e.looks := by
  unfold Expr.looks at h
  split at h
  all_goals try contradiction
  rename_i e p _ same
  cases same
  exact ⟨e, p, rfl, by simpa using Bool.and_eq_true_iff.mp h⟩

section

variable {seen seen' : String → Option Value}

theorem Expr.sights_congr {es : List Expr}
    (each : ∀ e ∈ es, (∀ x ∈ e.mentions, x.Among fun name => seen' name = seen name) → e.sight seen' = e.sight seen)
    (same : ∀ x ∈ Expr.mentionsOfItems es, x.Among fun name => seen' name = seen name) :
    Expr.sights seen' es = Expr.sights seen es := by
  induction es with
  | nil => rfl
  | cons e es ih =>
    obtain ⟨here, later⟩ := List.forall_mem_cons.mp each
    obtain ⟨named, others⟩ := List.forall_mem_append.mp same
    simp only [Expr.sights, here named, ih later others]

theorem Expr.fieldSights_congr {fs : List (String × Expr)}
    (each : ∀ f ∈ fs, (∀ x ∈ f.2.mentions, x.Among fun name => seen' name = seen name) →
      f.2.sight seen' = f.2.sight seen)
    (same : ∀ x ∈ Expr.mentionsOfFields fs, x.Among fun name => seen' name = seen name) :
    Expr.fieldSights seen' fs = Expr.fieldSights seen fs := by
  induction fs with
  | nil => rfl
  | cons f fs ih =>
    obtain ⟨here, later⟩ := List.forall_mem_cons.mp each
    obtain ⟨named, others⟩ := List.forall_mem_append.mp same
    simp only [Expr.fieldSights, here named, ih later others]

theorem Step.sights_congr {ss : List Step} (looks : Step.lookThenCall ss)
    (each : ∀ e : Expr, e.looks → e.height ≤ Step.heights ss →
      (∀ x ∈ e.mentions, x.Among fun name => seen' name = seen name) → e.sight seen' = e.sight seen)
    (same : ∀ x ∈ Step.mentionsOfItems ss, x.Among fun name => seen' name = seen name) :
    Step.sights seen' ss = Step.sights seen ss := by
  induction ss with
  | nil => rfl
  | cons s ss ih =>
    obtain ⟨named, others⟩ := List.forall_mem_append.mp same
    cases s with
    | property name pos dot optional => simp only [Step.sights, ih (Bool.and_eq_true_iff.mp looks).2 each others]
    | index key bracket optional =>
      obtain ⟨here, later⟩ := Bool.and_eq_true_iff.mp looks
      have value := each key (Bool.and_eq_true_iff.mp here).2 (Nat.le_max_left ..) named
      have rest := ih later (fun e looks fits => each e looks (Nat.le_trans fits (Nat.le_max_right ..))) others
      simp only [Step.sights, value, rest]
    | method name arguments pos dot optional =>
      obtain ⟨last, here⟩ := Bool.and_eq_true_iff.mp looks
      obtain rfl : ss = [] := List.isEmpty_iff.mp last
      have values : Expr.sights seen' arguments = Expr.sights seen arguments := by
        refine Expr.sights_congr (fun e mem => ?_) named
        have looks := Expr.each_looks (Bool.and_eq_true_iff.mp here).2 e mem
        exact each e looks.1 (Nat.le_trans looks.2 (Nat.le_max_left ..))
      simp only [Step.sights, values]

/-- **What an expression comes to** depends on the variables that it mentions, and on no others. -/
theorem Expr.sight_congr {n : Nat} {e : Expr} (looks : e.looks) (fits : e.height ≤ n)
    (same : ∀ x ∈ e.mentions, x.Among fun name => seen' name = seen name) : e.sight seen' = e.sight seen := by
  induction n generalizing e with
  | zero => exact absurd e.height_pos (Nat.not_lt.mpr fits)
  | succ n ih =>
    have items {es : List Expr} (looks : Expr.allLook es) (fits : Expr.heights es ≤ n)
        (same : ∀ x ∈ Expr.mentionsOfItems es, x.Among fun name => seen' name = seen name) :
        Expr.sights seen' es = Expr.sights seen es := by
      refine Expr.sights_congr (fun e mem named => ?_) same
      have here := Expr.each_looks looks e mem
      exact ih here.1 (Nat.le_trans here.2 fits) named
    have shallower {a b : Expr} (fits : max a.height b.height + 1 ≤ n + 1) : a.height ≤ n ∧ b.height ≤ n :=
      Nat.max_le.mp (Nat.le_of_succ_le_succ fits)
    cases e with
    | constant v pos => rfl
    | var name pos => exact Sight.variable_congr (same _ (List.mem_singleton_self _)) pos
    | template es pos | array es pos =>
      exact congrArg (Except.map _) (items looks (Nat.le_of_succ_le_succ fits) same)
    | object fs pos =>
      refine congrArg (Except.map _) (Expr.fieldSights_congr (fun f mem named => ?_) same)
      have here := Expr.each_field_looks looks f mem
      exact ih here.1 (Nat.le_trans here.2 (Nat.le_of_succ_le_succ fits)) named
    | operation op es pos =>
      have operands := items (Bool.and_eq_true_iff.mp looks).2 (Nat.le_of_succ_le_succ fits) same
      exact congrArg (· >>= Sight.operation op pos) operands
    | both a b pos | either a b pos =>
      obtain ⟨left, right⟩ := List.forall_mem_append.mp same
      obtain ⟨looksLeft, looksRight⟩ := Bool.and_eq_true_iff.mp (Bool.and_eq_true_iff.mp looks).2
      simp only [Expr.sight, ih looksLeft (shallower fits).1 left, ih looksRight (shallower fits).2 right]
    | orElse a b pos =>
      obtain ⟨left, right⟩ := List.forall_mem_append.mp same
      obtain ⟨looksLeft, looksRight⟩ := Bool.and_eq_true_iff.mp (Bool.and_eq_true_iff.mp looks).2
      simp only [Expr.sight, ih looksLeft (shallower fits).1 left, ih looksRight (shallower fits).2 right]
    | chain root ss =>
      cases root with
      | var name pos =>
        obtain ⟨root, steps⟩ := List.forall_mem_append.mp same
        have prepared := Step.sights_congr (Step.lookThenCall_of_allLook looks)
          (fun e looks fits' => ih looks (Nat.le_trans fits' (Nat.le_of_succ_le_succ fits))) steps
        simp only [Expr.sight, prepared, Sight.variable_congr (root _ (List.mem_singleton_self _)) pos]
      | _ => cases looks
    | statements body pos =>
      obtain ⟨e, p, rfl, -, looks⟩ := Expr.looks_statements looks
      have shallow : e.height ≤ n := by
        have fits : e.height + 3 ≤ n + 1 := fits
        omega
      have inner := ih looks shallow fun x mem => same x (List.mem_append_left _ (List.mem_append_left _ mem))
      exact inner
    | this | call | closure => cases looks

end

/-! ## §3 — what is seen is what a machine comes to -/

/-- **A step of evaluation that only looks:** it comes to what is seen, and leaves the machine as it was. -/
def Eval.Sees (m : Machine) (x : Eval α) (s : Sight α) : Prop :=
  ∀ c, x.runOn c m = .done (s.mapError .fault, m)

namespace Eval.Sees

variable {m : Machine} {x : Eval α} {s : Sight α}

theorem pure (a : α) : Sees m (Pure.pure a) (.ok a) := fun _ => rfl

theorem failAt (pos : Position) (cause : Cause) : Sees m (Eval.failAt pos cause : Eval α)
    (.error (.raised cause (some pos))) := fun _ => rfl

/-- What fails is not gone on with. -/
theorem fails {e : Fault} (h : Sees m x (.error e)) (f : α → Eval β) : Sees m (x >>= f) (.error e) := by
  intro c
  rw [Eval.runOn_bind, h c]
  rfl

/-- What is seen is gone on with. -/
theorem goesOn {a : α} (h : Sees m x (.ok a)) {f : α → Eval β} {t : Sight β} (hf : Sees m (f a) t) :
    Sees m (x >>= f) t := by
  intro c
  rw [Eval.runOn_bind, h c]
  exact hf c

/-- **One step after another** sees one thing after another. -/
theorem bind (h : Sees m x s) {f : α → Eval β} {t : α → Sight β} (hf : ∀ a, Sees m (f a) (t a)) :
    Sees m (x >>= f) (s >>= t) := by
  cases s with
  | error e => exact h.fails f
  | ok a => exact h.goesOn (hf a)

theorem congr (h : Sees m x s) {t : Sight α} (same : s = t) : Sees m x t := same ▸ h

theorem map (h : Sees m x s) (f : α → β) : Sees m (x >>= fun a => Pure.pure (f a)) (s.map f) := by
  have mapped := h.bind fun a => pure (f a)
  cases s with
  | error e => exact mapped
  | ok a => exact mapped

theorem orFail (pos : Position) (found : Except Cause α) :
    Sees m (Interpreter.orFail pos found) (Sight.at_ pos found) := by
  cases found with
  | error cause => exact failAt pos cause
  | ok a => exact pure a

theorem orFailIndex (start bracket : Position) (found : Except Cause α) :
    Sees m (Interpreter.orFailIndex start bracket found) (Sight.atIndex start bracket found) := by
  cases found with
  | ok a => exact pure a
  | error cause => cases cause <;> exact failAt _ _

end Eval.Sees

namespace Interpreter

variable {m : Machine}

open Eval (Sees)

/-- A variable is found as it stands on the machine. -/
theorem sees_sighting (name : String) (pos : Position) : ∃ found : Sight Machine.Sighting,
    Sees m (sighting name pos) found ∧ found.map Machine.Sighting.value = Sight.variable m.value? name pos := by
  unfold sighting Sight.variable Machine.value?
  cases found : m.find? name with
  | none =>
    refine ⟨.error (.raised (.variableNotFound name) (some pos)), fun c => ?_, rfl⟩
    rw [Eval.runOn_get_bind, found]
    rfl
  | some s =>
    refine ⟨.ok s, fun c => ?_, rfl⟩
    rw [Eval.runOn_get_bind, found]
    rfl

/-- So a variable comes to its value. -/
theorem sees_variable (name : String) (pos : Position) :
    Sees m (sighting name pos >>= fun s => pure s.value) (Sight.variable m.value? name pos) := by
  obtain ⟨found, sees, value⟩ := sees_sighting (m := m) name pos
  exact value ▸ sees.map _

/-- Does a step only look at the value that it is taken from? -/
def Prepared.looks : Prepared → Bool
  | .property name _ _ => name != "elapsed"
  | .index .. => true
  | .method .. => false

/-- **What a step that only looks leads to** is seen in the value that it is taken from. -/
theorem sees_advance (I : Interpreter) (s : Standing) {step : Prepared} (looks : step.looks) :
    ∃ found : Sight Standing, Sees m (I.advance s step) found ∧ found.map Standing.value = Sight.step s.value step := by
  have into (found : Sight Access.Found) :
      (found.map s.into).map Standing.value = found.map Access.Found.value := by
    cases found with
    | error e => rfl
    | ok f =>
      obtain ⟨v, inward⟩ := f
      cases inward <;> rfl
  cases step with
  | property name pos optional =>
    have property : propertyOf s.value name pos = orFail pos (Access.property s.value name) := by
      unfold propertyOf
      split
      · cases looks
      · rfl
    refine ⟨(Sight.at_ pos (Access.property s.value name)).map s.into, ?_, into _⟩
    show Sees m (propertyOf s.value name pos >>= fun found => pure (s.into found)) _
    rw [property]
    exact (Sees.orFail pos _).map s.into
  | index key start bracket optional =>
    exact ⟨_, (Sees.orFailIndex start bracket (Access.element s.value key)).map s.into, into _⟩
  | method name arguments pos optional => cases looks

/-- The value that a way has led to; `()`, if it has ended before. -/
def arrived : Option Standing → Eval Value
  | some s => return s.value
  | none => return .unit

/-- **Where steps that only look lead to** is seen in the value that they start from. -/
theorem sees_walk (I : Interpreter) (s : Standing) {steps : List Prepared} (looks : ∀ step ∈ steps, step.looks) :
    Sees m (I.walk s steps >>= arrived) (Sight.walk s.value steps) := by
  induction steps generalizing s with
  | nil => exact .pure s.value
  | cons step rest ih =>
    obtain ⟨here, later⟩ := List.forall_mem_cons.mp looks
    unfold walk Sight.walk
    split
    · exact .pure Datum.unit
    · obtain ⟨found, sees, seen⟩ := sees_advance (m := m) I s here
      rw [← seen, bind_assoc]
      have next := sees.bind fun s' => ih s' later
      cases found with
      | error e => exact next
      | ok s' => exact next

/-- Items are evaluated from left to right. -/
theorem sees_items {I : Interpreter} {es : List Expr} (each : ∀ e ∈ es, Sees m (I.expr e) (e.sight m.value?)) :
    Sees m (es.mapM I.expr) (Expr.sights m.value? es) := by
  induction es with
  | nil => exact .pure []
  | cons e es ih =>
    obtain ⟨here, later⟩ := List.forall_mem_cons.mp each
    rw [List.mapM_cons]
    exact here.bind fun v => (ih later).bind fun vs => .pure (v :: vs)

/-- So are fields. -/
theorem sees_fields {I : Interpreter} {fs : List (String × Expr)}
    (each : ∀ f ∈ fs, Sees m (I.expr f.2) (f.2.sight m.value?)) :
    Sees m (I.fields fs) (Expr.fieldSights m.value? fs) := by
  induction fs with
  | nil => exact .pure []
  | cons f fs ih =>
    obtain ⟨here, later⟩ := List.forall_mem_cons.mp each
    exact here.bind fun v => (ih later).bind fun vs => .pure ((f.1, v) :: vs)

/-- **An operator** looks at its operands only, unless it is a call. -/
theorem sees_operation {I : Interpreter} {op : String} (noCall : op ≠ "contains") {es : List Expr} (pos : Position)
    (each : ∀ e ∈ es, Sees m (I.expr e) (e.sight m.value?)) :
    Sees m (I.operation op es pos) (Expr.sights m.value? es >>= Sight.operation op pos) := by
  unfold operation
  split
  · exact absurd rfl noCall
  next e _ =>
    have value := (each e List.mem_cons_self).bind fun v => .orFail pos (Operation.unary op v)
    refine value.congr ?_
    simp only [Expr.sights]
    cases e.sight m.value? <;> rfl
  next a b _ =>
    have value := (each a List.mem_cons_self).bind fun x =>
      (each b (List.mem_cons_of_mem _ List.mem_cons_self)).bind fun y => .orFail pos (Operation.binary op x y)
    refine value.congr ?_
    simp only [Expr.sights]
    cases a.sight m.value? <;> cases b.sight m.value? <;> rfl
  next _ notOne notTwo =>
    have value := (sees_items each).bind fun vs =>
      Sees.orFail pos (.error (Operation.unknown op vs) : Except Cause Value)
    refine value.congr ?_
    cases found : Expr.sights m.value? es with
    | error e => rfl
    | ok vs =>
      show Sight.at_ pos (.error (Operation.unknown op vs)) = Sight.operation op pos vs
      -- there are as many values as operands
      have many := length_of_sights found
      match vs, es with
      | [], _ | _ :: _ :: _ :: _, _ => rfl
      | [_], [a] => exact absurd rfl (notOne a)
      | [_, _], [a, b] => exact absurd rfl (notTwo a b)

/-- **A block of one statement** comes to what that comes to. -/
theorem sees_alone {I : Interpreter} {s : Stmt} {v : Sight Value} (h : Sees m (I.stmt s) v) :
    Sees m (I.block [s]) v := by
  have sequence : Sees m (I.sequence [s] .unit) v := by
    unfold sequence
    cases v with
    | error f => exact h.fails _
    | ok v => exact h.goesOn (.pure v)
  intro c
  have left : m.rewind m.depth = m := by simp [Machine.rewind, Machine.depth]
  have outcome : (Eval.outcome (I.sequence [s] .unit)).runOn c m = .done (.ok (v.mapError .fault), m) := by
    show ((I.sequence [s] .unit).runOn c m).bind _ = _
    rw [sequence c]
    rfl
  unfold block Eval.inBlock Eval.ensuring
  rw [Eval.runOn_get_bind, Eval.runOn_bind, outcome]
  show ((modify (Machine.rewind · m.depth) >>= fun _ => Eval.resume (v.mapError .fault)) : Eval Value).runOn c m = _
  have rewound : (modify (Machine.rewind · m.depth) : Eval Unit).runOn c m = .done (.ok (), m.rewind m.depth) := rfl
  rw [Eval.runOn_bind, rewound, left]
  cases v <;> rfl

/-- What comes to a truth value **is a condition**, and the condition is that truth value. -/
theorem sees_condition {I : Interpreter} {e : Expr} (tells : e.tells) (value : Sees m (I.expr e) (e.sight m.value?)) :
    ∃ holds : Sight Bool, Sees m (I.condition e) holds ∧ e.sight m.value? = holds.map .bool := by
  cases seen : e.sight m.value? with
  | error f =>
    rw [seen] at value
    exact ⟨.error f, value.fails _, rfl⟩
  | ok v =>
    obtain ⟨b, rfl⟩ := bool_of_tells tells seen
    rw [seen] at value
    exact ⟨.ok b, value.goesOn (.pure b), rfl⟩

/-- Indices and arguments are evaluated before the way is gone. -/
theorem sees_prepare {I : Interpreter} {ss : List Step} (looks : Step.lookThenCall ss)
    (each : ∀ e, e.looks → e.height ≤ Step.heights ss → Sees m (I.expr e) (e.sight m.value?)) :
    Sees m (I.prepare ss) (Step.sights m.value? ss) := by
  induction ss with
  | nil => exact .pure []
  | cons s ss ih =>
    cases s with
    | property name pos dot optional =>
      exact (ih (Bool.and_eq_true_iff.mp looks).2 each).bind fun ps => .pure _
    | index key bracket optional =>
      obtain ⟨here, later⟩ := Bool.and_eq_true_iff.mp looks
      have rest := ih later fun e looks fits => each e looks (Nat.le_trans fits (Nat.le_max_right ..))
      refine (each key (Bool.and_eq_true_iff.mp here).2 (Nat.le_max_left ..)).bind fun k => ?_
      exact rest.bind fun ps => .pure _
    | method name arguments pos dot optional =>
      obtain ⟨last, here⟩ := Bool.and_eq_true_iff.mp looks
      obtain rfl : ss = [] := List.isEmpty_iff.mp last
      have values : Sees m (arguments.mapM I.expr) (Expr.sights m.value? arguments) := by
        refine sees_items fun e mem => ?_
        have looks := Expr.each_looks (Bool.and_eq_true_iff.mp here).2 e mem
        exact each e looks.1 (Nat.le_trans looks.2 (Nat.le_max_left ..))
      exact values.bind fun vs => (Sees.pure []).bind fun ps => .pure _

/-- Steps that only look are still such steps once their indices are evaluated. -/
theorem looks_of_sights {seen : String → Option Value} {ss : List Step} (looks : Step.allLook ss) {ps : List Prepared}
    (h : Step.sights seen ss = .ok ps) : ∀ p ∈ ps, p.looks := by
  induction ss generalizing ps with
  | nil =>
    cases h
    exact fun _ mem => nomatch mem
  | cons s ss ih =>
    cases s with
    | property name pos dot optional =>
      obtain ⟨here, later⟩ := Bool.and_eq_true_iff.mp looks
      obtain ⟨qs, rest, h⟩ := Sight.bind_ok h
      obtain rfl := (Except.ok.inj h).symm
      exact List.forall_mem_cons.mpr ⟨here, ih later rest⟩
    | index key bracket optional =>
      obtain ⟨k, -, h⟩ := Sight.bind_ok h
      obtain ⟨qs, rest, h⟩ := Sight.bind_ok h
      obtain rfl := (Except.ok.inj h).symm
      exact List.forall_mem_cons.mpr ⟨rfl, ih (Bool.and_eq_true_iff.mp looks).2 rest⟩
    | method => cases looks

/-- A chain starts from the value of its variable. -/
theorem sees_chainRoot (I : Interpreter) (name : String) (pos : Position) : ∃ found : Sight Standing,
    Sees m (I.chainRoot (.var name pos)) found ∧ found.map Standing.value = Sight.variable m.value? name pos := by
  obtain ⟨found, sees, value⟩ := sees_sighting (m := m) name pos
  let standing (s : Machine.Sighting) : Standing := ⟨s.value, some s.place, s.constant⟩
  refine ⟨found.map standing, sees.map standing, ?_⟩
  rw [← value]
  cases found <;> rfl

/-- **A chain** from a variable looks at its indices, at the variable, and from there along the way. -/
theorem sees_chain {I : Interpreter} {name : String} {pos : Position} {ss : List Step} (looks : Step.allLook ss)
    (each : ∀ e, e.looks → e.height ≤ Step.heights ss → Sees m (I.expr e) (e.sight m.value?)) :
    Sees m (I.chain (.var name pos) ss) ((Expr.chain (.var name pos) ss).sight m.value?) := by
  have prepared := sees_prepare (Step.lookThenCall_of_allLook looks) each
  unfold chain Expr.sight
  cases found : Step.sights m.value? ss with
  | error f =>
    rw [found] at prepared
    exact prepared.fails _
  | ok ps =>
    rw [found] at prepared
    refine prepared.goesOn ?_
    obtain ⟨root, sees, value⟩ := sees_chainRoot (m := m) I name pos
    show Sees m _ (Sight.variable m.value? name pos >>= fun v => Sight.walk v ps)
    rw [← value]
    cases root with
    | error f => exact sees.fails _
    | ok s => exact sees.goesOn (sees_walk I s (looks_of_sights looks found))

end Interpreter

/-! ## §4 — the machine on an expression -/

namespace Interpreter

variable {m : Machine}

open Eval (Sees)

/-- **An expression that only looks** comes to what is seen, and leaves the machine as it was. -/
theorem sees_expr {n : Nat} {e : Expr} (looks : e.looks) (fits : e.height ≤ n) :
    Sees m ((interpreter n).expr e) (e.sight m.value?) := by
  induction n using Nat.strongRecOn generalizing e with | ind n deeper
  cases n with
  | zero => exact absurd e.height_pos (Nat.not_lt.mpr fits)
  | succ n =>
    have ih {e : Expr} (looks : e.looks) (fits : e.height ≤ n) : Sees m ((interpreter n).expr e) (e.sight m.value?) :=
      deeper n (Nat.lt_succ_self n) looks fits
    have items {es : List Expr} (looks : Expr.allLook es) (fits : Expr.heights es ≤ n) : ∀ e ∈ es,
        Sees m ((interpreter n).expr e) (e.sight m.value?) := fun e mem =>
      ih (Expr.each_looks looks e mem).1 (Nat.le_trans (Expr.each_looks looks e mem).2 fits)
    have shallower {a b : Expr} (fits : max a.height b.height + 1 ≤ n + 1) : a.height ≤ n ∧ b.height ≤ n :=
      Nat.max_le.mp (Nat.le_of_succ_le_succ fits)
    show Sees m ((interpreter n).evaluate e) _
    cases e with
    | constant v pos => exact .pure _
    | var name pos => exact sees_variable name pos
    | template es pos => exact (sees_items (items looks (Nat.le_of_succ_le_succ fits))).map _
    | array es pos => exact (sees_items (items looks (Nat.le_of_succ_le_succ fits))).map _
    | object fs pos =>
      refine (sees_fields fun f mem => ?_).map _
      have here := Expr.each_field_looks looks f mem
      exact ih here.1 (Nat.le_trans here.2 (Nat.le_of_succ_le_succ fits))
    | operation op es pos =>
      obtain ⟨noCall, looks⟩ := Bool.and_eq_true_iff.mp looks
      exact sees_operation (bne_iff_ne.mp noCall) pos (items looks (Nat.le_of_succ_le_succ fits))
    | both a b pos =>
      obtain ⟨tells, looks⟩ := Bool.and_eq_true_iff.mp looks
      obtain ⟨tellsLeft, tellsRight⟩ := Bool.and_eq_true_iff.mp tells
      obtain ⟨left, right⟩ := Bool.and_eq_true_iff.mp looks
      obtain ⟨first, sees, value⟩ := sees_condition tellsLeft (ih left (shallower fits).1)
      obtain ⟨second, sees', value'⟩ := sees_condition tellsRight (ih right (shallower fits).2)
      show Sees m _ (a.sight m.value? >>= _)
      rw [value, value']
      rcases first with f | _ | _
      · exact sees.fails _
      · exact sees.goesOn (.pure (Datum.bool false))
      · exact sees.goesOn (sees'.map Datum.bool)
    | either a b pos =>
      obtain ⟨tells, looks⟩ := Bool.and_eq_true_iff.mp looks
      obtain ⟨tellsLeft, tellsRight⟩ := Bool.and_eq_true_iff.mp tells
      obtain ⟨left, right⟩ := Bool.and_eq_true_iff.mp looks
      obtain ⟨first, sees, value⟩ := sees_condition tellsLeft (ih left (shallower fits).1)
      obtain ⟨second, sees', value'⟩ := sees_condition tellsRight (ih right (shallower fits).2)
      show Sees m _ (a.sight m.value? >>= _)
      rw [value, value']
      rcases first with f | _ | _
      · exact sees.fails _
      · exact sees.goesOn (sees'.map Datum.bool)
      · exact sees.goesOn (.pure (Datum.bool true))
    | orElse a b pos =>
      obtain ⟨left, right⟩ := Bool.and_eq_true_iff.mp (Bool.and_eq_true_iff.mp looks).2
      refine (ih left (shallower fits).1).bind fun v => ?_
      cases v with
      | unit => exact ih right (shallower fits).2
      | _ => exact .pure _
    | chain root ss =>
      cases root with
      | var name pos =>
        refine sees_chain looks fun e looks fits' => ?_
        exact ih looks (Nat.le_trans fits' (Nat.le_of_succ_le_succ fits))
      | _ => cases looks
    | statements body pos =>
      obtain ⟨e, p, rfl, -, looks⟩ := Expr.looks_statements looks
      -- the block, the statement in it and the expression take a level of nesting each
      obtain ⟨n, rfl⟩ : ∃ k, n = k + 2 := ⟨n - 2, by
        have fits : e.height + 3 ≤ n + 1 := fits
        have := e.height_pos
        omega⟩
      have inner := deeper n (by omega) looks (by
        have fits : e.height + 3 ≤ n + 2 + 1 := fits
        omega)
      exact sees_alone (sees_alone inner)
    | this | call | closure => cases looks

end Interpreter

end Dialogue.Script
