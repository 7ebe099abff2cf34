import Dialogue.Proofs.Script.Layout.Call
import Dialogue.Proofs.Script.Library
import Dialogue.Proofs.Script.Looking
/-!
# `Dialogue.Proofs.Script.Looking.Call` — expressions that look, and then call.

A function is called with values, and runs in a scope of its own. How the variables stand that the values come from does
not show in what the call comes to, unless the function changes what it is called on, or asks how that stands. So it is
enough to know what was seen before the call, and what is in the cells. Main statement: expressions that look at
variables, and then call at most one function, end alike on machines with the same cells where they have the same in
mind.
-/

namespace Dialogue.Script

open Interpreter (Prepared Standing)

/-! ## §1 — what an expression has in mind -/

/-- The names that functions are not called by: a function value is called or made, or a variable is asked about. -/
def Expr.special : List String := ["call", "Fn", "curry", "is_shared"]

/-- **Does an expression look at variables, and then call at most one function?** A variable as the first argument is
looked at last, so the first argument must not come to be one. -/
def Expr.looksThenCalls (e : Expr) : Bool :=
  e.looks || match e with
    | .call name arguments _ here =>
      !here && !Expr.special.contains name && (arguments.head?.all Expr.settles && Expr.allLook arguments)
    | .chain (.var ..) steps => Step.lookThenCall steps
    | _ => false

/-- **What an expression has in mind** once it has looked at variables: a value, a call, or a way from a value. -/
inductive Intent
  | value (v : Value)
  | call (name : String) (arguments : List Value) (pos : Position)
  | way (start : Value) (steps : List Prepared)

section

variable (seen : String → Option Value)

/-- What the arguments of a call come to. A variable as the first argument is looked at last. -/
def Expr.argumentSights : List Expr → Sight (List Value)
  | .var name pos :: rest => do
    let vs ← Expr.sights seen rest
    return (← Sight.variable seen name pos) :: vs
  | arguments => Expr.sights seen arguments

/-- **What an expression has in mind** once it has looked, the values of variables being what is `seen` of them. -/
def Expr.intent (e : Expr) : Sight Intent :=
  if e.looks then (e.sight seen).map .value
  else
    match e with
    | .call name arguments pos _ => (Expr.argumentSights seen arguments).map fun vs => .call name vs pos
    | .chain (.var name pos) steps => do
      let ps ← Step.sights seen steps
      return .way (← Sight.variable seen name pos) ps
    | _ => .error (.raised .tooComplex none)

end

section

variable {seen seen' : String → Option Value}

theorem Expr.allSights_congr {es : List Expr} (looks : Expr.allLook es)
    (same : ∀ x ∈ Expr.mentionsOfItems es, x.Among fun name => seen' name = seen name) :
    Expr.sights seen' es = Expr.sights seen es :=
  Expr.sights_congr (fun e mem named => Expr.sight_congr (Expr.each_looks looks e mem).1 (Nat.le_refl _) named) same

theorem Expr.argumentSights_congr {es : List Expr} (looks : Expr.allLook es)
    (same : ∀ x ∈ Expr.mentionsOfItems es, x.Among fun name => seen' name = seen name) :
    Expr.argumentSights seen' es = Expr.argumentSights seen es := by
  have all := Expr.allSights_congr looks same
  cases es with
  | nil => exact all
  | cons e rest =>
    cases e with
    | var name pos =>
      obtain ⟨named, others⟩ := List.forall_mem_append.mp same
      have value := Sight.variable_congr (named _ (List.mem_singleton_self _)) pos
      simp only [Expr.argumentSights, Expr.allSights_congr (Bool.and_eq_true_iff.mp looks).2 others, value]
    | _ => exact all

/-- **What an expression has in mind** depends on the variables that it mentions, and on no others. -/
theorem Expr.intent_congr {e : Expr} (h : e.looksThenCalls)
    (same : ∀ x ∈ e.mentions, x.Among fun name => seen' name = seen name) : e.intent seen' = e.intent seen := by
  unfold Expr.intent
  by_cases looks : e.looks
  · rw [if_pos looks, if_pos looks, Expr.sight_congr looks (Nat.le_refl _) same]
  · rw [if_neg looks, if_neg looks]
    obtain ⟨⟩ | calls := Bool.or_eq_true_iff.mp h
    · contradiction
    · cases e with
      | call name es pos here =>
        have looks := (Bool.and_eq_true_iff.mp (Bool.and_eq_true_iff.mp calls).2).2
        exact congrArg (Except.map _) (Expr.argumentSights_congr looks (List.forall_mem_append.mp same).2)
      | chain root ss =>
        cases root with
        | var name pos =>
          obtain ⟨root, steps⟩ := List.forall_mem_append.mp same
          have value := Sight.variable_congr (root _ (List.mem_singleton_self _)) pos
          have prepared := Step.sights_congr calls (fun e looks _ named => Expr.sight_congr looks (Nat.le_refl _) named)
            steps
          simp only [prepared, value]
        | _ => cases calls
      | _ => cases calls

end

/-! ## §2 — steps that end alike -/

namespace Run

variable {α β γ : Type} {P : α → β → Prop} {Q : β → γ → Prop}

theorem Linked.symm {x : Run α} {y : Run β} (h : Run.Linked P x y) : Run.Linked (fun b a => P a b) y x := by
  induction h with
  | done h => exact .done h
  | ask q _ ih => exact .ask q ih
  | now _ ih => exact .now ih
  | caught e _ ih => exact .caught e ih

theorem Linked.trans {x : Run α} {y : Run β} {z : Run γ} (h : Run.Linked P x y) (h' : Run.Linked Q y z) :
    Run.Linked (fun a c => ∃ b, P a b ∧ Q b c) x z := by
  induction h generalizing z with
  | done h =>
    cases h' with
    | done h' => exact .done ⟨_, h, h'⟩
  | ask q _ ih =>
    cases h' with
    | ask _ h' => exact .ask q fun r => ih r (h' r)
  | now _ ih =>
    cases h' with
    | now h' => exact .now fun t => ih t (h' t)
  | caught e _ ih =>
    cases h' with
    | caught _ h' => exact .caught e (ih h')

end Run

variable {α β : Type} {L : Layout} {m m' : Machine}

/-- **Steps that end alike** on two machines: they ask the same questions, and come to the same, whatever they leave. -/
def Eval.EndAlike (m m' : Machine) (x y : Eval α) : Prop :=
  ∀ c, Run.Linked (fun r r' => r'.1 = r.1) (x.runOn c m) (y.runOn c m')

/-- A step that does no more than leave another machine. -/
def Eval.Silent (x : Eval Unit) : Prop := ∀ c m, ∃ n, x.runOn c m = .done (.ok (), n)

namespace Eval

theorem silent_pure : Silent (Pure.pure ()) := fun _ m => ⟨m, rfl⟩

theorem silent_modify (f : Machine → Machine) : Silent (modify f) := fun _ m => ⟨f m, rfl⟩

namespace EndAlike

variable {x y : Eval α}

theorem symm (h : EndAlike m m' x y) : EndAlike m' m y x := fun c => (h c).symm.mono fun _ _ => Eq.symm

theorem trans {n : Machine} {z : Eval α} (h : EndAlike m m' x y) (h' : EndAlike m' n y z) : EndAlike m n x z :=
  fun c => ((h c).trans (h' c)).mono fun _ _ ⟨_, first, second⟩ => second.trans first

/-- Steps that agree end alike on machines that agree. -/
theorem of_agree (h : Eval.Agree L Eq x y) (hm : Machine.Agree L m m') : EndAlike m m' x y := by
  refine fun c => (h.run c m m' hm).mono fun r r' left => ?_
  have outcome := left.outcome
  generalize r.1 = s, r'.1 = s' at outcome
  cases outcome with
  | ok same => exact congrArg Except.ok same.symm
  | error same => exact congrArg Except.error same.symm

/-- **Steps that agree, and then steps that end alike.** -/
theorem bind {A : α → α → Prop} (h : Eval.Agree L A x y) (hm : Machine.Agree L m m') {f g : α → Eval β}
    (hf : ∀ a b n n', A a b → Machine.Agree L n n' → EndAlike n n' (f a) (g b)) :
    EndAlike m m' (x >>= f) (y >>= g) := by
  intro c
  rw [runOn_bind, runOn_bind]
  refine (h.run c m m' hm).bind ?_
  rintro ⟨r, n⟩ ⟨r', n'⟩ ⟨outcome, machine⟩
  cases outcome with
  | ok ha => exact hf _ _ n n' ha machine c
  | error same => exact .done (congrArg Except.error same.symm)

/-- What has been seen first does not matter any more. -/
theorem afterSight {z : Eval β} {a : α} (hx : Sees m x (.ok a)) {f : α → Eval β} (h : EndAlike m m' (f a) z) :
    EndAlike m m' (x >>= f) z := by
  intro c
  rw [runOn_bind, hx c]
  exact h c

/-- What a step leaves does not matter, if nothing comes after it but the end. -/
theorem afterSilence {x y : Eval Unit} (hx : Silent x) (hy : Silent y) (r : Except Signal α) :
    EndAlike m m' (x >>= fun _ => resume r) (y >>= fun _ => resume r) := by
  intro c
  obtain ⟨n, left⟩ := hx c m
  obtain ⟨n', left'⟩ := hy c m'
  rw [runOn_bind, runOn_bind, left, left']
  cases r <;> exact .done rfl

end EndAlike

end Eval

/-- The layout of two machines, with no name in use. -/
def Layout.unnamed (m m' : Machine) : Layout := ⟨m.scope.map Entry.name, m'.scope.map Entry.name, fun _ => False⟩

/-- **Machines with the same cells** agree as far as nothing is named. -/
theorem Machine.agree_unnamed (cells : m'.cells = m.cells) (this : m'.this = m.this) :
    Machine.Agree (Layout.unnamed m m') m m' :=
  ⟨rfl, rfl, fun _ used => used.elim, cells, this⟩

/-! ## §3 — calls that end alike -/

namespace Interpreter

open Eval (Sees EndAlike Silent)

variable (I : Interpreter) {name : String} {arguments : List Value} {pos : Position} {s t : Standing}

theorem silent_become (s : Standing) (v : Value) : Silent (s.become v) := by
  unfold Standing.become
  split
  · split
    · exact Eval.silent_pure
    · exact Eval.silent_modify _
  · exact Eval.silent_pure

/-- **A call of a function by name** ends alike, wherever its first argument stands. -/
theorem endAlike_callNamed (hm : Machine.Agree L m m') (p q : Option Place) :
    EndAlike m m' (I.callNamed name arguments p pos) (I.callNamed name arguments q pos) := by
  unfold callNamed
  refine .bind Eval.Agree.read hm ?_
  rintro c _ n n' rfl hn
  split
  · exact .of_agree ((I.steady_invoke ..).bind fun r => steady_value r) hn
  · split
    · exact .of_agree (.failAt pos _) hn
    · rename_i call found
      refine .bind (I.steady_native found) hn ?_
      rintro ⟨v, changed⟩ _ k k' rfl -
      -- whatever is written, the result is there
      intro c
      cases changed <;> cases p <;> cases q <;> exact .done rfl

theorem endAlike_settle (s t : Standing) (r : Returned) : EndAlike m m' (s.settle r) (t.settle r) := by
  unfold Standing.settle
  cases r.this with
  | none => exact .afterSilence Eval.silent_pure Eval.silent_pure r.outcome
  | some v => exact .afterSilence (silent_become s v) (silent_become t v) r.outcome

theorem endAlike_methodNamed (keeps : name ∉ Library.changers) (same : t.value = s.value)
    (hm : Machine.Agree L m m') :
    EndAlike m m' (I.methodNamed s name arguments pos) (I.methodNamed t name arguments pos) := by
  unfold methodNamed
  rw [same]
  refine .bind Eval.Agree.read hm ?_
  rintro c _ n n' rfl hn
  split
  · refine .bind (I.steady_invoke ..) hn ?_
    rintro r _ k k' rfl -
    exact endAlike_settle s t r
  · split
    · exact .of_agree (.failAt pos _) hn
    · rename_i call found
      have steady := (I.steady_native found (L := L)).bind fun out => Eval.Agree.same out.result
      obtain ⟨x, rfl⟩ := leaves_native keeps I found
      simp only [bind_assoc, pure_bind] at steady ⊢
      exact .of_agree steady hn

/-- **A call of a method** that is harmless ends alike, wherever the value stands that it is called on. -/
theorem endAlike_method (harmless : Step.harmless name) (same : t.value = s.value) (hm : Machine.Agree L m m') :
    EndAlike m m' (I.method s name arguments pos) (I.method t name arguments pos) := by
  obtain ⟨keeps, unasked⟩ := Bool.and_eq_true_iff.mp harmless
  have keeps : name ∉ Library.changers := by simpa using keeps
  unfold method
  rw [same]
  split
  · exact .of_agree (I.steady_callForValue ..) hm
  · refine .bind (I.steady_callValue ..) hm ?_
    rintro r _ n n' rfl -
    exact endAlike_settle s t r
  · exact .of_agree (.failAt pos _) hm
  · exact .of_agree (.same _) hm
  · cases unasked
  · unfold methodOf
    rw [same]
    split
    · refine .bind (I.steady_callValue ..) hm ?_
      rintro r _ n n' rfl -
      exact endAlike_settle s t r
    · exact I.endAlike_methodNamed keeps same hm

/-- Do steps only look, but for a harmless method as the last? -/
def Prepared.lookThenCall : List Prepared → Bool
  | [] => true
  | .method name _ _ _ :: ps => ps.isEmpty && Step.harmless name
  | p :: ps => p.looks && Prepared.lookThenCall ps

/-- **A way that ends with a call** ends alike, wherever it starts. -/
theorem endAlike_walk {ps : List Prepared} (looks : Prepared.lookThenCall ps) (same : t.value = s.value)
    (hm : Machine.Agree L m m') : EndAlike m m' (I.walk s ps >>= arrived) (I.walk t ps >>= arrived) := by
  induction ps generalizing s t with
  | nil =>
    show EndAlike m m' (pure s.value) (pure t.value)
    rw [same]
    exact .of_agree (.same _) hm
  | cons p ps ih =>
    unfold walk
    rw [same]
    split
    · exact .of_agree (.same Datum.unit) hm
    · by_cases call : p.looks
      · have later : Prepared.lookThenCall ps := by
          cases p with
          | method => cases call
          | property => exact (Bool.and_eq_true_iff.mp looks).2
          | index => exact (Bool.and_eq_true_iff.mp looks).2
        obtain ⟨found, sees, value⟩ := sees_advance (m := m) I s call
        obtain ⟨found', sees', value'⟩ := sees_advance (m := m') I t call
        rw [same, ← value] at value'
        rw [bind_assoc, bind_assoc]
        cases found with
        | error f =>
          cases found' with
          | error f' =>
            obtain rfl : f' = f := Except.error.inj value'
            intro c
            rw [sees.fails _ c, sees'.fails _ c]
            exact .done rfl
          | ok t' => cases value'
        | ok s' =>
          cases found' with
          | error f' => cases value'
          | ok t' =>
            have next := ih later (s := s') (t := t') (Except.ok.inj value')
            exact .afterSight sees (.symm (.afterSight sees' next.symm))
      · cases p with
        | method name arguments pos optional =>
          obtain ⟨last, harmless⟩ := Bool.and_eq_true_iff.mp looks
          obtain rfl : ps = [] := List.isEmpty_iff.mp last
          have called (s : Standing) :
              ((I.advance s (.method name arguments pos optional) >>= fun s => I.walk s []) >>= arrived) =
                I.method s name arguments pos := by
            simp [advance, walk, arrived]
          rw [called, called]
          exact I.endAlike_method harmless same hm
        | property => exact absurd (Bool.and_eq_true_iff.mp looks).1 call
        | index => exact absurd rfl call

/-! ## §4 — the machine on an expression -/

/-- **Carry out what an expression has in mind.** -/
def pursue : Intent → Eval Value
  | .value v => return v
  | .call name arguments pos => I.callNamed name arguments none pos
  | .way start steps => I.walk { value := start } steps >>= arrived

/-- **A call of a function after its arguments were looked at**; what was seen of a variable as the first of them has a
place. -/
def CallsOn (m : Machine) (name : String) (pos : Position) (x : Eval Value) (values : Sight (List Value)) : Prop :=
  ∃ (look : Eval (List Value × Option Place)) (found : Sight (List Value × Option Place)),
    x = (look >>= fun r => I.callNamed name r.1 r.2 pos) ∧ Sees m look found ∧ found.map Prod.fst = values

/-- Arguments are looked at before a function is called. -/
theorem callsOn_callApart {es : List Expr} (looks : Expr.allLook es)
    (each : ∀ e ∈ es, Sees m (I.expr e) (e.sight m.value?)) :
    I.CallsOn m name pos (I.callApart name es pos) (Expr.argumentSights m.value? es) := by
  have all (many : I.callApart name es pos = es.mapM I.expr >>= fun vs => I.callNamed name vs none pos)
      (sights : Expr.argumentSights m.value? es = Expr.sights m.value? es) :
      I.CallsOn m name pos (I.callApart name es pos) (Expr.argumentSights m.value? es) := by
    refine ⟨_, _, ?_, (sees_items each).map fun vs => (vs, none), ?_⟩
    · rw [many, bind_assoc]
      rfl
    · rw [sights]
      cases Expr.sights m.value? es <;> rfl
  cases es with
  | nil => exact all rfl rfl
  | cons e rest =>
    cases e with
    | var v at_ =>
      obtain ⟨found, sees, value⟩ := sees_sighting (m := m) v at_
      have rest := sees_items fun e mem => each e (List.mem_cons_of_mem _ mem)
      refine ⟨_, _, ?_, rest.bind fun vs => sees.map fun s => (s.value :: vs, openPlace? s), ?_⟩
      · unfold callApart
        simp only [bind_assoc, pure_bind]
      · unfold Expr.argumentSights
        dsimp only
        rw [← value]
        cases Expr.sights m.value? _ <;> cases found <;> rfl
    | this => cases looks
    | _ => exact all rfl rfl

/-- A name that is not special is that of a function. -/
theorem call_of_not_special (other : name ∉ Expr.special) (es : List Expr) :
    I.call name es pos false = I.callApart name es pos := by
  unfold call
  split
  all_goals first
    | exact absurd (by decide) other
    | rfl

/-- Steps that look, and then call, are still such steps once their indices and arguments are evaluated. -/
theorem lookThenCall_of_sights {seen : String → Option Value} {ss : List Step} (looks : Step.lookThenCall ss)
    {ps : List Prepared} (h : Step.sights seen ss = .ok ps) : Prepared.lookThenCall ps := by
  induction ss generalizing ps with
  | nil =>
    cases h
    rfl
  | cons s ss ih =>
    cases s with
    | property name pos dot optional =>
      obtain ⟨here, later⟩ := Bool.and_eq_true_iff.mp looks
      obtain ⟨qs, rest, h⟩ := Sight.bind_ok h
      obtain rfl := (Except.ok.inj h).symm
      exact Bool.and_eq_true_iff.mpr ⟨here, ih later rest⟩
    | index key bracket optional =>
      obtain ⟨k, -, h⟩ := Sight.bind_ok h
      obtain ⟨qs, rest, h⟩ := Sight.bind_ok h
      obtain rfl := (Except.ok.inj h).symm
      exact Bool.and_eq_true_iff.mpr ⟨rfl, ih (Bool.and_eq_true_iff.mp looks).2 rest⟩
    | method name arguments pos dot optional =>
      obtain ⟨last, here⟩ := Bool.and_eq_true_iff.mp looks
      obtain rfl : ss = [] := List.isEmpty_iff.mp last
      obtain ⟨vs, -, h⟩ := Sight.bind_ok h
      obtain ⟨qs, rest, h⟩ := Sight.bind_ok h
      cases rest
      obtain rfl := (Except.ok.inj h).symm
      exact Bool.and_eq_true_iff.mpr ⟨rfl, (Bool.and_eq_true_iff.mp here).1⟩

/-- Can what an expression has in mind be carried out alike on any machines with the same cells? -/
def Intent.fair : Intent → Bool
  | .value _ | .call .. => true
  | .way _ steps => Prepared.lookThenCall steps

/-- **What an expression has in mind** is carried out alike on machines with the same cells. -/
theorem endAlike_pursue {i : Intent} (fair : Intent.fair i) (hm : Machine.Agree L m m') :
    EndAlike m m' (I.pursue i) (I.pursue i) := by
  cases i with
  | value v => exact .of_agree (.same v) hm
  | call name arguments pos => exact I.endAlike_callNamed hm none none
  | way start steps => exact I.endAlike_walk fair rfl hm

/-- **A step of evaluation that pursues what was seen:** it fails with what is not seen, or carries out what the
expression has in mind. -/
def Pursues (m : Machine) (x : Eval Value) : Sight Intent → Prop
  | .error f => Sees m x (.error f)
  | .ok i => Intent.fair i ∧ EndAlike m m x (I.pursue i)

/-- What is seen is had in mind. -/
theorem pursues_of_sees {x : Eval Value} {found : Sight Value} (sees : Sees m x found) :
    I.Pursues m x (found.map .value) := by
  cases found with
  | error f => exact sees
  | ok v =>
    refine ⟨rfl, fun c => ?_⟩
    rw [sees c]
    exact .done rfl

/-- A call has itself in mind, with what its arguments came to. -/
theorem pursues_of_callsOn {x : Eval Value} {values : Sight (List Value)} (h : I.CallsOn m name pos x values) :
    I.Pursues m x (values.map fun vs => .call name vs pos) := by
  obtain ⟨look, found, rfl, sees, rfl⟩ := h
  cases found with
  | error f => exact sees.fails _
  | ok r => exact ⟨rfl, .afterSight sees (I.endAlike_callNamed (Machine.agree_unnamed rfl rfl) r.2 none)⟩

/-- **A chain** from a variable has in mind the way from what the variable is. -/
theorem pursues_chain {root : String} {ss : List Step} (looks : Step.lookThenCall ss)
    (each : ∀ e, e.looks → e.height ≤ Step.heights ss → Sees m (I.expr e) (e.sight m.value?)) :
    I.Pursues m (I.chain (.var root pos) ss) (do
      let ps ← Step.sights m.value? ss
      return .way (← Sight.variable m.value? root pos) ps) := by
  have prepared := sees_prepare looks each
  unfold chain
  cases found : Step.sights m.value? ss with
  | error f =>
    rw [found] at prepared
    exact prepared.fails _
  | ok ps =>
    rw [found] at prepared
    obtain ⟨start, sees, value⟩ := sees_chainRoot (m := m) I root pos
    rw [← value]
    cases start with
    | error f => exact prepared.goesOn (sees.fails _)
    | ok s =>
      have calls := lookThenCall_of_sights looks found
      refine ⟨calls, .afterSight prepared (.afterSight sees ?_)⟩
      exact I.endAlike_walk calls rfl (Machine.agree_unnamed rfl rfl)

/-- **An expression that looks, and then calls**, pursues what it has in mind. -/
theorem pursues_expr {n : Nat} {e : Expr} (h : e.looksThenCalls) (fits : e.height ≤ n + 1) :
    (interpreter n).Pursues m ((interpreter (n + 1)).expr e) (e.intent m.value?) := by
  unfold Expr.intent
  by_cases looks : e.looks
  · rw [if_pos looks]
    exact (interpreter n).pursues_of_sees (sees_expr looks fits)
  · rw [if_neg looks]
    obtain ⟨⟩ | calls := Bool.or_eq_true_iff.mp h
    · contradiction
    · cases e with
      | call name es pos here =>
        obtain ⟨apart, arguments⟩ := Bool.and_eq_true_iff.mp calls
        obtain ⟨rfl, other⟩ : here = false ∧ name ∉ Expr.special := by simpa using apart
        obtain ⟨-, looks⟩ := Bool.and_eq_true_iff.mp arguments
        show (interpreter n).Pursues m ((interpreter n).call name es pos false) _
        rw [(interpreter n).call_of_not_special other]
        refine (interpreter n).pursues_of_callsOn ((interpreter n).callsOn_callApart looks fun e mem => ?_)
        have here := Expr.each_looks looks e mem
        exact sees_expr here.1 (Nat.le_trans here.2 (Nat.le_of_succ_le_succ fits))
      | chain root ss =>
        cases root with
        | var name pos =>
          refine (interpreter n).pursues_chain calls fun e looks fits' => ?_
          exact sees_expr looks (Nat.le_trans fits' (Nat.le_of_succ_le_succ fits))
        | _ => cases calls
      | _ => cases calls

/-- **Expressions that have the same in mind** end alike on machines with the same cells. -/
theorem endAlike_expr {n : Nat} {e e' : Expr} (h : e.looksThenCalls) (h' : e'.looksThenCalls)
    (fits : e.height ≤ n + 1) (fits' : e'.height ≤ n + 1) (same : e'.intent m'.value? = e.intent m.value?)
    (cells : m'.cells = m.cells) (this : m'.this = m.this) :
    EndAlike m m' ((interpreter (n + 1)).expr e) ((interpreter (n + 1)).expr e') := by
  have here := pursues_expr (m := m) h fits
  have there := pursues_expr (m := m') h' fits'
  rw [same] at there
  cases intent : e.intent m.value? with
  | error f =>
    rw [intent] at here there
    intro c
    rw [here c, there c]
    exact .done rfl
  | ok i =>
    rw [intent] at here there
    obtain ⟨fair, pursued⟩ := here
    exact (pursued.trans ((interpreter n).endAlike_pursue fair (Machine.agree_unnamed cells this))).trans there.2.symm

end Interpreter

/-- **Scripts that are such expressions** ask the same, and come to the same. -/
theorem Program.endAlike_run {e e' : Expr} (h : e.looksThenCalls) (h' : e'.looksThenCalls)
    (fits : e.height < maxNesting) (fits' : e'.height < maxNesting)
    (same : e'.intent m'.value? = e.intent m.value?) (cells : m'.cells = m.cells) (this : m'.this = m.this)
    (c : Context) :
    Run.Linked (fun r r' => r'.1 = r.1) ((⟨[.expr e], []⟩ : Program).run c m)
      ((⟨[.expr e'], []⟩ : Program).run c m') := by
  -- the statement takes a level of nesting
  obtain ⟨n, deep⟩ : ∃ n, maxNesting = n + 2 := ⟨Nat.pow 2 40 - 2, rfl⟩
  rw [deep] at fits fits'
  have body := Interpreter.endAlike_expr h h' (Nat.le_of_lt_succ fits) (Nat.le_of_lt_succ fits') same cells this c
  have alone (e : Expr) (m : Machine) : (⟨[.expr e], []⟩ : Program).run c m =
      (((interpreter (n + 1)).expr e).runOn c m >>= fun r => pure (Signal.settled r.1, r.2)) := by
    unfold Program.run Interpreter.sequence
    rw [deep, Eval.runOn_bind, bind_assoc]
    refine bind_congr fun r => ?_
    obtain ⟨r | r, m⟩ := r <;> rfl
  rw [alone, alone]
  exact body.bind fun r r' same => .done (congrArg Signal.settled same)

end Dialogue.Script
