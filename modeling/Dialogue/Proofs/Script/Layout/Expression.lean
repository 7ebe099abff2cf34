import Dialogue.Proofs.Script.Layout.Call
import Dialogue.Proofs.Script.Undeclaring
import Dialogue.Script.Evaluator
/-!
# `Dialogue.Proofs.Script.Layout.Expression` — expressions on machines that agree.

An expression that declares nothing leaves the layouts of the variables as they are, so the machines that it runs on
agree all along: each variable is read, written and shared by its name. Main statement: a script of such expressions,
which name variables in use only, ends alike on machines that agree, and leaves the same cells.
-/

namespace Dialogue.Script

variable {L : Layout}

/-- What is in use: variables of names in use, and so not all variables there are. -/
abbrev Layout.Mentioned (L : Layout) : Mention → Prop := Mention.Among L.used

/-- **An interpreter that does not tell machines that agree apart**, in code that declares nothing and
names variables in use only. -/
structure Interpreter.Steady (L : Layout) (I : Interpreter) : Prop where
  expr : ∀ e, e.Within L.Mentioned → Eval.Steady L (I.expr e)
  stmt : ∀ s, s.Within L.Mentioned → Eval.Steady L (I.stmt s)

namespace Interpreter

variable {I : Interpreter}

/-! ## §1 — expressions -/

theorem Steady.exprs (hI : I.Steady L) {es : List Expr} (h : ∀ e ∈ es, e.Within L.Mentioned) :
    ∀ e ∈ es, Eval.Steady L (I.expr e) := fun e mem => hI.expr e (h e mem)

theorem used_of_mem {es : List Expr} (h : ∀ e ∈ es, e.Within L.Mentioned) (name : String) (pos : Position)
    (mem : .var name pos ∈ es) : L.used name := by
  cases h _ mem with
  | var used => exact used

theorem Steady.sequence (hI : I.Steady L) {body : List Stmt} (h : ∀ s ∈ body, s.Within L.Mentioned) (v : Value) :
    Eval.Steady L (I.sequence body v) := by
  induction body generalizing v with
  | nil => exact .same v
  | cons s ss ih =>
    obtain ⟨hs, hss⟩ := List.forall_mem_cons.mp h
    exact (hI.stmt s hs).bind fun u => ih hss u

theorem Steady.block (hI : I.Steady L) {body : List Stmt} (h : ∀ s ∈ body, s.Within L.Mentioned) :
    Eval.Steady L (I.block body) :=
  (hI.sequence h .unit).inBlock

theorem Steady.condition (hI : I.Steady L) {e : Expr} (h : e.Within L.Mentioned) : Eval.Steady L (I.condition e) := by
  refine (hI.expr e h).bind fun v => ?_
  split
  · exact .same _
  · exact .failAt _ _

theorem Steady.fields (hI : I.Steady L) {fs : List (String × Expr)} (h : ∀ f ∈ fs, f.2.Within L.Mentioned) :
    Eval.Steady L (I.fields fs) := by
  induction fs with
  | nil => exact .same []
  | cons f fs ih =>
    obtain ⟨hf, hfs⟩ := List.forall_mem_cons.mp h
    exact (hI.expr f.2 hf).bind fun _ => (ih hfs).bind fun _ => .same _

theorem Steady.operation (hI : I.Steady L) (op : String) {operands : List Expr}
    (h : ∀ e ∈ operands, e.Within L.Mentioned) (pos : Position) : Eval.Steady L (I.operation op operands pos) := by
  unfold Interpreter.operation
  split
  · exact I.steady_call _ (hI.exprs h) (used_of_mem h) pos
  · exact (hI.expr _ (h _ List.mem_cons_self)).bind fun _ => steady_orFail ..
  · obtain ⟨ha, hb⟩ := List.forall_mem_cons.mp h
    exact (hI.expr _ ha).bind fun _ => (hI.expr _ (hb _ List.mem_cons_self)).bind fun _ => steady_orFail ..
  · exact (Eval.Agree.mapM (hI.exprs h)).bind fun _ => steady_orFail ..

/-- **What a closure captures** is the same cell in both machines. -/
theorem steady_share {captured : List (String × Position)} (h : ∀ c ∈ captured, L.used c.1) :
    Eval.Steady L (share captured) := by
  induction captured with
  | nil => exact .same []
  | cons entry rest ih =>
    obtain ⟨name, pos⟩ := entry
    obtain ⟨used, hr⟩ := List.forall_mem_cons.mp h
    refine Eval.Agree.get.bindRel fun m m' hm => ?_
    obtain ⟨hx, hy⟩ | ⟨⟨i, n⟩, ⟨j, n'⟩, hx, hy, same, hn⟩ := rel_cases (hm.share? used)
    · simp only [hx, hy]
      exact .failAt _ _
    · simp only [hx, hy]
      obtain rfl : j = i := same
      exact (Eval.Agree.set hn).bind fun _ => (ih hr).bind fun _ => .same _

theorem Steady.prepare (hI : I.Steady L) {steps : List Step} (h : ∀ s ∈ steps, s.Within L.Mentioned) :
    Eval.Steady L (I.prepare steps) := by
  induction steps with
  | nil => exact .same []
  | cons step rest ih =>
    obtain ⟨hs, hr⟩ := List.forall_mem_cons.mp h
    cases hs with
    | property => exact (ih hr).bind fun _ => .same _
    | index hk => exact (hI.expr _ hk).bind fun _ => (ih hr).bind fun _ => .same _
    | method name ha => exact (Eval.Agree.mapM (hI.exprs ha)).bind fun _ => (ih hr).bind fun _ => .same _

theorem Steady.chainRoot (hI : I.Steady L) {root : Expr} (h : root.Within L.Mentioned) :
    Eval.Agree L (Standing.Agree L) (I.chainRoot root) (I.chainRoot root) := by
  unfold Interpreter.chainRoot
  split
  · cases h with
    | var used =>
      exact (agree_sighting used _).bindRel fun s t hs => .pure ⟨hs.value, .some hs.place, hs.constant⟩
  · exact (steady_thisValue _).bind fun v => .pure ⟨rfl, .some ⟨.this, rfl⟩, rfl⟩
  · exact (hI.expr _ h).bind fun v => .pure ⟨rfl, .none, rfl⟩

theorem agree_placeInto {p q : Option Place} (h : Option.Rel (Place.Agree L) p q) (step : Inward) :
    Option.Rel (Place.Agree L) (p.map (·.into step)) (q.map (·.into step)) := by
  cases h with
  | none => exact .none
  | some h => exact .some (h.into step)

variable {s t : Standing}

theorem Standing.Agree.into (h : s.Agree L t) (found : Access.Found) : (s.into found).Agree L (t.into found) := by
  unfold Standing.into
  cases found.inward with
  | none => exact ⟨rfl, .none, rfl⟩
  | some step => exact ⟨rfl, agree_placeInto h.place step, h.constant⟩

theorem steady_orFailIndex {α : Type} (start bracket : Position) (r : Except Cause α) :
    Eval.Steady L (orFailIndex start bracket r) := by
  unfold orFailIndex
  split
  · exact .same _
  · exact .failAt _ _
  · exact .failAt _ _

theorem steady_propertyOf (v : Value) (name : String) (pos : Position) : Eval.Steady L (propertyOf v name pos) := by
  unfold propertyOf
  split
  · exact (steady_elapsed _ pos).bind fun _ => .same _
  · exact steady_orFail pos _

/-- **One step of a chain.** -/
theorem agree_advance (I : Interpreter) (h : s.Agree L t) (step : Prepared) :
    Eval.Agree L (Standing.Agree L) (I.advance s step) (I.advance t step) := by
  cases step with
  | property name pos optional =>
    unfold Interpreter.advance
    rw [h.value]
    exact (steady_propertyOf _ name pos).bind fun found => .pure (h.into found)
  | index key start bracket optional =>
    unfold Interpreter.advance
    rw [h.value]
    exact (steady_orFailIndex start bracket _).bind fun found => .pure (h.into found)
  | method name arguments pos optional =>
    exact (I.agree_method h name arguments pos).bind fun v => .pure ⟨rfl, .none, rfl⟩

theorem agree_walk (I : Interpreter) (h : s.Agree L t) (steps : List Prepared) :
    Eval.Agree L (Option.Rel (Standing.Agree L)) (I.walk s steps) (I.walk t steps) := by
  induction steps generalizing s t with
  | nil => exact .pure (.some h)
  | cons step rest ih =>
    unfold Interpreter.walk
    rw [h.value]
    split
    · exact .pure .none
    · exact (agree_advance I h step).bindRel fun s' t' h' => ih h'

theorem Steady.chain (hI : I.Steady L) {root : Expr} (hr : root.Within L.Mentioned) {steps : List Step}
    (hs : ∀ s ∈ steps, s.Within L.Mentioned) : Eval.Steady L (I.chain root steps) := by
  refine (hI.prepare hs).bind fun prepared => (hI.chainRoot hr).bindRel fun s t h => ?_
  refine (agree_walk I h prepared).bindRel fun r r' h' => ?_
  cases h' with
  | none => exact .same _
  | some h' => exact .pure h'.value.symm

/-- **An expression that declares nothing** does not tell machines that agree apart. -/
theorem Steady.evaluate (hI : I.Steady L) {e : Expr} (h : e.Within L.Mentioned) : Eval.Steady L (I.evaluate e) := by
  cases h with
  | constant v pos => exact .same _
  | var used pos => exact (agree_sighting used pos).bindRel fun s t hs => .pure hs.value.symm
  | this pos => exact steady_thisValue pos
  | template h pos => exact (Eval.Agree.mapM (hI.exprs h)).bind fun _ => .same _
  | array h pos => exact (Eval.Agree.mapM (hI.exprs h)).bind fun _ => .same _
  | object h pos => exact (hI.fields h).bind fun _ => .same _
  | operation op h pos => exact hI.operation op h pos
  | @call name _ h pos here apart =>
    cases here with
    | true => exact (apart rfl).elim
    | false => exact I.steady_call name (hI.exprs h) (used_of_mem h) pos
  | both ha hb pos =>
    refine (hI.condition ha).bind fun x => ?_
    split
    · exact (hI.condition hb).bind fun y => .same _
    · exact .same _
  | either ha hb pos =>
    refine (hI.condition ha).bind fun x => ?_
    split
    · exact .same _
    · exact (hI.condition hb).bind fun y => .same _
  | orElse ha hb pos =>
    refine (hI.expr _ ha).bind fun v => ?_
    split
    · exact hI.expr _ hb
    · exact .same _
  | chain hr hs => exact hI.chain hr hs
  | closure h code pos => exact (steady_share h).bind fun slots => .same _
  | statements h pos => exact hI.block h

/-! ## §2 — assignments -/

theorem steady_assignedValue (op : Option String) (old new : Value) (pos : Position) :
    Eval.Steady L (assignedValue op old new pos) := by
  cases op with
  | none => exact .same new
  | some op => exact steady_orFail pos _

theorem agree_assignable (h : s.Agree L t) (op : Option String) (new : Value) (step : Prepared) :
    Eval.Agree L Eq (assignable s op new step) (assignable t op new step) := by
  unfold assignable
  rw [h.value]
  cases step with
  | property name pos optional =>
    cases op with
    | none => exact steady_orFail pos _
    | some op => exact (steady_propertyOf _ name pos).bind fun _ => steady_orFail pos _
  | index key start bracket optional => exact steady_orFailIndex start bracket _
  | method => exact .same _

theorem steady_constantFault (root : Expr) : Eval.Steady L (constantFault root) := by
  unfold constantFault
  split <;> exact .failAt _ _

/-- A value whose place may not be written is not written. -/
theorem agree_guard {b b' : Bool} (hb : b' = b) (root : Expr) {x y : Eval Unit} (h : Eval.Agree L Eq x y) :
    Eval.Agree L Eq (if b then constantFault root >>= fun _ => x else x)
      (if b' then constantFault root >>= fun _ => y else y) := by
  subst hb
  split
  · exact (steady_constantFault root).bind fun _ => h
  · exact h

theorem agree_assignStep (h : s.Agree L t) (step : Prepared) (root : Expr) (op : Option String) (new : Value)
    (pos : Position) :
    Eval.Agree L Eq (assignStep s step (constantFault root) op new pos)
      (assignStep t step (constantFault root) op new pos) := by
  refine (agree_assignable h op new step).bind fun found => agree_guard h.constant root ?_
  refine (steady_assignedValue ..).bind fun v => (steady_orFail pos _).bind fun _ => ?_
  cases found.inward with
  | none => exact .same _
  | some inward =>
    have inside : Standing.Agree L { s with place := s.place.map (·.into inward) }
        { t with place := t.place.map (·.into inward) } := ⟨h.value, agree_placeInto h.place inward, h.constant⟩
    exact inside.become v

/-- **An assignment** writes to places that agree. -/
theorem Steady.assign (hI : I.Steady L) {target : Expr} (ht : target.Within L.Mentioned) (op : Option String)
    {value : Expr} (hv : value.Within L.Mentioned) (pos : Position) : Eval.Steady L (I.assign target op value pos) := by
  refine (hI.expr value hv).bind fun new => ?_
  split
  · cases ht with
    | chain hr hs =>
    refine (hI.prepare hs).bind fun prepared => (hI.chainRoot hr).bindRel fun s t h => ?_
    split
    · exact .same _
    · refine (agree_walk I h _).bindRel fun r r' h' => ?_
      cases h' with
      | none => exact .same _
      | some h' =>
        dsimp only
        rw [h'.value]
        split
        · exact .same _
        · exact agree_assignStep h' _ _ op new pos
  · refine (hI.chainRoot ht).bindRel fun s t h => agree_guard h.constant _ ?_
    rw [h.value]
    exact (steady_assignedValue ..).bind fun v => h.become v

/-! ## §3 — statements -/

theorem Steady.choose (hI : I.Steady L) (v : Value) {arms : List Arm} (h : ∀ a ∈ arms, a.Within L.Mentioned) :
    Eval.Agree L (fun r r' => r = r' ∧ ∀ e ∈ r, e.Within L.Mentioned) (I.choose v arms) (I.choose v arms) := by
  induction arms with
  | nil => exact .pure ⟨rfl, fun e mem => absurd mem (Option.not_mem_none e)⟩
  | cons arm rest ih =>
    obtain ⟨hf, hr⟩ := List.forall_mem_cons.mp h
    cases hf with
    | @mk patterns guard hg action ha =>
    have chosen : ∀ e ∈ some action, e.Within L.Mentioned := fun e mem => Option.mem_some.mp mem ▸ ha
    unfold Interpreter.choose
    split
    · cases guard with
      | none => exact .pure ⟨rfl, chosen⟩
      | some g =>
        refine (hI.condition (hg g rfl)).bind fun b => ?_
        split
        · exact .pure ⟨rfl, chosen⟩
        · exact ih hr
    · exact ih hr

theorem Steady.optional (hI : I.Steady L) {e : Option Expr} (h : ∀ x ∈ e, x.Within L.Mentioned) :
    Eval.Steady L (I.optional e) := by
  cases e with
  | none => exact .same _
  | some e => exact hI.expr e (h e rfl)

/-- **A statement that declares nothing** does not tell machines that agree apart. -/
theorem Steady.execute (hI : I.Steady L) {s : Stmt} (h : s.Within L.Mentioned) : Eval.Steady L (I.execute s) := by
  cases h with
  | noop pos => exact .same _
  | assign ht op hv pos => exact (hI.assign ht op hv pos).bind fun _ => .same _
  | expr h => exact hI.expr _ h
  | block h pos => exact hI.block h
  | branch hc hy hn pos =>
    refine (hI.condition hc).bind fun b => ?_
    split
    · exact hI.block hy
    · exact hI.block hn
  | switch hi ha hf pos =>
    refine (hI.expr _ hi).bind fun v => (hI.choose v ha).bindRel ?_
    rintro r _ ⟨rfl, chosen⟩
    cases r with
    | none => exact hI.optional hf
    | some action => exact hI.expr action (chosen action rfl)

end Interpreter

/-! ## §4 — scripts -/

/-- **The interpreter does not tell machines that agree apart**, however deep code is nested. -/
theorem steady_interpreter (depth : Nat) : (interpreter depth).Steady L := by
  induction depth with
  | zero => exact ⟨fun _ _ => .throw _, fun _ _ => .throw _⟩
  | succ n ih => exact ⟨fun _ h => ih.evaluate h, fun _ h => ih.execute h⟩

/-- **A script that declares nothing** asks the same on machines that agree, ends alike, and leaves the same cells, if
all variables it names are in use. -/
theorem Program.agree_run (s : Program) (h : ∀ stmt ∈ s.statements, stmt.Within L.Mentioned) (c : Context)
    {m m' : Machine} (hm : Machine.Agree L m m') :
    Run.Linked (fun r r' => r'.1 = r.1 ∧ r'.2.cells = r.2.cells) (s.run c m) (s.run c m') := by
  have body := ((steady_interpreter maxNesting).sequence h .unit).run c m m' hm
  refine body.bind ?_
  rintro ⟨r, n⟩ ⟨r', n'⟩ ⟨outcome, machine⟩
  refine .done ⟨?_, machine.cells⟩
  cases outcome with
  | ok hv => exact congrArg (fun v => Signal.settled (.ok v)) hv.symm
  | error hs => exact congrArg (fun s => Signal.settled (.error s)) hs.symm

end Dialogue.Script
