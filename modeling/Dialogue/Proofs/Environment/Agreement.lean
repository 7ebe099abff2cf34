import Dialogue.Proofs.Environment.Lockstep
import Dialogue.Proofs.Script.Layout.Expression
import Dialogue.Proofs.Script.Undeclaring.Reading
import Dialogue.Proofs.Script.Undeclaring.Simplify
import Mathlib.Data.String.Basic
/-!
# `Dialogue.Proofs.Environment.Agreement` — environments with the same variables.

Two environments of one file agree on the names in use when each of them leads to the same variable in both. What is
known of constants is then the same as far as an expression can tell that names no others, and so is the script that it
becomes. Main statements: such an expression yields the same in environments that agree, after the same questions for
files; and an environment agrees with one that is seeded from its bindings, on the names that bindings hand on.
-/

namespace Dialogue

open Script (Value Entry Cell Mention newest?)

/-! ## §1 — fields by name -/

namespace Script.Datum

variable {κ : Type} {fs : List (String × Datum κ)}

/-- Fields in the order of their names, no two of one name. -/
abbrev InOrder (fs : List (String × Datum κ)) : Prop := (fs.map Prod.fst).Pairwise (· < ·)

theorem mem_setField {name k : String} {v : Datum κ} (h : k ∈ (setField name v fs).map Prod.fst) :
    k = name ∨ k ∈ fs.map Prod.fst := by
  induction fs with
  | nil => exact .inl (by simpa [setField] using h)
  | cons f fs ih =>
    obtain ⟨l, w⟩ := f
    unfold setField at h
    split at h
    · rename_i same
      simpa [← beq_iff_eq.mp same] using h
    · split at h
      · simpa using h
      · rcases List.mem_cons.mp h with rfl | h
        · exact .inr List.mem_cons_self
        · exact (ih h).imp_right (List.mem_cons_of_mem _)

theorem inOrder_setField (h : InOrder fs) (name : String) (v : Datum κ) : InOrder (setField name v fs) := by
  induction fs with
  | nil => simp [InOrder, setField]
  | cons f fs ih =>
    obtain ⟨l, w⟩ := f
    obtain ⟨first, rest⟩ := List.pairwise_cons.mp h
    unfold setField
    split
    · rename_i same
      obtain rfl : name = l := beq_iff_eq.mp same
      exact List.pairwise_cons.mpr ⟨first, rest⟩
    · rename_i other
      split
      · rename_i less
        refine List.pairwise_cons.mpr ⟨fun k mem => ?_, h⟩
        rcases List.mem_cons.mp mem with rfl | mem
        · exact less
        · exact less.trans (first k mem)
      · rename_i notLess
        refine List.pairwise_cons.mpr ⟨fun k mem => ?_, ih rest⟩
        rcases mem_setField mem with rfl | mem
        · exact lt_of_le_of_ne (not_lt.mp notLess) fun e => other (beq_iff_eq.mpr e.symm)
        · exact first k mem

@[simp] theorem field?_nil (name : String) : field? ([] : List (String × Datum κ)) name = none := rfl

theorem field?_cons (f : String × Datum κ) (fs : List (String × Datum κ)) (name : String) :
    field? (f :: fs) name = if f.1 = name then some f.2 else field? fs name := by
  unfold field?
  rw [List.find?_cons]
  by_cases e : f.1 = name
  · rw [if_pos e, beq_iff_eq.mpr e]
    rfl
  · rw [if_neg e, beq_eq_false_iff_ne.mpr e]

theorem field?_append (fs gs : List (String × Datum κ)) (name : String) :
    field? (fs ++ gs) name = (field? fs name).or (field? gs name) := by
  unfold field?
  rw [List.find?_append, Option.map_or]

theorem field?_setField (name : String) (v : Datum κ) (fs : List (String × Datum κ)) (other : String) :
    field? (setField name v fs) other = if name = other then some v else field? fs other := by
  induction fs with
  | nil => rw [setField, field?_cons]
  | cons f fs ih =>
    obtain ⟨l, w⟩ := f
    unfold setField
    split
    · rename_i same
      obtain rfl : name = l := beq_iff_eq.mp same
      rw [field?_cons, field?_cons]
      split <;> rfl
    · rename_i apart
      split
      · rw [field?_cons]
      · rw [field?_cons, field?_cons, ih]
        by_cases e : l = other
        · have ne : name ≠ other := fun e' => apart (beq_iff_eq.mpr (e'.trans e.symm))
          rw [if_pos e, if_neg ne, if_pos e]
        · rw [if_neg e, if_neg e]

theorem inOrder_ofFields (fs : List (String × Datum κ)) : InOrder (ofFields fs) := by
  have each (before : List (String × Datum κ)) (h : InOrder before) :
      InOrder (fs.foldl (fun fs f => setField f.1 f.2 fs) before) := by
    induction fs generalizing before with
    | nil => exact h
    | cons f fs ih => exact ih _ (inOrder_setField h f.1 f.2)
  exact each [] .nil

/-- **Later fields replace earlier ones of their name.** -/
theorem field?_ofFields (fs : List (String × Datum κ)) (name : String) :
    field? (ofFields fs) name = field? fs.reverse name := by
  have each (before : List (String × Datum κ)) :
      field? (fs.foldl (fun fs f => setField f.1 f.2 fs) before) name =
        (field? fs.reverse name).or (field? before name) := by
    induction fs generalizing before with
    | nil => rfl
    | cons f fs ih =>
      rw [List.foldl_cons, ih, field?_setField, List.reverse_cons, field?_append, field?_cons, Option.or_assoc]
      split <;> rfl
  exact (each []).trans Option.or_none

theorem field?_eq_none {name : String} : field? fs name = none ↔ name ∉ fs.map Prod.fst := by
  unfold field?
  rw [Option.map_eq_none_iff, List.find?_eq_none, List.mem_map]
  simp only [beq_iff_eq, not_exists, not_and]

/-- Where no two fields have one name, a field is found by its name. -/
theorem field?_eq_some (h : InOrder fs) {name : String} {v : Datum κ} : field? fs name = some v ↔ (name, v) ∈ fs := by
  induction fs with
  | nil => simp
  | cons f fs ih =>
    obtain ⟨l, w⟩ := f
    obtain ⟨first, rest⟩ := List.pairwise_cons.mp h
    rw [field?_cons, List.mem_cons, Prod.mk.injEq, ← ih rest]
    by_cases e : l = name
    · have none : field? fs name = none := field?_eq_none.mpr fun mem => lt_irrefl l (first l (e ▸ mem))
      rw [if_pos e, none]
      simp [e, eq_comm]
    · rw [if_neg e]
      simp [Ne.symm e]

/-- Where no two fields have one name, the first of a name is the last. -/
theorem field?_reverse (h : InOrder fs) (name : String) : field? fs.reverse name = field? fs name := by
  induction fs with
  | nil => rfl
  | cons f fs ih =>
    obtain ⟨first, rest⟩ := List.pairwise_cons.mp h
    rw [List.reverse_cons, field?_append, ih rest, field?_cons, field?_cons, field?_nil]
    by_cases e : f.1 = name
    · have none : field? fs name = none := field?_eq_none.mpr fun mem => lt_irrefl f.1 (first f.1 (e ▸ mem))
      rw [none, if_pos e]
      rfl
    · rw [if_neg e, if_neg e, Option.or_none]

end Script.Datum

namespace Environment

variable {env env' : Environment}

/-! ## §2 — environments that agree -/

/-- **Environments that agree:** of one file, with the same functions, and the same variable under each name in use. -/
structure Agree (used : String → Prop) (env env' : Environment) : Prop where
  file : env'.file = env.file
  dir : env'.dir = env.dir
  functions : env'.functions = env.functions
  includes : env'.includes = env.includes
  newest : ∀ name, used name → newest? env'.scope name = newest? env.scope name

/-- **What an expression yields** in an environment, on these shared cells and with these readings of the clock,
together with the questions asked for it. -/
def yields (files : FileAccess) (clock : Clock) (env : Environment) (cells : Array Cell) (code : String) :
    Logged (Except Failure Value) :=
  let r := (env.evaluateAt files clock code).run cells
  ⟨r.value.1.1, r.accesses⟩

/-- **What an expression mentions**; nothing, if it cannot be read. -/
def mentionsIn (code : String) : List Mention :=
  match Script.Parser.singleExpression (Text.trimmed code) with
  | .error _ => []
  | .ok s => Script.Stmt.mentionsOfItems s.statements

/-- **A script that runs alike** in two environments, asks the same in both and comes to the same. -/
theorem runWith_alike {s : Script.Program} {cells : Array Cell}
    (run :
      let p := Script.Simplify.script (env.known cells) s
      let p' := Script.Simplify.script (env'.known cells) s
      Script.Run.Linked (fun r r' => r'.1 = r.1)
        (p.run { functions := combined env.functions p.functions } (env.machine cells))
        (p'.run { functions := combined env'.functions p'.functions } (env'.machine cells)))
    (answer : Clock → Include.Request → Logged Include.Answer) (clock : Clock) (describe : String → Failure) :
    ((env'.runWith answer clock s describe).run cells).accesses =
        ((env.runWith answer clock s describe).run cells).accesses ∧
      ((env'.runWith answer clock s describe).run cells).value.1.1 =
        ((env.runWith answer clock s describe).run cells).value.1.1 := by
  obtain ⟨accesses, outcome⟩ := run.answering answer clock
  unfold Environment.runWith StateT.run
  dsimp only
  generalize Script.Run.answering answer (Script.Program.run _ _ (env.machine cells)) clock = x at accesses outcome ⊢
  generalize Script.Run.answering answer (Script.Program.run _ _ (env'.machine cells)) clock = y at accesses outcome ⊢
  obtain ⟨⟨r, m⟩, asked⟩ := x
  obtain ⟨⟨r', m'⟩, asked'⟩ := y
  obtain rfl : asked' = asked := accesses
  obtain rfl : r' = r := outcome
  cases r' <;> exact ⟨rfl, rfl⟩

namespace Agree

variable {used : String → Prop}

theorem machine (h : env.Agree used env') (cells : Array Cell) :
    Script.Machine.Agree ⟨env.scope.map Entry.name, env'.scope.map Entry.name, used⟩ (env.machine cells)
      (env'.machine cells) :=
  ⟨rfl, rfl, h.newest, rfl, rfl⟩

theorem withInclude (h : env.Agree used env') : env.withInclude.Agree used env'.withInclude :=
  ⟨h.file, h.dir, h.functions, h.includes, h.newest⟩

theorem name (h : env.Agree used env') : env'.name = env.name := by
  simp only [Environment.name, h.file]

theorem resolver (h : env.Agree used env') :
    Include.Resolver.ofEnvironment env' = Include.Resolver.ofEnvironment env := by
  simp only [Include.Resolver.ofEnvironment, h.dir, h.includes]

/-- What is known of constants does not depend on where they stand. -/
theorem known (h : env.Agree used env') (cells : Array Cell) (name : String) (hn : used name) :
    env'.known cells name = env.known cells name := by
  unfold Environment.known
  obtain ⟨hx, hy⟩ | ⟨s, t, hx, hy, found⟩ := Script.rel_cases ((h.machine cells).find? hn)
  · rw [hx, hy]
  · rw [hx, hy]
    simp only [Option.bind_some, found.constant, found.value]

/-- **An expression that declares nothing** yields the same in environments that agree, after the same questions. -/
theorem runWith (h : env.Agree used env') (answer : Clock → Include.Request → Logged Include.Answer) (clock : Clock)
    {e : Script.Expr} (within : e.Within (Mention.Among used)) (describe : String → Failure) (cells : Array Cell) :
    let s : Script.Program := ⟨[.expr e], []⟩
    ((env'.runWith answer clock s describe).run cells).accesses =
        ((env.runWith answer clock s describe).run cells).accesses ∧
      ((env'.runWith answer clock s describe).run cells).value.1.1 =
        ((env.runWith answer clock s describe).run cells).value.1.1 := by
  intro s
  have statements : Script.Simplify.AllWithin (Mention.Among used) s.statements :=
    List.forall_mem_singleton.mpr (.expr within)
  obtain ⟨same, simplified⟩ := Script.Simplify.alike_statements_script (h.known cells) statements
  have run := Script.Program.agree_run (Script.Simplify.script (env.known cells) s) simplified
    { functions := combined env.functions (Script.Simplify.script (env.known cells) s).functions } (h.machine cells)
  have scripts : Script.Simplify.script (env'.known cells) s = Script.Simplify.script (env.known cells) s :=
    congrArg (Script.Program.mk · []) same
  refine runWith_alike ?_ answer clock describe
  rw [scripts, h.functions]
  exact run.mono fun r r' left => left.1

/-- **An expression whose variables are in use yields the same** in environments that agree. -/
theorem yields (h : env.Agree used env') (files : FileAccess) (clock : Clock) (cells : Array Cell) {code : String}
    (named : ∀ x ∈ mentionsIn code, x.Among used) :
    env'.yields files clock cells code = env.yields files clock cells code := by
  unfold mentionsIn at named
  unfold Environment.yields Environment.evaluateAt Environment.evaluateWith
  rw [h.resolver]
  have opened := h.withInclude
  dsimp only
  split
  · rw [opened.name]
    rfl
  · rename_i s read
    obtain ⟨e, declares, rfl⟩ := Script.Parser.singleExpression_ok read
    rw [read] at named
    have within : e.Within (Mention.Among used) :=
      Script.Expr.within_mentions declares fun x mem => named x (List.mem_append_left [] mem)
    rw [opened.name]
    obtain ⟨accesses, outcome⟩ := opened.runWith (Include.Resolver.fetchAt files (.ofEnvironment env)) clock within
      (.evaluation env.withInclude.name (Text.trimmed code)) cells
    exact congrArg₂ Logged.mk outcome accesses

end Agree

/-! ## §3 — variables that are never seen -/

/-- Whether files can be included yet does not matter to an expression. -/
theorem yields_withInclude (files : FileAccess) (clock : Clock) (env : Environment) (cells : Array Cell)
    (code : String) : env.withInclude.yields files clock cells code = env.yields files clock cells code := by
  have opened : env.withInclude.withInclude = env.withInclude := rfl
  have resolver : Include.Resolver.ofEnvironment env.withInclude = .ofEnvironment env := rfl
  unfold Environment.yields evaluateAt evaluateWith
  rw [opened, resolver]

/-- **An expression yields the same** in environments in step on the same cells. -/
theorem Linked.yields {σ : Script.Shift} {cells : Array Cell} (h : env.Linked σ cells.size env') (noGap : σ.gap = 0)
    (held : Script.CellsLinked σ cells cells) (files : FileAccess) (clock : Clock) (code : String) :
    env'.yields files clock cells code = env.yields files clock cells code := by
  obtain ⟨accesses, grown, outcome, -⟩ := h.evaluateAt files clock code cells cells (Nat.le_refl _) held
  have numbers (w i j : Nat) (rel : σ.Rel w i j) : j = i := by
    rw [rel.2, Script.Shift.past, noGap, Nat.add_zero, ite_self]
  have value : ((env'.evaluateAt files clock code).run cells).value.1.1 =
      ((env.evaluateAt files clock code).run cells).value.1.1 := by
    have result := outcome.result
    generalize ((env.evaluateAt files clock code).run cells).value.1.1 = r at result ⊢
    generalize ((env'.evaluateAt files clock code).run cells).value.1.1 = r' at result ⊢
    cases result with
    | error same => exact congrArg Except.error same.symm
    | ok linked => exact congrArg Except.ok (linked.eq (numbers _))
  exact congrArg₂ Logged.mk value accesses

/-- **Older variables are not seen** below others of their names. -/
theorem yields_of_unseen {cells : Array Cell} (inStep : env.Linked (Script.Shift.apart {}) cells.size env)
    (held : Script.CellsLinked {} cells cells) {older : List Entry}
    (unseen : ∀ e ∈ older, e.name ∈ env.scope.map Entry.name) (files : FileAccess) (clock : Clock) (code : String) :
    Environment.yields files clock { env with scope := env.scope ++ older } cells code =
      env.yields files clock cells code := by
  have below : env.Linked { common := env.scope.map Entry.name, below := older.length } cells.size
      { env with scope := env.scope ++ older } :=
    ⟨rfl, rfl, rfl, rfl, inStep.scope.below unseen⟩
  exact below.yields rfl ⟨held.kept, held.size, held.cells⟩ files clock code

/-! ## §4 — environments seeded from bindings -/

/-- **A variable like any other:** not constant, not shared with a closure, and not named like a constant of a file. -/
structure IsOrdinary (e : Entry) : Prop where
  changeable : e.constant = false
  own : ∃ v, e.slot = .own v
  name : ¬(e.name = fileConstant ∨ e.name = dirConstant)

instance (e : Entry) : Decidable (IsOrdinary e) :=
  match e with
  | ⟨_, true, _⟩ => isFalse fun h => Bool.noConfusion h.changeable
  | ⟨_, false, .cell _⟩ => isFalse fun h => h.own.elim fun _ own => by cases own
  | ⟨name, false, .own v⟩ =>
    if h : name = fileConstant ∨ name = dirConstant then isFalse fun ordinary => ordinary.name h
    else isTrue ⟨rfl, ⟨v, rfl⟩, h⟩

/-- A variable with a value of its own. -/
def bound (b : String × Value) : Entry := ⟨b.1, false, .own b.2⟩

theorem eq_bound_of_isOrdinary {e : Entry} (h : IsOrdinary e) (m : Script.Machine) :
    bound (e.name, m.slotValue e.slot) = e := by
  obtain ⟨name, constant, slot⟩ := e
  obtain ⟨changeable, ⟨v, own⟩, -⟩ := h
  obtain rfl : constant = false := changeable
  obtain rfl : slot = .own v := own
  rfl

theorem seed_eq (env : Environment) (bindings : Bindings) :
    env.seed bindings = { env with scope := bindings.reverse.map bound ++ env.scope } := by
  unfold Environment.seed
  induction bindings generalizing env with
  | nil => rfl
  | cons b bindings ih =>
    rw [List.foldl_cons, ih, List.reverse_cons, List.map_append, List.append_assoc]
    rfl

theorem newest?_append (new base : List Entry) (name : String) :
    newest? (new ++ base) name = (newest? new name).or (newest? base name) := List.find?_append

theorem newest?_map_bound (bindings : Bindings) (name : String) :
    newest? (bindings.map bound) name = (Script.Datum.field? bindings name).map fun v => bound (name, v) := by
  unfold newest? Script.Datum.field?
  rw [List.find?_map, Option.map_map]
  refine Option.map_congr fun b found => ?_
  have named := List.find?_some found
  exact congrArg (fun n => bound (n, b.2)) (beq_iff_eq.mp named)

theorem name_of_newest? {scope : List Entry} {name : String} {e : Entry} (h : newest? scope name = some e) :
    e.name = name := by
  have named := List.find?_some (p := fun e : Entry => e.name == name) h
  exact beq_iff_eq.mp named

/-- The variables that an environment has more than before, newest first. -/
def added (env : Environment) (before : Nat) : List Entry := env.scope.take (env.count - before)

/-- **Bindings are the newest variables** and what they hold, except those named like a constant of the file. -/
theorem field?_bindingsAfter (env : Environment) (cells : Array Cell) (before : Nat) (name : String) :
    Script.Datum.field? (env.bindingsAfter cells before) name =
      if name = fileConstant ∨ name = dirConstant then none
      else (newest? (env.added before) name).map fun e => (env.machine cells).slotValue e.slot := by
  unfold Environment.bindingsAfter
  dsimp only
  rw [Script.Datum.field?_ofFields, ← List.map_reverse, ← List.filter_reverse, List.reverse_reverse]
  unfold Script.Datum.field? newest?
  rw [List.find?_map, List.find?_filter, Option.map_map]
  by_cases reserved : name = fileConstant ∨ name = dirConstant
  · rw [if_pos reserved, List.find?_eq_none.mpr]
    · rfl
    · intro e _
      rcases reserved with rfl | rfl <;> simp +contextual
  · rw [if_neg reserved]
    have picks : (fun e : Entry => decide ((e.name != fileConstant && e.name != dirConstant) = true ∧
        (e.name == name) = true)) = fun e => e.name == name := by
      funext e
      by_cases named : e.name = name
      · rw [not_or] at reserved
        simp [named, reserved]
      · simp [named]
    exact congrArg (fun p => ((env.added before).find? p).map fun e => (env.machine cells).slotValue e.slot) picks

/-- **A name that bindings hand on:** it leads to what it led to before, or to an ordinary variable that was added. -/
def HandsOn (before env : Environment) (name : String) : Prop :=
  newest? env.scope name = newest? before.scope name ∨ ∃ e ∈ newest? (env.added before.count) name, IsOrdinary e

/-- **A name whose value bindings show:** not that of a constant of a file, unless it leads to what it led to before. -/
def Shows (before env : Environment) (name : String) : Prop :=
  (name = fileConstant ∨ name = dirConstant) → newest? env.scope name = newest? before.scope name

/-- **An environment agrees with one seeded from its bindings**, under the names that these hand on. -/
theorem agree_seeded {before : Environment} (cells : Array Cell) (file : env.file = before.file)
    (dir : env.dir = before.dir) (functions : before.functions = []) (includes : env.includes = before.includes)
    (reserved : ∀ e ∈ before.scope, e.name = fileConstant ∨ e.name = dirConstant) :
    env.Agree (before.HandsOn env)
      ((before.seed (env.bindingsAfter cells before.count)).seedFunctions env.functions) := by
  have inOrder : Script.Datum.InOrder (env.bindingsAfter cells before.count) := Script.Datum.inOrder_ofFields _
  have split (name : String) : newest? env.scope name = (newest? (env.added before.count) name).or
      (newest? (env.scope.drop (env.count - before.count)) name) := by
    rw [← newest?_append, added, List.take_append_drop]
  rw [seed_eq]
  refine ⟨file.symm, dir.symm, ?_, includes.symm, fun name handed => ?_⟩
  · show combined before.functions env.functions = env.functions
    rw [functions]
    rfl
  · show newest? (_ ++ before.scope) name = _
    rw [newest?_append, newest?_map_bound, Script.Datum.field?_reverse inOrder, field?_bindingsAfter]
    obtain same | ⟨e, found, ordinary⟩ := handed
    · rw [same]
      split_ifs with h
      · rfl
      · -- no variable of the name was there before, and so none was added
        have none : newest? before.scope name = none := by
          refine List.find?_eq_none.mpr fun e mem named => h ?_
          rw [← beq_iff_eq.mp named]
          exact reserved e mem
        rw [none, split] at same
        rw [(Option.or_eq_none_iff.mp same).1, none]
        rfl
    · obtain rfl := name_of_newest? found
      rw [if_neg ordinary.name, split, found, Option.map_some, Option.map_some, eq_bound_of_isOrdinary ordinary]
      rfl

/-! ## §5 — what a script leaves -/

/-- **An environment later on:** of the same file, with the same files being included. -/
structure Later (env left : Environment) : Prop where
  file : left.file = env.file
  dir : left.dir = env.dir
  includes : left.includes = env.includes

theorem later_runWith (answer : Clock → Include.Request → Logged Include.Answer) (clock : Clock) (env : Environment)
    (s : Script.Program) (describe : String → Failure) (cells : Array Cell) :
    env.Later ((env.runWith answer clock s describe).run cells).value.1.2 := by
  unfold Environment.runWith StateT.run
  dsimp only
  generalize Script.Run.answering answer (Script.Program.run _ _ (env.machine cells)) clock = x
  obtain ⟨⟨r, m⟩, asked⟩ := x
  cases r <;> exact ⟨rfl, rfl, rfl⟩

/-- **How a script block ends:** it cannot be read, or it is run. -/
theorem executeAt_cases {files : FileAccess} {clock : Clock} {code : String} {left : Environment}
    {cells cells' : Array Cell}
    {r : Except Failure Bindings} (ran : ((env.executeAt files clock code).run cells).value = ((r, left), cells')) :
    (∃ e, Script.Parser.script code = .error e ∧ r = .error (.load env.name e.message) ∧ left = env.withInclude ∧
      cells' = cells) ∨
    ∃ s q, Script.Parser.script code = .ok s ∧
      ((env.withInclude.runWith (Include.Resolver.fetchAt files (.ofEnvironment env)) clock s (.execution env.name)).run
        cells).value = ((q, left), cells') ∧
      r = q.map fun _ => left.bindingsAfter cells' env.count := by
  unfold Environment.executeAt executeWith at ran
  dsimp only at ran
  split at ran
  · rename_i e read
    cases ran
    exact .inl ⟨e, read, rfl, rfl, rfl⟩
  · rename_i s read
    let run := env.withInclude.runWith (Include.Resolver.fetchAt files (.ofEnvironment env)) clock s
      (.execution env.name)
    have ended : ((((run.run cells).value.1.1.map fun _ =>
        (run.run cells).value.1.2.bindingsAfter (run.run cells).value.2 env.count), (run.run cells).value.1.2),
        (run.run cells).value.2) = ((r, left), cells') := ran
    refine .inr ⟨s, (run.run cells).value.1.1, read, ?_, ?_⟩
    · rw [← (Prod.mk.inj ended).2, ← (Prod.mk.inj (Prod.mk.inj ended).1).2]
    · rw [← (Prod.mk.inj ended).2, ← (Prod.mk.inj (Prod.mk.inj ended).1).2, ← (Prod.mk.inj (Prod.mk.inj ended).1).1]

/-- **A script block that goes through** yields the variables that the environment has more than before. -/
theorem executeAt_ok {files : FileAccess} {clock : Clock} {code : String} {bindings : Bindings} {left : Environment}
    {cells cells' : Array Cell}
    (ran : ((env.executeAt files clock code).run cells).value = ((.ok bindings, left), cells')) :
    env.Later left ∧ bindings = left.bindingsAfter cells' env.count := by
  obtain ⟨e, -, failed, -⟩ | ⟨s, q, -, run, yields⟩ := executeAt_cases ran
  · cases failed
  · have later := later_runWith (Include.Resolver.fetchAt files (.ofEnvironment env)) clock env.withInclude s
      (.execution env.name) cells
    rw [run] at later
    cases q with
    | error f => cases yields
    | ok v => exact ⟨⟨later.file, later.dir, later.includes⟩, Except.ok.inj yields⟩

end Environment

end Dialogue
