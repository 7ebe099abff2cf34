import Dialogue.Files.Memory
import Dialogue.Proofs.Environment.Genuine
import Dialogue.Proofs.Environment.History
import Dialogue.Proofs.Script.Scoped.Evaluator
import Dialogue.Proofs.Script.Scoped.Reading
import Dialogue.Proofs.Script.Scoped.Simplify
/-!
# `Dialogue.Proofs.Environment.Bindings` — what a script block reports.

A script block adds variables to its environment and reports them by counting: what stands before the variables that
there were. It may change what those hold, but neither their names nor their order, however it ends. Main statements: a
script block that goes through reports exactly the names that it brought into reach, each with the value that the
environment has for it then, and another environment that is seeded with the report has the same values; and one that
fails defines nothing, and what it leaves behind is not in any later report.
-/

namespace Dialogue.Environment

open Script (Value Entry Cell Function newest? declared fresh owned Extends)

variable {files : FileAccess} {env left : Environment} {cells cells' : Array Cell} {code : String}

/-! ## §1 — variables by name -/

/-- **The value of a variable** is that of the newest of its name. -/
theorem get?_eq (env : Environment) (cells : Array Cell) (name : String) :
    env.get? cells name = (newest? env.scope name).map fun e => (env.machine cells).slotValue e.slot := by
  unfold get? Script.Machine.value? Script.Machine.find? Script.Machine.position?
  cases at_ : (env.machine cells).scope.findIdx? (·.name == name) with
  | none =>
    have none : newest? env.scope name = none := Script.newest?_of_no_position at_
    rw [none]
    rfl
  | some i =>
    obtain ⟨e, found, there, -⟩ := Script.newest?_of_position at_
    have newest : newest? env.scope name = some e := found
    dsimp only
    rw [newest, there]
    rfl

theorem isSome_newest? {scope : List Entry} {name : String} :
    (newest? scope name).isSome ↔ name ∈ scope.map Entry.name := by
  unfold newest?
  rw [List.find?_isSome, List.mem_map]
  simp only [beq_iff_eq]

theorem newest?_eq_none {scope : List Entry} {name : String} :
    newest? scope name = none ↔ name ∉ scope.map Entry.name := by
  rw [← isSome_newest?, Option.not_isSome_iff_eq_none]

/-- **Seeding bindings** puts their values before those that were there. -/
theorem get?_seed {bindings : Bindings} (inOrder : Script.Datum.InOrder bindings) (other : Environment)
    (shared : Array Cell) (name : String) :
    (other.seed bindings).get? shared name = (Script.Datum.field? bindings name).or (other.get? shared name) := by
  rw [get?_eq, get?_eq, seed_eq, newest?_append, newest?_map_bound, Script.Datum.field?_reverse inOrder]
  cases Script.Datum.field? bindings name with
  | none => rfl
  | some v => rfl

/-- Functions that are handed over are no variables. -/
theorem get?_seedFunctions (env : Environment) (fs : List Function) (cells : Array Cell) (name : String) :
    (env.seedFunctions fs).get? cells name = env.get? cells name := rfl

/-! ## §2 — variables that a script adds -/

/-- **The variables that a script declares** outside its blocks and functions, each as often as it is brought into
reach anew; none, if the script cannot be read. -/
def declaredNames (code : String) : List String :=
  match Script.Parser.script code with
  | .error _ => []
  | .ok s => fresh (declared s.statements)

/-- **An environment with new variables** before those that it had. These may hold other values, but keep their names
and their order, and those that were constant are. -/
def Adds (env left : Environment) (new : List Entry) : Prop :=
  ∃ old, left.scope = new ++ old ∧ old.map Entry.label = env.scope.map Entry.label

/-- **What a script adds:** variables that it declares, the first ones that it does. -/
structure Declares (names : List String) (env left : Environment) (new : List Entry) : Prop where
  adds : env.Adds left new
  first : (new.map Entry.name).reverse <+: names

/-- Nothing is added where the variables are as before. -/
theorem adds_nil (same : left.scope = env.scope) : env.Adds left [] := ⟨env.scope, same, rfl⟩

/-- The variables that are new are those that there are more. -/
theorem Adds.added {new : List Entry} (h : env.Adds left new) : left.added env.count = new := by
  obtain ⟨old, scope, same⟩ := h
  have count : old.length = env.scope.length := by simpa using congrArg List.length same
  unfold Environment.added Environment.count
  rw [scope, List.length_append, count, Nat.add_sub_cancel, List.take_left]

/-- **A run on labels** comes down to variables that are added. -/
theorem adds_of_extends {own : List String}
    (h : Extends own (env.scope.map Entry.label) (left.scope.map Entry.label)) :
    ∃ new, env.Adds left new ∧ new.map Entry.name = own := by
  obtain ⟨labels, split, rfl⟩ := h
  obtain ⟨new, old, scope, rfl, same⟩ := List.map_eq_append_iff.mp split
  refine ⟨new, ⟨old, scope, same⟩, ?_⟩
  rw [List.map_map]
  rfl

/-! ## §3 — running a script -/

/-- What a run ends in, whatever it is answered, it ends in when it is answered. -/
theorem value_answering {α : Type} {Q : α → Prop} {x : Script.Run α} (h : x.EndsIn Q)
    (answer : Clock → Include.Request → Logged Include.Answer) (clock : Clock) :
    Q (x.answering answer clock).value := by
  induction h generalizing clock with
  | done h => exact h
  | ask _ ih => exact ih _ (fun _ _ => trivial) _
  | now _ ih => exact ih _ _
  | caught _ ih => exact ih clock

/-- **A script that runs** adds the first of the variables that it declares, however it ends. -/
theorem declares_runWith (answer : Clock → Include.Request → Logged Include.Answer) (clock : Clock) (env : Environment)
    {s : Script.Program} (h : Script.ScopedBlock s.statements) (describe : String → Failure) (cells : Array Cell) :
    ∃ new, Declares (fresh (declared s.statements)) env ((env.runWith answer clock s describe).run cells).value.1.2
      new := by
  have shortens := Script.Simplify.shortens_script (env.known cells) h
  have run := Script.Program.extends_run (Script.Simplify.script (env.known cells) s)
    (Script.Simplify.scopedCode_transparent.shorter h shortens)
    { functions := combined env.functions (Script.Simplify.script (env.known cells) s).functions } (env.machine cells)
  have ends := value_answering run answer clock
  unfold runWith StateT.run
  dsimp only
  generalize Script.Run.answering answer _ clock = x at ends
  obtain ⟨⟨r, m⟩, asked⟩ := x
  obtain ⟨ds, first, longer⟩ := ends
  have declares (left : Environment) (scope : left.scope = m.scope) :
      ∃ new, Declares (fresh (declared s.statements)) env left new := by
    have labels : Extends (owned [] ds) (env.scope.map Entry.label) (left.scope.map Entry.label) := by
      rw [scope]
      exact longer
    obtain ⟨new, adds, names⟩ := adds_of_extends labels
    refine ⟨new, adds, ?_⟩
    rw [names, Script.owned_eq_fresh, List.append_nil, List.reverse_reverse]
    exact Script.fresh_isPrefix (first.trans shortens.first)
  cases r with
  | ok v => exact declares _ rfl
  | error f => exact declares _ rfl

/-- **A script block** adds the first of the variables that it declares, however it ends. -/
theorem declares_executeAt {clock : Clock} {r : Except Failure Bindings}
    (ran : ((env.executeAt files clock code).run cells).value = ((r, left), cells')) :
    ∃ new, Declares (declaredNames code) env left new := by
  unfold declaredNames
  rcases executeAt_cases ran with ⟨e, read, -, rfl, -⟩ | ⟨s, q, read, ended, -⟩
  · rw [read]
    exact ⟨[], adds_nil rfl, List.prefix_rfl⟩
  · rw [read]
    have declares := declares_runWith (Include.Resolver.fetchAt files (.ofEnvironment env)) clock env.withInclude
      (Script.Parser.scoped_script read).1 (.execution env.name) cells
    rw [ended] at declares
    obtain ⟨new, adds, first⟩ := declares
    exact ⟨new, adds, first⟩

/-- **An expression** brings no variable into reach. -/
theorem names_evaluateWith (answer : Clock → Include.Request → Logged Include.Answer) (clock : Clock)
    (env : Environment) (cells : Array Cell) (code : String) :
    ((env.evaluateWith answer clock code).run cells).value.1.2.scope.map Entry.name = env.scope.map Entry.name := by
  unfold evaluateWith
  dsimp only
  split
  · rfl
  · rename_i s read
    have block := (Script.Parser.read_singleExpression Script.scopedCode_closed read).block
    obtain ⟨e, -, rfl⟩ := Script.Parser.singleExpression_ok read
    obtain ⟨new, ⟨old, scope, same⟩, first⟩ := declares_runWith answer clock env.withInclude block
      (.evaluation env.withInclude.name (Text.trimmed code)) cells
    obtain rfl : new = [] := by
      have none : fresh (declared [.expr e]) = [] := rfl
      rw [none, List.prefix_nil, List.reverse_eq_nil_iff] at first
      exact List.map_eq_nil_iff.mp first
    have names := congrArg (List.map Prod.fst) same
    rw [List.map_map, List.map_map] at names
    exact (congrArg (List.map Entry.name) scope).trans names

/-! ## §4 — reports -/

/-- **A report of new variables:** their names in order, those of the constants of a file excepted, each with the value
that the environment has for it. -/
structure Reports (left : Environment) (cells : Array Cell) (new : List Entry) (bindings : Bindings) : Prop where
  names : ∀ name, name ∈ bindings.map Prod.fst ↔
    name ∈ new.map Entry.name ∧ ¬(name = fileConstant ∨ name = dirConstant)
  values : ∀ b ∈ bindings, left.get? cells b.1 = some b.2
  inOrder : Script.Datum.InOrder bindings

/-- What a report says under a name is what the newest of the new variables holds. -/
theorem Adds.field?_bindingsAfter {new : List Entry} (h : env.Adds left new) (cells : Array Cell) {name : String}
    (reported : ¬(name = fileConstant ∨ name = dirConstant)) :
    Script.Datum.field? (left.bindingsAfter cells env.count) name =
      (newest? new name).map fun e => (left.machine cells).slotValue e.slot := by
  rw [Environment.field?_bindingsAfter, if_neg reported, h.added]

/-- **Under the name of a new variable** the newest of them is read, as it is the newest of all. -/
theorem Adds.get?_added {new : List Entry} (h : env.Adds left new) (cells : Array Cell) {name : String}
    (mem : name ∈ new.map Entry.name) :
    left.get? cells name = (newest? new name).map fun e => (left.machine cells).slotValue e.slot := by
  obtain ⟨old, scope, -⟩ := h
  obtain ⟨e, newest⟩ := Option.isSome_iff_exists.mp (isSome_newest?.mpr mem)
  rw [get?_eq, scope, newest?_append, newest]
  rfl

/-- **New variables are reported.** -/
theorem Adds.reports {new : List Entry} (h : env.Adds left new) (cells : Array Cell) :
    Reports left cells new (left.bindingsAfter cells env.count) := by
  have inOrder : Script.Datum.InOrder (left.bindingsAfter cells env.count) := Script.Datum.inOrder_ofFields _
  have names (name : String) : name ∈ (left.bindingsAfter cells env.count).map Prod.fst ↔
      name ∈ new.map Entry.name ∧ ¬(name = fileConstant ∨ name = dirConstant) := by
    rw [← not_iff_not, ← Script.Datum.field?_eq_none]
    by_cases reserved : name = fileConstant ∨ name = dirConstant
    · rw [Environment.field?_bindingsAfter, if_pos reserved]
      simp [reserved]
    · rw [h.field?_bindingsAfter cells reserved, Option.map_eq_none_iff, newest?_eq_none]
      simp [reserved]
  refine ⟨names, fun b mem => ?_, inOrder⟩
  obtain ⟨isNew, reported⟩ := (names b.1).mp (List.mem_map_of_mem mem)
  rw [h.get?_added cells isNew, ← h.field?_bindingsAfter cells reported]
  exact (Script.Datum.field?_eq_some inOrder).mpr mem

/-- **Another environment that is seeded with a report** has the values of the report, and under all other names its
own. -/
theorem get?_seed_report {bindings : Bindings} (inOrder : Script.Datum.InOrder bindings) (other : Environment)
    (shared : Array Cell) :
    (∀ b ∈ bindings, (other.seed bindings).get? shared b.1 = some b.2) ∧
      ∀ name, name ∉ bindings.map Prod.fst → (other.seed bindings).get? shared name = other.get? shared name := by
  constructor
  · intro b mem
    rw [get?_seed inOrder, (Script.Datum.field?_eq_some inOrder).mpr mem]
    rfl
  · intro name absent
    rw [get?_seed inOrder, Script.Datum.field?_eq_none.mpr absent]
    rfl

/-- **A script block that goes through reports what it brought into reach.** Some of the variables that it declares are
new, the first ones, and it is these that it reports; what was there before keeps its names and its order. Whoever is
seeded with the report reads it as it was read here. -/
theorem execute_reports {bindings : Bindings}
    (ran : ((env.execute files code).run cells).value = ((.ok bindings, left), cells')) :
    ∃ new, Declares (declaredNames code) env left new ∧ Reports left cells' new bindings ∧
      ∀ (other : Environment) (shared : Array Cell),
        (∀ b ∈ bindings, (other.seed bindings).get? shared b.1 = some b.2) ∧
          ∀ name, name ∉ bindings.map Prod.fst → (other.seed bindings).get? shared name = other.get? shared name := by
  obtain ⟨new, declares⟩ := declares_executeAt ran
  obtain ⟨-, rfl⟩ := executeAt_ok ran
  have reports := declares.adds.reports cells'
  exact ⟨new, declares, reports, get?_seed_report reports.inOrder⟩

/-- A variable that was there is assigned, another one of its kind is declared and then declared again, and the name of
the directory is taken. -/
theorem execute_reports_redeclared :
    let files : FileAccess := ⟨(Files.Memory.ofList []).provider, .extensionTable, .rootDirectory, .stopped⟩
    let env := (Environment.empty.set "a" (.int 1)).set "b" (.int 2)
    let code := "a = 3; let b = a; let b = b + 1; \x7b let c = 5; \x7d let __dirname = b;"
    ∃ bindings left cells', ((env.execute files code).run #[]).value = ((.ok bindings, left), cells') ∧
      bindings.map Prod.fst = ["b"] ∧ declaredNames code = ["b", "__dirname"] ∧
      ∃ new, Declares (declaredNames code) env left new ∧ Reports left cells' new bindings ∧
        ∀ (other : Environment) (shared : Array Cell),
          (∀ b ∈ bindings, (other.seed bindings).get? shared b.1 = some b.2) ∧
            ∀ name, name ∉ bindings.map Prod.fst →
              (other.seed bindings).get? shared name = other.get? shared name := by
  intro files env code
  have goes : ((env.execute files code).run #[]).value.1.1.toOption.map (·.map Prod.fst) = some ["b"] := by
    decide +kernel
  have declares : declaredNames code = ["b", "__dirname"] := by decide +kernel
  obtain ⟨⟨⟨r, left⟩, cells'⟩, ran⟩ : ∃ x, ((env.execute files code).run #[]).value = x := ⟨_, rfl⟩
  rw [ran] at goes
  cases r with
  | error e => cases goes
  | ok bindings => exact ⟨bindings, left, cells', ran, Option.some.inj goes, declares, execute_reports ran⟩

end Dialogue.Environment
