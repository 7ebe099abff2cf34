import Dialogue.Proofs.Script.Block
import Dialogue.Proofs.Script.Scalar
import Dialogue.Proofs.Script.Undeclaring
import Dialogue.Script.Parser
/-!
# `Dialogue.Proofs.Script.Reading` — what is read has the properties that its parts have.

Reading puts code together from scalars, and a property that code has when its parts do is one of all code that is read.
While a block is read, the variables in reach are those of the block before those from outside, and reading knows how
many there are of the latter. An expression leaves them as they are, whatever blocks are in it; a declaration in the
place of another counts back to a variable of the block. Functions join those that were read before, unless one of them
has the same name and number of parameters. Main statements: a script that is read has every such property, the
declarations of its blocks fit, and no two of its functions have one key; the same of a single expression.
-/

namespace Dialogue.Script

/-! ## §1 — code made of its parts -/

/-- **What a function is called by:** its name and the number of its parameters. -/
def Function.key (f : Function) : String × Nat := (f.name, f.arity)

/-- **No two functions of one key.** -/
abbrev Keyed (fs : List Function) : Prop := (fs.map Function.key).Nodup

theorem Keyed.snoc {fs : List Function} (h : Keyed fs) {f : Function}
    (new : ¬fs.any fun g => g.name == f.name && g.arity == f.arity) : Keyed (fs ++ [f]) := by
  rw [Keyed, List.map_append, List.map_singleton]
  refine List.nodup_append.mpr ⟨h, List.pairwise_singleton _ _, fun k mem l last same => new ?_⟩
  rw [same, List.mem_singleton.mp last] at mem
  obtain ⟨g, there, same⟩ := List.mem_map.mp mem
  obtain ⟨name, arity⟩ := Prod.mk.inj same
  exact List.any_eq_true.mpr ⟨g, there, by simp [name, arity]⟩

namespace Judgement

variable (J : Judgement)

/-- **A property that code has when its parts do.** Constants that are put into code are scalars, and the declarations
of its blocks fit. -/
structure Closed : Prop where
  constant {v : Constant} (pos : Position) (h : v.IsScalar) : J.expr (.constant v pos)
  var (name : String) (pos : Position) : J.expr (.var name pos)
  this (pos : Position) : J.expr (.this pos)
  template {pieces : List Expr} (h : ∀ e ∈ pieces, J.expr e) (pos : Position) : J.expr (.template pieces pos)
  array {items : List Expr} (h : ∀ e ∈ items, J.expr e) (pos : Position) : J.expr (.array items pos)
  object {fields : List (String × Expr)} (h : ∀ f ∈ fields, J.expr f.2) (pos : Position) : J.expr (.object fields pos)
  operation (op : String) {operands : List Expr} (h : ∀ e ∈ operands, J.expr e) (pos : Position) :
    J.expr (.operation op operands pos)
  call (name : String) {arguments : List Expr} (h : ∀ e ∈ arguments, J.expr e) (pos : Position) (here : Bool) :
    J.expr (.call name arguments pos here)
  both {a b : Expr} (ha : J.expr a) (hb : J.expr b) (pos : Position) : J.expr (.both a b pos)
  either {a b : Expr} (ha : J.expr a) (hb : J.expr b) (pos : Position) : J.expr (.either a b pos)
  orElse {a b : Expr} (ha : J.expr a) (hb : J.expr b) (pos : Position) : J.expr (.orElse a b pos)
  chain {root : Expr} (hr : J.expr root) {steps : List Step} (hs : ∀ s ∈ steps, J.step s) : J.expr (.chain root steps)
  closure (captured : List (String × Position)) {code : Function} (h : J.function code) (pos : Position) :
    J.expr (.closure captured code pos)
  statements {body : List Stmt} (h : J.Block body) (pos : Position) : J.expr (.statements body pos)
  property (name : String) (pos dot : Position) (optional : Bool) : J.step (.property name pos dot optional)
  index {key : Expr} (h : J.expr key) (bracket : Position) (optional : Bool) : J.step (.index key bracket optional)
  method (name : String) {arguments : List Expr} (h : ∀ e ∈ arguments, J.expr e) (pos dot : Position)
    (optional : Bool) : J.step (.method name arguments pos dot optional)
  function (name : String) (params : List String) {body : List Stmt} (h : ∀ s ∈ body, J.stmt s) :
    J.function (.mk name params body)
  noop (pos : Position) : J.stmt (.noop pos)
  declare (name : String) (constant : Bool) (inPlace : Option Nat) {value : Expr} (h : J.expr value) (pos : Position) :
    J.stmt (.declare name constant inPlace value pos)
  assign {target : Expr} (ht : J.expr target) (op : Option String) {value : Expr} (hv : J.expr value)
    (pos : Position) : J.stmt (.assign target op value pos)
  alone {e : Expr} (h : J.expr e) : J.stmt (.expr e)
  block {body : List Stmt} (h : J.Block body) (pos : Position) : J.stmt (.block body pos)
  branch {cond : Expr} (hc : J.expr cond) {yes no : List Stmt} (hy : J.Block yes) (hn : J.Block no) (pos : Position) :
    J.stmt (.branch cond yes no pos)
  switch {item : Expr} (hi : J.expr item) {arms : List Arm} (ha : ∀ a ∈ arms, J.arm a) {fallback : Option Expr}
    (hf : ∀ e ∈ fallback, J.expr e) (pos : Position) : J.stmt (.switch item arms fallback pos)
  repeatWhile {cond : Option Expr} (hc : ∀ e ∈ cond, J.expr e) {body : List Stmt} (hb : J.Block body)
    (pos : Position) : J.stmt (.repeatWhile cond body pos)
  repeatAfter {body : List Stmt} (hb : J.Block body) {cond : Expr} (hc : J.expr cond) (goOn : Bool) (pos : Position) :
    J.stmt (.repeatAfter body cond goOn pos)
  each (name : String) (counter : Option String) {items : Expr} (hi : J.expr items) {body : List Stmt}
    (hb : J.Block body) (pos : Position) : J.stmt (.each name counter items body pos)
  leave {value : Option Expr} (h : ∀ e ∈ value, J.expr e) (pos : Position) : J.stmt (.leave value pos)
  proceed (pos : Position) : J.stmt (.proceed pos)
  giveBack {value : Option Expr} (h : ∀ e ∈ value, J.expr e) (pos : Position) : J.stmt (.giveBack value pos)
  raise {value : Option Expr} (h : ∀ e ∈ value, J.expr e) (pos : Position) : J.stmt (.raise value pos)
  attempt {body : List Stmt} (hb : J.Block body) (name : Option String) {handler : List Stmt} (hh : J.Block handler)
    (pos : Position) : J.stmt (.attempt body name handler pos)
  importModule {path : Expr} (h : J.expr path) (pos : Position) : J.stmt (.importModule path pos)
  arm (patterns : List Constant) {guard : Option Expr} (hg : ∀ e ∈ guard, J.expr e) {action : Expr}
    (ha : J.expr action) : J.arm (.mk patterns guard action)

/-- **Functions that have the property**, no two of one key. -/
structure Table (fs : List Function) : Prop where
  each : ∀ f ∈ fs, J.function f
  keyed : Keyed fs

/-- **A script that has the property.** -/
structure Whole (s : Program) : Prop where
  block : J.Block s.statements
  functions : J.Table s.functions

variable {J}

theorem Table.nil : J.Table [] := ⟨List.forall_mem_nil _, List.Pairwise.nil⟩

theorem Table.snoc {fs : List Function} (h : J.Table fs) {f : Function} (hf : J.function f)
    (new : ¬fs.any fun g => g.name == f.name && g.arity == f.arity) : J.Table (fs ++ [f]) :=
  ⟨List.forall_mem_append.mpr ⟨h.each, List.forall_mem_singleton.mpr hf⟩, h.keyed.snoc new⟩

end Judgement

namespace Parser

variable {α β γ : Type} {J : Judgement} {own outer : List String}

/-! ## §2 — steps of reading -/

/-- **Reading stands in a block** with these variables, within others from outside. -/
structure Reading.Stands (J : Judgement) (own outer : List String) (r : Reading) : Prop where
  names : r.locals.map Prod.fst = own ++ outer
  outside : r.outside = outer.length
  functions : J.Table r.functions

/-- **A step of reading** leads from some states to others. -/
structure Takes (I : Reading → Prop) (R : α → Reading → Prop) (p : Parse α) : Prop where
  run : ∀ r a r', I r → p.run r = .ok (a, r') → R a r'

/-- Nothing is asked of what is read. -/
abbrev Unasked (_ : α) : Prop := True

/-- **What is read** has a property, and the variables in reach are as before. -/
structure Tracks (J : Judgement) (Q : α → Prop) (p : Parse α) : Prop where
  takes : ∀ own outer, Takes (Reading.Stands J own outer) (fun a r => Q a ∧ r.Stands J own outer) p

/-- **A statement that is read** has the property, and fits the variables in reach, which it may add to. -/
structure Declares (J : Judgement) (p : Parse Stmt) : Prop where
  takes : ∀ own outer, Takes (Reading.Stands J own outer)
    (fun s r => J.stmt s ∧ (∀ d ∈ s.declaration?, d.Fits own) ∧ r.Stands J (owned own (declared [s])) outer) p

theorem Takes.bind {I : Reading → Prop} {R : α → Reading → Prop} {T : β → Reading → Prop} {p : Parse α}
    (h : Takes I R p) {f : α → Parse β} (hf : ∀ a, Takes (R a) T (f a)) : Takes I T (p >>= f) := by
  refine ⟨fun r b r' hr e => ?_⟩
  have both : (p.run r >>= fun x => (f x.1).run x.2) = .ok (b, r') := e
  cases first : p.run r with
  | error cause =>
    rw [first] at both
    cases both
  | ok x =>
    rw [first] at both
    exact (hf x.1).run x.2 b r' (h.run r x.1 x.2 hr first) both

/-- A state in which something else is the case. -/
theorem Takes.given {I : Reading → Prop} {R : α → Reading → Prop} {p : Parse α} {c : Prop}
    (h : c → Takes I R p) : Takes (fun r => c ∧ I r) R p :=
  ⟨fun r a r' hr e => (h hr.1).run r a r' hr.2 e⟩

theorem takes_fail {I : Reading → Prop} {R : α → Reading → Prop} (cause : SyntaxCause) (pos : Position) :
    Takes I R (Parser.fail cause pos) := ⟨fun _ _ _ _ e => nomatch e⟩

namespace Tracks

variable {Q : α → Prop} {R : β → Prop} {p : Parse α}

/-- **A step before others**, which go on from the same variables. -/
theorem first (h : Tracks J Q p) {T : β → Reading → Prop} {f : α → Parse β}
    (hf : ∀ a, Q a → Takes (Reading.Stands J own outer) T (f a)) : Takes (Reading.Stands J own outer) T (p >>= f) :=
  (h.takes own outer).bind fun a => .given (hf a)

theorem pure {a : α} (h : Q a) : Tracks J Q (Pure.pure a) := by
  refine ⟨fun own outer => ⟨fun r a' r' hr e => ?_⟩⟩
  cases e
  exact ⟨h, hr⟩

theorem bind (h : Tracks J Q p) {f : α → Parse β} (hf : ∀ a, Q a → Tracks J R (f a)) : Tracks J R (p >>= f) :=
  ⟨fun own outer => h.first fun a ha => (hf a ha).takes own outer⟩

/-- One step after another, of which the first matters no further. -/
theorem after (h : Tracks J Q p) {f : α → Parse β} (hf : ∀ a, Tracks J R (f a)) : Tracks J R (p >>= f) :=
  h.bind fun a _ => hf a

/-- One step after another, of which the first reads two things. -/
theorem afterPair {p : Parse (α × γ)} {S : α × γ → Prop} (h : Tracks J S p) {f : α × γ → Parse β}
    (hf : ∀ a c, Tracks J R (f (a, c))) : Tracks J R (p >>= f) :=
  h.after fun r => hf r.1 r.2

/-- A step that may be left out, before another one. -/
theorem guarded {c : Prop} [Decidable c] {S : γ → Prop} {q : Parse γ} (hq : Tracks J S q) (h : Tracks J Q p) :
    Tracks J Q (if c then q >>= fun _ => p else p) := by
  split
  · exact hq.after fun _ => h
  · exact h

theorem fail (cause : SyntaxCause) (pos : Position) : Tracks J Q (Parser.fail cause pos) :=
  ⟨fun _ _ => takes_fail cause pos⟩

theorem refuse (t : Token) (cause : SyntaxCause) (pos : Position) : Tracks J Q (Parser.refuse t cause pos) := by
  unfold Parser.refuse
  split <;> exact fail _ _

theorem unexpected (t : Token) (pos : Position) : Tracks J Q (Parser.unexpected t pos) := refuse ..

/-- A check that gives up or reads nothing. -/
theorem check (c : Prop) [Decidable c] (cause : SyntaxCause) (pos : Position) :
    Tracks J Unasked (if c then Parser.fail cause pos else Pure.pure () : Parse Unit) := by
  split
  · exact fail _ _
  · exact pure trivial

theorem get : Tracks J (fun r => J.Table r.functions) (get : Parse Reading) := by
  refine ⟨fun own outer => ⟨fun r a r' hr e => ?_⟩⟩
  cases e
  exact ⟨hr.functions, hr⟩

theorem modify {f : Reading → Reading} (h : ∀ own outer r, r.Stands J own outer → (f r).Stands J own outer) :
    Tracks J Unasked (modify f : Parse PUnit) := by
  refine ⟨fun own outer => ⟨fun r a r' hr e => ?_⟩⟩
  cases e
  exact ⟨trivial, h own outer r hr⟩

end Tracks

/-- **A statement that is no declaration** adds nothing to the variables in reach. -/
theorem Tracks.declares {p : Parse Stmt} (h : Tracks J J.Plain p) : Declares J p := by
  refine ⟨fun own outer => ⟨fun r s r' hr e => ?_⟩⟩
  obtain ⟨plain, hr'⟩ := (h.takes own outer).run r s r' hr e
  rw [declared_cons, plain.declares]
  exact ⟨plain.inner, by simp, hr'⟩

/-- A statement after something else. -/
theorem Tracks.thenDeclares {Q : α → Prop} {p : Parse α} (h : Tracks J Q p) {f : α → Parse Stmt}
    (hf : ∀ a, Q a → Declares J (f a)) : Declares J (p >>= f) :=
  ⟨fun own outer => h.first fun a ha => (hf a ha).takes own outer⟩

/-- **Reading stands behind statements of a block:** the block has the property so far, and its variables are in reach. -/
structure Reading.Behind (J : Judgement) (outer : List String) (body : List Stmt) (r : Reading) : Prop where
  block : J.Block body
  stands : r.Stands J (owned [] (declared body)) outer

section Blocks

variable {body : List Stmt}

/-- Something else that is read behind statements. -/
theorem Tracks.behind {Q : α → Prop} {p : Parse α} (h : Tracks J Q p) {T : β → Reading → Prop} {f : α → Parse β}
    (hf : ∀ a, Takes (Reading.Behind J outer body) T (f a)) : Takes (Reading.Behind J outer body) T (p >>= f) := by
  refine Takes.bind (R := fun _ => Reading.Behind J outer body) ⟨fun r a r' hr e => ?_⟩ hf
  exact ⟨hr.block, ((h.takes _ _).run r a r' hr.stands e).2⟩

/-- **Another statement of the block.** Without effect, it may be left out. -/
theorem Declares.behind {p : Parse Stmt} (h : Declares J p) {T : β → Reading → Prop} {f : Stmt → Parse β}
    (idle : ∀ s, s.isNoop → Takes (Reading.Behind J outer body) T (f s))
    (next : ∀ s, ¬s.isNoop → Takes (Reading.Behind J outer (body ++ [s])) T (f s)) :
    Takes (Reading.Behind J outer body) T (p >>= f) := by
  refine Takes.bind (R := fun s r => (s.isNoop → Reading.Behind J outer body r) ∧ Reading.Behind J outer (body ++ [s]) r)
    ⟨fun r s r' hr e => ?_⟩ fun s => ⟨fun r b r' hr e => ?_⟩
  · obtain ⟨inner, fits, stands⟩ := (h.takes _ _).run r s r' hr.stands e
    rw [← owned_append, ← declared_append] at stands
    refine ⟨fun noop => ⟨hr.block, ?_⟩, hr.block.snoc inner fits, stands⟩
    cases s with
    | noop pos =>
      rw [declared_append, declared_cons] at stands
      exact List.append_nil (declared body) ▸ stands
    | _ => cases noop
  · by_cases noop : s.isNoop
    · exact (idle s noop).run r b r' (hr.1 noop) e
    · exact (next s noop).run r b r' hr.2 e

theorem takes_behind (outer : List String) (body : List Stmt) :
    Takes (Reading.Behind J outer body) (Reading.Behind J outer) (pure body) := by
  refine ⟨fun r a r' hr e => ?_⟩
  cases e
  exact hr

end Blocks

/-! ## §3 — single tokens and variables -/

theorem tracks_peek : Tracks J Unasked peek := Tracks.get.after fun _ => .pure trivial

theorem tracks_advance : Tracks J Unasked advance := by
  refine .modify fun own outer r hr => ?_
  split
  · exact ⟨hr.names, hr.outside, hr.functions⟩
  · exact hr

theorem tracks_take : Tracks J Unasked take :=
  tracks_peek.after fun _ => tracks_advance.after fun _ => .pure trivial

theorem tracks_skipMark (mark : String) : Tracks J Unasked (skipMark mark) := by
  refine tracks_peek.afterPair fun t pos => ?_
  dsimp only
  split
  · exact tracks_advance.after fun _ => .pure trivial
  · exact .pure trivial

theorem tracks_demand (mark purpose : String) : Tracks J Unasked (demand mark purpose) := by
  refine tracks_peek.afterPair fun t pos => ?_
  dsimp only
  split
  · exact tracks_advance.after fun _ => .pure trivial
  · exact .refuse _ _ _

theorem tracks_variableName : Tracks J Unasked variableName := by
  refine tracks_take.afterPair fun t pos => ?_
  dsimp only
  split
  · exact .pure trivial
  · exact .fail _ _
  · exact .refuse _ _ _

theorem tracks_stepName : Tracks J Unasked stepName := by
  refine tracks_take.afterPair fun t pos => ?_
  dsimp only
  split
  · exact .pure trivial
  · split
    · exact .pure trivial
    · exact .fail _ _
  · exact .refuse _ _ _

theorem tracks_operatorAhead : Tracks J Unasked operatorAhead := by
  refine tracks_peek.afterPair fun t pos => ?_
  dsimp only
  split
  · split
    · exact .pure trivial
    · exact .fail _ _
  · exact .fail _ _
  · exact .pure trivial

theorem tracks_useVariable (name : String) (pos : Position) : Tracks J Unasked (useVariable name pos) := by
  refine .modify fun own outer r hr => ?_
  split
  · exact hr
  · exact ⟨hr.names, hr.outside, hr.functions⟩

/-- The variables that a closure shares are used where it stands. -/
theorem tracks_useVariables (captured : List (String × Position)) :
    Tracks J Unasked (forIn captured PUnit.unit fun c _ => do
      useVariable c.1 c.2
      pure (.yield PUnit.unit) : Parse PUnit) := by
  induction captured with
  | nil => exact .pure trivial
  | cons c cs ih =>
    rw [List.forIn_cons]
    refine Tracks.bind (Q := fun s => s = .yield PUnit.unit) ?_ fun s hs => ?_
    · exact (tracks_useVariable c.1 c.2).after fun _ => .pure rfl
    · rw [hs]
      exact ih

/-- **A new variable** is the first of its block. -/
theorem takes_addLocal (name : String) (constant : Bool) :
    Takes (Reading.Stands J own outer) (fun _ r => r.Stands J (name :: own) outer) (addLocal name constant) := by
  refine ⟨fun r a r' hr e => ?_⟩
  cases e
  exact ⟨congrArg (name :: ·) hr.names, hr.outside, hr.functions⟩

/-- The variables of the block are the first ones in reach. -/
theorem Reading.Stands.here {r : Reading} (h : r.Stands J own outer) :
    (r.locals.take (r.locals.length - r.outside)).map Prod.fst = own := by
  have count : r.locals.length = own.length + outer.length := by
    rw [← List.length_append, ← h.names, List.length_map]
  rw [List.map_take, h.names, count, h.outside, Nat.add_sub_cancel, List.take_left]

/-- **A declaration fits** the variables in reach: it takes the place of one of the block, or none has its name. -/
theorem takes_declareLocal (name : String) (constant : Bool) :
    Takes (Reading.Stands J own outer)
      (fun inPlace r => Declaration.Fits own ⟨name, inPlace⟩ ∧ r.Stands J (Declaration.after own ⟨name, inPlace⟩) outer)
      (declareLocal name constant) := by
  refine ⟨fun r a r' hr read => ?_⟩
  unfold declareLocal at read
  rw [StateT.run_bind, StateT.run_get, pure_bind] at read
  dsimp only at read
  split at read
  · rename_i i found
    cases read
    have there : own[i]? = some name := by
      obtain ⟨hi, named, -⟩ := List.findIdx?_eq_some_iff_getElem.mp found
      rw [← hr.here, List.getElem?_map, List.getElem?_eq_getElem hi]
      exact congrArg some (beq_iff_eq.mp named)
    refine ⟨fun back hb => Option.mem_some.mp hb ▸ there, ⟨?_, hr.outside, hr.functions⟩⟩
    -- the name of the entry stays
    obtain ⟨hi, same⟩ : ∃ hi : i < (own ++ outer).length, (own ++ outer)[i] = name := by
      apply List.getElem?_eq_some_iff.mp
      rw [List.getElem?_append_left (List.getElem?_eq_some_iff.mp there).1, there]
    show (r.locals.set i (name, constant)).map Prod.fst = own ++ outer
    rw [List.map_set, hr.names]
    exact same ▸ List.set_getElem_self hi
  · cases read
    exact ⟨nofun, congrArg (name :: ·) hr.names, hr.outside, hr.functions⟩

section Scopes

variable {Q : α → Prop} {p : Parse α}

/-- **A scope of its own** has no variables at first, and those that it has in the end are forgotten. -/
theorem tracks_inScope (h : ∀ outer, Takes (Reading.Stands J [] outer) (fun a r => Q a ∧ ∃ own, r.Stands J own outer) p) :
    Tracks J Q (inScope p) := by
  refine ⟨fun own outer => ⟨fun r a r' hr e => ?_⟩⟩
  have inside : Reading.Stands J [] (own ++ outer) { r with outside := r.locals.length } :=
    ⟨hr.names, by rw [← hr.names, List.length_map], hr.functions⟩
  have read : (p.run { r with outside := r.locals.length } >>= fun x => .ok (x.1, { x.2 with
      locals := x.2.locals.drop (x.2.locals.length - r.locals.length), outside := r.outside })) = .ok (a, r') := e
  cases body : p.run { r with outside := r.locals.length } with
  | error cause =>
    rw [body] at read
    cases read
  | ok x =>
    rw [body] at read
    obtain ⟨hx, new, left⟩ := (h _).run _ x.1 x.2 inside body
    cases read
    refine ⟨hx, ?_, hr.outside, left.functions⟩
    have count : x.2.locals.length - r.locals.length = new.length := by
      have after := congrArg List.length left.names
      have before := congrArg List.length hr.names
      simp only [List.length_map, List.length_append] at after before
      omega
    show (x.2.locals.drop (x.2.locals.length - r.locals.length)).map Prod.fst = own ++ outer
    rw [count, List.map_drop, left.names, List.drop_left]

/-- **Variables of its own** leave those in reach as they are. -/
theorem tracks_isolated (params : List String)
    (h : ∀ own, Takes (Reading.Stands J own []) (fun a r => Q a ∧ J.Table r.functions) p) :
    Tracks J (fun r => Q r.1) (isolated params p) := by
  refine ⟨fun own outer => ⟨fun r a r' hr e => ?_⟩⟩
  let start : Reading := { r with locals := (params.map ((·, false))).reverse, outside := 0, foreign := [] }
  have inside : Reading.Stands J params.reverse [] start := ⟨by simp [start, Function.comp_def], rfl, hr.functions⟩
  have read : (p.run start >>= fun x => .ok ((x.1, x.2.foreign), { x.2 with
      locals := r.locals, outside := r.outside, foreign := r.foreign })) = .ok (a, r') := e
  cases body : p.run start with
  | error cause =>
    rw [body] at read
    cases read
  | ok x =>
    rw [body] at read
    obtain ⟨hx, functions⟩ := (h _).run _ x.1 x.2 inside body
    cases read
    exact ⟨hx, hr.names, hr.outside, functions⟩

end Scopes

theorem tracks_parameters (close function : String) (fuel : Nat) (before : List String) :
    Tracks J Unasked (parameters close function fuel before) := by
  induction fuel generalizing before with
  | zero => exact .fail _ _
  | succ fuel ih =>
    unfold parameters
    refine tracks_take.afterPair fun t pos => ?_
    dsimp -zeta only
    split
    · exact .pure trivial
    · extract_lets more
      have tracks_more (name : String) : Tracks J Unasked (more name) := by
        refine tracks_take.afterPair fun t pos => ?_
        dsimp only
        split
        · exact .pure trivial
        · split
          · exact ih _
          · exact .refuse _ _ _
      split
      · split
        · exact Tracks.after (Q := Unasked) (.fail _ _) tracks_more
        · exact tracks_more _
      · exact Tracks.after (Q := Unasked) (.refuse _ _ _) tracks_more

/-! ## §4 — checks -/

theorem tracks_checkNoBlock : Tracks J Unasked checkNoBlock :=
  tracks_peek.afterPair fun _ _ => .check _ _ _

theorem tracks_checkNoAssignment : Tracks J Unasked checkNoAssignment :=
  tracks_peek.afterPair fun _ _ => .check _ _ _

theorem tracks_checkBool {e : Expr} (h : J.expr e) : Tracks J J.expr (checkBool e) := by
  unfold checkBool
  split
  · exact .fail _ _
  · exact .pure h

theorem tracks_checkIterable {e : Expr} (h : J.expr e) : Tracks J J.expr (checkIterable e) := by
  unfold checkIterable
  split
  · exact .pure h
  · exact .pure h
  · exact .pure h
  · exact .pure h
  · exact .fail _ _
  · exact .pure h

theorem tracks_checkIndex (root key : Expr) : Tracks J Unasked (checkIndex root key) := by
  unfold checkIndex
  dsimp only
  split
  · split
    · exact .fail _ _
    · exact .check _ _ _
  · split
    · exact .fail _ _
    · exact .fail _ _
    · exact .fail _ _
    · exact .check _ _ _
  · split
    · exact .fail _ _
    · exact .fail _ _
    · exact .fail _ _
    · exact .check _ _ _
  all_goals first | exact .fail _ _ | exact .pure trivial

theorem tracks_checkPatterns (afterRange : Bool) (es : List Expr) :
    Tracks J Unasked (checkPatterns afterRange es) := by
  induction es generalizing afterRange with
  | nil => exact .pure trivial
  | cons e es ih =>
    unfold checkPatterns
    split
    · exact .fail _ _
    · exact .guarded (.fail (Q := Unasked) _ _) ((ih _).after fun _ => .pure trivial)

theorem tracks_switchSeparator (ends : Bool) : Tracks J Unasked (switchSeparator ends) := by
  refine tracks_peek.afterPair fun t pos => ?_
  dsimp only
  split
  · exact tracks_advance
  · exact .pure trivial
  · exact .fail _ _
  · exact .fail _ _
  · split
    · exact .fail _ _
    · exact .pure trivial

theorem tracks_statementEnd (s : Stmt) (inBlock : Bool) : Tracks J Unasked (statementEnd s inBlock) := by
  refine tracks_peek.afterPair fun t pos => ?_
  dsimp only
  split
  · split
    · exact tracks_advance
    · exact .pure trivial
  · exact .fail _ _
  · exact .check _ _ _

/-! ## §5 — expressions built from what was read -/

section Building

variable (closed : J.Closed)

include closed

theorem tracks_literal (v : Constant) (pos : Position) (h : v.IsScalar) : Tracks J J.expr (literal v pos) :=
  tracks_advance.after fun _ => .pure (closed.constant pos h)

theorem tracks_reservedWord (m : Mode) (word : String) (pos : Position) :
    Tracks J J.expr (reservedWord m word pos) := by
  unfold reservedWord
  split
  · exact .pure (closed.this pos)
  · exact .fail _ _

theorem tracks_operation (op : String) {left right : Expr} (hl : J.expr left) (hr : J.expr right)
    (pos : Position) : Tracks J J.expr (operation op left right pos) := by
  have operands {a b : Expr} (ha : J.expr a) (hb : J.expr b) : ∀ e ∈ [a, b], J.expr e :=
    List.forall_mem_cons.mpr ⟨ha, List.forall_mem_singleton.mpr hb⟩
  have contains := closed.operation "contains" (operands hr hl) left.start
  unfold operation
  split
  · exact (tracks_checkBool hl).bind fun _ hl' => (tracks_checkBool hr).bind fun _ hr' => .pure (closed.both hl' hr' pos)
  · exact (tracks_checkBool hl).bind fun _ hl' => (tracks_checkBool hr).bind fun _ hr' => .pure (closed.either hl' hr' pos)
  · exact .pure (closed.orElse hl hr pos)
  · exact .pure contains
  · exact .pure (closed.operation _ (List.forall_mem_singleton.mpr contains) pos)
  · exact .pure (closed.operation _ (operands hl hr) pos)

theorem expr_negative {e : Expr} (h : J.expr e) (pos : Position) : J.expr (negative e pos) := by
  unfold negative
  split
  · split <;> exact closed.constant _ trivial
  · exact closed.constant _ trivial
  · exact closed.operation _ (List.forall_mem_singleton.mpr h) pos

/-- **An assignment**, if the left side can be assigned to. -/
theorem tracks_assignment {target value : Expr} (ht : J.expr target) (op : Option String) (hv : J.expr value)
    (pos : Position) : Tracks J J.Plain (assignment target op value pos) := by
  have built : Tracks J J.Plain (pure (.assign target op value pos)) := .pure ⟨closed.assign ht op hv pos, rfl⟩
  unfold assignment
  dsimp only
  split
  · refine Tracks.get.after fun r => ?_
    split
    · exact .fail _ _
    · exact built
  · exact built
  · split
    · exact .fail _ _
    · split
      · exact built
      · exact built
      · exact .fail _ _
  · split <;> exact .fail _ _
  · split <;> exact .fail _ _
  · split <;> exact .fail _ _
  · split <;> exact .fail _ _

end Building

/-! ## §6 — the grammar -/

/-- **Reading that nests at most so deep**, rule by rule. -/
structure Grammar (J : Judgement) (fuel : Nat) : Prop where
  closed : J.Closed
  expression : ∀ m, Tracks J J.expr (expression fuel m)
  binary : ∀ m parent left, J.expr left → Tracks J J.expr (binary fuel m parent left)
  unary : ∀ m, Tracks J J.expr (unary fuel m)
  steps : ∀ m root afterIndex before, (∀ s ∈ before, J.step s) →
    Tracks J (fun ss => ∀ s ∈ ss, J.step s) (steps fuel m root afterIndex before)
  callArguments : ∀ m name, Tracks J (fun es => ∀ e ∈ es, J.expr e) (callArguments fuel m name)
  moreArguments : ∀ m name before, (∀ e ∈ before, J.expr e) →
    Tracks J (fun es => ∀ e ∈ es, J.expr e) (moreArguments fuel m name before)
  primary : ∀ m, Tracks J J.expr (primary fuel m)
  bangCall : ∀ m name pos, Tracks J J.expr (bangCall fuel m name pos)
  templatePieces : ∀ m, Tracks J (fun es => ∀ e ∈ es, J.expr e) (templatePieces fuel m)
  arrayItems : ∀ m before, (∀ e ∈ before, J.expr e) →
    Tracks J (fun es => ∀ e ∈ es, J.expr e) (arrayItems fuel m before)
  objectFields : ∀ m before, (∀ f ∈ before, J.expr f.2) →
    Tracks J (fun fs => ∀ f ∈ fs, J.expr f.2) (objectFields fuel m before)
  closure : ∀ m, Tracks J J.expr (closure fuel m)
  ifStatement : ∀ m, Tracks J J.Plain (ifStatement fuel m)
  switchStatement : ∀ m, Tracks J J.Plain (switchStatement fuel m)
  switchArms : ∀ m before fallback, (∀ a ∈ before, J.arm a) → (∀ e ∈ fallback, J.expr e.1) →
    Tracks J (fun r => (∀ a ∈ r.1, J.arm a) ∧ ∀ e ∈ r.2, J.expr e) (switchArms fuel m before fallback)
  switchPatterns : ∀ m, Tracks J Unasked (switchPatterns fuel m)
  switchAction : ∀ m, Tracks J (fun r => J.expr r.1) (switchAction fuel m)
  loopStatement : ∀ m, Tracks J J.Plain (loopStatement fuel m)
  block : ∀ m, Tracks J J.Plain (block fuel m)
  blockBody : ∀ m, Tracks J J.Block (blockBody fuel m)
  blockStatements : ∀ m outer before,
    Takes (Reading.Behind J outer before) (Reading.Behind J outer) (blockStatements fuel m before)
  expressionStatement : ∀ m, Tracks J J.Plain (expressionStatement fuel m)
  statement : ∀ m, Declares J (statement fuel m)
  optionalValue : ∀ m, Tracks J (fun v => ∀ e ∈ v, J.expr e) (optionalValue fuel m)
  declaration : ∀ m constant, Declares J (declaration fuel m constant)
  tryStatement : ∀ m, Tracks J J.Plain (tryStatement fuel m)
  functionDefinition : ∀ pos, Tracks J Unasked (functionDefinition fuel pos)

theorem grammar_zero (closed : J.Closed) : Grammar J 0 where
  closed := closed
  expression _ := .fail _ _
  binary _ _ _ _ := .fail _ _
  unary _ := .fail _ _
  steps _ _ _ _ _ := .fail _ _
  callArguments _ _ := .fail _ _
  moreArguments _ _ _ _ := .fail _ _
  primary _ := .fail _ _
  bangCall _ _ _ := .fail _ _
  templatePieces _ := .fail _ _
  arrayItems _ _ _ := .fail _ _
  objectFields _ _ _ := .fail _ _
  closure _ := .fail _ _
  ifStatement _ := .fail _ _
  switchStatement _ := .fail _ _
  switchArms _ _ _ _ _ := .fail _ _
  switchPatterns _ := .fail _ _
  switchAction _ := .fail _ _
  loopStatement _ := .fail _ _
  block _ := .fail _ _
  blockBody _ := .fail _ _
  blockStatements _ _ _ := takes_fail _ _
  expressionStatement _ := .fail _ _
  statement _ := ⟨fun _ _ => takes_fail _ _⟩
  optionalValue _ := .fail _ _
  declaration _ _ := ⟨fun _ _ => takes_fail _ _⟩
  tryStatement _ := .fail _ _
  functionDefinition _ := .fail _ _

section Grammar

variable {fuel : Nat} (n : Grammar J fuel)

include n

section Expressions

variable (m : Mode)

theorem tracks_expression : Tracks J J.expr (expression (fuel + 1) m) := by
  unfold expression
  exact (n.unary m).bind fun left hl => n.binary m 1 left hl

theorem tracks_binary (parent : Nat) {left : Expr} (hl : J.expr left) :
    Tracks J J.expr (binary (fuel + 1) m parent left) := by
  unfold binary
  refine tracks_operatorAhead.afterPair fun t pos => ?_
  dsimp -zeta only
  extract_lets strength combined
  split
  · exact .pure hl
  · refine tracks_advance.after fun _ => (n.unary m).bind fun right hr => tracks_operatorAhead.after fun ahead => ?_
    extract_lets nextStrength
    have tracks_combined (right : Expr) (hr : J.expr right) : Tracks J J.expr (combined right) :=
      (tracks_operation n.closed t.text hl hr pos).bind fun built hb => n.binary m parent built hb
    -- an operator that binds stronger takes the right operand first
    split
    · exact (n.binary m _ right hr).bind tracks_combined
    · exact tracks_combined right hr

theorem tracks_unary : Tracks J J.expr (unary (fuel + 1) m) := by
  unfold unary
  refine tracks_peek.afterPair fun t pos => ?_
  dsimp only
  split
  · exact .fail _ _
  · exact tracks_advance.after fun _ => (n.unary m).bind fun e he => .pure (expr_negative n.closed he pos)
  · refine tracks_advance.after fun _ => (n.unary m).bind fun e he => ?_
    split
    · exact .pure he
    · exact .pure he
    · exact .pure (n.closed.operation _ (List.forall_mem_singleton.mpr he) pos)
  · exact tracks_advance.after fun _ => (n.unary m).bind fun e he =>
      .pure (n.closed.operation _ (List.forall_mem_singleton.mpr he) pos)
  · refine (n.primary m).bind fun root hr => ?_
    refine (n.steps m root false [] (List.forall_mem_nil _)).bind fun ss hs => ?_
    split
    · exact .pure hr
    · exact .pure (n.closed.chain hr hs)

theorem tracks_steps (root : Expr) (afterIndex : Bool) {before : List Step} (hb : ∀ s ∈ before, J.step s) :
    Tracks J (fun ss => ∀ s ∈ ss, J.step s) (steps (fuel + 1) m root afterIndex before) := by
  have more (afterIndex : Bool) {step : Step} (hs : J.step step) :
      Tracks J (fun ss => ∀ s ∈ ss, J.step s) (steps fuel m root afterIndex (before ++ [step])) :=
    n.steps m root afterIndex _ (List.forall_mem_append.mpr ⟨hb, List.forall_mem_singleton.mpr hs⟩)
  unfold steps
  refine tracks_peek.afterPair fun t pos => ?_
  dsimp only
  split
  case h_1 | h_2 =>
    refine tracks_advance.after fun _ => (n.expression { m with alternatives := false }).bind fun key hk => ?_
    refine .guarded (tracks_checkIndex _ key) ?_
    exact (tracks_demand _ _).after fun _ => more true (n.closed.index hk pos _)
  case h_3 | h_4 =>
    refine tracks_advance.after fun _ => tracks_stepName.afterPair fun name namePos => ?_
    refine tracks_peek.afterPair fun next _ => ?_
    dsimp only
    split
    · exact (n.callArguments m name).bind fun _ ha => more false (n.closed.method name ha namePos pos _)
    · exact (n.callArguments m name).bind fun _ ha => more false (n.closed.method name ha namePos pos _)
    · exact more false (n.closed.property name namePos pos _)
  case h_5 => exact .pure hb

theorem tracks_callArguments (name : String) :
    Tracks J (fun es => ∀ e ∈ es, J.expr e) (callArguments (fuel + 1) m name) := by
  unfold callArguments
  refine tracks_take.afterPair fun t _ => ?_
  dsimp only
  split
  · exact .pure (List.forall_mem_nil _)
  · refine tracks_peek.afterPair fun next pos => ?_
    dsimp only
    split
    · exact .fail _ _
    · exact tracks_advance.after fun _ => .pure (List.forall_mem_nil _)
    · exact n.moreArguments { m with alternatives := false } name [] (List.forall_mem_nil _)

theorem tracks_moreArguments (name : String) {before : List Expr} (hb : ∀ e ∈ before, J.expr e) :
    Tracks J (fun es => ∀ e ∈ es, J.expr e) (moreArguments (fuel + 1) m name before) := by
  unfold moreArguments
  refine tracks_peek.afterPair fun t _ => ?_
  dsimp -zeta only
  extract_lets after
  have tracks_after {es : List Expr} (hes : ∀ e ∈ es, J.expr e) :
      Tracks J (fun es => ∀ e ∈ es, J.expr e) (after es) := by
    refine tracks_peek.afterPair fun t pos => ?_
    dsimp only
    split
    · exact tracks_advance.after fun _ => .pure hes
    · exact tracks_advance.after fun _ => n.moreArguments m name es hes
    · exact .fail _ _
    · exact .refuse _ _ _
  split
  · exact tracks_after hb
  · refine (n.expression m).bind fun e he => ?_
    exact tracks_after (List.forall_mem_append.mpr ⟨hb, List.forall_mem_singleton.mpr he⟩)

theorem tracks_primary : Tracks J J.expr (primary (fuel + 1) m) := by
  have call (s : String) (pos : Position) : Tracks J J.expr
      (do return Expr.call s (← callArguments fuel { m with alternatives := false } s) pos false) :=
    (n.callArguments _ s).bind fun arguments ha => .pure (n.closed.call s ha pos _)
  have single {s : Stmt} (hs : J.Plain s) (pos : Position) : J.expr (.statements [s] pos) :=
    n.closed.statements (.single hs) pos
  have loop (pos : Position) : Tracks J J.expr
      (do return .statements [← loopStatement fuel { m with alternatives := false }] pos) :=
    (n.loopStatement _).bind fun s hs => .pure (single hs pos)
  unfold primary
  dsimp only
  refine tracks_peek.afterPair fun t pos => ?_
  dsimp only
  split
  · exact .fail _ _
  · exact tracks_literal n.closed _ pos trivial
  · exact tracks_literal n.closed _ pos trivial
  · exact tracks_literal n.closed _ pos trivial
  · exact tracks_literal n.closed _ pos trivial
  · exact tracks_literal n.closed _ pos trivial
  · rename_i s
    refine tracks_advance.after fun _ => (n.templatePieces _).bind fun pieces hp => .pure (n.closed.template ?_ pos)
    refine List.forall_mem_append.mpr ⟨?_, hp⟩
    split
    · exact List.forall_mem_nil _
    · exact List.forall_mem_singleton.mpr (n.closed.constant pos trivial)
  · rename_i s
    refine tracks_advance.after fun _ => tracks_peek.afterPair fun next _ => ?_
    dsimp only
    split
    · exact call s pos
    · exact call s pos
    · exact n.bangCall _ s pos
    · exact (tracks_useVariable s pos).after fun _ => .pure (n.closed.var s pos)
  · rename_i s
    refine tracks_advance.after fun _ => tracks_peek.afterPair fun next _ => ?_
    dsimp only
    split
    · split
      · exact call s pos
      · exact tracks_reservedWord n.closed m s pos
    · split
      · exact call s pos
      · exact tracks_reservedWord n.closed m s pos
    · split
      · exact n.bangCall _ s pos
      · exact tracks_reservedWord n.closed m s pos
    · exact tracks_reservedWord n.closed m s pos
  · exact .fail _ _
  · split
    · exact tracks_literal n.closed _ pos trivial
    · exact tracks_literal n.closed _ pos trivial
    · refine tracks_advance.after fun _ => (tracks_skipMark _).after fun closed => ?_
      split
      · exact .pure (n.closed.constant pos trivial)
      · exact (n.expression _).bind fun e he => (tracks_demand _ _).after fun _ => .pure he
    · exact tracks_advance.after fun _ => (n.arrayItems _ [] (List.forall_mem_nil _)).bind fun items hi =>
        .pure (n.closed.array hi pos)
    · exact tracks_advance.after fun _ => (n.objectFields _ [] (List.forall_mem_nil _)).bind fun fs hf =>
        .pure (n.closed.object hf pos)
    · exact (n.ifStatement _).bind fun s hs => .pure (single hs pos)
    · exact (n.switchStatement _).bind fun s hs => .pure (single hs pos)
    · exact n.closure _
    · exact n.closure _
    · split
      · exact .unexpected _ _
      · exact (n.block _).bind fun s hs => .pure (single hs pos)
    · split
      · exact .unexpected _ _
      · exact loop pos
    · split
      · exact .unexpected _ _
      · exact loop pos
    · split
      · exact .unexpected _ _
      · exact loop pos
    · split
      · exact .unexpected _ _
      · exact loop pos
    · exact .unexpected _ _

theorem tracks_bangCall (name : String) (pos : Position) :
    Tracks J J.expr (bangCall (fuel + 1) m name pos) := by
  unfold bangCall
  refine tracks_advance.after fun _ => tracks_peek.afterPair fun next nextPos => ?_
  dsimp only
  split
  · exact (n.callArguments m name).bind fun arguments ha => .pure (n.closed.call name ha pos _)
  · exact (n.callArguments m name).bind fun arguments ha => .pure (n.closed.call name ha pos _)
  · exact .refuse _ _ _

theorem tracks_templatePieces : Tracks J (fun es => ∀ e ∈ es, J.expr e) (templatePieces (fuel + 1) m) := by
  have text (s : String) (pos : Position) :
      ∀ e ∈ (if s.isEmpty then [] else [Expr.constant (.str s) pos]), J.expr e := by
    split
    · exact List.forall_mem_nil _
    · exact List.forall_mem_singleton.mpr (n.closed.constant pos trivial)
  unfold templatePieces
  refine tracks_peek.afterPair fun _ blockPos => (n.block m).bind fun body hb => ?_
  refine tracks_take.afterPair fun t pos => ?_
  have piece : J.expr (.statements [body] blockPos) := n.closed.statements (.single hb) blockPos
  dsimp only
  split
  · exact .pure (List.forall_mem_cons.mpr ⟨piece, text _ pos⟩)
  · refine (n.templatePieces m).bind fun rest hr => .pure ?_
    exact List.forall_mem_append.mpr ⟨List.forall_mem_cons.mpr ⟨piece, text _ pos⟩, hr⟩
  · exact .refuse _ _ _

theorem tracks_arrayItems {before : List Expr} (hb : ∀ e ∈ before, J.expr e) :
    Tracks J (fun es => ∀ e ∈ es, J.expr e) (arrayItems (fuel + 1) m before) := by
  unfold arrayItems
  refine tracks_peek.afterPair fun t pos => ?_
  dsimp only
  split
  · exact tracks_advance.after fun _ => .pure hb
  · exact .fail _ _
  · refine (n.expression m).bind fun e he => tracks_peek.afterPair fun t pos => ?_
    have more := n.arrayItems m (before ++ [e])
      (List.forall_mem_append.mpr ⟨hb, List.forall_mem_singleton.mpr he⟩)
    dsimp only
    split
    · exact tracks_advance.after fun _ => more
    · exact more
    · exact .fail _ _
    · exact .refuse _ _ _

theorem tracks_objectFields {before : List (String × Expr)} (hb : ∀ f ∈ before, J.expr f.2) :
    Tracks J (fun fs => ∀ f ∈ fs, J.expr f.2) (objectFields (fuel + 1) m before) := by
  unfold objectFields
  refine tracks_take.afterPair fun t pos => ?_
  dsimp only
  split
  case h_1 => exact .pure hb
  case h_2 => exact .fail _ _
  case h_3 | h_4 =>
    refine .guarded (Tracks.fail (Q := Unasked) _ _) ?_
    refine (tracks_demand _ _).after fun _ => (n.expression m).bind fun e he => tracks_peek.afterPair fun t pos => ?_
    have more (s : String) := n.objectFields m (before ++ [(s, e)])
      (List.forall_mem_append.mpr ⟨hb, List.forall_mem_singleton.mpr he⟩)
    dsimp only
    split
    · exact tracks_advance.after fun _ => more _
    · exact more _
    · exact .fail _ _
    · exact .refuse _ _ _
  case h_5 => split <;> exact .fail _ _
  case h_6 => exact .refuse _ _ _

/-- **A closure**, whose code is read with variables of its own. -/
theorem tracks_closure : Tracks J J.expr (closure (fuel + 1) m) := by
  unfold closure
  refine tracks_take.afterPair fun t pos => ?_
  dsimp -zeta only
  extract_lets mode body
  have tracks_body (params : List String) : Tracks J J.expr (body params) := by
    refine (tracks_isolated (Q := J.stmt) params fun own => ⟨fun r s r' hr e => ?_⟩).bind fun read hs => ?_
    · obtain ⟨inner, -, stands⟩ := ((n.statement mode).takes own []).run r s r' hr e
      exact ⟨inner, stands.functions⟩
    · have code := n.closed.function (closureName pos) (read.2.map (·.1) ++ params) (List.forall_mem_singleton.mpr hs)
      exact (tracks_useVariables read.2).after fun _ => .pure (n.closed.closure _ code pos)
  split
  · exact tracks_body []
  · exact Tracks.get.after fun r => (tracks_parameters _ _ _ _).after tracks_body

end Expressions

section Statements

variable (m : Mode)

theorem tracks_condition {β : Type} {R : β → Prop} {rest : Expr → Parse β}
    (h : ∀ e, J.expr e → Tracks J R (rest e)) :
    Tracks J R (do rest (← checkBool (← expression fuel m))) :=
  (n.expression m).bind fun _ he => (tracks_checkBool he).bind h

/-- The body of a loop or of a handler, whatever variables are there before it. -/
theorem takes_body : Takes (Reading.Stands J own outer) (fun body r => J.Block body ∧ ∃ own, r.Stands J own outer)
    (blockBody fuel m) :=
  ⟨fun r body r' hr e => ((n.blockBody m).takes own outer |>.run r body r' hr e).imp_right fun stands => ⟨own, stands⟩⟩

theorem tracks_ifStatement : Tracks J J.Plain (ifStatement (fuel + 1) m) := by
  unfold ifStatement
  refine tracks_take.afterPair fun _ pos => tracks_checkNoBlock.after fun _ => tracks_condition n m fun cond hc => ?_
  refine tracks_checkNoAssignment.after fun _ => (n.blockBody m).bind fun yes hy => ?_
  have branch {no : List Stmt} (hn : J.Block no) : J.Plain (.branch cond yes no pos) :=
    ⟨n.closed.branch hc hy hn pos, rfl⟩
  refine (tracks_skipMark _).after fun more => ?_
  split
  · refine tracks_peek.afterPair fun t _ => ?_
    dsimp only
    split
    · exact (n.ifStatement m).bind fun s hs => .pure (branch (.single hs))
    · exact (n.blockBody m).bind fun no hn => .pure (branch hn)
  · exact .pure (branch .nil)

theorem tracks_switchStatement : Tracks J J.Plain (switchStatement (fuel + 1) m) := by
  unfold switchStatement
  refine tracks_take.afterPair fun _ pos => (n.expression m).bind fun item hi => (tracks_demand _ _).after fun _ => ?_
  exact (n.switchArms m [] none (List.forall_mem_nil _) forall_mem_none).bind fun r hr =>
    .pure ⟨n.closed.switch hi hr.1 hr.2 pos, rfl⟩

theorem tracks_switchArms {before : List Arm} {fallback : Option (Expr × Position)}
    (hb : ∀ a ∈ before, J.arm a) (hf : ∀ e ∈ fallback, J.expr e.1) :
    Tracks J (fun r => (∀ a ∈ r.1, J.arm a) ∧ ∀ e ∈ r.2, J.expr e)
      (switchArms (fuel + 1) m before fallback) := by
  unfold switchArms
  refine tracks_peek.afterPair fun t pos => ?_
  dsimp -zeta only
  extract_lets last hasRange
  split
  · refine tracks_advance.after fun _ => .pure ⟨hb, fun e mem => ?_⟩
    obtain ⟨x, there, rfl⟩ := Option.map_eq_some_iff.mp mem
    exact hf x there
  · exact .fail _ _
  · exact .fail _ _
  · refine tracks_advance.after fun _ => tracks_peek.afterPair fun t ifPos => ?_
    have tracks_last : Tracks J (fun r => (∀ a ∈ r.1, J.arm a) ∧ ∀ e ∈ r.2, J.expr e) (last ()) :=
      (n.switchAction m).bind fun r ha => (tracks_switchSeparator _).after fun _ =>
        n.switchArms m before _ hb fun e mem => Option.mem_some.mp mem ▸ ha
    exact .guarded (Tracks.fail (Q := Unasked) _ _) tracks_last
  · refine (n.switchPatterns _).after fun patterns => (tracks_checkPatterns _ _).after fun values => ?_
    refine (tracks_skipMark _).after fun guarded => ?_
    extract_lets arm
    have tracks_arm (guard : Option Expr) (hg : ∀ e ∈ guard, J.expr e) :
        Tracks J (fun r => (∀ a ∈ r.1, J.arm a) ∧ ∀ e ∈ r.2, J.expr e) (arm guard) :=
      (n.switchAction m).bind fun r ha => (tracks_switchSeparator _).after fun _ =>
        n.switchArms m _ none
          (List.forall_mem_append.mpr ⟨hb, List.forall_mem_singleton.mpr (n.closed.arm values hg ha)⟩) forall_mem_none
    split
    · exact tracks_checkNoBlock.after fun _ => tracks_condition n m fun g hg =>
        tracks_arm _ fun x mem => Option.mem_some.mp mem ▸ hg
    · exact tracks_arm none forall_mem_none

theorem tracks_switchPatterns : Tracks J Unasked (switchPatterns (fuel + 1) m) := by
  unfold switchPatterns
  refine Tracks.after (Q := Unasked) ⟨fun own outer => ⟨fun r e r' hr read => ⟨trivial, ?_⟩⟩⟩ fun e =>
    (tracks_skipMark _).after fun more => ?_
  · -- a failure is worded anew, and what is read stays as it is
    cases h : expression fuel m r with
    | error cause =>
      simp only [StateT.run, h] at read
      cases read
    | ok out =>
      simp only [StateT.run, h] at read
      cases read
      exact (((n.expression m).takes own outer).run r e r' hr h).2
  · split
    · exact (n.switchPatterns m).after fun _ => .pure trivial
    · exact .pure trivial

/-- **The statement of an arm** is a block of its own. -/
theorem tracks_switchAction : Tracks J (fun r => J.expr r.1) (switchAction (fuel + 1) m) := by
  unfold switchAction
  refine (tracks_demand _ _).after fun _ => ?_
  split
  · exact (n.expression m).bind fun e he => .pure he
  · refine tracks_peek.afterPair fun _ pos => ?_
    refine (tracks_inScope (Q := fun s => J.Block [s]) fun outer => ⟨fun r s r' hr e => ?_⟩).bind fun s hs =>
      .pure (n.closed.statements hs pos)
    obtain ⟨inner, fits, stands⟩ := ((n.statement _).takes [] outer).run r s r' hr e
    exact ⟨Judgement.Block.nil.snoc inner fits, _, stands⟩

theorem tracks_loopStatement : Tracks J J.Plain (loopStatement (fuel + 1) m) := by
  unfold loopStatement
  refine tracks_take.afterPair fun t pos => ?_
  dsimp -zeta only
  extract_lets inner each
  split
  · refine tracks_checkNoBlock.after fun _ => tracks_condition n m fun cond hc => ?_
    exact tracks_checkNoAssignment.after fun _ => (n.blockBody _).bind fun body hb =>
      .pure ⟨n.closed.repeatWhile (fun x mem => Option.mem_some.mp mem ▸ hc) hb pos, rfl⟩
  · exact (n.blockBody _).bind fun body hb =>
      .pure ⟨n.closed.repeatWhile forall_mem_none hb pos, rfl⟩
  · refine (n.blockBody _).bind fun body hb => tracks_take.afterPair fun t kindPos => ?_
    dsimp -zeta only
    extract_lets until_
    have tracks_until (goOn : Bool) : Tracks J J.Plain (until_ goOn) :=
      tracks_checkNoBlock.after fun _ => tracks_condition n m fun cond hc => tracks_checkNoAssignment.after fun _ =>
        .pure ⟨n.closed.repeatAfter hb hc goOn pos, rfl⟩
    split
    · exact tracks_until true
    · exact tracks_until false
    · exact Tracks.after (Q := Unasked) (.refuse _ _ _) tracks_until
  · refine (tracks_skipMark _).after fun counted => ?_
    have tracks_each (names : String × Option String) : Tracks J J.Plain (each names) := by
      refine (tracks_demand _ _).after fun _ => tracks_checkNoBlock.after fun _ => (n.expression m).bind fun e he => ?_
      refine (tracks_checkIterable he).bind fun items hi => ?_
      refine (tracks_inScope (Q := J.Block) fun outer => ?_).bind fun body hb =>
        .pure ⟨n.closed.each names.1 names.2 hi hb pos, rfl⟩
      -- the variables of the loop are there before its body
      cases names.2 with
      | some c => exact (takes_addLocal c _).bind fun _ => (takes_addLocal names.1 _).bind fun _ => takes_body n _
      | none => exact (takes_addLocal names.1 _).bind fun _ => takes_body n _
    split
    · refine tracks_variableName.afterPair fun name _ => (tracks_demand _ _).after fun _ => ?_
      refine tracks_variableName.afterPair fun counter counterPos => ?_
      refine .guarded (Tracks.fail (Q := Unasked) _ _) ?_
      exact (tracks_demand _ _).after fun _ => tracks_each (name, some counter)
    · exact tracks_variableName.afterPair fun name _ => tracks_each (name, none)

theorem tracks_block : Tracks J J.Plain (block (fuel + 1) m) := by
  unfold block
  exact tracks_peek.afterPair fun _ pos => (n.blockBody m).bind fun body hb => .pure ⟨n.closed.block hb pos, rfl⟩

theorem tracks_blockBody : Tracks J J.Block (blockBody (fuel + 1) m) := by
  unfold blockBody
  refine (tracks_demand _ _).after fun _ => ?_
  split
  · refine (n.expressionStatement m).bind fun s hs => tracks_take.afterPair fun t pos => ?_
    dsimp only
    split
    · exact .pure (.single hs)
    · exact .refuse _ _ _
  · refine tracks_inScope fun outer => ⟨fun r body r' hr e => ?_⟩
    obtain ⟨block, stands⟩ := (n.blockStatements _ outer []).run r body r' ⟨.nil, hr⟩ e
    exact ⟨block, _, stands⟩

theorem takes_blockStatements (outer : List String) (before : List Stmt) :
    Takes (Reading.Behind J outer before) (Reading.Behind J outer) (blockStatements (fuel + 1) m before) := by
  unfold blockStatements
  refine tracks_peek.behind fun ahead => ?_
  dsimp only
  split
  · exact tracks_advance.behind fun _ => takes_behind outer before
  · exact takes_fail _ _
  · exact takes_fail _ _
  · refine (n.statement m).behind (fun s noop => ?_) fun s more => ?_
    · rw [if_pos noop]
      exact n.blockStatements m outer before
    · rw [if_neg more]
      exact (tracks_statementEnd s true).behind fun _ => n.blockStatements m outer _

theorem tracks_expressionStatement : Tracks J J.Plain (expressionStatement (fuel + 1) m) := by
  unfold expressionStatement
  refine (n.expression m).bind fun target ht => tracks_peek.afterPair fun t pos => ?_
  dsimp only
  split
  · exact tracks_advance.after fun _ => (n.expression m).bind fun value hv => tracks_assignment n.closed ht none hv pos
  · split
    · exact tracks_advance.after fun _ => (n.expression m).bind fun value hv => tracks_assignment n.closed ht _ hv pos
    · exact .pure ⟨n.closed.alone ht, rfl⟩

/-- **A statement.** A declaration is the only one that adds to the variables in reach. -/
theorem declares_statement : Declares J (statement (fuel + 1) m) := by
  have noop (pos : Position) : J.Plain (.noop pos) := ⟨n.closed.noop pos, rfl⟩
  unfold statement
  refine tracks_peek.thenDeclares fun ahead _ => ?_
  dsimp only
  split
  · exact (Tracks.pure (noop _)).declares
  · split
    · exact (tracks_advance.after fun _ => .pure (noop _)).declares
    · exact (n.block m).declares
    · refine Tracks.declares (.guarded (Tracks.fail (Q := Unasked) _ _) ?_)
      exact tracks_advance.after fun _ => (n.functionDefinition _).after fun _ => .pure (noop _)
    · refine Tracks.declares (.guarded (Tracks.fail (Q := Unasked) _ _) ?_)
      exact tracks_advance.after fun _ => (tracks_demand _ _).after fun fnPos =>
        (n.functionDefinition fnPos).after fun _ => .pure (noop _)
    · exact (n.ifStatement _).declares
    · exact (n.switchStatement _).declares
    · exact (n.loopStatement _).declares
    · exact (n.loopStatement _).declares
    · exact (n.loopStatement _).declares
    · exact (n.loopStatement _).declares
    · refine Tracks.declares (.guarded (Tracks.fail (Q := Unasked) _ _) ?_)
      exact tracks_advance.after fun _ => .pure ⟨n.closed.proceed _, rfl⟩
    · refine Tracks.declares (.guarded (Tracks.fail (Q := Unasked) _ _) ?_)
      exact tracks_advance.after fun _ => (n.optionalValue m).bind fun v hv => .pure ⟨n.closed.leave hv _, rfl⟩
    · exact (tracks_advance.after fun _ => (n.optionalValue m).bind fun v hv => .pure ⟨n.closed.giveBack hv _, rfl⟩).declares
    · exact (tracks_advance.after fun _ => (n.optionalValue m).bind fun v hv => .pure ⟨n.closed.raise hv _, rfl⟩).declares
    · exact (n.tryStatement _).declares
    · exact n.declaration m false
    · exact n.declaration m true
    · refine Tracks.declares (tracks_advance.after fun _ => (n.expression m).bind fun path hp => ?_)
      refine (tracks_skipMark _).after fun named => ?_
      exact .guarded tracks_variableName (.pure ⟨n.closed.importModule hp _, rfl⟩)
    · exact (n.expressionStatement m).declares
  · exact (n.expressionStatement m).declares

theorem tracks_optionalValue : Tracks J (fun v => ∀ e ∈ v, J.expr e) (optionalValue (fuel + 1) m) := by
  unfold optionalValue
  refine tracks_peek.afterPair fun t _ => ?_
  dsimp only
  split
  · exact .pure forall_mem_none
  · exact .pure forall_mem_none
  · exact .pure forall_mem_none
  · exact (n.expression m).bind fun e he => .pure fun x mem => Option.mem_some.mp mem ▸ he

/-- **A declaration** stands for a new variable, or takes the place of one of its block. -/
theorem declares_declaration (constant : Bool) : Declares J (declaration (fuel + 1) m constant) := by
  unfold declaration
  refine tracks_advance.thenDeclares fun _ _ => tracks_variableName.thenDeclares fun named _ => ?_
  obtain ⟨name, pos⟩ := named
  refine (tracks_skipMark _).thenDeclares fun given _ => ?_
  extract_lets declared
  have declares_declared (value : Expr) (hv : J.expr value) : Declares J (declared value) := by
    refine ⟨fun own outer => (takes_declareLocal name constant).bind fun inPlace => ⟨fun r s r' hr e => ?_⟩⟩
    cases e
    refine ⟨n.closed.declare name constant inPlace hv pos, fun d hd => ?_, hr.2⟩
    cases hd
    exact hr.1
  split
  · exact (n.expression m).thenDeclares declares_declared
  · exact declares_declared _ (n.closed.constant pos trivial)

theorem tracks_tryStatement : Tracks J J.Plain (tryStatement (fuel + 1) m) := by
  unfold tryStatement
  refine tracks_take.afterPair fun _ pos => (n.blockBody m).bind fun body hb => (tracks_demand _ _).after fun _ => ?_
  refine (tracks_skipMark _).after fun named => ?_
  extract_lets -underBinder handled
  have tracks_handled (name : Option String) : Tracks J J.Plain (handled name) := by
    refine (tracks_inScope (Q := J.Block) fun outer => ?_).bind fun handler hh =>
      .pure ⟨n.closed.attempt hb name hh pos, rfl⟩
    cases name with
    | some n' => exact (takes_addLocal n' _).bind fun _ => takes_body n m
    | none => exact takes_body n m
  split
  · exact tracks_variableName.afterPair fun name _ => (tracks_demand _ _).after fun _ => tracks_handled (some name)
  · exact tracks_handled none

end Statements

/-- **The definition of a function**, which joins those that were read before. -/
theorem tracks_functionDefinition (pos : Position) : Tracks J Unasked (functionDefinition (fuel + 1) pos) := by
  unfold functionDefinition
  refine tracks_take.afterPair fun t namePos => ?_
  dsimp -zeta only
  extract_lets named
  have tracks_named (name : String) : Tracks J Unasked (named name) := by
    refine tracks_take.afterPair fun t openPos => ?_
    dsimp -zeta only
    extract_lets listed
    have tracks_listed (params : List String) : Tracks J Unasked (listed params) := by
      refine tracks_peek.afterPair fun t bodyPos => .guarded (Tracks.refuse (Q := Unasked) _ _ _) ?_
      refine (tracks_isolated (Q := J.Block) params fun own => ⟨fun r body r' hr e => ?_⟩).bind fun read hb => ?_
      · obtain ⟨block, stands⟩ := ((n.blockBody _).takes own []).run r body r' hr e
        exact ⟨block, stands.functions⟩
      · refine Tracks.get.bind fun r before => ?_
        dsimp only
        split
        · exact Tracks.bind (Q := fun _ => False) (.fail _ _) fun _ never => never.elim
        · rename_i new
          exact .modify fun own outer r hr =>
            ⟨hr.names, hr.outside, before.snoc (n.closed.function name params hb.statements) new⟩
    split
    · exact tracks_listed []
    · exact Tracks.get.after fun r => (tracks_parameters _ _ _ _).after tracks_listed
    · exact Tracks.after (Q := Unasked) (.refuse _ _ _) tracks_listed
  split
  · exact tracks_named _
  · exact Tracks.after (Q := Unasked) (.fail _ _) tracks_named
  · exact Tracks.after (Q := Unasked) (.refuse _ _ _) tracks_named

end Grammar

/-- **What is read has the property**, however deep reading nests. -/
theorem grammar (closed : J.Closed) (fuel : Nat) : Grammar J fuel := by
  induction fuel with
  | zero => exact grammar_zero closed
  | succ fuel n => exact {
      closed
      expression := tracks_expression n
      binary := fun m parent _ hl => tracks_binary n m parent hl
      unary := tracks_unary n
      steps := fun m root afterIndex _ hb => tracks_steps n m root afterIndex hb
      callArguments := tracks_callArguments n
      moreArguments := fun m name _ hb => tracks_moreArguments n m name hb
      primary := tracks_primary n
      bangCall := tracks_bangCall n
      templatePieces := tracks_templatePieces n
      arrayItems := fun m _ hb => tracks_arrayItems n m hb
      objectFields := fun m _ hb => tracks_objectFields n m hb
      closure := tracks_closure n
      ifStatement := tracks_ifStatement n
      switchStatement := tracks_switchStatement n
      switchArms := fun m _ _ hb hf => tracks_switchArms n m hb hf
      switchPatterns := tracks_switchPatterns n
      switchAction := tracks_switchAction n
      loopStatement := tracks_loopStatement n
      block := tracks_block n
      blockBody := tracks_blockBody n
      blockStatements := takes_blockStatements n
      expressionStatement := tracks_expressionStatement n
      statement := declares_statement n
      optionalValue := tracks_optionalValue n
      declaration := declares_declaration n
      tryStatement := tracks_tryStatement n
      functionDefinition := tracks_functionDefinition n }

/-- **The statements of a script**, after those in `before`. -/
theorem takes_globalStatements (closed : J.Closed) (fuel : Nat) (outer : List String) (before : List Stmt) :
    Takes (Reading.Behind J outer before) (Reading.Behind J outer) (globalStatements fuel before) := by
  induction fuel generalizing before with
  | zero => exact takes_fail _ _
  | succ fuel ih =>
    unfold globalStatements
    refine tracks_peek.behind fun ahead => ?_
    dsimp only
    split
    · exact takes_behind outer before
    · refine ((grammar closed fuel).statement _).behind (fun s noop => ?_) fun s more => ?_
      · rw [if_pos noop]
        exact ih before
      · rw [if_neg more]
        exact (tracks_statementEnd s false).behind fun _ => ih _

/-! ## §7 — whole texts -/

variable {text : String} {s : Program}

/-- **A script that is read** has every property that code has when its parts do. -/
theorem read_script (closed : J.Closed) (h : script text = .ok s) : J.Whole s := by
  have start : Reading.Behind J [] [] { tokens := Lexer.tokens text } := ⟨.nil, rfl, rfl, .nil⟩
  unfold script at h
  generalize read : run _ text = r at h
  cases r with
  | error cause => cases h
  | ok r =>
    cases h
    obtain ⟨block, stands⟩ := (takes_globalStatements closed _ [] []).run _ r.1 r.2 start read
    exact ⟨block, stands.functions⟩

/-- What is read from the start of a text. -/
theorem Tracks.whole {Q : α → Prop} {p : Nat → Parse α} (h : ∀ fuel, Tracks J Q (p fuel)) {r : α × Reading}
    (read : run p text = .ok r) : Q r.1 :=
  have start : Reading.Stands J [] [] { tokens := Lexer.tokens text } := ⟨rfl, rfl, .nil⟩
  (((h _).takes [] []).run _ r.1 r.2 start read).1

/-- **A single expression that is read** has every property that code has when its parts do. -/
theorem read_singleExpression (closed : J.Closed) (h : singleExpression text = .ok s) : J.Whole s := by
  unfold singleExpression at h
  generalize read : run _ text = r at h
  cases r with
  | error cause => cases h
  | ok r =>
    cases h
    have he := Tracks.whole (J := J) (Q := J.expr) (fun fuel => by
      refine ((grammar closed fuel).expression _).bind fun e he => tracks_peek.afterPair fun t pos => ?_
      dsimp only
      split
      · exact .pure he
      · exact .refuse _ _ _) read
    exact ⟨.single ⟨closed.alone he, rfl⟩, .nil⟩

end Parser

end Dialogue.Script
