import Dialogue.Proofs.Script.Block
/-!
# `Dialogue.Proofs.Script.Scoped` — code whose declarations stay in their blocks.

Code is *scoped* when in all its blocks declarations take the place of variables of the block only. The blocks of
functions and closures are excepted, for these have variables of their own.
-/

namespace Dialogue.Script

/-! ## §1 — scoped code -/

mutual

/-- **An expression whose blocks are scoped.** -/
inductive Expr.Scoped : Expr → Prop
  | constant (v : Constant) (pos : Position) : Expr.Scoped (.constant v pos)
  | var (name : String) (pos : Position) : Expr.Scoped (.var name pos)
  | this (pos : Position) : Expr.Scoped (.this pos)
  | template {pieces : List Expr} (h : ∀ e ∈ pieces, e.Scoped) (pos : Position) : Expr.Scoped (.template pieces pos)
  | array {items : List Expr} (h : ∀ e ∈ items, e.Scoped) (pos : Position) : Expr.Scoped (.array items pos)
  | object {fields : List (String × Expr)} (h : ∀ f ∈ fields, f.2.Scoped) (pos : Position) :
      Expr.Scoped (.object fields pos)
  | operation (op : String) {operands : List Expr} (h : ∀ e ∈ operands, e.Scoped) (pos : Position) :
      Expr.Scoped (.operation op operands pos)
  | call (name : String) {arguments : List Expr} (h : ∀ e ∈ arguments, e.Scoped) (pos : Position) (here : Bool) :
      Expr.Scoped (.call name arguments pos here)
  | both {a b : Expr} (ha : a.Scoped) (hb : b.Scoped) (pos : Position) : Expr.Scoped (.both a b pos)
  | either {a b : Expr} (ha : a.Scoped) (hb : b.Scoped) (pos : Position) : Expr.Scoped (.either a b pos)
  | orElse {a b : Expr} (ha : a.Scoped) (hb : b.Scoped) (pos : Position) : Expr.Scoped (.orElse a b pos)
  | chain {root : Expr} (hr : root.Scoped) {steps : List Step} (hs : ∀ s ∈ steps, s.Scoped) :
      Expr.Scoped (.chain root steps)
  | closure (captured : List (String × Position)) (code : Function) (pos : Position) :
      Expr.Scoped (.closure captured code pos)
  | statements {body : List Stmt} (h : ∀ s ∈ body, s.Scoped) (placed : Placed [] (declared body)) (pos : Position) :
      Expr.Scoped (.statements body pos)

/-- A step of a chain whose blocks are scoped. -/
inductive Step.Scoped : Step → Prop
  | property (name : String) (pos dot : Position) (optional : Bool) : Step.Scoped (.property name pos dot optional)
  | index {key : Expr} (h : key.Scoped) (bracket : Position) (optional : Bool) :
      Step.Scoped (.index key bracket optional)
  | method (name : String) {arguments : List Expr} (h : ∀ e ∈ arguments, e.Scoped) (pos dot : Position)
      (optional : Bool) : Step.Scoped (.method name arguments pos dot optional)

/-- **A statement whose blocks are scoped.** A declaration may be so, whatever it takes the place of. -/
inductive Stmt.Scoped : Stmt → Prop
  | noop (pos : Position) : Stmt.Scoped (.noop pos)
  | declare (name : String) (constant : Bool) (inPlace : Option Nat) {value : Expr} (h : value.Scoped)
      (pos : Position) : Stmt.Scoped (.declare name constant inPlace value pos)
  | assign {target : Expr} (ht : target.Scoped) (op : Option String) {value : Expr} (hv : value.Scoped)
      (pos : Position) : Stmt.Scoped (.assign target op value pos)
  | expr {e : Expr} (h : e.Scoped) : Stmt.Scoped (.expr e)
  | block {body : List Stmt} (h : ∀ s ∈ body, s.Scoped) (placed : Placed [] (declared body)) (pos : Position) :
      Stmt.Scoped (.block body pos)
  | branch {cond : Expr} (hc : cond.Scoped) {yes no : List Stmt} (hy : ∀ s ∈ yes, s.Scoped)
      (placedYes : Placed [] (declared yes)) (hn : ∀ s ∈ no, s.Scoped) (placedNo : Placed [] (declared no))
      (pos : Position) : Stmt.Scoped (.branch cond yes no pos)
  | switch {item : Expr} (hi : item.Scoped) {arms : List Arm} (ha : ∀ a ∈ arms, a.Scoped) {fallback : Option Expr}
      (hf : ∀ e ∈ fallback, e.Scoped) (pos : Position) : Stmt.Scoped (.switch item arms fallback pos)
  | repeatWhile {cond : Option Expr} (hc : ∀ e ∈ cond, e.Scoped) {body : List Stmt} (hb : ∀ s ∈ body, s.Scoped)
      (placed : Placed [] (declared body)) (pos : Position) : Stmt.Scoped (.repeatWhile cond body pos)
  | repeatAfter {body : List Stmt} (hb : ∀ s ∈ body, s.Scoped) (placed : Placed [] (declared body)) {cond : Expr}
      (hc : cond.Scoped) (goOn : Bool) (pos : Position) : Stmt.Scoped (.repeatAfter body cond goOn pos)
  | each (name : String) (counter : Option String) {items : Expr} (hi : items.Scoped) {body : List Stmt}
      (hb : ∀ s ∈ body, s.Scoped) (placed : Placed [] (declared body)) (pos : Position) :
      Stmt.Scoped (.each name counter items body pos)
  | leave {value : Option Expr} (h : ∀ e ∈ value, e.Scoped) (pos : Position) : Stmt.Scoped (.leave value pos)
  | proceed (pos : Position) : Stmt.Scoped (.proceed pos)
  | giveBack {value : Option Expr} (h : ∀ e ∈ value, e.Scoped) (pos : Position) : Stmt.Scoped (.giveBack value pos)
  | raise {value : Option Expr} (h : ∀ e ∈ value, e.Scoped) (pos : Position) : Stmt.Scoped (.raise value pos)
  | attempt {body : List Stmt} (hb : ∀ s ∈ body, s.Scoped) (placed : Placed [] (declared body)) (name : Option String)
      {handler : List Stmt} (hh : ∀ s ∈ handler, s.Scoped) (placedHandler : Placed [] (declared handler))
      (pos : Position) : Stmt.Scoped (.attempt body name handler pos)
  | importModule {path : Expr} (h : path.Scoped) (pos : Position) : Stmt.Scoped (.importModule path pos)

/-- An arm of a switch whose blocks are scoped. -/
inductive Arm.Scoped : Arm → Prop
  | mk (patterns : List Constant) {guard : Option Expr} (hg : ∀ e ∈ guard, e.Scoped) {action : Expr}
      (ha : action.Scoped) : Arm.Scoped (.mk patterns guard action)

end

/-- **Scoped code**, of each kind. -/
abbrev scopedCode : Judgement where
  expr := Expr.Scoped
  step := Step.Scoped
  stmt := Stmt.Scoped
  arm := Arm.Scoped
  function _ := True

/-- **A scoped block:** its declarations fit, and so do those of the blocks in it. -/
abbrev ScopedBlock (body : List Stmt) : Prop := scopedCode.Block body

/-- **A scoped statement that is no declaration.** -/
abbrev Stmt.Plain (s : Stmt) : Prop := scopedCode.Plain s

end Dialogue.Script
