import Dialogue.Script.Syntax
import Mathlib.Data.List.Infix
/-!
# `Dialogue.Proofs.Script.Block` — blocks of code and their declarations.

A variable that is declared again in its block takes the place of the first one, and the code says by a number where
that is. The number is right when it leads to a variable of the block itself that has this name; then no variable from
outside the block is ever replaced. What is proved of code goes from statements to blocks, together with this. Main
statements: which variables a block has after some of its declarations, that the first declarations of a block are right
when all of them are, and that a block stays right when it grows by a declaration that is.
-/

namespace Dialogue.Script

/-! ## §1 — declarations one after another -/

/-- **A declaration:** its name, and the variable that it takes the place of, if any, as a number of entries back. -/
structure Declaration where
  name : String
  inPlace : Option Nat
  deriving DecidableEq

namespace Declaration

/-- The variables of the block after a declaration, newest first. -/
def after (own : List String) (d : Declaration) : List String :=
  match d.inPlace with
  | none => d.name :: own
  | some _ => own

/-- **A declaration fits** when the variable that it takes the place of is one of the block, and has its name. -/
def Fits (own : List String) (d : Declaration) : Prop := ∀ back ∈ d.inPlace, own[back]? = some d.name

/-- The name, if it is that of a new variable. -/
def fresh? (d : Declaration) : Option String := if d.inPlace.isNone then some d.name else none

end Declaration

/-- **The variables of a block after declarations**, newest first. -/
def owned (own : List String) (ds : List Declaration) : List String := ds.foldl Declaration.after own

/-- **The names of new variables**, in the order of their declarations. -/
def fresh (ds : List Declaration) : List String := ds.filterMap Declaration.fresh?

/-- **Each declaration fits** the variables that the block has when its turn comes. -/
def Placed (own : List String) : List Declaration → Prop
  | [] => True
  | d :: ds => d.Fits own ∧ Placed (d.after own) ds

section Declarations

variable {own : List String} {d : Declaration} {ds es : List Declaration}

@[simp] theorem owned_nil (own : List String) : owned own [] = own := rfl

@[simp] theorem owned_cons (own : List String) (d : Declaration) (ds : List Declaration) :
    owned own (d :: ds) = owned (d.after own) ds := rfl

theorem owned_append (own : List String) (ds es : List Declaration) :
    owned own (ds ++ es) = owned (owned own ds) es := List.foldl_append

theorem placed_append : Placed own (ds ++ es) ↔ Placed own ds ∧ Placed (owned own ds) es := by
  induction ds generalizing own with
  | nil => simp [Placed]
  | cons d ds ih => simp [Placed, ih, and_assoc]

/-- **The first declarations fit** when all of them do. -/
theorem Placed.of_isPrefix (h : Placed own es) (first : ds <+: es) : Placed own ds := by
  obtain ⟨rest, rfl⟩ := first
  exact (placed_append.mp h).1

/-- **A block has the variables that were new in it**, and no others. -/
theorem owned_eq_fresh (own : List String) (ds : List Declaration) : owned own ds = (fresh ds).reverse ++ own := by
  induction ds generalizing own with
  | nil => rfl
  | cons d ds ih =>
    obtain ⟨name, inPlace⟩ := d
    rw [owned_cons, ih]
    cases inPlace <;> simp [fresh, Declaration.after, Declaration.fresh?]

theorem fresh_isPrefix (first : ds <+: es) : fresh ds <+: fresh es := first.filterMap _

end Declarations

/-! ## §2 — declarations among statements -/

/-- The declaration that a statement is. -/
def Stmt.declaration? : Stmt → Option Declaration
  | .declare name _ inPlace _ _ => some ⟨name, inPlace⟩
  | _ => none

/-- **The declarations among the statements of a block**, those in inner blocks excepted. -/
def declared (body : List Stmt) : List Declaration := body.filterMap Stmt.declaration?

theorem declared_append (ss ts : List Stmt) : declared (ss ++ ts) = declared ss ++ declared ts := List.filterMap_append

theorem declared_cons (s : Stmt) (ss : List Stmt) : declared (s :: ss) = s.declaration?.toList ++ declared ss := by
  unfold declared
  rw [List.filterMap_cons]
  cases s.declaration? <;> rfl

theorem declared_reverse (ss : List Stmt) : declared ss.reverse = (declared ss).reverse := List.filterMap_reverse

/-! ## §3 — properties of code -/

/-- **A property of code**, one for each kind of it. -/
structure Judgement where
  expr : Expr → Prop
  step : Step → Prop
  stmt : Stmt → Prop
  arm : Arm → Prop
  function : Function → Prop

namespace Judgement

variable (J : Judgement)

/-- **A block that has the property**, as far as its statements go, and whose declarations fit. -/
structure Block (body : List Stmt) : Prop where
  statements : ∀ s ∈ body, J.stmt s
  placed : Placed [] (declared body)

/-- **A statement that has the property**, and is no declaration. -/
structure Plain (s : Stmt) : Prop where
  inner : J.stmt s
  declares : s.declaration? = none

variable {J} {body : List Stmt} {s : Stmt}

theorem Block.nil : J.Block [] := ⟨List.forall_mem_nil _, trivial⟩

/-- **A block grows** by a statement that fits it. -/
theorem Block.snoc (h : J.Block body) (hs : J.stmt s)
    (fits : ∀ d ∈ s.declaration?, d.Fits (owned [] (declared body))) : J.Block (body ++ [s]) := by
  refine ⟨List.forall_mem_append.mpr ⟨h.statements, List.forall_mem_singleton.mpr hs⟩, ?_⟩
  rw [declared_append]
  refine placed_append.mpr ⟨h.placed, ?_⟩
  rw [declared_cons]
  cases e : s.declaration? with
  | none => trivial
  | some d => exact ⟨fits d e, trivial⟩

/-- **Statements that are no declarations** fit wherever they are. -/
theorem Block.plain (h : ∀ s ∈ body, J.Plain s) : J.Block body := by
  refine ⟨fun s mem => (h s mem).inner, ?_⟩
  have none : declared body = [] := List.filterMap_eq_nil_iff.mpr fun s mem => (h s mem).declares
  rw [none]
  trivial

theorem Block.single (h : J.Plain s) : J.Block [s] := .plain (List.forall_mem_singleton.mpr h)

end Judgement

end Dialogue.Script
