import Dialogue.Script.Syntax
/-!
# `Dialogue.Proofs.Script.Undeclaring` — code that brings no variable into reach.

Such code finds its variables by name and leaves them where they stand, so that it does not matter how many there are,
nor what the variables are that it does not name, unless it calls a function in its own scope. Main statement: code that
declares nothing is within what it mentions.
-/

namespace Dialogue.Script

theorem forall_mem_none {α : Type} {P : α → Prop} : ∀ a ∈ (none : Option α), P a :=
  fun a mem => absurd mem (Option.not_mem_none a)

/-- **What code looks at** where it stands. -/
inductive Mention
  /-- The variable of a name. -/
  | variable (name : String)
  /-- All variables in reach, for a function that is called in the scope of its caller. -/
  | scope
  deriving DecidableEq

/-- A variable of one of these names. -/
def Mention.Among (used : String → Prop) : Mention → Prop
  | .variable name => used name
  | .scope => False

instance (used : String → Prop) [DecidablePred used] : DecidablePred (Mention.Among used) := fun x =>
  match x with
  | .variable name => inferInstanceAs (Decidable (used name))
  | .scope => isFalse id

theorem Mention.Among.imp {used other : String → Prop} {x : Mention} (h : x.Among used)
    (weaker : ∀ name, used name → other name) : x.Among other := by
  match x with
  | .variable name => exact weaker name h
  | .scope => exact h

/-! ## §1 — code without declarations -/

section Within

variable (N : Mention → Prop)

mutual

/-- **An expression that declares nothing** where it stands, and that mentions nothing but what is in `N`. What a
closure does when it is called does not count, other than the variables it captures. -/
inductive Expr.Within : Expr → Prop
  | constant (v : Constant) (pos : Position) : Expr.Within (.constant v pos)
  | var {name : String} (h : N (.variable name)) (pos : Position) : Expr.Within (.var name pos)
  | this (pos : Position) : Expr.Within (.this pos)
  | template {pieces : List Expr} (h : ∀ e ∈ pieces, e.Within) (pos : Position) : Expr.Within (.template pieces pos)
  | array {items : List Expr} (h : ∀ e ∈ items, e.Within) (pos : Position) : Expr.Within (.array items pos)
  | object {fields : List (String × Expr)} (h : ∀ f ∈ fields, f.2.Within) (pos : Position) :
      Expr.Within (.object fields pos)
  | operation (op : String) {operands : List Expr} (h : ∀ e ∈ operands, e.Within) (pos : Position) :
      Expr.Within (.operation op operands pos)
  | call (name : String) {arguments : List Expr} (h : ∀ e ∈ arguments, e.Within) (pos : Position) {here : Bool}
      (hh : here → N .scope) : Expr.Within (.call name arguments pos here)
  | both {a b : Expr} (ha : a.Within) (hb : b.Within) (pos : Position) : Expr.Within (.both a b pos)
  | either {a b : Expr} (ha : a.Within) (hb : b.Within) (pos : Position) : Expr.Within (.either a b pos)
  | orElse {a b : Expr} (ha : a.Within) (hb : b.Within) (pos : Position) : Expr.Within (.orElse a b pos)
  | chain {root : Expr} (hr : root.Within) {steps : List Step} (hs : ∀ s ∈ steps, s.Within) :
      Expr.Within (.chain root steps)
  | closure {captured : List (String × Position)} (h : ∀ c ∈ captured, N (.variable c.1)) (code : Function)
      (pos : Position) : Expr.Within (.closure captured code pos)
  | statements {body : List Stmt} (h : ∀ s ∈ body, s.Within) (pos : Position) : Expr.Within (.statements body pos)

/-- A step of a chain that declares nothing. -/
inductive Step.Within : Step → Prop
  | property (name : String) (pos dot : Position) (optional : Bool) : Step.Within (.property name pos dot optional)
  | index {key : Expr} (h : key.Within) (bracket : Position) (optional : Bool) :
      Step.Within (.index key bracket optional)
  | method (name : String) {arguments : List Expr} (h : ∀ e ∈ arguments, e.Within) (pos dot : Position)
      (optional : Bool) : Step.Within (.method name arguments pos dot optional)

/-- **A statement that declares nothing**, of those that can stand in an expression without any declarations. -/
inductive Stmt.Within : Stmt → Prop
  | noop (pos : Position) : Stmt.Within (.noop pos)
  | assign {target : Expr} (ht : target.Within) (op : Option String) {value : Expr} (hv : value.Within)
      (pos : Position) : Stmt.Within (.assign target op value pos)
  | expr {e : Expr} (h : e.Within) : Stmt.Within (.expr e)
  | block {body : List Stmt} (h : ∀ s ∈ body, s.Within) (pos : Position) : Stmt.Within (.block body pos)
  | branch {cond : Expr} (hc : cond.Within) {yes no : List Stmt} (hy : ∀ s ∈ yes, s.Within)
      (hn : ∀ s ∈ no, s.Within) (pos : Position) : Stmt.Within (.branch cond yes no pos)
  | switch {item : Expr} (hi : item.Within) {arms : List Arm} (ha : ∀ a ∈ arms, a.Within) {fallback : Option Expr}
      (hf : ∀ e ∈ fallback, e.Within) (pos : Position) : Stmt.Within (.switch item arms fallback pos)

/-- An arm that declares nothing. -/
inductive Arm.Within : Arm → Prop
  | mk (patterns : List Constant) {guard : Option Expr} (hg : ∀ e ∈ guard, e.Within) {action : Expr}
      (ha : action.Within) : Arm.Within (.mk patterns guard action)

end

end Within

/-- Code that declares nothing, whatever it mentions. -/
abbrev Expr.DeclaresNothing (e : Expr) : Prop := e.Within fun _ => True

/-- A step that declares nothing, whatever it mentions. -/
abbrev Step.DeclaresNothing (s : Step) : Prop := s.Within fun _ => True

/-- A statement that declares nothing, whatever it mentions. -/
abbrev Stmt.DeclaresNothing (s : Stmt) : Prop := s.Within fun _ => True

/-- An arm that declares nothing, whatever it mentions. -/
abbrev Arm.DeclaresNothing (a : Arm) : Prop := a.Within fun _ => True

/-! ## §2 — what code mentions -/

mutual

/-- **What an expression mentions**, of which a closure mentions the variables that it captures. -/
def Expr.mentions : Expr → List Mention
  | .constant .. | .this _ => []
  | .var name _ => [.variable name]
  | .template es _ | .array es _ | .operation _ es _ => Expr.mentionsOfItems es
  | .call _ es _ here => (if here then [.scope] else []) ++ Expr.mentionsOfItems es
  | .object fs _ => Expr.mentionsOfFields fs
  | .both a b _ | .either a b _ | .orElse a b _ => a.mentions ++ b.mentions
  | .chain root steps => root.mentions ++ Step.mentionsOfItems steps
  | .closure captured _ _ => captured.map fun c => .variable c.1
  | .statements body _ => Stmt.mentionsOfItems body

/-- What items mention. -/
def Expr.mentionsOfItems : List Expr → List Mention
  | [] => []
  | e :: es => e.mentions ++ Expr.mentionsOfItems es

/-- What fields mention. -/
def Expr.mentionsOfFields : List (String × Expr) → List Mention
  | [] => []
  | (_, e) :: fs => e.mentions ++ Expr.mentionsOfFields fs

/-- What an expression mentions, if it is there. -/
def Expr.mentionsIfAny : Option Expr → List Mention
  | none => []
  | some e => e.mentions

/-- What a step mentions. -/
def Step.mentions : Step → List Mention
  | .property .. => []
  | .index key _ _ => key.mentions
  | .method _ arguments _ _ _ => Expr.mentionsOfItems arguments

/-- What steps mention. -/
def Step.mentionsOfItems : List Step → List Mention
  | [] => []
  | s :: ss => s.mentions ++ Step.mentionsOfItems ss

/-- **What a statement mentions**, other than the variables that it declares. -/
def Stmt.mentions : Stmt → List Mention
  | .noop _ | .proceed _ => []
  | .declare _ _ _ e _ | .expr e | .importModule e _ => e.mentions
  | .assign target _ value _ => target.mentions ++ value.mentions
  | .block body _ => Stmt.mentionsOfItems body
  | .branch cond yes no _ => cond.mentions ++ (Stmt.mentionsOfItems yes ++ Stmt.mentionsOfItems no)
  | .switch item arms fallback _ => item.mentions ++ (Arm.mentionsOfItems arms ++ Expr.mentionsIfAny fallback)
  | .repeatWhile cond body _ => Expr.mentionsIfAny cond ++ Stmt.mentionsOfItems body
  | .repeatAfter body cond _ _ => Stmt.mentionsOfItems body ++ cond.mentions
  | .each _ _ items body _ => items.mentions ++ Stmt.mentionsOfItems body
  | .leave e _ | .giveBack e _ | .raise e _ => Expr.mentionsIfAny e
  | .attempt body _ handler _ => Stmt.mentionsOfItems body ++ Stmt.mentionsOfItems handler

/-- What statements mention. -/
def Stmt.mentionsOfItems : List Stmt → List Mention
  | [] => []
  | s :: ss => s.mentions ++ Stmt.mentionsOfItems ss

/-- What arms mention. -/
def Arm.mentionsOfItems : List Arm → List Mention
  | [] => []
  | .mk _ guard action :: arms => Expr.mentionsIfAny guard ++ (action.mentions ++ Arm.mentionsOfItems arms)

end

section Names

variable {M N : Mention → Prop}

mutual

/-- **An expression that declares nothing** is within what it mentions. -/
theorem Expr.within_mentions : ∀ {e : Expr}, e.Within M → (∀ n ∈ e.mentions, N n) → e.Within N
  | .constant v pos, _, _ => .constant v pos
  | .this pos, _, _ => .this pos
  | .var name pos, _, hn => .var (hn _ (List.mem_singleton_self _)) pos
  | .template _ pos, .template h _, hn => .template (Expr.within_mentionsOfItems h hn) pos
  | .array _ pos, .array h _, hn => .array (Expr.within_mentionsOfItems h hn) pos
  | .object _ pos, .object h _, hn => .object (Expr.within_mentionsOfFields h hn) pos
  | .operation op _ pos, .operation _ h _, hn => .operation op (Expr.within_mentionsOfItems h hn) pos
  | .call name _ pos _, .call _ h _ _, hn =>
    have ⟨hnc, hna⟩ := List.forall_mem_append.mp hn
    .call name (Expr.within_mentionsOfItems h hna) pos fun called => hnc _ (by rw [if_pos called]; exact .head _)
  | .both _ _ pos, .both ha hb _, hn =>
    have ⟨hna, hnb⟩ := List.forall_mem_append.mp hn
    .both (Expr.within_mentions ha hna) (Expr.within_mentions hb hnb) pos
  | .either _ _ pos, .either ha hb _, hn =>
    have ⟨hna, hnb⟩ := List.forall_mem_append.mp hn
    .either (Expr.within_mentions ha hna) (Expr.within_mentions hb hnb) pos
  | .orElse _ _ pos, .orElse ha hb _, hn =>
    have ⟨hna, hnb⟩ := List.forall_mem_append.mp hn
    .orElse (Expr.within_mentions ha hna) (Expr.within_mentions hb hnb) pos
  | .chain _ _, .chain hr hs, hn =>
    have ⟨hnr, hns⟩ := List.forall_mem_append.mp hn
    .chain (Expr.within_mentions hr hnr) (Step.within_mentionsOfItems hs hns)
  | .closure _ code pos, _, hn => .closure (List.forall_mem_map.mp hn) code pos
  | .statements _ pos, .statements h _, hn => .statements (Stmt.within_mentionsOfItems h hn) pos

theorem Expr.within_mentionsOfItems : ∀ {es : List Expr}, (∀ e ∈ es, e.Within M) →
    (∀ n ∈ Expr.mentionsOfItems es, N n) → ∀ e ∈ es, e.Within N
  | [], _, _ => nofun
  | _ :: _, h, hn =>
    have ⟨he, hes⟩ := List.forall_mem_cons.mp h
    have ⟨hne, hnes⟩ := List.forall_mem_append.mp hn
    List.forall_mem_cons.mpr ⟨Expr.within_mentions he hne, Expr.within_mentionsOfItems hes hnes⟩

theorem Expr.within_mentionsOfFields : ∀ {fs : List (String × Expr)}, (∀ f ∈ fs, f.2.Within M) →
    (∀ n ∈ Expr.mentionsOfFields fs, N n) → ∀ f ∈ fs, f.2.Within N
  | [], _, _ => nofun
  | (_, _) :: _, h, hn =>
    have ⟨hf, hfs⟩ := List.forall_mem_cons.mp h
    have ⟨hnf, hnfs⟩ := List.forall_mem_append.mp hn
    List.forall_mem_cons.mpr ⟨Expr.within_mentions hf hnf, Expr.within_mentionsOfFields hfs hnfs⟩

theorem Expr.within_mentionsIfAny : ∀ {e : Option Expr}, (∀ x ∈ e, x.Within M) → (∀ n ∈ Expr.mentionsIfAny e, N n) →
    ∀ x ∈ e, x.Within N
  | none, _, _ => nofun
  | some _, h, hn => fun _ mem => Option.mem_some.mp mem ▸ Expr.within_mentions (h _ rfl) hn

theorem Step.within_mentions : ∀ {s : Step}, s.Within M → (∀ n ∈ s.mentions, N n) → s.Within N
  | .property name pos dot optional, _, _ => .property name pos dot optional
  | .index _ bracket optional, .index h _ _, hn => .index (Expr.within_mentions h hn) bracket optional
  | .method name _ pos dot optional, .method _ h _ _ _, hn =>
    .method name (Expr.within_mentionsOfItems h hn) pos dot optional

theorem Step.within_mentionsOfItems : ∀ {ss : List Step}, (∀ s ∈ ss, s.Within M) →
    (∀ n ∈ Step.mentionsOfItems ss, N n) → ∀ s ∈ ss, s.Within N
  | [], _, _ => nofun
  | _ :: _, h, hn =>
    have ⟨hs, hss⟩ := List.forall_mem_cons.mp h
    have ⟨hns, hnss⟩ := List.forall_mem_append.mp hn
    List.forall_mem_cons.mpr ⟨Step.within_mentions hs hns, Step.within_mentionsOfItems hss hnss⟩

theorem Stmt.within_mentions : ∀ {s : Stmt}, s.Within M → (∀ n ∈ s.mentions, N n) → s.Within N
  | .noop pos, _, _ => .noop pos
  | .assign _ op _ pos, .assign ht _ hv _, hn =>
    have ⟨hnt, hnv⟩ := List.forall_mem_append.mp hn
    .assign (Expr.within_mentions ht hnt) op (Expr.within_mentions hv hnv) pos
  | .expr _, .expr h, hn => .expr (Expr.within_mentions h hn)
  | .block _ pos, .block h _, hn => .block (Stmt.within_mentionsOfItems h hn) pos
  | .branch _ _ _ pos, .branch hc hy hno _, hn =>
    have ⟨hnc, hnb⟩ := List.forall_mem_append.mp hn
    have ⟨hny, hnn⟩ := List.forall_mem_append.mp hnb
    .branch (Expr.within_mentions hc hnc) (Stmt.within_mentionsOfItems hy hny) (Stmt.within_mentionsOfItems hno hnn) pos
  | .switch _ _ _ pos, .switch hi ha hf _, hn =>
    have ⟨hni, hnr⟩ := List.forall_mem_append.mp hn
    have ⟨hna, hnf⟩ := List.forall_mem_append.mp hnr
    .switch (Expr.within_mentions hi hni) (Arm.within_mentionsOfItems ha hna) (Expr.within_mentionsIfAny hf hnf) pos

theorem Stmt.within_mentionsOfItems : ∀ {ss : List Stmt}, (∀ s ∈ ss, s.Within M) →
    (∀ n ∈ Stmt.mentionsOfItems ss, N n) → ∀ s ∈ ss, s.Within N
  | [], _, _ => nofun
  | _ :: _, h, hn =>
    have ⟨hs, hss⟩ := List.forall_mem_cons.mp h
    have ⟨hns, hnss⟩ := List.forall_mem_append.mp hn
    List.forall_mem_cons.mpr ⟨Stmt.within_mentions hs hns, Stmt.within_mentionsOfItems hss hnss⟩

theorem Arm.within_mentionsOfItems : ∀ {as : List Arm}, (∀ a ∈ as, a.Within M) →
    (∀ n ∈ Arm.mentionsOfItems as, N n) → ∀ a ∈ as, a.Within N
  | [], _, _ => nofun
  | .mk patterns _ _ :: _, h, hn =>
    have ⟨ha, has⟩ := List.forall_mem_cons.mp h
    have ⟨hng, hnr⟩ := List.forall_mem_append.mp hn
    have ⟨hna, hnas⟩ := List.forall_mem_append.mp hnr
    match ha with
    | .mk _ hg ha => List.forall_mem_cons.mpr
        ⟨.mk patterns (Expr.within_mentionsIfAny hg hng) (Expr.within_mentions ha hna),
          Arm.within_mentionsOfItems has hnas⟩

end

end Names

end Dialogue.Script
