import Dialogue.Proofs.Script.Block
import Dialogue.Proofs.Script.Scalar
import Dialogue.Proofs.Script.Undeclaring
import Dialogue.Script.Simplify
/-!
# `Dialogue.Proofs.Script.Simplify` — code made shorter keeps the properties that it has through its parts.

What is put in the place of code is a part of it, a scalar that was computed, or the value of a constant that is known.
A declaration counts back over the declarations before it, so it would be wrong once one of those is dropped. But code
is dropped from a block in such a way that the declarations that are left are the first ones: what follows the end of
the block goes, and so do pure statements that none after them looks at. A declaration that has gone takes those after
it along. What is known of variables only matters for those that the code names. Main statements: a block made shorter
has what the block had through its parts, and its declarations are the first of those before; it becomes the same with
whatever is known alike of the variables that it names; and of a script that is one expression, what passes keep is
kept until nothing changes.
-/

namespace Dialogue.Script.Simplify

/-! ## §1 — passes -/

section Passes

variable {α β : Type}

/-- **What a pass yields** has a property, whether it has changed anything or not. -/
structure Yields (P : α → Prop) (x : Pass α) : Prop where
  run : ∀ changed, P (x.run changed).1

namespace Yields

variable {P : α → Prop} {Q : β → Prop} {x : Pass α}

theorem pure {a : α} (h : P a) : Yields P (Pure.pure a) := ⟨fun _ => h⟩

theorem changed {a : α} (h : P a) : Yields P (Simplify.changed a) := ⟨fun _ => h⟩

theorem bind (hx : Yields P x) {f : α → Pass β} (hf : ∀ a, P a → Yields Q (f a)) : Yields Q (x >>= f) :=
  ⟨fun b => (hf _ (hx.run b)).run _⟩

/-- After a change was noted. -/
theorem noted (hx : Yields P x) : Yields P (set true >>= fun _ => x) := ⟨fun _ => hx.run true⟩

theorem weaken {R : α → Prop} (h : Yields P x) (weaker : ∀ a, P a → R a) : Yields R x :=
  ⟨fun changed => weaker _ (h.run changed)⟩

end Yields

/-- **The same pass**, what it yields having a property. -/
structure Alike (P : α → Prop) (x y : Pass α) : Prop extends Yields P x where
  same : x = y

namespace Alike

variable {P : α → Prop} {Q : β → Prop} {x y : Pass α}

theorem of (h : Yields P x) : Alike P x x := ⟨h, rfl⟩

theorem pure {a : α} (h : P a) : Alike P (Pure.pure a) (Pure.pure a) := .of (.pure h)

theorem changed {a : α} (h : P a) : Alike P (Simplify.changed a) (Simplify.changed a) := .of (.changed h)

theorem bind (h : Alike P x y) {f g : α → Pass β} (hf : ∀ a, P a → Alike Q (f a) (g a)) :
    Alike Q (x >>= f) (y >>= g) := by
  obtain ⟨yields, rfl⟩ := h
  refine ⟨yields.bind fun a ha => (hf a ha).toYields, ?_⟩
  funext b
  exact congrFun (hf _ (yields.run b)).same _

/-- After a change was noted. -/
theorem noted (h : Alike P x y) : Alike P (set true >>= fun _ => x) (set true >>= fun _ => y) := by
  obtain ⟨yields, rfl⟩ := h
  exact .of yields.noted

theorem weaken {R : α → Prop} (h : Alike P x y) (weaker : ∀ a, P a → R a) : Alike R x y :=
  ⟨h.toYields.weaken weaker, h.same⟩

end Alike

end Passes

/-! ## §2 — code and its parts -/

/-- **A block made shorter:** its statements have the property, and its declarations are the first of those before. -/
structure Shortens (J : Judgement) (ss ss' : List Stmt) : Prop where
  statements : ∀ s ∈ ss', J.stmt s
  first : declared ss' <+: declared ss

/-- **A property that code has through its parts.** Code that has it has such parts, and keeps it with other such parts
in their place. `B` tells the blocks in such code. -/
structure Transparent (J : Judgement) (B : List Stmt → Prop) : Prop where
  scalar {v : Constant} (pos : Position) (h : v.IsScalar) : J.expr (.constant v pos)
  literal {e : Expr} {v : Constant} (h : J.expr e) (stands : e.literal? = some v) (pos : Position) :
    J.expr (.constant v pos)
  template {es : List Expr} {pos : Position} (h : J.expr (.template es pos)) :
    (∀ e ∈ es, J.expr e) ∧ ∀ {es'}, (∀ e ∈ es', J.expr e) → J.expr (.template es' pos)
  array {es : List Expr} {pos : Position} (h : J.expr (.array es pos)) :
    (∀ e ∈ es, J.expr e) ∧ ∀ {es'}, (∀ e ∈ es', J.expr e) → J.expr (.array es' pos)
  object {fs : List (String × Expr)} {pos : Position} (h : J.expr (.object fs pos)) :
    (∀ f ∈ fs, J.expr f.2) ∧ ∀ {fs'}, (∀ f ∈ fs', J.expr f.2) → J.expr (.object fs' pos)
  operation {op : String} {es : List Expr} {pos : Position} (h : J.expr (.operation op es pos)) :
    (∀ e ∈ es, J.expr e) ∧ ∀ {es'}, (∀ e ∈ es', J.expr e) → J.expr (.operation op es' pos)
  call {name : String} {es : List Expr} {pos : Position} {here : Bool} (h : J.expr (.call name es pos here)) :
    (∀ e ∈ es, J.expr e) ∧ ∀ {es'}, (∀ e ∈ es', J.expr e) → J.expr (.call name es' pos here)
  both {a b : Expr} {pos : Position} (h : J.expr (.both a b pos)) :
    (J.expr a ∧ J.expr b) ∧ ∀ {a' b'}, J.expr a' → J.expr b' → J.expr (.both a' b' pos)
  either {a b : Expr} {pos : Position} (h : J.expr (.either a b pos)) :
    (J.expr a ∧ J.expr b) ∧ ∀ {a' b'}, J.expr a' → J.expr b' → J.expr (.either a' b' pos)
  orElse {a b : Expr} {pos : Position} (h : J.expr (.orElse a b pos)) :
    (J.expr a ∧ J.expr b) ∧ ∀ {a' b'}, J.expr a' → J.expr b' → J.expr (.orElse a' b' pos)
  chain {root : Expr} {ss : List Step} (h : J.expr (.chain root ss)) :
    (J.expr root ∧ ∀ s ∈ ss, J.step s) ∧
      ∀ {root' ss'}, J.expr root' → (∀ s ∈ ss', J.step s) → J.expr (.chain root' ss')
  statements {body : List Stmt} {pos : Position} (h : J.expr (.statements body pos)) :
    B body ∧ ∀ {body'}, B body' → J.expr (.statements body' pos)
  index {key : Expr} {bracket : Position} {optional : Bool} (h : J.step (.index key bracket optional)) :
    J.expr key ∧ ∀ {key'}, J.expr key' → J.step (.index key' bracket optional)
  method {name : String} {es : List Expr} {pos dot : Position} {optional : Bool}
    (h : J.step (.method name es pos dot optional)) :
    (∀ e ∈ es, J.expr e) ∧ ∀ {es'}, (∀ e ∈ es', J.expr e) → J.step (.method name es' pos dot optional)
  noop (pos : Position) : J.stmt (.noop pos)
  alone {e : Expr} : J.stmt (.expr e) ↔ J.expr e
  block {body : List Stmt} {pos : Position} : J.stmt (.block body pos) ↔ B body
  declare {name : String} {constant : Bool} {inPlace : Option Nat} {e : Expr} {pos : Position}
    (h : J.stmt (.declare name constant inPlace e pos)) :
    J.expr e ∧ ∀ {e'}, J.expr e' → J.stmt (.declare name constant inPlace e' pos)
  assign {target e : Expr} {op : Option String} {pos : Position} (h : J.stmt (.assign target op e pos)) :
    (J.expr target ∧ J.expr e) ∧
      ∀ {target' op' e' pos'}, J.expr target' → J.expr e' → J.stmt (.assign target' op' e' pos')
  branch {cond : Expr} {yes no : List Stmt} {pos : Position} (h : J.stmt (.branch cond yes no pos)) :
    (J.expr cond ∧ B yes ∧ B no) ∧
      ∀ {cond' yes' no'}, J.expr cond' → B yes' → B no' → J.stmt (.branch cond' yes' no' pos)
  switch {item : Expr} {as : List Arm} {fallback : Option Expr} {pos : Position}
    (h : J.stmt (.switch item as fallback pos)) :
    (J.expr item ∧ (∀ a ∈ as, J.arm a) ∧ ∀ e ∈ fallback, J.expr e) ∧
      ∀ {item' as' fallback'}, J.expr item' → (∀ a ∈ as', J.arm a) → (∀ e ∈ fallback', J.expr e) →
        J.stmt (.switch item' as' fallback' pos)
  repeatWhile {cond : Option Expr} {body : List Stmt} {pos : Position} (h : J.stmt (.repeatWhile cond body pos)) :
    ((∀ e ∈ cond, J.expr e) ∧ B body) ∧
      ∀ {cond' body'}, (∀ e ∈ cond', J.expr e) → B body' → J.stmt (.repeatWhile cond' body' pos)
  repeatAfter {body : List Stmt} {cond : Expr} {goOn : Bool} {pos : Position}
    (h : J.stmt (.repeatAfter body cond goOn pos)) :
    (B body ∧ J.expr cond) ∧ ∀ {body' cond'}, B body' → J.expr cond' → J.stmt (.repeatAfter body' cond' goOn pos)
  each {name : String} {counter : Option String} {items : Expr} {body : List Stmt} {pos : Position}
    (h : J.stmt (.each name counter items body pos)) :
    (J.expr items ∧ B body) ∧
      ∀ {items' body'}, J.expr items' → B body' → J.stmt (.each name counter items' body' pos)
  leave {e : Option Expr} {pos : Position} (h : J.stmt (.leave e pos)) :
    (∀ x ∈ e, J.expr x) ∧ ∀ {e'}, (∀ x ∈ e', J.expr x) → J.stmt (.leave e' pos)
  giveBack {e : Option Expr} {pos : Position} (h : J.stmt (.giveBack e pos)) :
    (∀ x ∈ e, J.expr x) ∧ ∀ {e'}, (∀ x ∈ e', J.expr x) → J.stmt (.giveBack e' pos)
  raise {e : Option Expr} {pos : Position} (h : J.stmt (.raise e pos)) :
    (∀ x ∈ e, J.expr x) ∧ ∀ {e'}, (∀ x ∈ e', J.expr x) → J.stmt (.raise e' pos)
  attempt {body : List Stmt} {name : Option String} {handler : List Stmt} {pos : Position}
    (h : J.stmt (.attempt body name handler pos)) :
    (B body ∧ B handler) ∧ ∀ {body' handler'}, B body' → B handler' → J.stmt (.attempt body' name handler' pos)
  importModule {path : Expr} {pos : Position} (h : J.stmt (.importModule path pos)) :
    J.expr path ∧ ∀ {path'}, J.expr path' → J.stmt (.importModule path' pos)
  arm {patterns : List Constant} {guard : Option Expr} {action : Expr} (h : J.arm (.mk patterns guard action)) :
    ((∀ e ∈ guard, J.expr e) ∧ J.expr action) ∧
      ∀ {guard' action'}, (∀ e ∈ guard', J.expr e) → J.expr action' → J.arm (.mk patterns guard' action')
  inner {body : List Stmt} (h : B body) : ∀ s ∈ body, J.stmt s
  shorter {body body' : List Stmt} (h : B body) (shortens : Shortens J body body') : B body'
  plain {body : List Stmt} (h : ∀ s ∈ body, J.Plain s) : B body

variable {J : Judgement} {B : List Stmt → Prop}

/-! ## §3 — blocks made shorter -/

theorem Shortens.refl {ss : List Stmt} (h : ∀ s ∈ ss, J.stmt s) : Shortens J ss ss := ⟨h, List.prefix_rfl⟩

theorem Shortens.trans {a b c : List Stmt} (h : Shortens J a b) (h' : Shortens J b c) : Shortens J a c :=
  ⟨h'.statements, h'.first.trans h.first⟩

/-- **A statement made shorter** has the property, and declares what it declared before. -/
structure Replaces (J : Judgement) (s s' : Stmt) : Prop where
  inner : J.stmt s'
  declares : s'.declaration? = s.declaration?

theorem replaces_plain {s s' : Stmt} (h : J.Plain s') (plain : s.declaration? = none) : Replaces J s s' :=
  ⟨h.inner, h.declares.trans plain.symm⟩

theorem Shortens.replaced {s s' : Stmt} (hs : Replaces J s s') {ss ss' : List Stmt} (h : Shortens J ss ss') :
    Shortens J (s :: ss) (s' :: ss') := by
  refine ⟨List.forall_mem_cons.mpr ⟨hs.inner, h.statements⟩, ?_⟩
  rw [declared_cons, declared_cons, hs.declares]
  exact (List.prefix_append_right_inj _).mpr h.first

theorem Shortens.cons {s : Stmt} (hs : J.stmt s) {ss ss' : List Stmt} (h : Shortens J ss ss') :
    Shortens J (s :: ss) (s :: ss') := h.replaced ⟨hs, rfl⟩

/-- A statement that is no declaration may be left out. -/
theorem Shortens.without {s : Stmt} (hs : s.declaration? = none) {ss ss' : List Stmt} (h : Shortens J ss ss') :
    Shortens J (s :: ss) ss' := by
  refine ⟨h.statements, ?_⟩
  rw [declared_cons, hs]
  exact h.first

theorem shortens_nil (ss : List Stmt) : Shortens J ss [] := ⟨List.forall_mem_nil _, List.nil_prefix⟩

/-- A declaration is never pure, for it leaves a variable behind. -/
theorem declaration?_of_isPure {s : Stmt} (h : s.isPure) : s.declaration? = none := by
  cases s with
  | declare => simp [Stmt.isPure] at h
  | _ => rfl

theorem declaration?_of_not_bindsInBlock {s : Stmt} (h : s.bindsInBlock = false) : s.declaration? = none := by
  cases s with
  | declare => cases h
  | _ => rfl

theorem not_hasValue_of_declaration {s : Stmt} {d : Declaration} (h : s.declaration? = some d) :
    s.hasValue = false ∧ s.isNoop = false := by
  cases s with
  | declare => exact ⟨rfl, rfl⟩
  | _ => cases h

/-- **Blocks without variables of their own** declare nothing. -/
theorem shortens_flattened (parts : Transparent J B) {ss : List Stmt} (h : ∀ s ∈ ss, J.stmt s) :
    Yields (Shortens J ss) (flattened ss) := by
  induction ss with
  | nil => exact .pure (.refl h)
  | cons s rest ih =>
    obtain ⟨hs, hr⟩ := List.forall_mem_cons.mp h
    unfold flattened
    split
    · contradiction
    · rename_i body pos tail e
      cases e
      refine (ih hr).bind fun rest' hr' => ?_
      split
      · exact .pure (hr'.cons hs)
      · rename_i free
        refine .changed ⟨List.forall_mem_append.mpr ⟨parts.inner (parts.block.mp hs), hr'.statements⟩, ?_⟩
        have none : declared body = [] := by
          refine List.filterMap_eq_nil_iff.mpr fun s mem => declaration?_of_not_bindsInBlock ?_
          simpa using fun binds => free (List.any_eq_true.mpr ⟨s, mem, binds⟩)
        rw [declared_append, none]
        exact (hr'.without rfl).first
    · rename_i e
      cases e
      exact (ih hr).bind fun rest' hr' => .pure (hr'.cons hs)

theorem shortens_reached {ss : List Stmt} (h : ∀ s ∈ ss, J.stmt s) : Yields (Shortens J ss) (reached ss) := by
  induction ss with
  | nil => exact .pure (.refl h)
  | cons s rest ih =>
    obtain ⟨hs, hr⟩ := List.forall_mem_cons.mp h
    have first : Shortens J (s :: rest) [s] := (shortens_nil rest).cons hs
    unfold reached
    split
    · split
      · exact .pure first
      · exact .changed first
    · exact (ih hr).bind fun rest' hr' => .pure (hr'.cons hs)

/-! ## §4 — pure statements dropped -/

section Dropped

variable {p : Purpose} {ss : List Stmt} {index holding : Nat}

/-- **A declaration that stays as the last statement** for the value of the block, though others before it may have
been dropped. It has no value, and will be dropped as well. -/
def Lingers (J : Judgement) (p : Purpose) (ss ss' : List Stmt) : Prop :=
  p.value = true ∧ ∃ before last d, ss' = before ++ [last] ∧ last.declaration? = some d ∧ droppable p last = true ∧
    Shortens J ss before

theorem Lingers.cons {s : Stmt} (hs : J.stmt s) {ss ss' : List Stmt} (h : Lingers J p ss ss') :
    Lingers J p (s :: ss) (s :: ss') := by
  obtain ⟨value, before, last, d, rfl, declares, drops, shorter⟩ := h
  exact ⟨value, s :: before, last, d, rfl, declares, drops, shorter.cons hs⟩

theorem Lingers.without {s : Stmt} (hs : s.declaration? = none) {ss ss' : List Stmt} (h : Lingers J p ss ss') :
    Lingers J p (s :: ss) ss' := by
  obtain ⟨value, before, last, d, rfl, declares, drops, shorter⟩ := h
  exact ⟨value, before, last, d, rfl, declares, drops, shorter.without hs⟩

/-- **Behind the last statement that matters**, all that can be dropped is dropped, unless it is the last of all. -/
theorem lingers_withoutPure (h : ∀ s ∈ ss, J.stmt s) (drops : ∀ s ∈ ss, droppable p s = true)
    (past : holding ≤ index) (other : List Stmt) :
    Yields (fun ss' => Shortens J other ss' ∨ Lingers J p other ss') (withoutPure p index holding ss) := by
  induction ss with
  | nil => exact .pure (.inl (shortens_nil other))
  | cons s rest ih =>
    obtain ⟨hs, hr⟩ := List.forall_mem_cons.mp h
    obtain ⟨ds, dr⟩ := List.forall_mem_cons.mp drops
    unfold withoutPure
    split
    · rename_i last
      refine .pure ?_
      cases e : s.declaration? with
      | none =>
        refine .inl ⟨List.forall_mem_singleton.mpr hs, ?_⟩
        rw [declared_cons, e]
        exact List.nil_prefix
      | some d => exact .inr ⟨(Bool.and_eq_true_iff.mp last).1, [], s, d, rfl, e, ds, shortens_nil other⟩
    · rw [ds, decide_eq_true past]
      exact (ih hr dr).noted

/-- **Dropping pure statements.** The statements from a position on, the last one that matters being `holding`. -/
theorem shortens_withoutPure (h : ∀ s ∈ ss, J.stmt s)
    (drops : ∀ i s, ss[i]? = some s → holding - index < i → droppable p s = true) :
    Yields (fun ss' => Shortens J ss ss' ∨ Lingers J p ss ss') (withoutPure p index holding ss) := by
  induction ss generalizing index holding with
  | nil => exact .pure (.inl (.refl h))
  | cons s rest ih =>
    obtain ⟨hs, hr⟩ := List.forall_mem_cons.mp h
    unfold withoutPure
    split
    · exact .pure (.inl ((shortens_nil rest).cons hs))
    · split
      · -- nothing after the first statement that is dropped here matters
        rename_i drop
        have past : holding ≤ index := of_decide_eq_true (Bool.and_eq_true_iff.mp drop).2
        refine (lingers_withoutPure hr (fun t mem => ?_) past _).noted
        obtain ⟨i, there⟩ := List.mem_iff_getElem?.mp mem
        exact drops (i + 1) t there (by omega)
      · split
        · rename_i pure
          have later : ∀ i t, rest[i]? = some t →
              (if index < holding then holding - 1 else holding) - index < i → droppable p t = true := by
            intro i t there far
            refine drops (i + 1) t there ?_
            split at far <;> omega
          have none := declaration?_of_isPure pure
          exact ((ih hr later).weaken fun _ => Or.imp (Shortens.without none) (Lingers.without none)).noted
        · have later : ∀ i t, rest[i]? = some t → holding - (index + 1) < i → droppable p t = true :=
            fun i t there far => drops (i + 1) t there (by omega)
          refine (ih hr later).bind fun rest' hr' => .pure ?_
          exact hr'.imp (Shortens.cons hs) (Lingers.cons hs)

/-- **Statements after the last that matters** can be dropped. -/
theorem droppable_of_lastHolding {i : Nat} {s : Stmt} (there : ss[i]? = some s) (far : lastHolding p ss < i) :
    droppable p s = true := by
  obtain ⟨hi, rfl⟩ := List.getElem?_eq_some_iff.mp there
  have free : holdsBack p ss[i] = false := by
    unfold lastHolding at far
    cases found : ss.reverse.findIdx? (holdsBack p) with
    | none => simpa using List.findIdx?_eq_none_iff.mp found ss[i] (by simp)
    | some n =>
      rw [found] at far
      obtain ⟨hn, -, before⟩ := List.findIdx?_eq_some_iff_getElem.mp found
      rw [List.length_reverse] at hn
      have later := before (ss.length - 1 - i) (by dsimp only at far; omega)
      rw [List.getElem_reverse] at later
      simpa [Nat.sub_sub_self (Nat.le_sub_one_of_lt hi)] using later
  unfold holdsBack at free
  simpa using (Bool.or_eq_false_iff.mp free).1

end Dropped

/-! ## §5 — the end of a block -/

/-- **The end of a block cut off.** The statements come last first, and so do the declarations. -/
structure Cuts (J : Judgement) (ss ss' : List Stmt) : Prop where
  statements : ∀ s ∈ ss', J.stmt s
  last : declared ss' <:+ declared ss

theorem Cuts.refl {ss : List Stmt} (h : ∀ s ∈ ss, J.stmt s) : Cuts J ss ss := ⟨h, List.suffix_rfl⟩

theorem Cuts.of_tail {s : Stmt} {ss ss' : List Stmt} (h : Cuts J ss ss') : Cuts J (s :: ss) ss' := by
  refine ⟨h.statements, h.last.trans ?_⟩
  rw [declared_cons]
  exact List.suffix_append _ _

theorem Cuts.plain {s : Stmt} (hs : J.Plain s) {ss ss' : List Stmt} (h : Cuts J (s :: ss) ss') : Cuts J ss ss' := by
  refine ⟨h.statements, ?_⟩
  have last := h.last
  rwa [declared_cons, hs.declares] at last

/-- One statement less. -/
theorem cuts_tail {s : Stmt} {rest : List Stmt} {x : Pass (List Stmt)} (h : Yields (Cuts J rest) x) :
    Yields (Cuts J (s :: rest)) x := h.weaken fun _ => Cuts.of_tail

/-- Another statement in the place of the first, which declares nothing. -/
theorem cuts_instead {s t : Stmt} (ht : J.Plain t) {rest : List Stmt} (hr : ∀ s ∈ rest, J.stmt s)
    {x : Pass (List Stmt)} (h : (∀ s ∈ t :: rest, J.stmt s) → Yields (Cuts J (t :: rest)) x) :
    Yields (Cuts J (s :: rest)) x :=
  (h (List.forall_mem_cons.mpr ⟨ht.inner, hr⟩)).weaken fun _ cut => (cut.plain ht).of_tail

theorem cuts_nil (ss : List Stmt) : Cuts J ss [] := ⟨List.forall_mem_nil _, List.nil_suffix⟩

theorem Cuts.reverse {ss ss' : List Stmt} (h : Cuts J ss.reverse ss') : Shortens J ss ss'.reverse := by
  refine ⟨fun s mem => h.statements s (List.mem_reverse.mp mem), ?_⟩
  have last := h.last
  rw [declared_reverse] at last ⊢
  rwa [← List.reverse_suffix, List.reverse_reverse]

theorem cuts_endForEffect (p : Purpose) {ss : List Stmt} (h : ∀ s ∈ ss, J.stmt s) :
    Yields (Cuts J ss) (endForEffect p ss) := by
  induction ss with
  | nil => exact .pure (.refl h)
  | cons s rest ih =>
    have cut := ih (List.forall_mem_cons.mp h).2
    have dropped (idle : Bool) : Yields (Cuts J (s :: rest))
        (if idle then set true >>= fun _ => endForEffect p rest else Pure.pure (s :: rest)) := by
      split
      · exact (cuts_tail cut).noted
      · exact .pure (.refl h)
    exact dropped _

section End

variable (parts : Transparent J B)

include parts

theorem Transparent.plain_noop (pos : Position) : J.Plain (.noop pos) := ⟨parts.noop pos, rfl⟩

theorem Transparent.plain_alone {e : Expr} (h : J.expr e) : J.Plain (.expr e) := ⟨parts.alone.mpr h, rfl⟩

theorem Transparent.plain_given {e : Expr} {pos : Position} (h : J.stmt (.giveBack (some e) pos)) :
    J.Plain (.expr e) := parts.plain_alone ((parts.giveBack h).1 e rfl)

theorem cuts_endForValue (p : Purpose) (fuel : Nat) {ss : List Stmt} (h : ∀ s ∈ ss, J.stmt s) :
    Yields (Cuts J ss) (endForValue p fuel ss) := by
  induction fuel generalizing ss with
  | zero => exact .pure (.refl h)
  | succ fuel ih =>
    unfold endForValue
    split
    · split
      · exact .changed (cuts_nil _)
      · exact .pure (.refl h)
    · split
      · have he := parts.plain_given (List.forall_mem_singleton.mp h)
        split
        · exact cuts_instead he (List.forall_mem_nil _) fun h' => .changed (.refl h')
        · exact .pure (.refl h)
      · split
        · exact .changed (cuts_nil _)
        · exact .pure (.refl h)
    · obtain ⟨-, hr⟩ := List.forall_mem_cons.mp h
      split
      · exact .pure (.refl h)
      · split
        · exact (cuts_instead (parts.plain_noop _) hr ih).noted
        · exact (cuts_tail (ih hr)).noted
    · obtain ⟨hs, hr⟩ := List.forall_mem_cons.mp h
      split
      · exact (cuts_instead (parts.plain_given hs) hr ih).noted
      · exact .pure (.refl h)
    · obtain ⟨-, hr⟩ := List.forall_mem_cons.mp h
      split
      · exact .pure (.refl h)
      · split
        · refine Yields.noted ?_
          split
          · exact cuts_instead (parts.plain_noop _) hr fun h' => .pure (.refl h')
          · exact cuts_tail (ih hr)
        · exact .pure (.refl h)
    · exact .pure (.refl h)

/-- **A declaration at the end** has no value, and goes when it can be dropped. -/
theorem cuts_endForValue_lingering (p : Purpose) (fuel : Nat) {last : Stmt} {d : Declaration} {ss : List Stmt}
    (h : ∀ s ∈ ss, J.stmt s) (declares : last.declaration? = some d) (drops : droppable p last = true) :
    Yields (Cuts J ss) (endForValue p (fuel + 1) (last :: ss)) := by
  obtain ⟨noValue, noNoop⟩ := not_hasValue_of_declaration declares
  cases last with
  | declare =>
    unfold endForValue
    cases ss with
    | nil =>
      dsimp only
      rw [noValue, drops]
      exact .changed (cuts_nil _)
    | cons before rest =>
      dsimp only
      rw [noNoop, noValue, drops]
      refine Yields.noted ?_
      split
      · refine .pure (Cuts.plain (parts.plain_noop _) (.refl ?_))
        exact List.forall_mem_cons.mpr ⟨parts.noop _, h⟩
      · exact cuts_endForValue parts p fuel h
  | _ => cases declares

/-- **A block without what is not needed.** -/
theorem shortens_pruned (p : Purpose) {ss : List Stmt} (h : ∀ s ∈ ss, J.stmt s) :
    Yields (Shortens J ss) (pruned p ss) := by
  have backwards {ss : List Stmt} (h : ∀ s ∈ ss, J.stmt s) : ∀ s ∈ ss.reverse, J.stmt s :=
    fun s mem => h s (List.mem_reverse.mp mem)
  refine (shortens_withoutPure h fun i s there far => droppable_of_lastHolding there (by omega)).bind fun ss₁ h₁ => ?_
  dsimp only
  obtain h₁ | ⟨value, before, last, d, rfl, declares, drops, h₁⟩ := h₁
  · split
    · exact (cuts_endForValue parts p _ (backwards h₁.statements)).bind fun ss₂ h₂ => .pure (h₁.trans h₂.reverse)
    · exact (cuts_endForEffect p (backwards h₁.statements)).bind fun ss₂ h₂ => .pure (h₁.trans h₂.reverse)
  · rw [if_pos value, List.reverse_append]
    exact (cuts_endForValue_lingering parts p _ (backwards h₁.statements) declares drops).bind fun ss₂ h₂ =>
      .pure (h₁.trans h₂.reverse)

end End

/-! ## §6 — parts of literals -/

section Literals

variable (parts : Transparent J B)

include parts

/-- What an operator makes of literals is a scalar. -/
theorem expr_folded? {op : String} {a b v : Constant} (h : folded? op a b = some v) (pos : Position) :
    J.expr (.constant v pos) := by
  have scalar := Operator.yieldsScalar_result? op a b
  unfold folded? at h
  generalize Operator.result? op a b = r at h scalar
  cases scalar with
  | none => cases h
  | error text => cases h
  | ok hv =>
    cases h
    exact parts.scalar pos hv

/-- **What a step into a literal leads to** is part of the literal, or `()`. -/
theorem expr_literalStep? {root found : Expr} {step : Step} (h : J.expr root)
    (hf : literalStep? root step = some found) : J.expr found := by
  have field {fields : List (String × Expr)} {pos : Position} {name : String}
      (h : ∀ f ∈ fields, J.expr f.2) (hf : literalStep?.field? fields pos name = some found) : J.expr found := by
    unfold literalStep?.field? at hf
    split at hf
    · cases hf
      cases there : fields.find? (·.1 == name) with
      | none => exact parts.scalar _ trivial
      | some f => exact h f (List.mem_of_find?_eq_some there)
    · cases hf
  unfold literalStep? at hf
  split at hf
  · exact field (parts.object h).1 hf
  · exact field (parts.object h).1 hf
  · have items := (parts.array h).1
    split at hf
    · unfold item? at hf
      dsimp only at hf
      split at hf
      · exact items _ (List.mem_of_getElem? hf)
      · split at hf
        · exact items _ (List.mem_of_getElem? hf)
        · cases hf
    · cases hf
  · cases hf

theorem expr_selfOperation? {target value operand : Expr} {op : String} {pos : Position} (h : J.expr value)
    (hs : selfOperation? target value = some (op, operand, pos)) : J.expr operand := by
  unfold selfOperation? at hs
  split at hs
  · have operands := (parts.operation h).1
    split at hs
    · cases hs
      exact operands _ (by simp)
    · cases hs
  · cases hs

end Literals

/-! ## §7 — the pass -/

/-- **What is known here and there** is alike of the variables that code with the property names, and such code itself. -/
structure Known.Agrees (J : Judgement) (k k' : Known) : Prop where
  same : ∀ {name pos}, J.expr (.var name pos) → k' name = k name
  known : ∀ {name v}, k name = some v → ∀ pos, J.expr (.constant v pos)

namespace Known.Agrees

variable {k k' : Known}

theorem set (h : k.Agrees J k') (name : String) {v : Option Constant} (hv : ∀ c ∈ v, ∀ pos, J.expr (.constant c pos)) :
    (k.set name v).Agrees J (k'.set name v) := by
  refine ⟨fun {other pos} he => ?_, fun {other c} known => ?_⟩
  · unfold Known.set
    split
    · rfl
    · exact h.same he
  · unfold Known.set at known
    split at known
    · exact hv c known
    · exact h.known known

theorem without (h : k.Agrees J k') (names : List String) : (k.without names).Agrees J (k'.without names) := by
  refine ⟨fun {other pos} he => ?_, fun {other c} known => ?_⟩
  · unfold Known.without
    split
    · rfl
    · exact h.same he
  · unfold Known.without at known
    split at known
    · cases known
    · exact h.known known

end Known.Agrees

/-- **Passes that nest at most so deep** are the same with what is known here and there, and keep the property. -/
structure Keeps (J : Judgement) (B : List Stmt → Prop) (fuel : Nat) : Prop where
  parts : Transparent J B
  expr : ∀ {k k' e}, Known.Agrees J k k' → J.expr e → Alike J.expr (expr fuel k e) (expr fuel k' e)
  chainRoot : ∀ {k k' e}, Known.Agrees J k k' → J.expr e → Alike J.expr (chainRoot fuel k e) (chainRoot fuel k' e)
  steps : ∀ {k k' ss}, Known.Agrees J k k' → (∀ s ∈ ss, J.step s) →
    Alike (fun ss => ∀ s ∈ ss, J.step s) (steps fuel k ss) (steps fuel k' ss)
  exprs : ∀ {k k' es}, Known.Agrees J k k' → (∀ e ∈ es, J.expr e) →
    Alike (fun es => ∀ e ∈ es, J.expr e) (exprs fuel k es) (exprs fuel k' es)
  fields : ∀ {k k' fs}, Known.Agrees J k k' → (∀ f ∈ fs, J.expr f.2) →
    Alike (fun fs => ∀ f ∈ fs, J.expr f.2) (fields fuel k fs) (fields fuel k' fs)
  optional : ∀ {k k' e}, Known.Agrees J k k' → (∀ x ∈ e, J.expr x) →
    Alike (fun e => ∀ x ∈ e, J.expr x) (optional fuel k e) (optional fuel k' e)
  arms : ∀ {k k' as}, Known.Agrees J k k' → (∀ a ∈ as, J.arm a) →
    Alike (fun as => ∀ a ∈ as, J.arm a) (arms fuel k as) (arms fuel k' as)
  stmt : ∀ {k k'} (value) {s}, Known.Agrees J k k' → J.stmt s →
    Alike (Replaces J s) (stmt fuel k value s) (stmt fuel k' value s)
  assigned : ∀ {k k' e}, Known.Agrees J k k' → J.expr e → Alike J.expr (assigned fuel k e) (assigned fuel k' e)
  stmts : ∀ {k k'} (value) {ss}, Known.Agrees J k k' → (∀ s ∈ ss, J.stmt s) →
    Alike (Shortens J ss) (stmts fuel k value ss) (stmts fuel k' value ss)
  block : ∀ {k k'} (p) {ss}, Known.Agrees J k k' → (∀ s ∈ ss, J.stmt s) →
    Alike (Shortens J ss) (block fuel k p ss) (block fuel k' p ss)

theorem keeps_zero (parts : Transparent J B) : Keeps J B 0 where
  parts := parts
  expr _ h := .pure h
  chainRoot _ h := .pure h
  steps _ h := .pure h
  exprs _ h := .pure h
  fields _ h := .pure h
  optional _ h := .pure h
  arms _ h := .pure h
  stmt _ _ _ h := .pure ⟨h, rfl⟩
  assigned _ h := .pure h
  stmts _ _ _ h := .pure (.refl h)
  block _ _ _ h := .pure (.refl h)

section Pass

variable {fuel : Nat} (n : Keeps J B fuel) {k k' : Known} (hk : k.Agrees J k')

include n

/-- A literal takes the place of what it stands for. -/
theorem alike_literalOr {e : Expr} (he : J.expr e) {pos : Position} {x y : Pass Expr} (h : Alike J.expr x y) :
    Alike J.expr
      (match e.literal? with
        | some v => changed (.constant v pos)
        | none => x)
      (match e.literal? with
        | some v => changed (.constant v pos)
        | none => y) := by
  split
  · rename_i v stands
    exact .changed (n.parts.literal he stands pos)
  · exact h

include hk

/-- **A block inside other code** stays one. -/
theorem alike_inner (p : Purpose) {body : List Stmt} (h : B body) :
    Alike B (block fuel k p body) (block fuel k' p body) :=
  (n.block p hk (n.parts.inner h)).weaken fun _ shorter => n.parts.shorter h shorter

theorem alike_operation {op : String} {args : List Expr} {pos : Position} (h : J.expr (.operation op args pos)) :
    Alike J.expr (expr (fuel + 1) k (.operation op args pos)) (expr (fuel + 1) k' (.operation op args pos)) := by
  obtain ⟨ha, built⟩ := n.parts.operation h
  unfold expr
  dsimp only
  split
  · exact .changed (n.parts.scalar _ trivial)
  · split
    · rename_i v value
      exact .changed (expr_folded? n.parts value _)
    · exact .pure h
  · exact (n.exprs hk ha).bind fun args' ha' => .pure (built ha')

theorem alike_both {a b : Expr} {pos : Position} (h : J.expr (.both a b pos)) :
    Alike J.expr (expr (fuel + 1) k (.both a b pos)) (expr (fuel + 1) k' (.both a b pos)) := by
  obtain ⟨⟨ha, hb⟩, built⟩ := n.parts.both h
  unfold expr
  dsimp only
  split
  · exact (n.expr hk hb).noted
  · exact .changed (n.parts.scalar _ trivial)
  · exact (n.expr hk ha).noted
  · exact (n.expr hk ha).bind fun a' ha' => (n.expr hk hb).bind fun b' hb' => .pure (built ha' hb')

theorem alike_either {a b : Expr} {pos : Position} (h : J.expr (.either a b pos)) :
    Alike J.expr (expr (fuel + 1) k (.either a b pos)) (expr (fuel + 1) k' (.either a b pos)) := by
  obtain ⟨⟨ha, hb⟩, built⟩ := n.parts.either h
  unfold expr
  dsimp only
  split
  · exact (n.expr hk hb).noted
  · exact .changed (n.parts.scalar _ trivial)
  · exact (n.expr hk ha).noted
  · exact (n.expr hk ha).bind fun a' ha' => (n.expr hk hb).bind fun b' hb' => .pure (built ha' hb')

theorem alike_orElse {a b : Expr} {pos : Position} (h : J.expr (.orElse a b pos)) :
    Alike J.expr (expr (fuel + 1) k (.orElse a b pos)) (expr (fuel + 1) k' (.orElse a b pos)) := by
  obtain ⟨⟨ha, hb⟩, built⟩ := n.parts.orElse h
  unfold expr
  dsimp only
  split
  · exact (n.expr hk hb).noted
  · exact .changed ha
  · exact (n.expr hk ha).bind fun a' ha' => (n.expr hk hb).bind fun b' hb' => .pure (built ha' hb')

theorem alike_chain {root : Expr} {ss : List Step} (h : J.expr (.chain root ss)) :
    Alike J.expr (expr (fuel + 1) k (.chain root ss)) (expr (fuel + 1) k' (.chain root ss)) := by
  obtain ⟨⟨hr, hs⟩, built⟩ := n.parts.chain h
  have whole : Alike J.expr (do return .chain (← chainRoot fuel k root) (← steps fuel k ss))
      (do return .chain (← chainRoot fuel k' root) (← steps fuel k' ss)) :=
    (n.chainRoot hk hr).bind fun root' hr' => (n.steps hk hs).bind fun ss' hs' => .pure (built hr' hs')
  unfold expr
  dsimp only
  split
  · split
    · rename_i found
      exact .changed (expr_literalStep? n.parts hr found)
    · exact whole
  · exact whole

theorem alike_statements {body : List Stmt} {pos : Position} (h : J.expr (.statements body pos)) :
    Alike J.expr (expr (fuel + 1) k (.statements body pos)) (expr (fuel + 1) k' (.statements body pos)) := by
  obtain ⟨hb, built⟩ := n.parts.statements h
  have single {e : Expr} (h : B [.expr e]) : J.expr e := n.parts.alone.mp (n.parts.inner h _ List.mem_cons_self)
  cases body with
  | nil => exact .changed (n.parts.scalar _ trivial)
  | cons s rest =>
    cases rest <;> cases s
    -- a single expression stands for itself
    case nil.expr => exact (n.expr hk (single hb)).noted
    all_goals
      refine Alike.bind (alike_inner n hk ⟨true, true, false⟩ hb) fun body' hb' => ?_
      split
      · exact .changed (single hb')
      · exact .pure (built hb')

/-- **An expression.** -/
theorem alike_expr {e : Expr} (h : J.expr e) : Alike J.expr (expr (fuel + 1) k e) (expr (fuel + 1) k' e) := by
  cases e with
  | constant v pos => exact .pure h
  | this pos => exact .pure h
  | closure captured code pos => exact .pure h
  | var name pos =>
    unfold expr
    dsimp only
    rw [hk.same h]
    split
    · rename_i v known
      exact .changed (hk.known known pos)
    · exact .pure h
  | template items pos =>
    obtain ⟨hi, built⟩ := n.parts.template h
    unfold expr
    exact alike_literalOr n h ((n.exprs hk hi).bind fun items' hi' => .pure (built hi'))
  | array items pos =>
    obtain ⟨hi, built⟩ := n.parts.array h
    unfold expr
    exact alike_literalOr n h ((n.exprs hk hi).bind fun items' hi' => .pure (built hi'))
  | object fs pos =>
    obtain ⟨hf, built⟩ := n.parts.object h
    unfold expr
    exact alike_literalOr n h ((n.fields hk hf).bind fun fs' hf' => .pure (built hf'))
  | operation op args pos => exact alike_operation n hk h
  | call name args pos here =>
    obtain ⟨ha, built⟩ := n.parts.call h
    unfold expr
    exact (n.exprs hk ha).bind fun args' ha' => .pure (built ha')
  | both a b pos => exact alike_both n hk h
  | either a b pos => exact alike_either n hk h
  | orElse a b pos => exact alike_orElse n hk h
  | chain root ss => exact alike_chain n hk h
  | statements body pos => exact alike_statements n hk h

theorem alike_chainRoot {e : Expr} (h : J.expr e) :
    Alike J.expr (chainRoot (fuel + 1) k e) (chainRoot (fuel + 1) k' e) := by
  unfold chainRoot
  split
  · exact .pure h
  · exact n.expr hk h

theorem alike_assigned {e : Expr} (h : J.expr e) :
    Alike J.expr (assigned (fuel + 1) k e) (assigned (fuel + 1) k' e) := by
  unfold assigned
  split
  · exact .pure h
  · exact .pure h
  · exact n.expr hk h

theorem alike_steps {ss : List Step} (h : ∀ s ∈ ss, J.step s) :
    Alike (fun ss => ∀ s ∈ ss, J.step s) (steps (fuel + 1) k ss) (steps (fuel + 1) k' ss) := by
  cases ss with
  | nil => exact .pure (List.forall_mem_nil _)
  | cons s ss =>
    obtain ⟨hs, hss⟩ := List.forall_mem_cons.mp h
    have rest {s' : Step} (hs' : J.step s') :
        Alike (fun ss => ∀ s ∈ ss, J.step s) (do return s' :: (← steps fuel k ss))
          (do return s' :: (← steps fuel k' ss)) :=
      (n.steps hk hss).bind fun ss' hss' => .pure (List.forall_mem_cons.mpr ⟨hs', hss'⟩)
    unfold steps
    cases s with
    | property name pos dot optional => exact rest hs
    | index key bracket optional =>
      obtain ⟨hkey, built⟩ := n.parts.index hs
      exact (n.expr hk hkey).bind fun key' hkey' => rest (built hkey')
    | method name args pos dot optional =>
      obtain ⟨ha, built⟩ := n.parts.method hs
      exact (n.exprs hk ha).bind fun args' ha' => rest (built ha')

theorem alike_exprs {es : List Expr} (h : ∀ e ∈ es, J.expr e) :
    Alike (fun es => ∀ e ∈ es, J.expr e) (exprs (fuel + 1) k es) (exprs (fuel + 1) k' es) := by
  cases es with
  | nil => exact .pure (List.forall_mem_nil _)
  | cons e es =>
    obtain ⟨he, hes⟩ := List.forall_mem_cons.mp h
    unfold exprs
    exact (n.expr hk he).bind fun e' he' => (n.exprs hk hes).bind fun es' hes' =>
      .pure (List.forall_mem_cons.mpr ⟨he', hes'⟩)

theorem alike_fields {fs : List (String × Expr)} (h : ∀ f ∈ fs, J.expr f.2) :
    Alike (fun fs => ∀ f ∈ fs, J.expr f.2) (fields (fuel + 1) k fs) (fields (fuel + 1) k' fs) := by
  cases fs with
  | nil => exact .pure (List.forall_mem_nil _)
  | cons f fs =>
    obtain ⟨name, e⟩ := f
    obtain ⟨hf, hfs⟩ := List.forall_mem_cons.mp h
    unfold fields
    exact (n.expr hk hf).bind fun e' he' => (n.fields hk hfs).bind fun fs' hfs' =>
      .pure (List.forall_mem_cons.mpr ⟨he', hfs'⟩)

theorem alike_optional {e : Option Expr} (h : ∀ x ∈ e, J.expr x) :
    Alike (fun e => ∀ x ∈ e, J.expr x) (optional (fuel + 1) k e) (optional (fuel + 1) k' e) := by
  cases e with
  | none => exact .pure forall_mem_none
  | some e =>
    unfold optional
    exact (n.expr hk (h e rfl)).bind fun e' he' => .pure fun x mem => Option.mem_some.mp mem ▸ he'

theorem alike_arms {as : List Arm} (h : ∀ a ∈ as, J.arm a) :
    Alike (fun as => ∀ a ∈ as, J.arm a) (arms (fuel + 1) k as) (arms (fuel + 1) k' as) := by
  cases as with
  | nil => exact .pure (List.forall_mem_nil _)
  | cons a as =>
    obtain ⟨patterns, guard, action⟩ := a
    obtain ⟨ha, has⟩ := List.forall_mem_cons.mp h
    obtain ⟨⟨hg, ha⟩, built⟩ := n.parts.arm ha
    unfold arms
    exact (n.optional hk hg).bind fun guard' hg' => (n.expr hk ha).bind fun action' ha' =>
      (n.arms hk has).bind fun as' has' => .pure (List.forall_mem_cons.mpr ⟨built hg' ha', has'⟩)

theorem alike_assign {target value : Expr} {op : Option String} {pos : Position}
    (h : J.stmt (.assign target op value pos)) (used : Bool) :
    Alike (Replaces J (.assign target op value pos)) (stmt (fuel + 1) k used (.assign target op value pos))
      (stmt (fuel + 1) k' used (.assign target op value pos)) := by
  obtain ⟨⟨ht, hv⟩, built⟩ := n.parts.assign h
  have whole : Alike (Replaces J (.assign target op value pos))
      (do return .assign (← assigned fuel k target) op (← expr fuel k value) pos)
      (do return .assign (← assigned fuel k' target) op (← expr fuel k' value) pos) :=
    (n.assigned hk ht).bind fun target' ht' => (n.expr hk hv).bind fun value' hv' => .pure ⟨built ht' hv', rfl⟩
  unfold stmt
  cases op with
  | none =>
    dsimp only
    split
    · rename_i found
      exact .changed ⟨built ht (expr_selfOperation? n.parts hv found), rfl⟩
    · exact whole
  | some op => exact whole

theorem alike_branch {cond : Expr} {yes no : List Stmt} {pos : Position} (h : J.stmt (.branch cond yes no pos))
    (used : Bool) :
    Alike (Replaces J (.branch cond yes no pos)) (stmt (fuel + 1) k used (.branch cond yes no pos))
      (stmt (fuel + 1) k' used (.branch cond yes no pos)) := by
  obtain ⟨⟨hc, hy, hn⟩, built⟩ := n.parts.branch h
  unfold stmt
  dsimp only
  split
  · refine ((n.expr hk hc).bind fun cond' hc' => ?_).noted
    have alone := n.parts.plain_alone hc'
    split
    · have both : B [.expr cond', .noop cond'.start] :=
        n.parts.plain (List.forall_mem_cons.mpr ⟨alone, List.forall_mem_singleton.mpr (n.parts.plain_noop _)⟩)
      exact .pure ⟨n.parts.block.mpr both, rfl⟩
    · exact .pure (replaces_plain alone rfl)
  · rename_i b _ _
    have taken : B (if b then yes else no) := by
      split
      · exact hy
      · exact hn
    refine ((alike_inner n hk _ taken).bind fun body hb => ?_).noted
    split
    · exact .pure ⟨n.parts.noop pos, rfl⟩
    · exact .pure ⟨n.parts.block.mpr hb, rfl⟩
  · exact (n.expr hk hc).bind fun cond' hc' => (alike_inner n hk _ hy).bind fun yes' hy' =>
      (alike_inner n hk _ hn).bind fun no' hn' => .pure ⟨built hc' hy' hn', rfl⟩

/-- **An expression as a statement.** -/
theorem alike_alone {e : Expr} (h : J.expr e) (used : Bool) :
    Alike (Replaces J (.expr e)) (stmt (fuel + 1) k used (.expr e)) (stmt (fuel + 1) k' used (.expr e)) := by
  have whole : Alike (Replaces J (.expr e)) (do return .expr (← expr fuel k e)) (do return .expr (← expr fuel k' e)) :=
    (n.expr hk h).bind fun e' he' => .pure ⟨n.parts.alone.mpr he', rfl⟩
  cases e with
  | statements body pos =>
    cases body with
    | nil => exact .changed ⟨n.parts.noop pos, rfl⟩
    | cons =>
      have hb := (n.parts.statements h).1
      exact ((alike_inner n hk _ hb).bind fun body' hb' => .pure ⟨n.parts.block.mpr hb', rfl⟩).noted
  | _ => exact whole

/-- **A block as a statement.** -/
theorem alike_blockStatement {body : List Stmt} (h : B body) (pos : Position) (used : Bool) :
    Alike (Replaces J (.block body pos)) (stmt (fuel + 1) k used (.block body pos))
      (stmt (fuel + 1) k' used (.block body pos)) := by
  unfold stmt
  refine (alike_inner n hk _ h).bind fun body' hb => ?_
  split
  · exact .changed ⟨n.parts.noop pos, rfl⟩
  · split
    · exact .pure ⟨n.parts.block.mpr hb, rfl⟩
    · -- a statement that stands alone leaves its block
      rename_i free
      have plain := declaration?_of_not_bindsInBlock (eq_false_of_ne_true free)
      exact .changed ⟨n.parts.inner hb _ List.mem_cons_self, plain⟩
  · exact .pure ⟨n.parts.block.mpr hb, rfl⟩

/-- **A statement.** -/
theorem alike_stmt {s : Stmt} (h : J.stmt s) (used : Bool) :
    Alike (Replaces J s) (stmt (fuel + 1) k used s) (stmt (fuel + 1) k' used s) := by
  cases s with
  | noop pos => exact .pure ⟨h, rfl⟩
  | proceed pos => exact .pure ⟨h, rfl⟩
  | declare name constant inPlace e pos =>
    obtain ⟨he, built⟩ := n.parts.declare h
    unfold stmt
    exact (n.expr hk he).bind fun e' he' => .pure ⟨built he', rfl⟩
  | assign target op e pos => exact alike_assign n hk h used
  | expr e => exact alike_alone n hk (n.parts.alone.mp h) used
  | block body pos => exact alike_blockStatement n hk (n.parts.block.mp h) pos used
  | branch cond yes no pos => exact alike_branch n hk h used
  | switch item as fallback pos =>
    obtain ⟨⟨hi, ha, hf⟩, built⟩ := n.parts.switch h
    unfold stmt
    exact (n.expr hk hi).bind fun item' hi' => (n.arms hk ha).bind fun as' ha' =>
      (n.optional hk hf).bind fun fallback' hf' => .pure ⟨built hi' ha' hf', rfl⟩
  | repeatWhile cond body pos =>
    obtain ⟨⟨hc, hb⟩, built⟩ := n.parts.repeatWhile h
    unfold stmt
    split
    any_goals contradiction
    · rename_i e
      cases e
      exact .changed ⟨n.parts.noop _, rfl⟩
    · rename_i e
      cases e
      exact (n.optional hk hc).bind fun cond' hc' => (alike_inner n hk _ hb).bind fun body' hb' =>
        .pure ⟨built hc' hb', rfl⟩
  | repeatAfter body cond goOn pos =>
    obtain ⟨⟨hb, hc⟩, built⟩ := n.parts.repeatAfter h
    unfold stmt
    exact (n.expr hk hc).bind fun cond' hc' => (alike_inner n hk _ hb).bind fun body' hb' =>
      .pure ⟨built hb' hc', rfl⟩
  | each name counter items body pos =>
    obtain ⟨⟨hi, hb⟩, built⟩ := n.parts.each h
    unfold stmt
    exact (n.expr hk hi).bind fun items' hi' => (alike_inner n (hk.without _) _ hb).bind fun body' hb' =>
      .pure ⟨built hi' hb', rfl⟩
  | leave e pos =>
    obtain ⟨he, built⟩ := n.parts.leave h
    unfold stmt
    exact (n.optional hk he).bind fun e' he' => .pure ⟨built he', rfl⟩
  | giveBack e pos =>
    obtain ⟨he, built⟩ := n.parts.giveBack h
    unfold stmt
    exact (n.optional hk he).bind fun e' he' => .pure ⟨built he', rfl⟩
  | raise e pos =>
    obtain ⟨he, built⟩ := n.parts.raise h
    unfold stmt
    exact (n.optional hk he).bind fun e' he' => .pure ⟨built he', rfl⟩
  | attempt body name handler pos =>
    obtain ⟨⟨hb, hh⟩, built⟩ := n.parts.attempt h
    unfold stmt
    dsimp only
    split
    · exact ((alike_inner n hk _ hb).bind fun body' hb' => .pure ⟨n.parts.block.mpr hb', rfl⟩).noted
    · exact (alike_inner n hk _ hb).bind fun body' hb' =>
        (alike_inner n (hk.without _) _ hh).bind fun handler' hh' => .pure ⟨built hb' hh', rfl⟩
  | importModule path pos =>
    obtain ⟨hp, built⟩ := n.parts.importModule h
    unfold stmt
    exact (n.expr hk hp).bind fun path' hp' => .pure ⟨built hp', rfl⟩

theorem alike_stmts {ss : List Stmt} (h : ∀ s ∈ ss, J.stmt s) (used : Bool) :
    Alike (Shortens J ss) (stmts (fuel + 1) k used ss) (stmts (fuel + 1) k' used ss) := by
  cases ss with
  | nil => exact .pure (.refl h)
  | cons s ss =>
    obtain ⟨hs, hss⟩ := List.forall_mem_cons.mp h
    unfold stmts
    refine (n.stmt used hk hs).bind fun s' hs' => ?_
    have rest {l l' : Known} (hl : l.Agrees J l') :
        Alike (Shortens J (s :: ss)) (do return s' :: (← stmts fuel l used ss))
          (do return s' :: (← stmts fuel l' used ss)) :=
      (n.stmts used hl hss).bind fun ss' hss' => .pure (hss'.replaced hs')
    -- after the declaration of a constant its value is known
    cases s' with
    | declare name constant inPlace e pos =>
      refine rest (hk.set name ?_)
      split
      · exact fun c stands => n.parts.literal (n.parts.declare hs'.inner).1 stands
      · exact forall_mem_none
    | _ => exact rest hk

/-- **A block.** -/
theorem alike_block (p : Purpose) {ss : List Stmt} (h : ∀ s ∈ ss, J.stmt s) :
    Alike (Shortens J ss) (block (fuel + 1) k p ss) (block (fuel + 1) k' p ss) := by
  unfold block
  exact (Alike.of (shortens_flattened n.parts h)).bind fun ss₁ h₁ =>
    (Alike.of (shortens_reached h₁.statements)).bind fun ss₂ h₂ =>
      (n.stmts p.value hk h₂.statements).bind fun ss₃ h₃ =>
        Alike.of ((shortens_pruned n.parts p h₃.statements).weaken fun _ h₄ => ((h₁.trans h₂).trans h₃).trans h₄)

end Pass

/-- **One pass** keeps the property, however deep it goes, and asks only for what is known of variables that the code
names. -/
theorem keeps (parts : Transparent J B) (fuel : Nat) : Keeps J B fuel := by
  induction fuel with
  | zero => exact keeps_zero parts
  | succ fuel n => exact {
      parts
      expr := fun hk h => alike_expr n hk h
      chainRoot := fun hk h => alike_chainRoot n hk h
      steps := fun hk h => alike_steps n hk h
      exprs := fun hk h => alike_exprs n hk h
      fields := fun hk h => alike_fields n hk h
      optional := fun hk h => alike_optional n hk h
      arms := fun hk h => alike_arms n hk h
      stmt := fun used _ hk h => alike_stmt n hk h used
      assigned := fun hk h => alike_assigned n hk h
      stmts := fun used _ hk h => alike_stmts n hk h used
      block := fun p _ hk h => alike_block n hk p h }

/-! ## §8 — passes until nothing changes -/

variable {k k' : Known}

/-- **A block made shorter** has the property, and its declarations are the first of those before. It becomes the same
with whatever is known alike of the variables that it names. -/
theorem alike_repeated (parts : Transparent J B) (hk : k.Agrees J k') (p : Purpose) (tries : Nat) {ss : List Stmt}
    (h : ∀ s ∈ ss, J.stmt s) :
    repeated k' p tries ss = repeated k p tries ss ∧ Shortens J ss (repeated k p tries ss) := by
  induction tries generalizing ss with
  | zero => exact ⟨rfl, .refl h⟩
  | succ tries ih =>
    have once := (keeps parts depth).block p hk h
    have shorter := once.run false
    unfold repeated
    rw [once.same] at shorter ⊢
    generalize (block depth k' p ss).run false = r at shorter
    obtain ⟨ss', changed⟩ := r
    cases changed with
    | true => exact (ih shorter.statements).imp_right shorter.trans
    | false => exact ⟨rfl, shorter⟩

/-! ## §9 — scripts that are one expression -/

variable {e e' : Expr}

/-- **A pass over a script that is an expression** is a pass over the expression. -/
theorem run_block_expr {fuel : Nat} {changed : Bool} (noStatements : ∀ body pos, e ≠ .statements body pos)
    (pass : (expr fuel k e).run false = (e', changed)) :
    (block (fuel + 3) k ⟨true, false, true⟩ [.expr e]).run false = ([.expr e'], changed) := by
  -- statements for their value would become a block of their own
  have statement : stmt (fuel + 1) k true (.expr e) = (do return .expr (← expr fuel k e)) := by
    cases e with
    | statements body pos => exact absurd rfl (noStatements body pos)
    | _ => rfl
  have statements : stmts (fuel + 2) k true [.expr e] = (do return [.expr (← expr fuel k e)]) := by
    rw [stmts, statement]
    simp [stmts]
  have kept : pruned ⟨true, false, true⟩ [.expr e'] = pure [.expr e'] := by
    simp [pruned, withoutPure, endForValue, Stmt.hasValue]
  have start : flattened [.expr e] = pure [.expr e] := rfl
  have reached : reached [.expr e] = pure [.expr e] := rfl
  rw [block, start, pure_bind, reached, pure_bind, statements]
  show ((expr fuel k e >>= fun e => pure [.expr e]) >>= pruned ⟨true, false, true⟩).run false = _
  rw [bind_assoc, StateT.run_bind, pass]
  show (pure [.expr e'] >>= pruned _ : Pass _).run changed = _
  rw [pure_bind, kept]
  rfl

theorem repeated_of_pass {p : Purpose} {tries : Nat} {ss ss' : List Stmt} {changed : Bool}
    (pass : (block depth k p ss).run false = (ss', changed)) :
    repeated k p (tries + 1) ss = if changed then repeated k p tries ss' else ss' := by
  rw [repeated, pass]
  cases changed <;> rfl

/-- **A property that passes keep** is kept until nothing changes. -/
theorem kept_script {P : Expr → Prop} (noStatements : ∀ {e}, P e → ∀ body pos, e ≠ .statements body pos)
    (pass : ∀ fuel e, P e → Yields P (expr fuel k e)) (h : P e) :
    ∃ e', script k ⟨[.expr e], []⟩ = ⟨[.expr e'], []⟩ ∧ P e' := by
  have kept (tries : Nat) {e : Expr} (h : P e) :
      ∃ e', repeated k ⟨true, false, true⟩ tries [.expr e] = [.expr e'] ∧ P e' := by
    induction tries generalizing e with
    | zero => exact ⟨e, rfl, h⟩
    | succ tries ih =>
      -- three levels of the depth of a pass go to the block, its statements and the one statement
      obtain ⟨fuel, deep⟩ : ∃ fuel, depth = fuel + 3 := ⟨99997, rfl⟩
      have once := (pass fuel e h).run false
      obtain ⟨⟨e', changed⟩, ran⟩ : ∃ r, (expr fuel k e).run false = r := ⟨_, rfl⟩
      rw [ran] at once
      rw [repeated_of_pass (deep ▸ run_block_expr (noStatements h) ran)]
      cases changed with
      | false => exact ⟨e', rfl, once⟩
      | true => exact ih once
  obtain ⟨e', left, holds⟩ := kept tries h
  exact ⟨e', congrArg (Program.mk · []) left, holds⟩

/-- **An expression that a pass does not change** is run as it is. -/
theorem script_of_settled (noStatements : ∀ body pos, e ≠ .statements body pos)
    (settled : ∀ fuel, (expr (fuel + 6) k e).run false = (e, false)) :
    script k ⟨[.expr e], []⟩ = ⟨[.expr e], []⟩ := by
  -- three levels of the depth of a pass go to the block, its statements and the one statement
  have pass := run_block_expr noStatements (settled 99991)
  show (⟨repeated k _ (999 + 1) _, _⟩ : Program) = _
  rw [repeated_of_pass pass]
  rfl

/-- **An expression that a pass changes** is run as the pass leaves it, if another pass changes nothing. -/
theorem script_of_changed (noStatements : ∀ body pos, e ≠ .statements body pos)
    (noStatements' : ∀ body pos, e' ≠ .statements body pos)
    (changed : ∀ fuel, (expr (fuel + 6) k e).run false = (e', true))
    (settled : ∀ fuel, (expr (fuel + 6) k e').run false = (e', false)) :
    script k ⟨[.expr e], []⟩ = ⟨[.expr e'], []⟩ := by
  have first := run_block_expr noStatements (changed 99991)
  have second := run_block_expr noStatements' (settled 99991)
  show (⟨repeated k _ (998 + 1 + 1) _, _⟩ : Program) = _
  rw [repeated_of_pass first, if_pos rfl, repeated_of_pass second]
  rfl

end Dialogue.Script.Simplify
