import Dialogue.Proofs.Script.Undeclaring
import Dialogue.Script.Parser
/-!
# `Dialogue.Proofs.Script.Undeclaring.Reading` — a single expression declares nothing.

Where only expressions may stand, no declaration is read outside a closure, and neither is a loop or a handler, which
have variables of their own; what stands in braces is an expression or an assignment. Main statement: whatever is read
as a single expression declares nothing.
-/

namespace Dialogue.Script.Parser

variable {α β : Type}

/-! ## §1 — steps of reading -/

/-- **What is read** has a property. -/
structure Reads (P : α → Prop) (p : Parse α) : Prop where
  run : ∀ r a r', p.run r = .ok (a, r') → P a

namespace Reads

variable {P : α → Prop} {Q : β → Prop} {p : Parse α}

theorem pure {a : α} (h : P a) : Reads P (Pure.pure a) := by
  refine ⟨fun r a' r' e => ?_⟩
  cases e
  exact h

theorem bind (h : Reads P p) {f : α → Parse β} (hf : ∀ a, P a → Reads Q (f a)) : Reads Q (p >>= f) := by
  refine ⟨fun r b r' e => ?_⟩
  have both : (p.run r >>= fun x => (f x.1).run x.2) = .ok (b, r') := e
  cases first : p.run r with
  | error cause =>
    rw [first] at both
    cases both
  | ok x =>
    rw [first] at both
    exact (hf x.1 (h.run r x.1 x.2 first)).run x.2 b r' both

/-- One step after another, of which the first matters no further. -/
theorem after {f : α → Parse β} (hf : ∀ a, Reads Q (f a)) : Reads Q (p >>= f) :=
  bind (P := fun _ => True) ⟨fun _ _ _ _ => trivial⟩ fun a _ => hf a

/-- One step after another, of which the first reads two things. -/
theorem afterPair {p : Parse (α × γ)} {f : α × γ → Parse β} (hf : ∀ a c, Reads Q (f (a, c))) : Reads Q (p >>= f) :=
  after fun r => hf r.1 r.2

/-- A step that may be left out, before another one. -/
theorem guarded {c : Prop} [Decidable c] {q : Parse γ} (h : Reads P p) :
    Reads P (if c then q >>= fun _ => p else p) := by
  split
  · exact after fun _ => h
  · exact h

theorem fail (cause : SyntaxCause) (pos : Position) : Reads P (Parser.fail cause pos) :=
  ⟨fun _ _ _ e => nomatch e⟩

theorem refuse (t : Token) (cause : SyntaxCause) (pos : Position) : Reads P (Parser.refuse t cause pos) := by
  unfold Parser.refuse
  split <;> exact fail _ _

theorem unexpected (t : Token) (pos : Position) : Reads P (Parser.unexpected t pos) := refuse ..

end Reads

/-! ## §2 — expressions built from what was read -/

theorem reads_literal (v : Constant) (pos : Position) : Reads Expr.DeclaresNothing (literal v pos) :=
  .after fun _ => .pure (.constant v pos)

theorem reads_reservedWord (m : Mode) (word : String) (pos : Position) :
    Reads Expr.DeclaresNothing (reservedWord m word pos) := by
  unfold reservedWord
  split
  · exact .pure (.this pos)
  · exact .fail _ _

theorem reads_checkBool {e : Expr} (h : e.DeclaresNothing) : Reads Expr.DeclaresNothing (checkBool e) := by
  unfold checkBool
  split
  · exact .fail _ _
  · exact .pure h

theorem reads_operation (op : String) {left right : Expr} (hl : left.DeclaresNothing) (hr : right.DeclaresNothing)
    (pos : Position) : Reads Expr.DeclaresNothing (operation op left right pos) := by
  have operands {a b : Expr} (ha : a.DeclaresNothing) (hb : b.DeclaresNothing) : ∀ e ∈ [a, b], e.DeclaresNothing :=
    List.forall_mem_cons.mpr ⟨ha, List.forall_mem_singleton.mpr hb⟩
  have contains := Expr.Within.operation "contains" (operands hr hl) left.start
  unfold operation
  split
  · exact (reads_checkBool hl).bind fun _ hl' => (reads_checkBool hr).bind fun _ hr' => .pure (.both hl' hr' pos)
  · exact (reads_checkBool hl).bind fun _ hl' => (reads_checkBool hr).bind fun _ hr' => .pure (.either hl' hr' pos)
  · exact .pure (.orElse hl hr pos)
  · exact .pure contains
  · exact .pure (.operation _ (List.forall_mem_singleton.mpr contains) pos)
  · exact .pure (.operation _ (operands hl hr) pos)

theorem declaresNothing_negative {e : Expr} (h : e.DeclaresNothing) (pos : Position) :
    (negative e pos).DeclaresNothing := by
  unfold negative
  split
  · split <;> exact .constant _ _
  · exact .constant _ _
  · exact .operation _ (List.forall_mem_singleton.mpr h) pos

/-- **An assignment**, if the left side can be assigned to. -/
theorem reads_assignment {target value : Expr} (ht : target.DeclaresNothing) (op : Option String)
    (hv : value.DeclaresNothing) (pos : Position) : Reads Stmt.DeclaresNothing (assignment target op value pos) := by
  have built : Reads Stmt.DeclaresNothing (pure (.assign target op value pos)) := .pure (.assign ht op hv pos)
  unfold assignment
  dsimp only
  split
  · refine .after fun r => ?_
    split
    · exact .fail _ _
    · exact built
  · exact built
  · split
    · exact .fail _ _
    · split
      · exact built
      · exact built
      · exact .fail _ _
  · split <;> exact .fail _ _
  · split <;> exact .fail _ _
  · split <;> exact .fail _ _
  · split <;> exact .fail _ _

/-! ## §3 — the grammar -/

/-- **Reading that nests at most so deep**, where only expressions may stand. -/
structure Plain (fuel : Nat) : Prop where
  expression : ∀ m, m.plain = true → Reads Expr.DeclaresNothing (expression fuel m)
  binary : ∀ m parent left, m.plain = true → left.DeclaresNothing →
    Reads Expr.DeclaresNothing (binary fuel m parent left)
  unary : ∀ m, m.plain = true → Reads Expr.DeclaresNothing (unary fuel m)
  steps : ∀ m root afterIndex before, m.plain = true → (∀ s ∈ before, s.DeclaresNothing) →
    Reads (fun ss => ∀ s ∈ ss, s.DeclaresNothing) (steps fuel m root afterIndex before)
  callArguments : ∀ m name, m.plain = true →
    Reads (fun es => ∀ e ∈ es, e.DeclaresNothing) (callArguments fuel m name)
  moreArguments : ∀ m name before, m.plain = true → (∀ e ∈ before, e.DeclaresNothing) →
    Reads (fun es => ∀ e ∈ es, e.DeclaresNothing) (moreArguments fuel m name before)
  primary : ∀ m, m.plain = true → Reads Expr.DeclaresNothing (primary fuel m)
  bangCall : ∀ m name pos, m.plain = true → Reads Expr.DeclaresNothing (bangCall fuel m name pos)
  templatePieces : ∀ m, m.plain = true → Reads (fun es => ∀ e ∈ es, e.DeclaresNothing) (templatePieces fuel m)
  arrayItems : ∀ m before, m.plain = true → (∀ e ∈ before, e.DeclaresNothing) →
    Reads (fun es => ∀ e ∈ es, e.DeclaresNothing) (arrayItems fuel m before)
  objectFields : ∀ m before, m.plain = true → (∀ f ∈ before, f.2.DeclaresNothing) →
    Reads (fun fs => ∀ f ∈ fs, f.2.DeclaresNothing) (objectFields fuel m before)
  closure : ∀ m, Reads Expr.DeclaresNothing (closure fuel m)
  ifStatement : ∀ m, m.plain = true → Reads Stmt.DeclaresNothing (ifStatement fuel m)
  switchStatement : ∀ m, m.plain = true → Reads Stmt.DeclaresNothing (switchStatement fuel m)
  switchArms : ∀ m before fallback, m.plain = true → (∀ a ∈ before, a.DeclaresNothing) →
    (∀ e ∈ fallback, e.1.DeclaresNothing) →
    Reads (fun r => (∀ a ∈ r.1, a.DeclaresNothing) ∧ ∀ e ∈ r.2, e.DeclaresNothing)
      (switchArms fuel m before fallback)
  switchAction : ∀ m, m.plain = true → Reads (fun r => r.1.DeclaresNothing) (switchAction fuel m)
  block : ∀ m, m.plain = true → Reads Stmt.DeclaresNothing (block fuel m)
  blockBody : ∀ m, m.plain = true → Reads (fun ss => ∀ s ∈ ss, s.DeclaresNothing) (blockBody fuel m)
  expressionStatement : ∀ m, m.plain = true → Reads Stmt.DeclaresNothing (expressionStatement fuel m)

theorem plain_zero : Plain 0 where
  expression _ _ := .fail _ _
  binary _ _ _ _ _ := .fail _ _
  unary _ _ := .fail _ _
  steps _ _ _ _ _ _ := .fail _ _
  callArguments _ _ _ := .fail _ _
  moreArguments _ _ _ _ _ := .fail _ _
  primary _ _ := .fail _ _
  bangCall _ _ _ _ := .fail _ _
  templatePieces _ _ := .fail _ _
  arrayItems _ _ _ _ := .fail _ _
  objectFields _ _ _ _ := .fail _ _
  closure _ := .fail _ _
  ifStatement _ _ := .fail _ _
  switchStatement _ _ := .fail _ _
  switchArms _ _ _ _ _ _ := .fail _ _
  switchAction _ _ := .fail _ _
  block _ _ := .fail _ _
  blockBody _ _ := .fail _ _
  expressionStatement _ _ := .fail _ _

section Step

variable {fuel : Nat} (n : Plain fuel) {m : Mode} (plain : m.plain = true)

include n plain

theorem reads_expression : Reads Expr.DeclaresNothing (expression (fuel + 1) m) := by
  unfold expression
  exact (n.unary m plain).bind fun left hl => n.binary m 1 left plain hl

theorem reads_binary (parent : Nat) {left : Expr} (hl : left.DeclaresNothing) :
    Reads Expr.DeclaresNothing (binary (fuel + 1) m parent left) := by
  unfold binary
  refine .afterPair fun t pos => ?_
  dsimp -zeta only
  extract_lets strength combined
  split
  · exact .pure hl
  · refine .after fun _ => (n.unary m plain).bind fun right hr => .after fun ahead => ?_
    extract_lets nextStrength
    have reads_combined (right : Expr) (hr : right.DeclaresNothing) : Reads Expr.DeclaresNothing (combined right) :=
      (reads_operation t.text hl hr pos).bind fun built hb => n.binary m parent built plain hb
    -- an operator that binds stronger takes the right operand first
    split
    · exact (n.binary m _ right plain hr).bind reads_combined
    · exact reads_combined right hr

theorem reads_unary : Reads Expr.DeclaresNothing (unary (fuel + 1) m) := by
  unfold unary
  refine .afterPair fun t pos => ?_
  dsimp only
  split
  · exact .fail _ _
  · exact .after fun _ => (n.unary m plain).bind fun e he => .pure (declaresNothing_negative he pos)
  · refine .after fun _ => (n.unary m plain).bind fun e he => ?_
    split
    · exact .pure he
    · exact .pure he
    · exact .pure (.operation _ (List.forall_mem_singleton.mpr he) pos)
  · exact .after fun _ => (n.unary m plain).bind fun e he =>
      .pure (.operation _ (List.forall_mem_singleton.mpr he) pos)
  · refine (n.primary m plain).bind fun root hr => ?_
    refine (n.steps m root false [] plain (List.forall_mem_nil _)).bind fun ss hs => ?_
    split
    · exact .pure hr
    · exact .pure (.chain hr hs)

theorem reads_steps (root : Expr) (afterIndex : Bool) {before : List Step} (hb : ∀ s ∈ before, s.DeclaresNothing) :
    Reads (fun ss => ∀ s ∈ ss, s.DeclaresNothing) (steps (fuel + 1) m root afterIndex before) := by
  have more (afterIndex : Bool) {step : Step} (hs : step.DeclaresNothing) :
      Reads (fun ss => ∀ s ∈ ss, s.DeclaresNothing) (steps fuel m root afterIndex (before ++ [step])) :=
    n.steps m root afterIndex _ plain (List.forall_mem_append.mpr ⟨hb, List.forall_mem_singleton.mpr hs⟩)
  unfold steps
  refine .afterPair fun t pos => ?_
  dsimp only
  split
  case h_1 | h_2 =>
    refine .after fun _ => (n.expression { m with alternatives := false } plain).bind fun key hk => .guarded ?_
    exact .after fun _ => more true (.index hk pos _)
  case h_3 | h_4 =>
    refine .after fun _ => .afterPair fun name namePos => .afterPair fun next _ => ?_
    dsimp only
    split
    · exact (n.callArguments m name plain).bind fun _ ha => more false (.method name ha namePos pos _)
    · exact (n.callArguments m name plain).bind fun _ ha => more false (.method name ha namePos pos _)
    · exact more false (.property name namePos pos _)
  case h_5 => exact .pure hb

theorem reads_callArguments (name : String) :
    Reads (fun es => ∀ e ∈ es, e.DeclaresNothing) (callArguments (fuel + 1) m name) := by
  unfold callArguments
  refine .afterPair fun t _ => ?_
  dsimp only
  split
  · exact .pure (List.forall_mem_nil _)
  · refine .afterPair fun next pos => ?_
    dsimp only
    split
    · exact .fail _ _
    · exact .after fun _ => .pure (List.forall_mem_nil _)
    · exact n.moreArguments { m with alternatives := false } name [] plain (List.forall_mem_nil _)

theorem reads_moreArguments (name : String) {before : List Expr} (hb : ∀ e ∈ before, e.DeclaresNothing) :
    Reads (fun es => ∀ e ∈ es, e.DeclaresNothing) (moreArguments (fuel + 1) m name before) := by
  unfold moreArguments
  refine .afterPair fun t _ => ?_
  dsimp -zeta only
  extract_lets after
  have reads_after (es : List Expr) (hes : ∀ e ∈ es, e.DeclaresNothing) :
      Reads (fun es => ∀ e ∈ es, e.DeclaresNothing) (after es) := by
    refine .afterPair fun t pos => ?_
    dsimp only
    split
    · exact .after fun _ => .pure hes
    · exact .after fun _ => n.moreArguments m name es plain hes
    · exact .fail _ _
    · exact .refuse _ _ _
  split
  · exact reads_after before hb
  · refine (n.expression m plain).bind fun e he => ?_
    exact reads_after _ (List.forall_mem_append.mpr ⟨hb, List.forall_mem_singleton.mpr he⟩)

theorem reads_primary : Reads Expr.DeclaresNothing (primary (fuel + 1) m) := by
  have inner : ({ m with alternatives := false } : Mode).plain = true := plain
  have call (s : String) (pos : Position) : Reads Expr.DeclaresNothing
      (do return Expr.call s (← callArguments fuel { m with alternatives := false } s) pos false) :=
    (n.callArguments _ s inner).bind fun arguments ha => .pure (.call s ha pos fun _ => trivial)
  have single {s : Stmt} (hs : s.DeclaresNothing) (pos : Position) : (Expr.statements [s] pos).DeclaresNothing :=
    .statements (List.forall_mem_singleton.mpr hs) pos
  unfold primary
  dsimp only
  refine .afterPair fun t pos => ?_
  dsimp only
  split
  · exact .fail _ _
  · exact reads_literal _ pos
  · exact reads_literal _ pos
  · exact reads_literal _ pos
  · exact reads_literal _ pos
  · exact reads_literal _ pos
  · rename_i s
    refine .after fun _ => (n.templatePieces _ inner).bind fun pieces hp => .pure (.template ?_ pos)
    refine List.forall_mem_append.mpr ⟨?_, hp⟩
    split
    · exact List.forall_mem_nil _
    · exact List.forall_mem_singleton.mpr (.constant _ pos)
  · rename_i s
    refine .after fun _ => .afterPair fun next _ => ?_
    dsimp only
    split
    · exact call s pos
    · exact call s pos
    · exact n.bangCall _ s pos inner
    · exact .after fun _ => .pure (.var trivial pos)
  · rename_i s
    refine .after fun _ => .afterPair fun next _ => ?_
    dsimp only
    split
    · split
      · exact call s pos
      · exact reads_reservedWord m s pos
    · split
      · exact call s pos
      · exact reads_reservedWord m s pos
    · split
      · exact n.bangCall _ s pos inner
      · exact reads_reservedWord m s pos
    · exact reads_reservedWord m s pos
  · exact .fail _ _
  · split
    · exact reads_literal _ pos
    · exact reads_literal _ pos
    · refine .after fun _ => .after fun closed => ?_
      split
      · exact .pure (.constant _ pos)
      · exact (n.expression _ inner).bind fun e he => .after fun _ => .pure he
    · exact .after fun _ => (n.arrayItems _ [] inner (List.forall_mem_nil _)).bind fun items hi => .pure (.array hi pos)
    · exact .after fun _ => (n.objectFields _ [] inner (List.forall_mem_nil _)).bind fun fs hf => .pure (.object hf pos)
    · exact (n.ifStatement _ inner).bind fun s hs => .pure (single hs pos)
    · exact (n.switchStatement _ inner).bind fun s hs => .pure (single hs pos)
    · exact n.closure _
    · exact n.closure _
    · rw [if_pos plain]
      exact .unexpected _ _
    · rw [if_pos plain]
      exact .unexpected _ _
    · rw [if_pos plain]
      exact .unexpected _ _
    · rw [if_pos plain]
      exact .unexpected _ _
    · rw [if_pos plain]
      exact .unexpected _ _
    · exact .unexpected _ _

theorem reads_bangCall (name : String) (pos : Position) :
    Reads Expr.DeclaresNothing (bangCall (fuel + 1) m name pos) := by
  unfold bangCall
  refine .after fun _ => .afterPair fun next nextPos => ?_
  dsimp only
  split
  · exact (n.callArguments m name plain).bind fun arguments ha => .pure (.call name ha pos fun _ => trivial)
  · exact (n.callArguments m name plain).bind fun arguments ha => .pure (.call name ha pos fun _ => trivial)
  · exact .refuse _ _ _

theorem reads_templatePieces :
    Reads (fun es => ∀ e ∈ es, e.DeclaresNothing) (templatePieces (fuel + 1) m) := by
  have text (s : String) (pos : Position) :
      ∀ e ∈ (if s.isEmpty then [] else [Expr.constant (.str s) pos]), e.DeclaresNothing := by
    split
    · exact List.forall_mem_nil _
    · exact List.forall_mem_singleton.mpr (.constant _ pos)
  unfold templatePieces
  refine .afterPair fun _ blockPos => (n.block m plain).bind fun body hb => .afterPair fun t pos => ?_
  have piece : (Expr.statements [body] blockPos).DeclaresNothing :=
    .statements (List.forall_mem_singleton.mpr hb) blockPos
  dsimp only
  split
  · exact .pure (List.forall_mem_cons.mpr ⟨piece, text _ pos⟩)
  · refine (n.templatePieces m plain).bind fun rest hr => .pure ?_
    exact List.forall_mem_append.mpr ⟨List.forall_mem_cons.mpr ⟨piece, text _ pos⟩, hr⟩
  · exact .refuse _ _ _

theorem reads_arrayItems {before : List Expr} (hb : ∀ e ∈ before, e.DeclaresNothing) :
    Reads (fun es => ∀ e ∈ es, e.DeclaresNothing) (arrayItems (fuel + 1) m before) := by
  unfold arrayItems
  refine .afterPair fun t pos => ?_
  dsimp only
  split
  · exact .after fun _ => .pure hb
  · exact .fail _ _
  · refine (n.expression m plain).bind fun e he => .afterPair fun t pos => ?_
    have more := n.arrayItems m (before ++ [e]) plain
      (List.forall_mem_append.mpr ⟨hb, List.forall_mem_singleton.mpr he⟩)
    dsimp only
    split
    · exact .after fun _ => more
    · exact more
    · exact .fail _ _
    · exact .refuse _ _ _

theorem reads_objectFields {before : List (String × Expr)} (hb : ∀ f ∈ before, f.2.DeclaresNothing) :
    Reads (fun fs => ∀ f ∈ fs, f.2.DeclaresNothing) (objectFields (fuel + 1) m before) := by
  unfold objectFields
  refine .afterPair fun t pos => ?_
  dsimp only
  split
  case h_1 => exact .pure hb
  case h_2 => exact .fail _ _
  case h_3 | h_4 =>
    refine .guarded (.after fun _ => (n.expression m plain).bind fun e he => .afterPair fun t pos => ?_)
    have more (s : String) := n.objectFields m (before ++ [(s, e)]) plain
      (List.forall_mem_append.mpr ⟨hb, List.forall_mem_singleton.mpr he⟩)
    dsimp only
    split
    · exact .after fun _ => more _
    · exact more _
    · exact .fail _ _
    · exact .refuse _ _ _
  case h_5 => split <;> exact .fail _ _
  case h_6 => exact .refuse _ _ _

theorem reads_ifStatement : Reads Stmt.DeclaresNothing (ifStatement (fuel + 1) m) := by
  unfold ifStatement
  refine .afterPair fun _ pos => .after fun _ => (n.expression m plain).bind fun e he => ?_
  refine (reads_checkBool he).bind fun cond hc => .after fun _ => (n.blockBody m plain).bind fun yes hy => ?_
  refine .after fun more => ?_
  dsimp only
  split
  · refine .afterPair fun t _ => ?_
    dsimp only
    split
    · exact (n.ifStatement m plain).bind fun s hs => .pure (.branch hc hy (List.forall_mem_singleton.mpr hs) pos)
    · exact (n.blockBody m plain).bind fun no hn => .pure (.branch hc hy hn pos)
  · have nothing : ∀ s ∈ ([] : List Stmt), s.DeclaresNothing := List.forall_mem_nil _
    exact .pure (.branch hc hy nothing pos)

theorem reads_switchStatement : Reads Stmt.DeclaresNothing (switchStatement (fuel + 1) m) := by
  unfold switchStatement
  refine .afterPair fun _ pos => (n.expression m plain).bind fun item hi => .after fun _ => ?_
  refine (n.switchArms m [] none plain (List.forall_mem_nil _) forall_mem_none).bind fun r hr => ?_
  exact .pure (.switch hi hr.1 hr.2 pos)

theorem reads_switchArms {before : List Arm} {fallback : Option (Expr × Position)}
    (hb : ∀ a ∈ before, a.DeclaresNothing) (hf : ∀ e ∈ fallback, e.1.DeclaresNothing) :
    Reads (fun r => (∀ a ∈ r.1, a.DeclaresNothing) ∧ ∀ e ∈ r.2, e.DeclaresNothing)
      (switchArms (fuel + 1) m before fallback) := by
  unfold switchArms
  refine .afterPair fun t pos => ?_
  dsimp -zeta only
  extract_lets last hasRange
  split
  · refine .after fun _ => .pure ⟨hb, fun e mem => ?_⟩
    obtain ⟨x, there, rfl⟩ := Option.map_eq_some_iff.mp mem
    exact hf x there
  · exact .fail _ _
  · exact .fail _ _
  · have reads_last : Reads (fun r => (∀ a ∈ r.1, a.DeclaresNothing) ∧ ∀ e ∈ r.2, e.DeclaresNothing) (last ()) :=
      (n.switchAction m plain).bind fun r ha => .after fun _ =>
        n.switchArms m before _ plain hb fun e mem => Option.mem_some.mp mem ▸ ha
    exact .after fun _ => .afterPair fun t ifPos => .guarded reads_last
  · refine .after fun patterns => .after fun values => .after fun guarded => ?_
    extract_lets arm
    have reads_arm (guard : Option Expr) (hg : ∀ e ∈ guard, e.DeclaresNothing) :
        Reads (fun r => (∀ a ∈ r.1, a.DeclaresNothing) ∧ ∀ e ∈ r.2, e.DeclaresNothing) (arm guard) :=
      (n.switchAction m plain).bind fun r ha => .after fun _ =>
        n.switchArms m _ none plain
          (List.forall_mem_append.mpr ⟨hb, List.forall_mem_singleton.mpr (.mk values hg ha)⟩) forall_mem_none
    split
    · exact .after fun _ => (n.expression m plain).bind fun e he => (reads_checkBool he).bind fun g hg =>
        reads_arm _ fun x mem => Option.mem_some.mp mem ▸ hg
    · exact reads_arm none forall_mem_none

theorem reads_switchAction : Reads (fun r => r.1.DeclaresNothing) (switchAction (fuel + 1) m) := by
  unfold switchAction
  refine .after fun _ => ?_
  rw [if_pos plain]
  exact (n.expression m plain).bind fun e he => .pure he

theorem reads_block : Reads Stmt.DeclaresNothing (block (fuel + 1) m) := by
  unfold block
  exact .afterPair fun _ pos => (n.blockBody m plain).bind fun body hb => .pure (.block hb pos)

theorem reads_blockBody : Reads (fun ss => ∀ s ∈ ss, s.DeclaresNothing) (blockBody (fuel + 1) m) := by
  unfold blockBody
  refine .after fun _ => ?_
  rw [if_pos plain]
  refine (n.expressionStatement m plain).bind fun s hs => .afterPair fun t pos => ?_
  dsimp only
  split
  · exact .pure (List.forall_mem_singleton.mpr hs)
  · exact .refuse _ _ _

theorem reads_expressionStatement : Reads Stmt.DeclaresNothing (expressionStatement (fuel + 1) m) := by
  unfold expressionStatement
  refine (n.expression m plain).bind fun target ht => .afterPair fun t pos => ?_
  dsimp only
  split
  · exact .after fun _ => (n.expression m plain).bind fun value hv => reads_assignment ht none hv pos
  · split
    · exact .after fun _ => (n.expression m plain).bind fun value hv => reads_assignment ht _ hv pos
    · exact .pure (.expr ht)

end Step

/-- **A closure** declares nothing where it stands, whatever it does when it is called. -/
theorem reads_closure (fuel : Nat) (m : Mode) : Reads Expr.DeclaresNothing (closure (fuel + 1) m) := by
  unfold closure
  refine .afterPair fun t pos => ?_
  dsimp only
  split
  · exact .after fun params => .after fun read => .after fun _ => .pure (.closure (fun _ _ => trivial) _ pos)
  · refine .after fun _ => .after fun params => .after fun read => .after fun _ => ?_
    exact .pure (.closure (fun _ _ => trivial) _ pos)

/-- **Where only expressions may stand**, nothing is declared, however deep reading nests. -/
theorem plain (fuel : Nat) : Plain fuel := by
  induction fuel with
  | zero => exact plain_zero
  | succ fuel n => exact {
      expression := fun _ h => reads_expression n h
      binary := fun _ parent _ h hl => reads_binary n h parent hl
      unary := fun _ h => reads_unary n h
      steps := fun _ root afterIndex _ h hb => reads_steps n h root afterIndex hb
      callArguments := fun _ name h => reads_callArguments n h name
      moreArguments := fun _ name _ h hb => reads_moreArguments n h name hb
      primary := fun _ h => reads_primary n h
      bangCall := fun _ name pos h => reads_bangCall n h name pos
      templatePieces := fun _ h => reads_templatePieces n h
      arrayItems := fun _ _ h hb => reads_arrayItems n h hb
      objectFields := fun _ _ h hb => reads_objectFields n h hb
      closure := fun m => reads_closure fuel m
      ifStatement := fun _ h => reads_ifStatement n h
      switchStatement := fun _ h => reads_switchStatement n h
      switchArms := fun _ _ _ h hb hf => reads_switchArms n h hb hf
      switchAction := fun _ h => reads_switchAction n h
      block := fun _ h => reads_block n h
      blockBody := fun _ h => reads_blockBody n h
      expressionStatement := fun _ h => reads_expressionStatement n h }

theorem run_ok {P : α → Prop} {p : Nat → Parse α} (h : ∀ fuel, Reads P (p fuel)) {text : String}
    {r : α × Reading} (read : run p text = .ok r) : P r.1 :=
  (h _).run _ r.1 r.2 read

/-- **A single expression declares nothing**, and no functions either. -/
theorem singleExpression_ok {text : String} {s : Program} (h : singleExpression text = .ok s) :
    ∃ e : Expr, e.DeclaresNothing ∧ s = ⟨[.expr e], []⟩ := by
  unfold singleExpression at h
  generalize read : run _ text = r at h
  cases r with
  | error cause => cases h
  | ok r =>
    cases h
    refine ⟨r.1, run_ok (fun fuel => ?_) read, rfl⟩
    refine ((plain fuel).expression _ rfl).bind fun e he => .afterPair fun t pos => ?_
    dsimp only
    split
    · exact .pure he
    · exact .refuse _ _ _

end Dialogue.Script.Parser
