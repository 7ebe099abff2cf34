import Dialogue.Proofs.Script.Looking
import Dialogue.Proofs.Script.Simplify
import Mathlib.Order.MinMax
/-!
# `Dialogue.Proofs.Script.Looking.Simplify` — expressions that only look, made shorter.

What takes the place of a part of such an expression is what that part comes to: a literal is computed with the
operators of a run, and a constant has the value that it is known by. Main statement: an expression that only looks,
made shorter with what is known of the variables, only looks and comes to the same.
-/

namespace Dialogue.Script

/-! ## §1 — constants among the values of a run -/

namespace Datum

section

variable {κ : Type}

mutual

/-- A constant has the text that it has among other values. -/
theorem innerText_ofConstant (part : Inclusion → String) :
    ∀ c : Constant, (ofConstant c : Datum κ).innerText part = c.innerText part
  | .unit | .bool _ | .int _ | .float _ | .char _ | .str _ | .range .. | .timestamp _ | .inclusion _ | .failure _
  | .function .. => rfl
  | .array items => congrArg (joined "[" · "]") (innerTexts_ofConstants part items)
  | .object fields => congrArg (joined "#\x7b" · "\x7d") (fieldTexts_ofConstantFields part fields)

theorem innerTexts_ofConstants (part : Inclusion → String) :
    ∀ cs : List Constant, innerTexts part (ofConstants cs : List (Datum κ)) = innerTexts part cs
  | [] => rfl
  | c :: cs => congrArg₂ List.cons (innerText_ofConstant part c) (innerTexts_ofConstants part cs)

theorem fieldTexts_ofConstantFields (part : Inclusion → String) :
    ∀ fs : List (String × Constant),
      fieldTexts part (ofConstantFields fs : List (String × Datum κ)) = fieldTexts part fs
  | [] => rfl
  | (k, c) :: fs => congrArg₂ List.cons (congrArg (Text.Quoted.text k ++ ": " ++ ·) (innerText_ofConstant part c))
      (fieldTexts_ofConstantFields part fs)

end

theorem scriptText_ofConstant (c : Constant) : (ofConstant c : Datum κ).scriptText = c.scriptText := by
  cases c
  case array | object => exact innerText_ofConstant ..
  all_goals rfl

theorem ofConstants_eq_map (cs : List Constant) : (ofConstants cs : List (Datum κ)) = cs.map ofConstant := by
  induction cs with
  | nil => rfl
  | cons c cs ih => exact congrArg (ofConstant c :: ·) ih

theorem eq_bool_of_ofConstant {c : Constant} {b : Bool} (h : (ofConstant c : Datum κ) = .bool b) : c = .bool b := by
  cases c <;> cases h
  rfl

/-- Constant fields are set where fields are. -/
theorem ofConstantFields_setField (name : String) (c : Constant) (fs : List (String × Constant)) :
    (ofConstantFields (setField name c fs) : List (String × Datum κ)) =
      setField name (ofConstant c) (ofConstantFields fs) := by
  induction fs with
  | nil => rfl
  | cons f fs ih =>
    obtain ⟨k, d⟩ := f
    simp only [setField, ofConstantFields]
    split
    · rfl
    · split
      · rfl
      · exact congrArg ((k, ofConstant d) :: ·) ih

theorem ofConstantFields_ofFields (fs : List (String × Constant)) :
    (ofConstantFields (ofFields fs) : List (String × Datum κ)) = ofFields (ofConstantFields fs) := by
  have each (before : List (String × Constant)) :
      (ofConstantFields (fs.foldl (fun gs f => setField f.1 f.2 gs) before) : List (String × Datum κ)) =
        (ofConstantFields fs).foldl (fun gs f => setField f.1 f.2 gs) (ofConstantFields before) := by
    induction fs generalizing before with
    | nil => rfl
    | cons f fs ih =>
      rw [List.foldl_cons, ih, ofConstantFields_setField]
      rfl
  exact each []

mutual

/-- **The constant that a value is** is that value. -/
theorem ofConstant_of_toConstant? : ∀ {v : Datum κ} {c : Constant}, v.toConstant? = some c → ofConstant c = v
  | .unit, _, rfl | .bool _, _, rfl | .int _, _, rfl | .float _, _, rfl | .char _, _, rfl | .str _, _, rfl
  | .range .., _, rfl | .timestamp _, _, rfl | .inclusion _, _, rfl | .failure _, _, rfl => rfl
  | .array _, _, e => by
    obtain ⟨cs, items, rfl⟩ := Option.map_eq_some_iff.mp e
    exact congrArg array (ofConstants_of_toConstants? items)
  | .object _, _, e => by
    obtain ⟨fs, fields, rfl⟩ := Option.map_eq_some_iff.mp e
    exact congrArg object (ofConstantFields_of_toConstantFields? fields)

theorem ofConstants_of_toConstants? : ∀ {vs : List (Datum κ)} {cs : List Constant}, toConstants? vs = some cs →
    ofConstants cs = vs
  | [], _, rfl => rfl
  | _ :: _, _, e => by
    obtain ⟨c, first, e⟩ := Option.bind_eq_some_iff.mp e
    obtain ⟨cs, rest, e⟩ := Option.bind_eq_some_iff.mp e
    cases e
    exact congrArg₂ List.cons (ofConstant_of_toConstant? first) (ofConstants_of_toConstants? rest)

theorem ofConstantFields_of_toConstantFields? : ∀ {fs : List (String × Datum κ)} {gs : List (String × Constant)},
    toConstantFields? fs = some gs → ofConstantFields gs = fs
  | [], _, rfl => rfl
  | (k, _) :: _, _, e => by
    obtain ⟨c, first, e⟩ := Option.bind_eq_some_iff.mp e
    obtain ⟨gs, rest, e⟩ := Option.bind_eq_some_iff.mp e
    cases e
    exact congrArg₂ List.cons (congrArg (k, ·) (ofConstant_of_toConstant? first))
      (ofConstantFields_of_toConstantFields? rest)

end

end

end Datum

/-! ## §2 — literals -/

section

variable {seen : String → Option Value}

mutual

/-- **A literal comes to the constant that it stands for.** -/
theorem Expr.sight_of_literal? : ∀ {e : Expr} {c : Constant}, e.literal? = some c →
    e.sight seen = .ok (.ofConstant c)
  | .constant .., _, rfl => rfl
  | .array _ _, _, h => by
    obtain ⟨cs, items, rfl⟩ := Option.map_eq_some_iff.mp h
    exact congrArg (Except.map Datum.array) (Expr.sights_of_literals? items)
  | .object _ _, _, h => by
    obtain ⟨gs, fields, rfl⟩ := Option.map_eq_some_iff.mp h
    unfold Expr.sight
    rw [Expr.fieldSights_of_literalFields? fields]
    exact congrArg (fun fs => Except.ok (Datum.object fs)) (Datum.ofConstantFields_ofFields gs).symm
  | .template _ _, _, h => by
    obtain ⟨cs, pieces, rfl⟩ := Option.map_eq_some_iff.mp h
    unfold Expr.sight
    rw [Expr.sights_of_literals? pieces, Datum.ofConstants_eq_map]
    -- a constant has its own text among the values of a run
    have texts : (cs.map Datum.ofConstant : List Value).map Datum.scriptText = cs.map Datum.scriptText := by
      rw [List.map_map]
      exact List.map_congr_left fun c _ => Datum.scriptText_ofConstant c
    exact congrArg (fun texts => Except.ok (Datum.str (String.join texts))) texts

theorem Expr.sights_of_literals? : ∀ {es : List Expr} {cs : List Constant}, Expr.literals? es = some cs →
    Expr.sights seen es = .ok (Datum.ofConstants cs)
  | [], _, rfl => rfl
  | _ :: _, _, h => by
    obtain ⟨c, first, h⟩ := Option.bind_eq_some_iff.mp h
    obtain ⟨cs, rest, h⟩ := Option.bind_eq_some_iff.mp h
    cases h
    unfold Expr.sights
    rw [Expr.sight_of_literal? first, Expr.sights_of_literals? rest]
    rfl

theorem Expr.fieldSights_of_literalFields? : ∀ {fs : List (String × Expr)} {gs : List (String × Constant)},
    Expr.literalFields? fs = some gs → Expr.fieldSights seen fs = .ok (Datum.ofConstantFields gs)
  | [], _, rfl => rfl
  | (_, _) :: _, _, h => by
    obtain ⟨c, first, h⟩ := Option.bind_eq_some_iff.mp h
    obtain ⟨gs, rest, h⟩ := Option.bind_eq_some_iff.mp h
    cases h
    unfold Expr.fieldSights
    rw [Expr.sight_of_literal? first, Expr.fieldSights_of_literalFields? rest]
    rfl

end

/-- **What literals are folded to** is what the operator makes of them at run time. -/
theorem binary_of_folded? {op : String} {a b c : Constant} (h : Simplify.folded? op a b = some c) :
    Operation.binary op (.ofConstant a) (.ofConstant b) = .ok (.ofConstant c) := by
  unfold Simplify.folded? at h
  unfold Operation.binary
  rw [Operator.result?_ofConstant]
  split at h
  · rename_i found
    cases h
    rw [found]
    rfl
  · cases h

end

section

variable {seen : String → Option Value} {a : Expr} {p pos : Position}

theorem Expr.sight_both_true (tells : a.tells) :
    (Expr.both a (.constant (.bool true) p) pos).sight seen = a.sight seen := by
  conv => lhs; unfold Expr.sight
  cases found : a.sight seen with
  | error f => rfl
  | ok v =>
    obtain ⟨_ | _, rfl⟩ := bool_of_tells tells found <;> rfl

theorem Expr.sight_either_false (tells : a.tells) :
    (Expr.either a (.constant (.bool false) p) pos).sight seen = a.sight seen := by
  conv => lhs; unfold Expr.sight
  cases found : a.sight seen with
  | error f => rfl
  | ok v =>
    obtain ⟨_ | _, rfl⟩ := bool_of_tells tells found <;> rfl

end

/-! ## §3 — what a pass keeps -/

/-- **Code in the place of other code:** it only looks, is not nested deeper, and comes to the same. -/
structure LooksAlike (looks : α → Bool) (height : α → Nat) (sight : α → β) (a a' : α) : Prop where
  looks : looks a'
  height : height a' ≤ height a
  sight : sight a' = sight a

section

variable (seen : String → Option Value)

/-- **An expression in the place of another** also tells what that tells, a literal or a variable is replaced where it
starts, and no statements take the place of anything else; nor does a variable, if the other stays what it is. -/
structure Expr.SeenAs (e e' : Expr) : Prop extends LooksAlike Expr.looks Expr.height (Expr.sight seen) e e' where
  tells : e.tells → e'.tells
  atom : e.isAtom → e'.isAtom ∧ e'.start = e.start
  alone : e'.isStatements → e.isStatements
  settled : e.settles → e'.settles ∧ (e'.isVar → e.isVar)

/-- Items in the place of as many others. -/
abbrev Expr.AllSeenAs : List Expr → List Expr → Prop := List.Forall₂ (Expr.SeenAs seen)

/-- Fields in the place of others. -/
abbrev Expr.FieldsSeenAs : List (String × Expr) → List (String × Expr) → Prop :=
  LooksAlike Expr.allFieldsLook Expr.fieldHeights (Expr.fieldSights seen)

/-- **Steps in the place of others** look, and then call at most one method; they only look, where those do. -/
structure Step.AllSeenAs (ss ss' : List Step) : Prop
    extends LooksAlike Step.lookThenCall Step.heights (Step.sights seen) ss ss' where
  looking : Step.allLook ss' = Step.allLook ss

end

namespace Expr.SeenAs

variable {seen : String → Option Value} {e e' e'' : Expr}

theorem refl (looks : e.looks) : e.SeenAs seen e :=
  ⟨⟨looks, Nat.le_refl _, rfl⟩, id, fun atom => ⟨atom, rfl⟩, id, fun settles => ⟨settles, id⟩⟩

theorem trans (h : e.SeenAs seen e') (h' : e'.SeenAs seen e'') : e.SeenAs seen e'' where
  looks := h'.looks
  height := Nat.le_trans h'.height h.height
  sight := h'.sight.trans h.sight
  tells tells := h'.tells (h.tells tells)
  atom atom := ⟨(h'.atom (h.atom atom).1).1, (h'.atom (h.atom atom).1).2.trans (h.atom atom).2⟩
  alone statements := h.alone (h'.alone statements)
  settled settles := ⟨(h'.settled (h.settled settles).1).1, fun isVar =>
    (h.settled settles).2 ((h'.settled (h.settled settles).1).2 isVar)⟩

/-- Code in the place of what is neither a literal nor a variable. -/
theorem made (alike : LooksAlike Expr.looks Expr.height (Expr.sight seen) e e') (tells : e.tells → e'.tells)
    (atom : e.isAtom = false) (alone : e'.isStatements = false) (settled : e.settles → e'.settles ∧ e'.isVar = false) :
    e.SeenAs seen e' where
  toLooksAlike := alike
  tells := tells
  settled h := ⟨(settled h).1, fun isVar => absurd isVar (by simp [(settled h).2])⟩
  atom h := by
    rw [atom] at h
    cases h
  alone h := by
    rw [alone] at h
    cases h

/-- **A literal in the place of what comes to it.** -/
theorem constant {c : Constant} {pos : Position} (value : e.sight seen = .ok (.ofConstant c))
    (tells : e.tells → ∃ b, c = .bool b) (atom : e.isAtom = false) : e.SeenAs seen (.constant c pos) := by
  refine made ⟨rfl, e.height_pos, value.symm⟩ (fun h => ?_) atom rfl fun _ => ⟨rfl, rfl⟩
  obtain ⟨b, rfl⟩ := tells h
  rfl

end Expr.SeenAs

/-- **Items in the place of others** look alike, taken together. -/
theorem Expr.AllSeenAs.alike {es es' : List Expr} {seen : String → Option Value} (h : Expr.AllSeenAs seen es es') :
    LooksAlike Expr.allLook Expr.heights (Expr.sights seen) es es' := by
  induction h with
  | nil => exact ⟨rfl, Nat.le_refl _, rfl⟩
  | cons here _ ih =>
    refine ⟨Bool.and_eq_true_iff.mpr ⟨here.looks, ih.looks⟩, max_le_max here.height ih.height, ?_⟩
    simp only [Expr.sights, here.sight, ih.sight]

/-- What tells whether something is so does not consist of statements. -/
theorem Expr.alone_of_tells {e : Expr} (tells : e.tells) : e.isStatements = false := by
  cases e <;> first | rfl | cases tells

/-- An operation on as many others tells as much. -/
theorem Expr.tells_operation {op : String} {es es' : List Expr} {pos : Position} (many : es'.length = es.length) :
    (Expr.operation op es' pos).tells = (Expr.operation op es pos).tells := by
  obtain _ | ⟨_, _ | ⟨_, _ | ⟨_, _⟩⟩⟩ := es <;> obtain _ | ⟨_, _ | ⟨_, _ | ⟨_, _⟩⟩⟩ := es' <;>
    first | rfl | simp at many

namespace Simplify

variable {seen : String → Option Value} {k : Known}

/-- **What is known of variables** are values that they have. -/
def Known.Holds (seen : String → Option Value) (k : Known) : Prop :=
  ∀ name c, k name = some c → seen name = some (.ofConstant c)

/-- **What a pass that goes so deep makes** of code that only looks. -/
structure KeepsSight (seen : String → Option Value) (k : Known) (fuel : Nat) : Prop where
  expr : ∀ {e}, e.looks → Yields (e.SeenAs seen) (expr fuel k e)
  exprs : ∀ {es}, Expr.allLook es → Yields (Expr.AllSeenAs seen es) (exprs fuel k es)
  fields : ∀ {fs}, Expr.allFieldsLook fs → Yields (Expr.FieldsSeenAs seen fs) (fields fuel k fs)
  steps : ∀ {ss}, Step.lookThenCall ss → Yields (Step.AllSeenAs seen ss) (steps fuel k ss)

/-- A pass that goes no further leaves everything as it is. -/
theorem keepsSight_zero : KeepsSight seen k 0 where
  expr looks := .pure (.refl looks)
  exprs looks := .pure (List.forall₂_same.mpr fun e mem => .refl (Expr.each_looks looks e mem).1)
  fields looks := .pure ⟨looks, Nat.le_refl _, rfl⟩
  steps looks := .pure ⟨⟨looks, Nat.le_refl _, rfl⟩, rfl⟩

/-- A literal takes the place of what it stands for. -/
theorem keepsSight_literalOr {e : Expr} (tells : e.tells = false) (atom : e.isAtom = false) {pos : Position}
    {x : Pass Expr} (h : Yields (e.SeenAs seen) x) :
    Yields (e.SeenAs seen) (match e.literal? with
      | some v => changed (.constant v pos)
      | none => x) := by
  split
  · rename_i v stands
    refine .changed (.constant (Expr.sight_of_literal? stands) (fun h => ?_) atom)
    rw [tells] at h
    cases h
  · exact h

section

variable {fuel : Nat} (n : KeepsSight seen k fuel)

include n

theorem keepsSight_exprs {es : List Expr} (looks : Expr.allLook es) :
    Yields (Expr.AllSeenAs seen es) (exprs (fuel + 1) k es) := by
  cases es with
  | nil => exact .pure .nil
  | cons e es =>
    obtain ⟨here, later⟩ := Bool.and_eq_true_iff.mp looks
    exact (n.expr here).bind fun e' he => (n.exprs later).bind fun es' hes => .pure (.cons he hes)

theorem keepsSight_fields {fs : List (String × Expr)} (looks : Expr.allFieldsLook fs) :
    Yields (Expr.FieldsSeenAs seen fs) (fields (fuel + 1) k fs) := by
  cases fs with
  | nil => exact .pure ⟨looks, Nat.le_refl _, rfl⟩
  | cons f fs =>
    obtain ⟨here, later⟩ := Bool.and_eq_true_iff.mp looks
    refine (n.expr here).bind fun e' he => (n.fields later).bind fun fs' hfs => .pure ?_
    refine ⟨Bool.and_eq_true_iff.mpr ⟨he.looks, hfs.looks⟩, max_le_max he.height hfs.height, ?_⟩
    simp only [Expr.fieldSights, he.sight, hfs.sight]

/-- An index is a literal or a variable, and stays one where it stands; a method stays the last, if it was. -/
theorem keepsSight_steps {ss : List Step} (looks : Step.lookThenCall ss) :
    Yields (Step.AllSeenAs seen ss) (steps (fuel + 1) k ss) := by
  cases ss with
  | nil => exact .pure ⟨⟨looks, Nat.le_refl _, rfl⟩, rfl⟩
  | cons s ss =>
    cases s with
    | property name pos dot optional =>
      obtain ⟨here, later⟩ := Bool.and_eq_true_iff.mp looks
      refine (n.steps later).bind fun ss' hss => .pure ?_
      refine ⟨⟨Bool.and_eq_true_iff.mpr ⟨here, hss.looks⟩, hss.height, ?_⟩, ?_⟩
      · simp only [Step.sights, hss.sight]
      · simp only [Step.allLook, hss.looking]
    | index key bracket optional =>
      obtain ⟨here, later⟩ := Bool.and_eq_true_iff.mp looks
      obtain ⟨atom, key_looks⟩ := Bool.and_eq_true_iff.mp here
      refine (n.expr key_looks).bind fun key' hkey => (n.steps later).bind fun ss' hss => .pure ?_
      obtain ⟨atom', start⟩ := hkey.atom atom
      have here' : key'.isAtom && key'.looks := Bool.and_eq_true_iff.mpr ⟨atom', hkey.looks⟩
      refine ⟨⟨Bool.and_eq_true_iff.mpr ⟨here', hss.looks⟩, max_le_max hkey.height hss.height, ?_⟩, ?_⟩
      · simp only [Step.sights, hkey.sight, hss.sight, start]
      · simp only [Step.allLook, hss.looking, here, here']
    | method name arguments pos dot optional =>
      obtain ⟨last, here⟩ := Bool.and_eq_true_iff.mp looks
      obtain ⟨harmless, each⟩ := Bool.and_eq_true_iff.mp here
      obtain rfl : ss = [] := List.isEmpty_iff.mp last
      have none : steps fuel k [] = pure [] := by cases fuel <;> rfl
      refine (n.exprs each).bind fun arguments' h => ?_
      rw [none, pure_bind]
      refine .pure ⟨⟨?_, max_le_max h.alike.height (Nat.le_refl _), ?_⟩, rfl⟩
      · exact Bool.and_eq_true_iff.mpr ⟨rfl, Bool.and_eq_true_iff.mpr ⟨harmless, h.alike.looks⟩⟩
      · simp only [Step.sights, h.alike.sight]

/-- A part is made shorter in the place of the whole. -/
theorem keepsSight_part {whole part : Expr} (h : whole.SeenAs seen part) :
    Yields (whole.SeenAs seen) (set true >>= fun _ => expr fuel k part) :=
  (n.expr h.looks).noted.weaken fun _ => h.trans

theorem keepsSight_operation {op : String} {es : List Expr} {pos : Position}
    (looks : (Expr.operation op es pos).looks) :
    Yields ((Expr.operation op es pos).SeenAs seen) (expr (fuel + 1) k (.operation op es pos)) := by
  unfold expr
  dsimp only
  split
  · exact .changed (.constant rfl (fun _ => ⟨_, rfl⟩) rfl)
  · split
    · rename_i folded
      have value := binary_of_folded? folded
      refine .changed (.constant (congrArg (Sight.at_ pos) value) (fun tells => ?_) rfl)
      -- a comparison of literals is folded to a truth value
      obtain ⟨r, same⟩ := Operation.bool_of_binary (List.contains_iff_mem.mp tells) value
      exact ⟨r, Datum.eq_bool_of_ofConstant same⟩
    · exact .pure (.refl looks)
  · obtain ⟨noCall, looks⟩ := Bool.and_eq_true_iff.mp looks
    refine (n.exprs looks).bind fun es' h => .pure ?_
    refine .made ⟨?_, Nat.succ_le_succ h.alike.height, ?_⟩ (fun tells => ?_) rfl rfl fun _ => ⟨rfl, rfl⟩
    · exact Bool.and_eq_true_iff.mpr ⟨noCall, h.alike.looks⟩
    · simp only [Expr.sight, h.alike.sight]
    · rw [Expr.tells_operation h.length_eq.symm]
      exact tells

theorem keepsSight_both {a b : Expr} {pos : Position} (looks : (Expr.both a b pos).looks) :
    Yields ((Expr.both a b pos).SeenAs seen) (expr (fuel + 1) k (.both a b pos)) := by
  obtain ⟨tells, looks'⟩ := Bool.and_eq_true_iff.mp looks
  obtain ⟨tellsLeft, tellsRight⟩ := Bool.and_eq_true_iff.mp tells
  obtain ⟨left, right⟩ := Bool.and_eq_true_iff.mp looks'
  unfold expr
  dsimp only
  split
  · refine keepsSight_part n (.made ⟨right, Nat.le_succ_of_le (Nat.le_max_right ..), rfl⟩ (fun _ => tellsRight) rfl ?_
      (by rintro ⟨⟩))
    exact Expr.alone_of_tells tellsRight
  · exact .changed (.constant rfl (fun _ => ⟨_, rfl⟩) rfl)
  · refine keepsSight_part n (.made ⟨left, Nat.le_succ_of_le (Nat.le_max_left ..), ?_⟩ (fun _ => tellsLeft) rfl ?_
      (by rintro ⟨⟩))
    · exact (Expr.sight_both_true tellsLeft).symm
    · exact Expr.alone_of_tells tellsLeft
  · refine (n.expr left).bind fun a' ha => (n.expr right).bind fun b' hb => .pure ?_
    refine .made ⟨?_, Nat.succ_le_succ (max_le_max ha.height hb.height), ?_⟩ (fun _ => ?_) rfl rfl (by rintro ⟨⟩)
    · simp [Expr.looks, ha.looks, hb.looks, ha.tells tellsLeft, hb.tells tellsRight]
    · simp only [Expr.sight, ha.sight, hb.sight]
    · exact Bool.and_eq_true_iff.mpr ⟨ha.tells tellsLeft, hb.tells tellsRight⟩

theorem keepsSight_either {a b : Expr} {pos : Position} (looks : (Expr.either a b pos).looks) :
    Yields ((Expr.either a b pos).SeenAs seen) (expr (fuel + 1) k (.either a b pos)) := by
  obtain ⟨tells, looks'⟩ := Bool.and_eq_true_iff.mp looks
  obtain ⟨tellsLeft, tellsRight⟩ := Bool.and_eq_true_iff.mp tells
  obtain ⟨left, right⟩ := Bool.and_eq_true_iff.mp looks'
  unfold expr
  dsimp only
  split
  · refine keepsSight_part n (.made ⟨right, Nat.le_succ_of_le (Nat.le_max_right ..), rfl⟩ (fun _ => tellsRight) rfl ?_
      (by rintro ⟨⟩))
    exact Expr.alone_of_tells tellsRight
  · exact .changed (.constant rfl (fun _ => ⟨_, rfl⟩) rfl)
  · refine keepsSight_part n (.made ⟨left, Nat.le_succ_of_le (Nat.le_max_left ..), ?_⟩ (fun _ => tellsLeft) rfl ?_
      (by rintro ⟨⟩))
    · exact (Expr.sight_either_false tellsLeft).symm
    · exact Expr.alone_of_tells tellsLeft
  · refine (n.expr left).bind fun a' ha => (n.expr right).bind fun b' hb => .pure ?_
    refine .made ⟨?_, Nat.succ_le_succ (max_le_max ha.height hb.height), ?_⟩ (fun _ => ?_) rfl rfl (by rintro ⟨⟩)
    · simp [Expr.looks, ha.looks, hb.looks, ha.tells tellsLeft, hb.tells tellsRight]
    · simp only [Expr.sight, ha.sight, hb.sight]
    · exact Bool.and_eq_true_iff.mpr ⟨ha.tells tellsLeft, hb.tells tellsRight⟩

theorem keepsSight_orElse {a b : Expr} {pos : Position} (looks : (Expr.orElse a b pos).looks) :
    Yields ((Expr.orElse a b pos).SeenAs seen) (expr (fuel + 1) k (.orElse a b pos)) := by
  obtain ⟨alone, looks'⟩ := Bool.and_eq_true_iff.mp looks
  obtain ⟨left, right⟩ := Bool.and_eq_true_iff.mp looks'
  unfold expr
  dsimp only
  split
  · refine keepsSight_part n (.made ⟨right, Nat.le_succ_of_le (Nat.le_max_right ..), rfl⟩ (by rintro ⟨⟩) rfl ?_
      (by rintro ⟨⟩))
    simpa using alone
  · rename_i v p notUnit
    refine .changed (.constant ?_ (by rintro ⟨⟩) rfl)
    cases v <;> first | rfl | exact absurd rfl notUnit
  · refine (n.expr left).bind fun a' ha => (n.expr right).bind fun b' hb => .pure ?_
    refine .made ⟨?_, Nat.succ_le_succ (max_le_max ha.height hb.height), ?_⟩ (by rintro ⟨⟩) rfl rfl (by rintro ⟨⟩)
    · have alone' : b'.isStatements = false := by simpa using mt hb.alone (by simpa using alone)
      simp [Expr.looks, alone', ha.looks, hb.looks]
    · simp only [Expr.sight, ha.sight, hb.sight]

/-- The variable that a chain starts from stays. -/
theorem keepsSight_chain {name : String} {pos : Position} {ss : List Step} (looks : Step.allLook ss) :
    Yields ((Expr.chain (.var name pos) ss).SeenAs seen) (expr (fuel + 1) k (.chain (.var name pos) ss)) := by
  have whole : Yields ((Expr.chain (.var name pos) ss).SeenAs seen)
      (do return .chain (← chainRoot fuel k (.var name pos)) (← steps fuel k ss)) := by
    have root : chainRoot fuel k (.var name pos) = pure (.var name pos) := by
      cases fuel <;> rfl
    rw [root, pure_bind]
    refine (n.steps (Step.lookThenCall_of_allLook looks)).bind fun ss' h => .pure ?_
    have looks' : Step.allLook ss' := h.looking.trans looks
    exact .made ⟨looks', Nat.succ_le_succ h.height, by simp only [Expr.sight, h.sight]⟩ (by rintro ⟨⟩) rfl rfl
      fun _ => ⟨rfl, rfl⟩
  unfold expr
  dsimp only
  split
  · split
    · rename_i found
      cases found
    · exact whole
  · exact whole

omit n

/-- **A block that is one expression** becomes what takes the place of the expression, if the pass gets there. -/
theorem yields_block {e : Expr} (noStatements : e.isStatements = false) (looks : e.looks) {p : Position}
    (deeper : ∀ f < fuel, KeepsSight seen k f) :
    Yields (fun ss => ss = [.block [.expr e] p] ∨ ∃ e', ss = [.expr e'] ∧ e.SeenAs seen e')
      (block fuel k ⟨true, true, false⟩ [.block [.expr e] p]) := by
  -- three levels of the depth of a pass go to the block, its statements and the one statement
  have statement {f : Nat} (less : f < fuel) : Yields (fun s => ∃ e', s = .expr e' ∧ e.SeenAs seen e')
      (stmt f k true (.expr e)) := by
    cases f with
    | zero => exact .pure ⟨e, rfl, .refl looks⟩
    | succ f =>
      have inner : stmt (f + 1) k true (.expr e) = (do return .expr (← expr f k e)) := by
        cases e <;> first | rfl | cases noStatements
      rw [inner]
      exact ((deeper f (Nat.lt_of_succ_lt less)).expr looks).bind fun e' h => .pure ⟨e', rfl, h⟩
  have statements {f : Nat} (less : f < fuel) : Yields (fun ss => ∃ e', ss = [.expr e'] ∧ e.SeenAs seen e')
      (stmts f k true [.expr e]) := by
    cases f with
    | zero => exact .pure ⟨e, rfl, .refl looks⟩
    | succ f =>
      unfold stmts
      refine (statement (Nat.lt_of_succ_lt less)).bind fun s hs => ?_
      obtain ⟨e', rfl, h⟩ := hs
      have none : stmts f k true [] = pure [] := by cases f <;> rfl
      dsimp only
      rw [none, pure_bind]
      exact .pure ⟨e', rfl, h⟩
  cases fuel with
  | zero => exact .pure (.inl rfl)
  | succ fuel =>
    have start : flattened [.block [.expr e] p] = changed [.expr e] := rfl
    have reached : reached [.expr e] = pure [.expr e] := rfl
    unfold block
    rw [start]
    refine Yields.bind (P := (· = [.expr e])) (.changed rfl) fun ss same => ?_
    subst same
    rw [reached, pure_bind]
    refine (statements (Nat.lt_succ_self fuel)).bind fun ss h => ?_
    obtain ⟨e', rfl, seen⟩ := h
    have kept : pruned ⟨true, true, false⟩ [.expr e'] = pure [.expr e'] := by
      simp [pruned, withoutPure, endForValue, Stmt.hasValue]
    rw [kept]
    exact .pure (.inr ⟨e', rfl, seen⟩)

/-- An expression in a text stands for itself. -/
theorem keepsSight_statements {body : List Stmt} {pos : Position} (looks : (Expr.statements body pos).looks)
    (deeper : ∀ f < fuel, KeepsSight seen k f) :
    Yields ((Expr.statements body pos).SeenAs seen) (expr (fuel + 1) k (.statements body pos)) := by
  obtain ⟨e, p, rfl, noStatements, inner⟩ := Expr.looks_statements looks
  unfold expr
  refine (yields_block noStatements inner deeper).bind fun ss h => ?_
  obtain rfl | ⟨e', rfl, seen⟩ := h
  · exact .pure (.refl looks)
  · refine .changed (Expr.SeenAs.trans ?_ seen)
    exact ⟨⟨inner, Nat.le_add_right _ 3, rfl⟩, (by rintro ⟨⟩), (by rintro ⟨⟩), fun _ => rfl, by rintro ⟨⟩⟩

include n

/-- **An expression.** -/
theorem keepsSight_expr (known : k.Holds seen) {e : Expr} (looks : e.looks)
    (deeper : ∀ f < fuel, KeepsSight seen k f) : Yields (e.SeenAs seen) (expr (fuel + 1) k e) := by
  cases e with
  | constant v pos => exact .pure (.refl looks)
  | var name pos =>
    unfold expr
    dsimp only
    split
    · rename_i v found
      refine .changed ⟨⟨rfl, Expr.height_pos _, ?_⟩, (by rintro ⟨⟩), fun _ => ⟨rfl, rfl⟩, (by rintro ⟨⟩),
        fun _ => ⟨rfl, by rintro ⟨⟩⟩⟩
      unfold Expr.sight Sight.variable
      rw [known name v found]
    · exact .pure (.refl looks)
  | template es pos =>
    unfold expr
    refine keepsSight_literalOr rfl rfl ((n.exprs looks).bind fun es' h => .pure ?_)
    exact .made ⟨h.alike.looks, Nat.succ_le_succ h.alike.height, by simp only [Expr.sight, h.alike.sight]⟩
      (by rintro ⟨⟩) rfl rfl fun _ => ⟨rfl, rfl⟩
  | array es pos =>
    unfold expr
    refine keepsSight_literalOr rfl rfl ((n.exprs looks).bind fun es' h => .pure ?_)
    exact .made ⟨h.alike.looks, Nat.succ_le_succ h.alike.height, by simp only [Expr.sight, h.alike.sight]⟩
      (by rintro ⟨⟩) rfl rfl fun _ => ⟨rfl, rfl⟩
  | object fs pos =>
    unfold expr
    refine keepsSight_literalOr rfl rfl ((n.fields looks).bind fun fs' h => .pure ?_)
    exact .made ⟨h.looks, Nat.succ_le_succ h.height, by simp only [Expr.sight, h.sight]⟩ (by rintro ⟨⟩) rfl rfl
      fun _ => ⟨rfl, rfl⟩
  | operation op es pos => exact keepsSight_operation n looks
  | both a b pos => exact keepsSight_both n looks
  | either a b pos => exact keepsSight_either n looks
  | orElse a b pos => exact keepsSight_orElse n looks
  | chain root ss =>
    cases root with
    | var name pos => exact keepsSight_chain n looks
    | _ => cases looks
  | statements body pos => exact keepsSight_statements looks deeper
  | this | call | closure => cases looks

end

/-- **A pass over code that only looks** puts in its place what comes to the same. -/
theorem keepsSight (known : k.Holds seen) (fuel : Nat) : KeepsSight seen k fuel := by
  induction fuel using Nat.strongRecOn with | ind fuel deeper
  cases fuel with
  | zero => exact keepsSight_zero
  | succ fuel =>
    have n := deeper fuel (Nat.lt_succ_self fuel)
    have shallower (f : Nat) (less : f < fuel) : KeepsSight seen k f := deeper f (Nat.lt_succ_of_lt less)
    exact ⟨fun looks => keepsSight_expr n known looks shallower, keepsSight_exprs n, keepsSight_fields n,
      keepsSight_steps n⟩

end Simplify

end Dialogue.Script
