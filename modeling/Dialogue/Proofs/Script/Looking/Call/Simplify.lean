import Dialogue.Proofs.Script.Looking.Call
import Dialogue.Proofs.Script.Looking.Simplify
/-!
# `Dialogue.Proofs.Script.Looking.Call.Simplify` — expressions that look, and then call, made shorter.

Only what is looked at before the call is made shorter: the arguments, and the indices on the way. So a call stays a
call of the same function, at the same depth. Main statement: an expression that looks, and then calls, made shorter
with what is known of the variables, is one that has the same in mind.
-/

namespace Dialogue.Script

variable {seen : String → Option Value}

/-- **An expression in the place of another** has the same in mind, and does not consist of statements. -/
structure Expr.IntendedAs (seen : String → Option Value) (e e' : Expr) : Prop
    extends LooksAlike Expr.looksThenCalls Expr.height (Expr.intent seen) e e' where
  alone : e'.isStatements = false

namespace Expr.IntendedAs

variable {e e' e'' : Expr}

theorem refl (h : e.looksThenCalls) (alone : e.isStatements = false) : e.IntendedAs seen e :=
  ⟨⟨h, Nat.le_refl _, rfl⟩, alone⟩

theorem trans (h : e.IntendedAs seen e') (h' : e'.IntendedAs seen e'') : e.IntendedAs seen e'' :=
  ⟨⟨h'.looks, Nat.le_trans h'.height h.height, h'.sight.trans h.sight⟩, h'.alone⟩

/-- What only looks has in mind what it comes to. -/
theorem of_seenAs (looks : e.looks) (alone : e.isStatements = false) (h : e.SeenAs seen e') : e.IntendedAs seen e' where
  looks := Bool.or_eq_true_iff.mpr (.inl h.looks)
  height := h.height
  sight := by
    unfold Expr.intent
    rw [if_pos looks, if_pos h.looks, h.sight]
  alone := by simpa using mt h.alone (by simpa using alone)

end Expr.IntendedAs

/-- **Arguments in the place of others** come to the same, if a variable was the first before, or what stays what it
is. -/
theorem argumentSights_of_seenAs {es es' : List Expr} (h : Expr.AllSeenAs seen es es')
    (settles : es.head?.all Expr.settles) :
    es'.head?.all Expr.settles ∧ Expr.argumentSights seen es' = Expr.argumentSights seen es := by
  cases h with
  | nil => exact ⟨rfl, rfl⟩
  | @cons e e' rest rest' here later =>
    obtain ⟨settled, var⟩ := here.settled settles
    refine ⟨settled, ?_⟩
    have values := (Expr.AllSeenAs.alike later).sight
    have value := here.sight
    cases e with
    | var name pos =>
      obtain ⟨atom, -⟩ := here.atom rfl
      cases e' with
      | var name' pos' =>
        have value : Sight.variable seen name' pos' = Sight.variable seen name pos := value
        simp only [Expr.argumentSights, values, value]
      | constant c pos' =>
        -- a literal is there at once
        have seen : Sight.variable seen name pos = .ok (.ofConstant c) := value.symm
        simp only [Expr.argumentSights, Expr.sights, Expr.sight, values, seen]
        cases Expr.sights _ rest <;> rfl
      | _ => cases atom
    | _ =>
      cases e' with
      | var name' pos' => cases var rfl
      | _ => simp only [Expr.argumentSights, Expr.sights, value, values]

namespace Simplify

variable {k : Known}

/-- **A pass over an expression that looks, and then calls.** -/
theorem keepsIntent (known : k.Holds seen) (fuel : Nat) {e : Expr} (h : e.looksThenCalls)
    (alone : e.isStatements = false) : Yields (e.IntendedAs seen) (expr fuel k e) := by
  by_cases looks : e.looks
  · exact ((keepsSight known fuel).expr looks).weaken fun _ seen => .of_seenAs looks alone seen
  · cases fuel with
    | zero => exact .pure (.refl h alone)
    | succ fuel =>
      have n := keepsSight known fuel
      obtain ⟨⟩ | calls := Bool.or_eq_true_iff.mp h
      · contradiction
      · cases e with
        | call name es pos here =>
          obtain ⟨apart, arguments⟩ := Bool.and_eq_true_iff.mp calls
          obtain ⟨settles, looks⟩ := Bool.and_eq_true_iff.mp arguments
          unfold expr
          refine (n.exprs looks).bind fun es' hes => .pure ?_
          obtain ⟨settles', values⟩ := argumentSights_of_seenAs hes settles
          refine ⟨⟨?_, Nat.succ_le_succ hes.alike.height, ?_⟩, rfl⟩
          · refine Bool.or_eq_true_iff.mpr (.inr (Bool.and_eq_true_iff.mpr ⟨apart, ?_⟩))
            exact Bool.and_eq_true_iff.mpr ⟨settles', hes.alike.looks⟩
          · exact congrArg (Except.map fun vs => Intent.call name vs pos) values
        | chain root ss =>
          cases root with
          | var name pos =>
            have root : chainRoot fuel k (.var name pos) = pure (.var name pos) := by
              cases fuel <;> rfl
            have whole : Yields ((Expr.chain (.var name pos) ss).IntendedAs seen)
                (do return .chain (← chainRoot fuel k (.var name pos)) (← steps fuel k ss)) := by
              rw [root, pure_bind]
              refine (n.steps calls).bind fun ss' hss => .pure ?_
              refine ⟨⟨Bool.or_eq_true_iff.mpr (.inr hss.looks), Nat.succ_le_succ hss.height, ?_⟩, rfl⟩
              have same : (Expr.chain (.var name pos) ss').looks = (Expr.chain (.var name pos) ss).looks := hss.looking
              unfold Expr.intent
              rw [if_neg looks, if_neg (same ▸ looks)]
              simp only [hss.sight]
            unfold expr
            dsimp only
            split
            · split
              · rename_i found
                cases found
              · exact whole
            · exact whole
          | _ => cases calls
        | _ => cases calls

/-- **An expression that looks, and then calls, made shorter**, has the same in mind. -/
theorem intendedAs_script (known : k.Holds seen) {e : Expr} (h : e.looksThenCalls) (alone : e.isStatements = false) :
    ∃ e', script k ⟨[.expr e], []⟩ = ⟨[.expr e'], []⟩ ∧ e.IntendedAs seen e' := by
  refine kept_script (P := e.IntendedAs seen) (fun h body pos => ?_) (fun fuel e' h => ?_) (.refl h alone)
  · rintro rfl
    cases h.alone
  · exact (keepsIntent known fuel h.looks h.alone).weaken fun _ => h.trans

end Simplify

end Dialogue.Script
