import Dialogue.Text.Split
import Mathlib.Data.List.Infix
/-!
# `Dialogue.Proofs.Text.Split` — where text is cut.

A cut at a phrase is a cut at its first occurrence: the phrase does not occur before it, not even with its own first
characters. So where a text is cut depends on nothing behind the cut. A separator is a cut between pieces, whatever is
around it.
-/

namespace Dialogue.Text

variable {phrase text : List Char}

/-! ## §1 — cuts at a phrase -/

theorem after?_eq_none_iff : after? phrase text = none ↔ ¬ phrase <+: text := by
  rw [Option.eq_none_iff_forall_ne_some]
  constructor
  · rintro none ⟨rest, rfl⟩
    exact none rest (after?_eq_some_iff.mpr rfl)
  · rintro other rest found
    exact other ⟨rest, (after?_eq_some_iff.mp found).symm⟩

theorem cutAt?_prefix (phrase rest : List Char) : cutAt? phrase (phrase ++ rest) = some ([], rest) := by
  have here : after? phrase (phrase ++ rest) = some rest := after?_eq_some_iff.mpr rfl
  unfold cutAt?
  split
  · rename_i none
    rw [none] at here
    rw [here]
    rfl
  · rename_i cons
    rw [← cons, here]

theorem cutAt?_cons {c : Char} {cs : List Char} (other : ¬ phrase <+: c :: cs) :
    cutAt? phrase (c :: cs) = (cutAt? phrase cs).map fun cut => (c :: cut.1, cut.2) := by
  have none := after?_eq_none_iff.mpr other
  rw [cutAt?.eq_def]
  dsimp only
  rw [none]

/-- **A text is cut** just when the phrase occurs in it. -/
theorem cutAt?_eq_none_iff : cutAt? phrase text = none ↔ ¬ phrase <:+: text := by
  induction text with
  | nil =>
    unfold cutAt?
    rw [Option.map_eq_none_iff, after?_eq_none_iff, List.prefix_nil, List.infix_nil]
  | cons c cs ih =>
    rw [List.infix_cons_iff, not_or, ← ih]
    by_cases here : phrase <+: c :: cs
    · obtain ⟨rest, whole⟩ := here
      rw [← whole, cutAt?_prefix]
      simp
    · rw [cutAt?_cons here, Option.map_eq_none_iff]
      simp [here]

/-- Where a phrase can start before an occurrence is told by that occurrence without its last character. -/
theorem prefix_cons_append_iff (some : phrase ≠ []) (c : Char) (before rest : List Char) :
    phrase <+: c :: (before ++ phrase ++ rest) ↔ phrase <+: c :: (before ++ phrase.dropLast) := by
  have start : c :: (before ++ phrase.dropLast) <+: c :: (before ++ phrase ++ rest) := by
    refine List.cons_prefix_cons.mpr ⟨rfl, ?_⟩
    rw [List.append_assoc]
    exact (List.prefix_append_right_inj before).mpr ((List.dropLast_prefix phrase).trans (List.prefix_append _ _))
  constructor
  · intro here
    refine List.prefix_of_prefix_length_le here start ?_
    have pos := List.length_pos_iff.mpr some
    simp only [List.length_cons, List.length_append, List.length_dropLast]
    omega
  · exact fun here => here.trans start

/-- A phrase does not occur in less than itself. -/
theorem not_infix_dropLast (some : phrase ≠ []) : ¬ phrase <:+: phrase.dropLast := by
  intro here
  have short := here.length_le
  have pos := List.length_pos_iff.mpr some
  rw [List.length_dropLast] at short
  omega

/-- **A text is cut at the first occurrence of the phrase.** -/
theorem cutAt?_eq_some_iff (some : phrase ≠ []) {before rest : List Char} :
    cutAt? phrase text = .some (before, rest) ↔
      text = before ++ phrase ++ rest ∧ ¬ phrase <:+: before ++ phrase.dropLast := by
  constructor
  · intro h
    obtain rfl := eq_of_cutAt? h
    refine ⟨rfl, ?_⟩
    induction before with
    | nil => exact not_infix_dropLast some
    | cons c before ih =>
      -- the phrase does not start at the first character, or the cut would be there
      have other : ¬ phrase <+: c :: (before ++ phrase ++ rest) := by
        rintro ⟨tail, whole⟩
        rw [List.cons_append, List.cons_append, ← whole, cutAt?_prefix] at h
        cases h
      rw [List.cons_append, List.cons_append, cutAt?_cons other] at h
      obtain ⟨⟨b, r⟩, found, same⟩ := Option.map_eq_some_iff.mp h
      obtain ⟨starts, rfl⟩ := Prod.mk.inj same
      obtain ⟨-, rfl⟩ := List.cons.inj starts
      rw [prefix_cons_append_iff some] at other
      rw [List.cons_append, List.infix_cons_iff, not_or]
      exact ⟨other, ih found⟩
  · rintro ⟨rfl, first⟩
    induction before with
    | nil => exact cutAt?_prefix phrase rest
    | cons c before ih =>
      rw [List.cons_append, List.infix_cons_iff, not_or, ← prefix_cons_append_iff some c before rest] at first
      rw [List.cons_append, List.cons_append, cutAt?_cons first.1, ih first.2]
      rfl

/-- **No occurrence comes before the cut:** what stands behind one stands behind the cut. -/
theorem suffix_of_cutAt? (some : phrase ≠ []) {before rest head tail : List Char}
    (cut : cutAt? phrase text = .some (before, rest)) (same : text = head ++ phrase ++ tail) : tail <:+ rest := by
  obtain ⟨whole, first⟩ := (cutAt?_eq_some_iff some).mp cut
  have behind : tail <:+ text := ⟨head ++ phrase, same.symm⟩
  refine List.suffix_of_suffix_length_le behind ⟨before ++ phrase, whole.symm⟩ ?_
  by_contra longer
  have early : head ++ phrase <+: before ++ phrase.dropLast := by
    have here : head ++ phrase <+: text := ⟨tail, same.symm⟩
    have there : before ++ phrase.dropLast <+: text := by
      rw [whole, List.append_assoc]
      exact (List.prefix_append_right_inj _).mpr ((List.dropLast_prefix _).trans (List.prefix_append _ _))
    apply List.prefix_of_prefix_length_le here there
    have pos := List.length_pos_iff.mpr some
    have lengths := congrArg List.length (same.symm.trans whole)
    simp only [List.length_append, List.length_dropLast] at lengths ⊢
    omega
  exact first ((List.suffix_append head phrase).isInfix.trans early.isInfix)

/-! ## §2 — pieces -/

/-- **A separator ends a piece**, whatever comes before it and after it. -/
theorem splitAt_append_cons (sep : Char) (cs ds : List Char) :
    splitAt sep (cs ++ sep :: ds) = splitAt sep cs ++ splitAt sep ds := by
  induction cs with
  | nil => simp [splitAt]
  | cons c cs ih =>
    rw [List.cons_append, splitAt, splitAt, ih]
    split
    · rfl
    · cases pieces : splitAt sep cs with
      | nil => exact absurd pieces (splitAt_ne_nil sep cs)
      | cons piece pieces => rfl

end Dialogue.Text
