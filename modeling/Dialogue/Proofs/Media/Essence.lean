import Dialogue.Media.Essence
import Dialogue.Proofs.Text.Lines
import Dialogue.Proofs.Text.Utf8
/-!
# `Dialogue.Proofs.Media.Essence` — one media type, spelled in many ways.

The letters of a media type may be written in either case, blanks may stand around it and parameters after it. Main
statements: every spelling of a media type has the same essence, and every media type is a spelling of its essence.
-/

namespace Dialogue.Media

/-! ## §1 — letters and blanks -/

theorem toNat_lower (c : Char) : (lower c).toNat = if 65 ≤ c.toNat ∧ c.toNat ≤ 90 then c.toNat + 32 else c.toNat := by
  have range : ('A' ≤ c ∧ c ≤ 'Z') ↔ 65 ≤ c.toNat ∧ c.toNat ≤ 90 := Iff.rfl
  unfold lower
  split
  · rename_i upper
    rw [range] at upper
    rw [if_pos upper]
    exact Text.Utf8.toNat_ofNat (.inl (by omega))
  · rename_i other
    rw [range] at other
    rw [if_neg other]

/-- Lower case is that of ASCII. -/
theorem lower_eq_toLower (c : Char) : lower c = c.toLower := by
  apply Char.toNat_inj.mp
  rw [toNat_lower]
  unfold Char.toLower
  have range : (c.val ≥ 'A'.val ∧ c.val ≤ 'Z'.val) ↔ 65 ≤ c.toNat ∧ c.toNat ≤ 90 := Iff.rfl
  split
  · rename_i upper
    rw [dif_pos (range.mpr upper)]
    have small : c.val.toNat + 32 < 2 ^ 32 := by
      have := upper.2
      unfold Char.toNat at this
      omega
    show c.val.toNat + 32 = (c.val.toNat + 32) % 2 ^ 32
    omega
  · rename_i other
    rw [dif_neg fun upper => other (range.mp upper)]

/-- A letter is no blank in either case. -/
theorem isBlank_lower (c : Char) : Text.isBlank (lower c) = Text.isBlank c := by
  unfold Text.isBlank
  dsimp only
  rw [toNat_lower]
  split
  · rename_i upper
    rw [Bool.eq_iff_iff]
    simp only [Bool.or_eq_true, Bool.and_eq_true, decide_eq_true_eq, beq_iff_eq]
    omega
  · rfl

theorem lower_lower (c : Char) : lower (lower c) = lower c := by
  apply Char.toNat_inj.mp
  rw [toNat_lower, toNat_lower]
  split_ifs <;> omega

/-! ## §2 — spellings -/

/-- **A spelling of a media type:** its letters in either case, blanks around them, and perhaps parameters after a
semicolon. -/
inductive Spells (type : List Char) : String → Prop
  | intro {before core after parameters : List Char} (leading : ∀ c ∈ before, Text.isBlank c = true)
    (letters : core.map Char.toLower = type.map Char.toLower) (plain : ';' ∉ core)
    (trailing : ∀ c ∈ after, Text.isBlank c = true) (rest : parameters = [] ∨ parameters.head? = some ';') :
    Spells type (String.ofList (before ++ core ++ after ++ parameters))

/-- Blanks are no semicolons. -/
theorem ne_semicolon_of_isBlank {c : Char} (blank : Text.isBlank c = true) : c ≠ ';' := by
  rintro rfl
  cases blank

/-- **The essence of a spelling** is the media type itself, in lower case. -/
theorem essence_of_spells {type : List Char} {m : String} (h : Spells type m) :
    essence m = String.ofList ((Text.trim type).map Char.toLower) := by
  obtain ⟨leading, letters, plain, trailing, rest⟩ := h
  rename_i before core after parameters
  have whole : ∀ c ∈ before ++ core ++ after, (c != ';') = true := by
    intro c mem
    rw [bne_iff_ne]
    rcases List.mem_append.mp mem with mem | mem
    · rcases List.mem_append.mp mem with mem | mem
      · exact ne_semicolon_of_isBlank (leading c mem)
      · exact fun same => plain (same ▸ mem)
    · exact ne_semicolon_of_isBlank (trailing c mem)
  have stops : parameters.takeWhile (· != ';') = [] := by
    rcases rest with rfl | head
    · rfl
    · obtain ⟨more, rfl⟩ := List.head?_eq_some_iff.mp head
      rfl
  have head : (before ++ core ++ after ++ parameters).takeWhile (· != ';') = before ++ core ++ after := by
    rw [List.takeWhile_append_of_pos whole, stops, List.append_nil]
  -- lowering keeps blanks apart from letters, so it does not matter whether it comes before trimming or after
  have lowered : lower = Char.toLower := funext lower_eq_toLower
  have kept := isBlank_lower
  rw [lowered] at kept
  unfold essence
  dsimp only
  rw [String.toList_ofList, head, Text.trim_append_blanks trailing, Text.trim_blanks_append leading, lowered,
    ← Text.trim_map kept, letters, Text.trim_map kept]

/-- **Every media type spells its essence.** -/
theorem spells_essence (m : String) : Spells (essence m).toList m := by
  obtain ⟨after, split, trailing⟩ := Text.trim_append (m.toList.takeWhile (· != ';'))
  have parameters : m.toList.dropWhile (· != ';') = [] ∨ (m.toList.dropWhile (· != ';')).head? = some ';' := by
    cases left : m.toList.dropWhile (· != ';') with
    | nil => exact .inl rfl
    | cons c rest =>
      have stop := List.head?_dropWhile_not (· != ';') m.toList
      rw [left] at stop
      right
      simpa using stop
  have plain : ';' ∉ Text.trim (m.toList.takeWhile (· != ';')) := by
    intro mem
    have other := List.mem_takeWhile_imp (Text.mem_of_mem_trim mem)
    cases other
  have letters : (Text.trim (m.toList.takeWhile (· != ';'))).map Char.toLower =
      (essence m).toList.map Char.toLower := by
    unfold essence
    dsimp only
    rw [String.toList_ofList, List.map_map]
    apply List.map_congr_left
    intro c _
    show c.toLower = (lower c).toLower
    rw [← lower_eq_toLower, ← lower_eq_toLower, lower_lower]
  have leading : ∀ c ∈ (m.toList.takeWhile (· != ';')).takeWhile Text.isBlank, Text.isBlank c = true :=
    fun c mem => List.mem_takeWhile_imp mem
  -- the four pieces are the media type again
  have spelled := Spells.intro leading letters plain trailing parameters
  rw [← split, List.takeWhile_append_dropWhile, String.ofList_toList] at spelled
  exact spelled

end Dialogue.Media
