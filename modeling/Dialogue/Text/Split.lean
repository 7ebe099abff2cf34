/-!
# `Dialogue.Text.Split` — cutting text at a character, after a character, at a phrase.
-/

namespace Dialogue.Text

/-- The pieces between the occurrences of `sep`; always at least one. -/
def splitAt (sep : Char) : List Char → List (List Char)
  | [] => [[]]
  | c :: cs =>
    if c = sep then [] :: splitAt sep cs
    else match splitAt sep cs with
      | [] => [[c]]
      | piece :: pieces => (c :: piece) :: pieces

/-- The pieces put together again with `sep` between them. -/
def joinWith (sep : Char) : List (List Char) → List Char
  | [] => []
  | [piece] => piece
  | piece :: pieces => piece ++ sep :: joinWith sep pieces

/-- **Lines with their ends.** Each piece but the last ends in a line feed, none is empty, and together
they are the text. -/
def lines : List Char → List (List Char)
  | [] => []
  | c :: cs =>
    if c = '\n' then [c] :: lines cs
    else match lines cs with
      | [] => [[c]]
      | line :: rest => (c :: line) :: rest

/-- What follows `lead`, when the text starts with it. -/
def after? : (lead text : List Char) → Option (List Char)
  | [], cs => some cs
  | _ :: _, [] => none
  | l :: ls, c :: cs => if l = c then after? ls cs else none

/-- **The text before and after the first occurrence of `phrase`.** -/
def cutAt? (phrase : List Char) : List Char → Option (List Char × List Char)
  | [] => (after? phrase []).map fun rest => ([], rest)
  | c :: cs =>
    match after? phrase (c :: cs) with
    | some rest => some ([], rest)
    | none => (cutAt? phrase cs).map fun (before, rest) => (c :: before, rest)

theorem splitAt_ne_nil (sep : Char) (cs : List Char) : splitAt sep cs ≠ [] := by
  cases cs with
  | nil => simp [splitAt]
  | cons c cs =>
    unfold splitAt
    split
    · simp
    · split <;> simp

theorem joinWith_splitAt (sep : Char) (cs : List Char) : joinWith sep (splitAt sep cs) = cs := by
  induction cs with
  | nil => rfl
  | cons c cs ih =>
    unfold splitAt
    have hne := splitAt_ne_nil sep cs
    split
    · rename_i h
      cases hs : splitAt sep cs with
      | nil => exact absurd hs hne
      | cons p ps =>
        rw [hs] at ih
        simp [joinWith, ih, h]
    · cases hs : splitAt sep cs with
      | nil => exact absurd hs hne
      | cons p ps =>
        rw [hs] at ih
        cases ps with
        | nil => simpa [joinWith] using ih
        | cons q qs => simpa [joinWith] using ih

theorem not_mem_of_mem_splitAt {sep : Char} {cs piece : List Char} (h : piece ∈ splitAt sep cs) : sep ∉ piece := by
  induction cs generalizing piece with
  | nil =>
    obtain rfl := List.mem_singleton.mp h
    exact List.not_mem_nil
  | cons c cs ih =>
    unfold splitAt at h
    split at h
    · rcases List.mem_cons.mp h with rfl | later
      · exact List.not_mem_nil
      · exact ih later
    · rename_i other
      cases hs : splitAt sep cs with
      | nil => exact absurd hs (splitAt_ne_nil sep cs)
      | cons first rest =>
        rw [hs] at h ih
        rcases List.mem_cons.mp h with rfl | later
        · rw [List.mem_cons, not_or]
          exact ⟨Ne.symm other, ih List.mem_cons_self⟩
        · exact ih (List.mem_cons_of_mem _ later)

/-- A piece without the separator stays whole. -/
theorem splitAt_append {sep : Char} {piece : List Char} (h : sep ∉ piece) (cs : List Char) :
    splitAt sep (piece ++ sep :: cs) = piece :: splitAt sep cs := by
  induction piece with
  | nil => simp [splitAt]
  | cons c piece ih =>
    rw [List.mem_cons, not_or] at h
    rw [List.cons_append, splitAt, if_neg (Ne.symm h.1), ih h.2]

theorem splitAt_of_not_mem {sep : Char} {piece : List Char} (h : sep ∉ piece) : splitAt sep piece = [piece] := by
  induction piece with
  | nil => rfl
  | cons c piece ih =>
    rw [List.mem_cons, not_or] at h
    rw [splitAt, if_neg (Ne.symm h.1), ih h.2]

/-- **Pieces that were put together come apart again.** -/
theorem splitAt_joinWith {sep : Char} {pieces : List (List Char)} (hn : pieces ≠ [])
    (h : ∀ piece ∈ pieces, sep ∉ piece) : splitAt sep (joinWith sep pieces) = pieces := by
  induction pieces with
  | nil => exact absurd rfl hn
  | cons piece rest ih =>
    have here := h piece List.mem_cons_self
    cases rest with
    | nil => exact splitAt_of_not_mem here
    | cons next rest =>
      have later := ih (List.cons_ne_nil _ _) fun q hq => h q (List.mem_cons_of_mem _ hq)
      rw [joinWith, splitAt_append here, later]
      exact List.cons_ne_nil _ _

theorem flatten_lines (cs : List Char) : (lines cs).flatten = cs := by
  induction cs with
  | nil => rfl
  | cons c cs ih =>
    unfold lines
    split
    · simp [ih]
    · cases hl : lines cs with
      | nil => simpa [hl] using ih
      | cons l ls => rw [hl] at ih; simpa using ih

theorem after?_eq_some_iff {lead text rest : List Char} :
    after? lead text = some rest ↔ text = lead ++ rest := by
  induction lead generalizing text with
  | nil => simp [after?]
  | cons l ls ih =>
    cases text with
    | nil => simp [after?]
    | cons c cs =>
      by_cases h : l = c
      · simp [after?, h, ih]
      · simp [after?, h, Ne.symm h]

theorem eq_of_cutAt? {phrase text before rest : List Char}
    (h : cutAt? phrase text = some (before, rest)) : text = before ++ phrase ++ rest := by
  induction text generalizing before with
  | nil =>
    simp only [cutAt?, Option.map_eq_some_iff, Prod.mk.injEq] at h
    obtain ⟨r, hr, rfl, rfl⟩ := h
    simpa using after?_eq_some_iff.1 hr
  | cons c cs ih =>
    unfold cutAt? at h
    split at h
    · rename_i r hr
      obtain ⟨rfl, rfl⟩ := Prod.mk.inj (Option.some.inj h)
      simpa using after?_eq_some_iff.1 hr
    · simp only [Option.map_eq_some_iff, Prod.exists, Prod.mk.injEq] at h
      obtain ⟨b, r, hr, rfl, rfl⟩ := h
      simp [ih hr]

end Dialogue.Text
