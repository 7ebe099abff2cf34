import Dialogue.Position
import Dialogue.Text.Blank
import Dialogue.Text.Split
import Mathlib.Data.List.TakeWhile
/-!
# `Dialogue.Proofs.Position` — where pieces of a text stand.

A position counts lines and characters, an offset counts bytes; both add up along the pieces of a text. Main
statements: an offset at the end of a piece is the position that the piece leads up to, a place inside a piece can be
counted from the start of the piece, and after a number of whole lines the next line starts in column one.
-/

namespace Dialogue

open Text (isBlank)
open Text.Utf8 (size)

/-! ## §1 — offsets -/

namespace Position

theorem upTo?_append (as bs : List Char) : upTo? (as ++ bs) (size as) = some as := by
  induction as with
  | nil => cases bs <;> rfl
  | cons a as ih =>
    have wide := a.utf8Size_pos
    have cons : size (a :: as) = a.utf8Size + size as := Text.Utf8.size_cons a as
    -- the search stops at offset zero only, and characters take a byte at least
    obtain ⟨n, hn⟩ : ∃ n, size (a :: as) = n + 1 := ⟨size (a :: as) - 1, by omega⟩
    rw [List.cons_append, hn, upTo?.eq_def]
    show (if _ then _ else _) = _
    rw [← hn, if_pos (by omega), cons, Nat.add_sub_cancel_left, ih]
    rfl

/-- **The place of an offset** is where the text before it leads up to. -/
theorem atOffset?_append (as bs : List Char) : atOffset? (as ++ bs) (size as) = some (after as) := by
  rw [atOffset?, upTo?_append]
  rfl

/-- A character boundary is the end of some text that it starts with. -/
theorem prefix_of_upTo? {cs before : List Char} {offset : Nat} (h : upTo? cs offset = some before) :
    before <+: cs := by
  fun_induction upTo? cs offset generalizing before with
  | case1 =>
    obtain rfl := Option.some.inj h
    exact List.prefix_refl _
  | case2 =>
    obtain rfl := Option.some.inj h
    exact List.nil_prefix
  | case3 c cs offset _ fits ih =>
    obtain ⟨rest, hr, rfl⟩ := Option.map_eq_some_iff.mp h
    exact List.cons_prefix_cons.mpr ⟨rfl, ih hr⟩
  | case4 => cases h

/-! ## §2 — positions -/

theorem advanceBy_append (p : Position) (as bs : List Char) :
    p.advanceBy (as ++ bs) = (p.advanceBy as).advanceBy bs := by
  simp [advanceBy]

theorem advanceBy_cons (p : Position) (c : Char) (cs : List Char) :
    p.advanceBy (c :: cs) = (p.advance c).advanceBy cs := rfl

/-- Within a line only the column moves. -/
theorem advanceBy_of_no_feed (p : Position) {cs : List Char} (h : '\n' ∉ cs) :
    p.advanceBy cs = ⟨p.line, p.column + cs.length⟩ := by
  induction cs generalizing p with
  | nil => rfl
  | cons c cs ih =>
    rw [List.mem_cons, not_or] at h
    obtain ⟨other, h⟩ := h
    rw [advanceBy_cons, ih _ h, advance, if_neg (Ne.symm other), List.length_cons]
    simp only [Position.mk.injEq, true_and]
    omega

/-- Positions count from one. -/
theorem advance_pos {p : Position} (h : 1 ≤ p.line ∧ 1 ≤ p.column) (c : Char) :
    1 ≤ (p.advance c).line ∧ 1 ≤ (p.advance c).column := by
  unfold advance
  split
  · exact ⟨Nat.le_add_left 1 _, Nat.le_refl 1⟩
  · exact ⟨h.1, Nat.le_add_left 1 _⟩

theorem advanceBy_pos {p : Position} (h : 1 ≤ p.line ∧ 1 ≤ p.column) (cs : List Char) :
    1 ≤ (p.advanceBy cs).line ∧ 1 ≤ (p.advanceBy cs).column := by
  induction cs generalizing p with
  | nil => exact h
  | cons c cs ih => exact ih (advance_pos h c)

/-- Going on inside a piece is going on in the document. -/
theorem within_advance (origin : Position) {p : Position} (h : 1 ≤ p.line ∧ 1 ≤ p.column) (c : Char) :
    within origin (p.advance c) = (within origin p).advance c := by
  obtain ⟨line, column⟩ := h
  unfold within advance
  -- only on the first line of the piece does the column count from the origin
  by_cases feed : c = '\n'
  · rw [if_pos feed, if_pos feed]
    dsimp only
    rw [if_neg (by omega)]
    split
    · rename_i first
      rw [first]
      simp
    · simp only [Position.mk.injEq, and_true]
      omega
  · rw [if_neg feed, if_neg feed]
    dsimp only
    split
    · simp only [Position.mk.injEq, true_and]
      omega
    · rfl

theorem within_advanceBy (origin : Position) {p : Position} (h : 1 ≤ p.line ∧ 1 ≤ p.column) (cs : List Char) :
    within origin (p.advanceBy cs) = (within origin p).advanceBy cs := by
  induction cs generalizing p with
  | nil => rfl
  | cons c cs ih => rw [advanceBy_cons, ih (advance_pos h c), within_advance origin h, advanceBy_cons]

/-- **A place inside a piece** is where the text before the piece and the text in it lead up to together. -/
theorem within_after (before inner : List Char) : within (after before) (after inner) = after (before ++ inner) := by
  have here : within (after before) start = after before := rfl
  rw [after_append, ← here]
  exact within_advanceBy _ ⟨Nat.le_refl 1, Nat.le_refl 1⟩ inner

/-- Each character moves either the line or the column, and by no more than its bytes. -/
theorem advanceBy_le (p : Position) (cs : List Char) (bound : 1 ≤ p.line ∧ 1 ≤ p.column) :
    (p.advanceBy cs).line + (p.advanceBy cs).column ≤ p.line + p.column + size cs := by
  induction cs generalizing p with
  | nil => exact Nat.le_refl _
  | cons c cs ih =>
    have wide := c.utf8Size_pos
    have cons : size (c :: cs) = c.utf8Size + size cs := Text.Utf8.size_cons c cs
    have rest := ih _ (advance_pos bound c)
    have step : (p.advance c).line + (p.advance c).column ≤ p.line + p.column + 1 := by
      unfold advance
      split
      · dsimp only
        omega
      · exact Nat.le_of_eq (Nat.add_assoc _ _ _).symm
    rw [advanceBy_cons, cons]
    omega

/-- **Positions are small:** neither the line nor the column exceeds the bytes of the text by more than one. -/
theorem atOffset?_le {src : List Char} {offset : Nat} {p : Position} (h : atOffset? src offset = some p) :
    p.line ≤ size src + 1 ∧ p.column ≤ size src + 1 := by
  obtain ⟨before, hb, rfl⟩ := Option.map_eq_some_iff.mp h
  obtain ⟨rest, rfl⟩ := prefix_of_upTo? hb
  have first : 1 ≤ start.line ∧ 1 ≤ start.column := ⟨Nat.le_refl 1, Nat.le_refl 1⟩
  have sum := advanceBy_le start before first
  have pos := advanceBy_pos first before
  have two : start.line + start.column = 2 := rfl
  rw [Text.Utf8.size_append]
  unfold after
  omega

end Position

/-! ## §3 — lines -/

/-- **Lines as they come out of a text:** each but the last ends in its only line feed. -/
inductive Lined : List (List Char) → Prop
  | nil : Lined []
  | last {line : List Char} (h : '\n' ∉ line) : Lined [line]
  | whole {line : List Char} {rest : List (List Char)} (h : '\n' ∉ line) (hr : Lined rest) :
    Lined ((line ++ ['\n']) :: rest)

theorem lined_lines (cs : List Char) : Lined (Text.lines cs) := by
  induction cs with
  | nil => exact .nil
  | cons c cs ih =>
    unfold Text.lines
    split
    · rename_i feed
      subst feed
      have none : '\n' ∉ ([] : List Char) := List.not_mem_nil
      exact .whole none ih
    · rename_i other
      -- the character joins the line that is there, if there is one
      cases hl : Text.lines cs with
      | nil => exact .last (by simpa using Ne.symm other)
      | cons line rest =>
        rw [hl] at ih
        cases ih with
        | last h => exact .last (by simpa using ⟨Ne.symm other, h⟩)
        | @whole line _ h hr =>
          have joined : '\n' ∉ c :: line := by simpa using ⟨Ne.symm other, h⟩
          exact .whole joined hr

namespace Lined

theorem tail {line : List Char} {rest : List (List Char)} (h : Lined (line :: rest)) : Lined rest := by
  cases h with
  | last => exact .nil
  | whole _ hr => exact hr

/-- **After a line that is not the last** the next one starts. -/
theorem advanceBy_head {line : List Char} {rest : List (List Char)} (h : Lined (line :: rest)) (more : rest ≠ [])
    (p : Position) : p.advanceBy line = ⟨p.line + 1, 1⟩ := by
  cases h with
  | last => exact absurd rfl more
  | @whole body _ h hr =>
    rw [Position.advanceBy_append, Position.advanceBy_of_no_feed p h]
    rfl

/-- **After a number of lines** the next one starts that much further down. -/
theorem advanceBy_flatten {ls rest : List (List Char)} (h : Lined (ls ++ rest)) (more : rest ≠ []) (k : Nat) :
    Position.advanceBy ⟨k, 1⟩ ls.flatten = ⟨k + ls.length, 1⟩ := by
  induction ls generalizing k with
  | nil => rfl
  | cons line ls ih =>
    have more' : ls ++ rest ≠ [] := by simp [more]
    rw [List.flatten_cons, Position.advanceBy_append, h.advanceBy_head more', ih h.tail]
    simp only [List.length_cons, Position.mk.injEq, and_true]
    omega

theorem drop {ls rest : List (List Char)} (h : Lined (ls ++ rest)) : Lined rest := by
  induction ls with
  | nil => exact h
  | cons line ls ih => exact ih h.tail

theorem take {ls rest : List (List Char)} (h : Lined (ls ++ rest)) : Lined ls := by
  induction ls with
  | nil => exact .nil
  | cons line ls ih =>
    have later := ih h.tail
    rw [List.cons_append] at h
    generalize parts : ls ++ rest = more at h
    cases h with
    | last plain =>
      obtain ⟨rfl, -⟩ := List.append_eq_nil_iff.mp parts
      exact .last plain
    | whole plain _ => exact .whole plain later

end Lined

/-! ## §4 — trimming -/

namespace Text

theorem trimEnd_append (cs : List Char) : ∃ tail, cs = trimEnd cs ++ tail ∧ ∀ c ∈ tail, isBlank c = true := by
  refine ⟨(cs.reverse.takeWhile isBlank).reverse, ?_, ?_⟩
  · rw [trimEnd, ← List.reverse_append, List.takeWhile_append_dropWhile, List.reverse_reverse]
  · intro c hc
    exact List.mem_takeWhile_imp (List.mem_reverse.mp hc)

/-- **What trimming takes off** are the blanks before the text and some after it. -/
theorem trim_append (cs : List Char) :
    ∃ tail, cs = cs.takeWhile isBlank ++ trim cs ++ tail ∧ ∀ c ∈ tail, isBlank c = true := by
  obtain ⟨tail, split, blank⟩ := trimEnd_append (trimStart cs)
  refine ⟨tail, ?_, blank⟩
  rw [List.append_assoc]
  unfold trim
  rw [← split]
  exact List.takeWhile_append_dropWhile.symm

end Text

end Dialogue
