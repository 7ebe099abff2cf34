import Dialogue.Proofs.Position
import Dialogue.Proofs.Text.Slice
import Mathlib.Data.List.DropRight
import Mathlib.Data.List.Induction
import Mathlib.Data.Prod.Lex
/-!
# `Dialogue.Proofs.Position.Order` — places in a text are in the order of their offsets.

A place comes before another one if it is on an earlier line, or further left on the same line. Every character moves
on to a later place, so the place of an offset tells the offset. Main statement: in a text short enough for 32 bits,
offsets that cut no character have places in the same order, each counted in 32 bits, and offsets beyond the end have
the place of the end.
-/

namespace Dialogue

open Text (IsBoundary)
open Text.Utf8 (size)

namespace Position

/-! ## §1 — the order of places -/

/-- The place as a pair, of which the line counts first. -/
def key (p : Position) : Nat ×ₗ Nat := toLex (p.line, p.column)

theorem key_injective : Function.Injective key := by
  intro p q same
  obtain ⟨line, column⟩ := p
  obtain ⟨line', column'⟩ := q
  obtain ⟨rfl, rfl⟩ := Prod.mk.inj (toLex_inj.mp same)
  rfl

/-- **Reading order:** line by line, and from left to right. -/
instance : LinearOrder Position := LinearOrder.lift' key key_injective

theorem lt_iff {p q : Position} : p < q ↔ p.line < q.line ∨ p.line = q.line ∧ p.column < q.column :=
  Prod.Lex.toLex_lt_toLex

/-- **Counted in 32 bits.** -/
def Fits (p : Position) : Prop := p.line < UInt32.size ∧ p.column < UInt32.size

/-- **A character moves on.** -/
theorem lt_advance (p : Position) (c : Char) : p < p.advance c := by
  rw [lt_iff]
  unfold advance
  split
  · left
    exact Nat.lt_succ_self p.line
  · right
    exact ⟨rfl, Nat.lt_succ_self p.column⟩

theorem le_advanceBy (p : Position) (cs : List Char) : p ≤ p.advanceBy cs := by
  induction cs generalizing p with
  | nil => exact le_refl p
  | cons c cs ih =>
    rw [advanceBy_cons]
    exact (lt_advance p c).le.trans (ih (p.advance c))

/-- **Text moves on**, if there is any. -/
theorem lt_advanceBy (p : Position) {cs : List Char} (some : cs ≠ []) : p < p.advanceBy cs := by
  cases cs with
  | nil => exact absurd rfl some
  | cons c cs =>
    rw [advanceBy_cons]
    exact (lt_advance p c).trans_le (le_advanceBy (p.advance c) cs)

/-! ## §2 — lines and columns counted apart -/

/-- The text after its last line feed. -/
def lastLine (cs : List Char) : List Char := cs.rtakeWhile (· != '\n')

/-- Going on counts the line feeds, and the characters after the last of them. -/
theorem advanceBy_eq (p : Position) (cs : List Char) :
    p.advanceBy cs = ⟨p.line + cs.count '\n', (if '\n' ∈ cs then 1 else p.column) + (lastLine cs).length⟩ := by
  -- on the end of the text, where a line feed starts the line anew
  induction cs using List.reverseRecOn with
  | nil => rfl
  | append_singleton cs c ih =>
    rw [advanceBy_append, ih, advanceBy_cons]
    show Position.advance _ c = _
    unfold advance lastLine
    by_cases feed : c = '\n'
    · subst feed
      simp [List.rtakeWhile, Nat.add_assoc]
    · have other : '\n' ≠ c := Ne.symm feed
      simp [feed, other, List.rtakeWhile, Nat.add_assoc]

/-- **The place that a text leads up to** has the line feeds of the text for lines, and the characters after the last
one for columns. -/
theorem after_eq (before : List Char) : after before = ⟨before.count '\n' + 1, (lastLine before).length + 1⟩ := by
  unfold after
  rw [advanceBy_eq]
  simp [start, Nat.add_comm]

/-! ## §3 — places and offsets -/

/-- An offset that cuts no character has the place that the text before it leads up to. -/
theorem atOffset?_of_isPrefix {src before : List Char} (start : before <+: src) :
    atOffset? src (size before) = some (after before) := by
  obtain ⟨rest, rfl⟩ := start
  exact atOffset?_append before rest

/-- Of two prefixes, the one with more bytes goes on where the other ends. -/
theorem exists_between {src before before' : List Char} (start : before <+: src) (start' : before' <+: src)
    (less : size before < size before') : ∃ between, between ≠ [] ∧ before' = before ++ between := by
  rcases List.prefix_or_prefix_of_prefix start start' with ⟨between, rfl⟩ | ⟨back, rfl⟩
  · refine ⟨between, ?_, rfl⟩
    rintro rfl
    rw [List.append_nil] at less
    exact Nat.lt_irrefl _ less
  · rw [Text.Utf8.size_append] at less
    omega

/-- **Later offsets have later places.** -/
theorem after_lt_after {src before before' : List Char} (start : before <+: src) (start' : before' <+: src)
    (less : size before < size before') : after before < after before' := by
  obtain ⟨between, some, rfl⟩ := exists_between start start' less
  rw [after_append]
  exact lt_advanceBy (after before) some

/-- Beyond the end there is no more text. -/
theorem upTo?_of_size_le {src : List Char} {offset : Nat} (beyond : size src ≤ offset) :
    upTo? src offset = some src := by
  fun_induction upTo? src offset with
  | case1 => rfl
  | case2 c cs =>
    have wide := c.utf8Size_pos
    rw [Text.Utf8.size_cons] at beyond
    omega
  | case3 c cs offset _ fits ih =>
    rw [Text.Utf8.size_cons] at beyond
    rw [ih (by omega)]
    rfl
  | case4 c cs offset _ cut =>
    rw [Text.Utf8.size_cons] at beyond
    omega

/-- **Positions identify offsets.** In a text of less than `UInt32.size - 1` bytes: an offset that cuts no character has
a place, whose line and column, counted apart, are counted in 32 bits; a later offset has a later place, so that places
are equal only where the offsets are; and beyond the end, the place is that of the end. -/
theorem atOffset?_orders {src : List Char} (small : size src < UInt32.size - 1) :
    (∀ before, before <+: src → ∃ p, atOffset? src (size before) = some p ∧ p.Fits ∧
      p = ⟨before.count '\n' + 1, (lastLine before).length + 1⟩) ∧
    (∀ o₁ o₂, IsBoundary src o₁ → IsBoundary src o₂ → o₁ < o₂ →
      ∃ p₁ p₂, atOffset? src o₁ = some p₁ ∧ atOffset? src o₂ = some p₂ ∧ p₁ < p₂) ∧
    (∀ o₁ o₂, IsBoundary src o₁ → IsBoundary src o₂ → atOffset? src o₁ = atOffset? src o₂ → o₁ = o₂) ∧
    ∀ offset, size src ≤ offset → atOffset? src offset = atOffset? src (size src) := by
  have increasing : ∀ o₁ o₂, IsBoundary src o₁ → IsBoundary src o₂ → o₁ < o₂ →
      ∃ p₁ p₂, atOffset? src o₁ = some p₁ ∧ atOffset? src o₂ = some p₂ ∧ p₁ < p₂ := by
    rintro _ _ ⟨before, start, rfl⟩ ⟨before', start', rfl⟩ less
    exact ⟨_, _, atOffset?_of_isPrefix start, atOffset?_of_isPrefix start', after_lt_after start start' less⟩
  have distinct : ∀ o₁ o₂, IsBoundary src o₁ → IsBoundary src o₂ → o₁ < o₂ → atOffset? src o₁ ≠ atOffset? src o₂ := by
    intro o₁ o₂ h₁ h₂ less same
    obtain ⟨p₁, p₂, place₁, place₂, before⟩ := increasing o₁ o₂ h₁ h₂ less
    rw [place₁, place₂] at same
    exact before.ne (Option.some.inj same)
  refine ⟨?_, increasing, ?_, ?_⟩
  · intro before start
    have place := atOffset?_of_isPrefix start
    obtain ⟨line, column⟩ := atOffset?_le place
    refine ⟨_, place, ⟨?_, ?_⟩, after_eq before⟩ <;> omega
  · intro o₁ o₂ h₁ h₂ same
    rcases Nat.lt_trichotomy o₁ o₂ with less | equal | more
    · exact absurd same (distinct o₁ o₂ h₁ h₂ less)
    · exact equal
    · exact absurd same.symm (distinct o₂ o₁ h₂ h₁ more)
  · intro offset beyond
    unfold atOffset?
    rw [upTo?_of_size_le beyond, upTo?_of_size_le (Nat.le_refl (size src))]

/-- A line feed and characters of two and of four bytes. -/
theorem atOffset?_orders_wide :
    let src := ['é', '\n', '😀', 'x']
    size src < UInt32.size - 1 ∧ IsBoundary src 2 ∧ IsBoundary src 7 ∧
      (∃ p₁ p₂, atOffset? src 2 = some p₁ ∧ atOffset? src 7 = some p₂ ∧ p₁ < p₂) ∧
      atOffset? src 9 = atOffset? src (size src) := by
  intro src
  have small : size src < UInt32.size - 1 := by decide
  have two : IsBoundary src 2 := ⟨['é'], ⟨_, rfl⟩, by decide⟩
  have seven : IsBoundary src 7 := ⟨['é', '\n', '😀'], ⟨_, rfl⟩, by decide⟩
  obtain ⟨-, increasing, -, beyond⟩ := atOffset?_orders small
  exact ⟨small, two, seven, increasing 2 7 two seven (by decide), beyond 9 (by decide)⟩

end Position

end Dialogue
