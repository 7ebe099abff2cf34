import Dialogue.Text.Slice
/-!
# `Dialogue.Proofs.Text.Slice` — where a text can be cut.

Main statements: a text is cut in two at an offset exactly where its first part has that many bytes, and so a slice is
there exactly where the text before it and the slice have the bytes that its offsets say.
-/

namespace Dialogue.Text

open Utf8 (size)

theorem divide?_append (before after : List Char) : divide? (before ++ after) (size before) = some (before, after) := by
  induction before with
  | nil =>
    show divide? after 0 = _
    unfold divide?
    rfl
  | cons c before ih =>
    have wide := c.utf8Size_pos
    have whole : size (c :: before) = size before + c.utf8Size - 1 + 1 := by
      rw [Utf8.size_cons]
      omega
    have rest : size before + c.utf8Size - 1 + 1 - c.utf8Size = size before := by omega
    rw [whole, List.cons_append, divide?, if_pos (by omega), rest, ih]
    rfl

/-- **A text is cut at an offset** where its first part has that many bytes. -/
theorem divide?_eq_some_iff {cs before after : List Char} {offset : Nat} :
    divide? cs offset = some (before, after) ↔ cs = before ++ after ∧ size before = offset := by
  constructor
  · intro cut
    fun_induction divide? cs offset generalizing before with
    | case1 cs =>
      cases cut
      exact ⟨rfl, rfl⟩
    | case2 => cases cut
    | case3 c cs offset fits ih =>
      obtain ⟨⟨first, rest⟩, found, same⟩ := Option.map_eq_some_iff.mp cut
      obtain ⟨rfl, rfl⟩ := Prod.mk.inj same
      obtain ⟨rfl, bytes⟩ := ih found
      refine ⟨rfl, ?_⟩
      rw [Utf8.size_cons, bytes]
      omega
    | case4 => cases cut
  · rintro ⟨rfl, rfl⟩
    exact divide?_append before after

theorem from?_eq_some_iff {cs after : List Char} {start : Nat} :
    from? cs start = some after ↔ ∃ before, cs = before ++ after ∧ size before = start := by
  constructor
  · intro cut
    obtain ⟨⟨before, rest⟩, divided, rfl⟩ := Option.map_eq_some_iff.mp cut
    exact ⟨before, divide?_eq_some_iff.mp divided⟩
  · rintro ⟨before, rfl, rfl⟩
    rw [from?, divide?_append]
    rfl

/-- **A slice is there** exactly where the text before it, and then the slice, have the bytes that its offsets say. -/
theorem slice?_eq_some_iff {cs piece : List Char} {start stop : Nat} :
    slice? cs start stop = some piece ↔
      ∃ before after, cs = before ++ piece ++ after ∧ size before = start ∧ size (before ++ piece) = stop := by
  constructor
  · intro cut
    obtain ⟨⟨whole, after⟩, divided, behind⟩ := Option.bind_eq_some_iff.mp cut
    obtain ⟨rfl, bytes⟩ := divide?_eq_some_iff.mp divided
    obtain ⟨before, rfl, front⟩ := from?_eq_some_iff.mp behind
    exact ⟨before, after, rfl, front, bytes⟩
  · rintro ⟨before, after, rfl, rfl, rfl⟩
    rw [slice?, divide?_append]
    exact from?_eq_some_iff.mpr ⟨before, rfl, rfl⟩

theorem from?_append (before after : List Char) : from? (before ++ after) (size before) = some after :=
  from?_eq_some_iff.mpr ⟨before, rfl, rfl⟩

theorem slice?_append (before piece after : List Char) :
    slice? (before ++ piece ++ after) (size before) (size before + size piece) = some piece :=
  slice?_eq_some_iff.mpr ⟨before, after, rfl, rfl, Utf8.size_append before piece⟩

theorem isBoundary_append (before after : List Char) : IsBoundary (before ++ after) (size before) :=
  ⟨before, List.prefix_append before after, rfl⟩

theorem IsBoundary.le {cs : List Char} {offset : Nat} (h : IsBoundary cs offset) : offset ≤ size cs := by
  obtain ⟨before, ⟨after, rfl⟩, rfl⟩ := h
  rw [Utf8.size_append]
  exact Nat.le_add_right _ _

/-- A text that is not empty takes a byte at least. -/
theorem size_pos {cs : List Char} (some : cs ≠ []) : 0 < size cs := by
  cases cs with
  | nil => exact absurd rfl some
  | cons c cs =>
    have wide := c.utf8Size_pos
    rw [Utf8.size_cons]
    omega

end Dialogue.Text
