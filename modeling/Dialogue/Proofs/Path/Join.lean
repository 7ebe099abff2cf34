import Dialogue.Proofs.Path
import Dialogue.Proofs.Text.Split
/-!
# `Dialogue.Proofs.Path.Join` — normal forms of joined paths.

Normalizing goes through the components from left to right, so what stands before a join matters only through the stack
that it leaves. Main statements: a normal form is `.`, or it has no `.` and climbs only at its start, and not at all
from the root; and normalizing a path that others are joined to changes nothing in the normal form of the whole.
-/

namespace Dialogue.Path

open Component

/-! ## §1 — joins -/

theorem ofString_toString (p : Path) : ofString p.toString = p := by
  rw [ofString, toString, String.toList_ofList]

theorem join_of_isAbsolute {p q : Path} (h : q.isAbsolute = true) : p.join q = q := if_pos h

/-- **The ways a relative path is joined:** to nothing, behind a separator, or with one put between. -/
theorem join_cases {q : Path} (h : q.isAbsolute = false) (p : Path) :
    p.text = [] ∧ p.join q = q ∨
    (∃ dir, p.text = dir ++ ['/'] ∧ p.join q = ⟨dir ++ '/' :: q.text⟩) ∨
    p.text ≠ [] ∧ p.join q = ⟨p.text ++ '/' :: q.text⟩ := by
  unfold join
  rw [h, if_neg Bool.false_ne_true]
  by_cases empty : p.text = []
  · exact .inl ⟨empty, by rw [if_pos (.inl empty), empty]; rfl⟩
  · by_cases closed : p.text.getLast? = some '/'
    · obtain ⟨dir, text⟩ := List.getLast?_eq_some_iff.mp closed
      refine .inr (.inl ⟨dir, text, ?_⟩)
      rw [if_pos (.inr closed), text, List.append_assoc]
      rfl
    · exact .inr (.inr ⟨empty, if_neg (not_or.mpr ⟨empty, closed⟩)⟩)

/-- What is joined to a path does not move its start. -/
theorem ground_join {q : Path} (h : q.isAbsolute = false) (p : Path) : (p.join q).ground = p.ground := by
  -- whether a path is absolute is told by its first character
  have start (cs ds : List Char) (some : cs ≠ []) : (⟨cs ++ ds⟩ : Path).ground = (⟨cs⟩ : Path).ground := by
    obtain ⟨c, cs, rfl⟩ := List.exists_cons_of_ne_nil some
    rfl
  rcases join_cases h p with ⟨empty, join⟩ | ⟨dir, text, join⟩ | ⟨some, join⟩
  · have relative : p.isAbsolute = false := by rw [isAbsolute, empty]; rfl
    rw [join, ground, ground, h, relative]
  · have whole : dir ++ '/' :: q.text = (dir ++ ['/']) ++ q.text := (List.append_cons dir '/' q.text)
    rw [join, whole, start _ _ (List.concat_ne_nil '/' dir), ← text]
  · rw [join, start _ _ some]

/-- **The components of a join** are those of one path and then those of the other. -/
theorem inner_join {q : Path} (h : q.isAbsolute = false) (p : Path) : (p.join q).inner = p.inner ++ q.inner := by
  rcases join_cases h p with ⟨empty, join⟩ | ⟨dir, text, join⟩ | ⟨-, join⟩
  · rw [join, inner, inner, empty]
    rfl
  · -- the piece behind the last separator of `p` is empty, and so it is no component
    have closed : p.inner = (Text.splitAt '/' dir).filterMap ofPiece? := by
      rw [inner, text, Text.splitAt_append_cons, List.filterMap_append]
      exact List.append_nil _
    rw [join, closed, inner, inner, Text.splitAt_append_cons, List.filterMap_append]
  · rw [join, inner, inner, inner, Text.splitAt_append_cons, List.filterMap_append]

/-- **Normalizing a join** goes on where normalizing the first path ended. -/
theorem stack_join {q : Path} (h : q.isAbsolute = false) (p : Path) :
    (p.join q).stack = q.inner.foldl normalStep p.stack := by
  rw [stack, inner_join h, ground_join h, List.foldl_append, stack]

/-- **The normal form of a join** is that of the join to the normal form. -/
theorem normalize_join_normalize (p q : Path) : (p.normalize.join q).normalize = (p.join q).normalize := by
  cases h : q.isAbsolute with
  | true => rw [join_of_isAbsolute h, join_of_isAbsolute h]
  | false =>
    have same : (p.normalize.join q).stack = (p.join q).stack := by
      rw [stack_join h, stack_join h, stack_normalize]
    rw [normalize_eq, same, ← normalize_eq]

/-- **Resolving step by step** is normalizing the whole. -/
theorem resolve_resolve (p q r : Path) : (p.resolve q).resolve r = ((p.join q).join r).normalize :=
  normalize_join_normalize (p.join q) r

/-- **A path resolved from an absolute one** is resolved to itself, from wherever. -/
theorem resolve_of_isAbsolute {dir : Path} (h : dir.isAbsolute = true) (p q : Path) :
    q.resolve (dir.resolve p) = dir.resolve p := by
  have settled := settled_resolve h p
  rw [resolve, join_of_isAbsolute settled.absolute, settled.normal]

/-! ## §2 — the shape of normal forms -/

/-- **A path in normal form:** there is no `.` in it, it climbs only at its start, and not from the root. -/
structure Normal (p : Path) : Prop where
  noHere : here ∉ p.components
  noDot : ['.'] ∉ Text.splitAt '/' p.text
  climbsFirst : ∃ n rest, p.components = List.replicate n up ++ rest ∧ up ∉ rest
  staysInside : p.isAbsolute = true → up ∉ p.components

theorem NormalStack.climbs {s : List Component} (h : NormalStack s) :
    ∃ n rest, s.reverse = List.replicate n up ++ rest ∧ up ∉ rest := by
  induction h with
  | nil => exact ⟨0, [], rfl, List.not_mem_nil⟩
  | atRoot => exact ⟨0, [root], rfl, by simp⟩
  | @climbing s ups =>
    -- there is nothing but `..` below a `..`
    have all : ∀ c ∈ up :: s, c = up := List.forall_mem_cons.mpr ⟨rfl, ups⟩
    refine ⟨(up :: s).reverse.length, [], ?_, List.not_mem_nil⟩
    rw [List.append_nil]
    exact List.eq_replicate_of_mem fun c mem => all c (List.mem_reverse.mp mem)
  | @named text s _ _ ih =>
    obtain ⟨n, rest, climb, none⟩ := ih
    refine ⟨n, rest ++ [name text], ?_, ?_⟩
    · rw [List.reverse_cons, climb, List.append_assoc]
    · rw [List.mem_append, not_or]
      exact ⟨none, by simp⟩

theorem NormalStack.mem_cases {s : List Component} (h : NormalStack s) {c : Component} (mem : c ∈ s) :
    c = root ∨ IsInner c := by
  rw [← List.mem_reverse] at mem
  obtain ⟨body, inner, first | first⟩ := h.reverse_cases
  · rw [first] at mem
    exact (List.mem_cons.mp mem).imp_right (inner c)
  · rw [first] at mem
    exact .inr (inner c mem)

/-- There is no `.` among components in normal form. -/
theorem NormalStack.here_not_mem {s : List Component} (h : NormalStack s) : here ∉ s := by
  intro mem
  rcases h.mem_cases mem with other | other | ⟨_, other, _⟩ <;> cases other

/-- Nor is one spelled so. -/
theorem NormalStack.dot_not_mem {s : List Component} (h : NormalStack s) (some : s ≠ []) :
    ['.'] ∉ Text.splitAt '/' (ofComponents s.reverse).text := by
  by_cases other : s = [root]
  · subst other
    decide
  · rw [h.pieces some other]
    intro mem
    obtain ⟨c, mem, text⟩ := List.mem_map.mp mem
    rcases h.mem_cases (List.mem_reverse.mp mem) with rfl | inner
    · cases text
    · exact inner.text_ne_dot text

/-- Over the root nothing climbs. -/
theorem NormalStack.up_not_mem {s : List Component} (h : NormalStack s) (rooted : root ∈ s) : up ∉ s := by
  intro mem
  rcases h.names rooted up mem with other | ⟨_, other, _⟩ <;> cases other

/-- **Normalizing leads to a normal form**, or nowhere, which is spelled `.`. -/
theorem normal_normalize (p : Path) : p.normalize.text = ['.'] ∨ p.normalize.Normal := by
  have normal := p.normalStack
  rw [normalize_eq]
  generalize p.stack = s at normal
  -- an empty stack is the path that leads nowhere
  by_cases none : s = []
  · subst none
    exact .inl rfl
  · have components := normal.components_ofComponents none
    refine .inr ⟨?_, normal.dot_not_mem none, ?_, fun h => ?_⟩
    · rw [components, List.mem_reverse]
      exact normal.here_not_mem
    · rw [components]
      exact normal.climbs
    · rw [components, List.mem_reverse]
      exact normal.up_not_mem (normal.isAbsolute_iff.mp h)

end Dialogue.Path
