import Dialogue.Text.Split
import Dialogue.Text.Utf8
/-!
# `Dialogue.Segment` — templates cut into text and expressions.

An expression stands between double braces. A pair of opening braces that is never closed is literal text, and
so is everything after it.
-/

namespace Dialogue

/-- **A piece of a template.** -/
inductive Segment
  /-- Literal text. -/
  | text (value : List Char)
  /-- The code between the braces. -/
  | expression (code : List Char)
  deriving DecidableEq, Repr

namespace Segment

/-- The opening braces. -/
def opening : List Char := ['{', '{']

/-- The closing braces. -/
def closing : List Char := ['}', '}']

/-- **The piece as it stands in the template.** -/
def raw : Segment → List Char
  | text value => value
  | expression code => opening ++ code ++ closing

/-- A literal piece, unless it is empty. -/
def literal (cs : List Char) : List Segment := if cs = [] then [] else [text cs]

theorem length_rest_lt {src before inner code rest : List Char}
    (h₁ : Text.cutAt? opening src = some (before, inner))
    (h₂ : Text.cutAt? closing inner = some (code, rest)) : rest.length < src.length := by
  have h₁ := congrArg List.length (Text.eq_of_cutAt? h₁)
  have h₂ := congrArg List.length (Text.eq_of_cutAt? h₂)
  simp [opening, closing] at h₁ h₂
  omega

/-- **The pieces of a template**, in order. -/
def ofTemplate (src : List Char) : List Segment :=
  match h₁ : Text.cutAt? opening src with
  | none => literal src
  | some (before, inner) =>
    match h₂ : Text.cutAt? closing inner with
    | none => literal src
    | some (code, rest) =>
      have := length_rest_lt h₁ h₂
      literal before ++ expression code :: ofTemplate rest
termination_by src.length

/-- Each piece with the characters of the template that stand before it. -/
def located (before : List Char) : List Segment → List (List Char × Segment)
  | [] => []
  | s :: rest => (before, s) :: located (before ++ s.raw) rest

/-- **A piece as it is reported:** an expression with its braces, and with the number of bytes that stand before it. -/
inductive Placed
  | text (value : List Char)
  | expression (code raw : List Char) (offset : Nat)
  deriving DecidableEq, Repr

/-- A piece as it is reported where it stands behind some text. -/
def place (before : List Char) : Segment → Placed
  | text value => .text value
  | expression code => .expression code (expression code).raw (Text.Utf8.size before)

/-- **The pieces of a template as they are reported**, in order. -/
def pieces (src : List Char) : List Placed :=
  (located [] (ofTemplate src)).map fun (before, s) => place before s

theorem flatMap_raw_literal (cs : List Char) : (literal cs).flatMap raw = cs := by
  unfold literal
  split
  · rename_i none
    rw [none]
    rfl
  · simp [raw]

/-- **Nothing of a template is lost:** its pieces, as they stand in it, are the template. -/
theorem flatMap_raw_ofTemplate (src : List Char) : (ofTemplate src).flatMap raw = src := by
  fun_induction ofTemplate src with
  | case1 src => exact flatMap_raw_literal src
  | case2 src => exact flatMap_raw_literal src
  | case3 src before inner h₁ code rest h₂ _ ih =>
    rw [List.flatMap_append, List.flatMap_cons, ih, flatMap_raw_literal, Text.eq_of_cutAt? h₁, Text.eq_of_cutAt? h₂]
    simp [raw]

theorem text_not_mem_literal (cs : List Char) : text [] ∉ literal cs := by
  unfold literal
  split
  · exact List.not_mem_nil
  · rename_i more
    intro mem
    exact more (text.inj (List.mem_singleton.mp mem)).symm

/-- **No literal piece is empty.** -/
theorem text_not_mem_ofTemplate (src : List Char) : text [] ∉ ofTemplate src := by
  fun_induction ofTemplate src with
  | case1 src => exact text_not_mem_literal src
  | case2 src => exact text_not_mem_literal src
  | case3 src before inner h₁ code rest h₂ _ ih =>
    intro mem
    rcases List.mem_append.mp mem with first | later
    · exact text_not_mem_literal before first
    · rcases List.mem_cons.mp later with here | there
      · cases here
      · exact ih there

theorem not_isEmpty_ofList {cs : List Char} (solid : cs ≠ []) : ¬ (String.ofList cs).isEmpty := by
  rw [String.isEmpty_iff, String.ofList_eq_empty_iff]
  exact solid

/-- What a located piece stands after are the pieces before it. -/
theorem mem_located {before b : List Char} {pieces : List Segment} {s : Segment}
    (h : (b, s) ∈ located before pieces) :
    ∃ earlier later, pieces = earlier ++ s :: later ∧ b = before ++ earlier.flatMap raw := by
  induction pieces generalizing before with
  | nil => cases h
  | cons piece rest ih =>
    rcases List.mem_cons.mp h with here | there
    · obtain ⟨rfl, rfl⟩ := Prod.mk.inj here
      exact ⟨[], rest, rfl, (List.append_nil _).symm⟩
    · obtain ⟨earlier, later, rfl, rfl⟩ := ih there
      refine ⟨piece :: earlier, later, rfl, ?_⟩
      rw [List.flatMap_cons, List.append_assoc]

/-- **A piece stands in its template** right after the text it is located after. -/
theorem eq_of_mem_located {src b : List Char} {s : Segment} (h : (b, s) ∈ located [] (ofTemplate src)) :
    ∃ rest, src = b ++ s.raw ++ rest := by
  obtain ⟨earlier, later, pieces, rfl⟩ := mem_located h
  refine ⟨later.flatMap raw, ?_⟩
  rw [← flatMap_raw_ofTemplate src, pieces, List.flatMap_append, List.flatMap_cons]
  simp

end Segment

end Dialogue
