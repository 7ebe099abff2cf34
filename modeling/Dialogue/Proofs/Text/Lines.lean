import Dialogue.Proofs.Position
import Mathlib.Data.List.DropRight
/-!
# `Dialogue.Proofs.Text.Lines` — lines that are put together, and texts that are trimmed.

A text that is empty or ends in a line feed can be followed by any other: the lines of both are those of the first and
then those of the second. And a text that was trimmed has nothing left to trim.
-/

namespace Dialogue.Text

/-! ## §1 — lines -/

/-- **No line is left open** at the end of the text. -/
def Ended (cs : List Char) : Prop := cs = [] ∨ ['\n'] <:+ cs

theorem Ended.nil : Ended [] := .inl rfl

theorem Ended.feed (cs : List Char) : Ended (cs ++ ['\n']) := .inr (List.suffix_append cs _)

theorem Ended.append {as bs : List Char} (first : Ended as) (second : Ended bs) : Ended (as ++ bs) := by
  rcases second with rfl | feed
  · rw [List.append_nil]
    exact first
  · exact .inr (feed.trans (List.suffix_append as bs))

theorem Ended.of_cons {c : Char} {cs : List Char} (h : Ended (c :: cs)) : Ended cs := by
  rcases h with none | feed
  · cases none
  · rcases List.suffix_cons_iff.mp feed with same | later
    · obtain ⟨-, rfl⟩ := List.cons.inj same
      exact .nil
    · exact .inr later

theorem lines_feed (cs : List Char) : lines ('\n' :: cs) = ['\n'] :: lines cs := by
  rw [lines, if_pos rfl]

/-- A character joins the line that follows it. -/
theorem lines_cons {c : Char} {cs line : List Char} {rest : List (List Char)} (other : c ≠ '\n')
    (h : lines cs = line :: rest) : lines (c :: cs) = (c :: line) :: rest := by
  rw [lines, if_neg other, h]

/-- A character that is no line feed is not the last one. -/
theorem Ended.lines_cons {c : Char} {cs : List Char} (ended : Ended (c :: cs)) (other : c ≠ '\n') :
    ∃ line rest, lines cs = line :: rest ∧ lines (c :: cs) = (c :: line) :: rest := by
  cases there : lines cs with
  | nil =>
    -- the line feed at the end is still to come
    have whole := flatten_lines cs
    rw [there] at whole
    subst whole
    rcases ended with none | last
    · cases none
    · obtain ⟨same, -⟩ := List.cons.inj (last.eq_of_length rfl)
      exact absurd same.symm other
  | cons line rest => exact ⟨line, rest, rfl, Text.lines_cons other there⟩

/-- **Behind a text without an open line** the lines start anew. -/
theorem lines_append {as : List Char} (ended : Ended as) (bs : List Char) : lines (as ++ bs) = lines as ++ lines bs := by
  induction as with
  | nil => rfl
  | cons c cs ih =>
    have later := ih ended.of_cons
    by_cases feed : c = '\n'
    · rw [feed, List.cons_append, lines_feed, lines_feed, later]
      rfl
    · obtain ⟨line, rest, there, joined⟩ := ended.lines_cons feed
      rw [there] at later
      rw [List.cons_append, Text.lines_cons feed later, joined]
      rfl

/-- **Without an open line**, there are as many lines as line feeds. -/
theorem length_lines {cs : List Char} (ended : Ended cs) : (lines cs).length = cs.count '\n' := by
  induction cs with
  | nil => rfl
  | cons c cs ih =>
    have later := ih ended.of_cons
    by_cases feed : c = '\n'
    · rw [feed, lines_feed, List.length_cons, later, List.count_cons_self]
    · obtain ⟨line, rest, there, joined⟩ := ended.lines_cons feed
      rw [joined, List.count_cons_of_ne feed, ← later, there]
      rfl

/-- Text without a line feed joins the line that follows it. -/
theorem lines_append_of_no_feed {as bs line : List Char} {rest : List (List Char)} (plain : '\n' ∉ as)
    (h : lines bs = line :: rest) : lines (as ++ bs) = (as ++ line) :: rest := by
  induction as with
  | nil => exact h
  | cons c cs ih =>
    rw [List.mem_cons, not_or] at plain
    exact lines_cons (Ne.symm plain.1) (ih plain.2)

theorem lines_line {line : List Char} (plain : '\n' ∉ line) : lines (line ++ ['\n']) = [line ++ ['\n']] :=
  lines_append_of_no_feed plain rfl

/-- **Lines that are followed by others** can be put together and come apart again. -/
theorem lines_flatten {ls rest : List (List Char)} (lined : Lined (ls ++ rest)) (more : rest ≠ []) :
    lines ls.flatten = ls ∧ Ended ls.flatten := by
  induction ls with
  | nil => exact ⟨rfl, .nil⟩
  | cons line ls ih =>
    obtain ⟨later, ended⟩ := ih lined.tail
    cases hl : ls ++ rest with
    | nil => exact absurd (List.append_eq_nil_iff.mp hl).2 more
    | cons next others =>
      rw [List.cons_append, hl] at lined
      cases lined with
      | @whole body _ plain _ =>
        rw [List.flatten_cons, lines_append (.feed body), lines_line plain, later]
        exact ⟨rfl, (Ended.feed body).append ended⟩

/-! ## §2 — trimming -/

theorem trimEnd_trimEnd (cs : List Char) : trimEnd (trimEnd cs) = trimEnd cs := List.rdropWhile_idempotent isBlank cs

theorem trimEnd_isPrefix (cs : List Char) : trimEnd cs <+: cs := List.rdropWhile_prefix isBlank cs

theorem trimEnd_append_blank {c : Char} (blank : isBlank c = true) (cs : List Char) :
    trimEnd (cs ++ [c]) = trimEnd cs := List.rdropWhile_concat_pos isBlank cs c blank

theorem trimStart_append (as bs : List Char) :
    trimStart (as ++ bs) = if trimStart as = [] then trimStart bs else trimStart as ++ bs := by
  unfold trimStart
  rw [List.dropWhile_append]
  simp only [List.isEmpty_iff]

/-- **Blanks on either side** do not count. -/
theorem trim_cons_blank {c : Char} (blank : isBlank c = true) (cs : List Char) : trim (c :: cs) = trim cs :=
  congrArg trimEnd (List.dropWhile_cons_of_pos blank)

theorem trim_append_blank {c : Char} (blank : isBlank c = true) (cs : List Char) : trim (cs ++ [c]) = trim cs := by
  have one : trimStart [c] = [] := List.dropWhile_cons_of_pos blank
  unfold trim
  rw [trimStart_append]
  split
  · rename_i none
    rw [none, one]
  · exact trimEnd_append_blank blank _

theorem trim_blanks_append {before : List Char} (blank : ∀ c ∈ before, isBlank c = true) (cs : List Char) :
    trim (before ++ cs) = trim cs := by
  induction before with
  | nil => rfl
  | cons c before ih =>
    obtain ⟨first, later⟩ := List.forall_mem_cons.mp blank
    rw [List.cons_append, trim_cons_blank first, ih later]

theorem trim_append_blanks {after : List Char} (blank : ∀ c ∈ after, isBlank c = true) (cs : List Char) :
    trim (cs ++ after) = trim cs := by
  induction after using List.reverseRecOn with
  | nil => rw [List.append_nil]
  | append_singleton after c ih =>
    rw [List.forall_mem_append] at blank
    rw [← List.append_assoc, trim_append_blank (blank.2 c List.mem_cons_self), ih blank.1]

/-- **Trimming does not look at letters**, but at what is blank. -/
theorem trim_map {f : Char → Char} (kept : ∀ c, isBlank (f c) = isBlank c) (cs : List Char) :
    trim (cs.map f) = (trim cs).map f := by
  have same : isBlank ∘ f = isBlank := funext kept
  unfold trim trimStart trimEnd
  rw [List.dropWhile_map, ← List.map_reverse, List.dropWhile_map, same, List.map_reverse]

/-- What a text starts with needs no trimming when the text does not. -/
theorem trimStart_of_isPrefix {as bs : List Char} (start : as <+: bs) (kept : trimStart bs = bs) :
    trimStart as = as := by
  obtain ⟨tail, rfl⟩ := start
  cases as with
  | nil => rfl
  | cons c cs =>
    have first : ¬ isBlank c = true := List.dropWhile_eq_self_iff.mp kept (Nat.succ_pos _)
    exact List.dropWhile_cons_of_neg first

/-- **Trimming twice is trimming once.** -/
theorem trim_trim (cs : List Char) : trim (trim cs) = trim cs := by
  have started : trimStart (trimStart cs) = trimStart cs := List.dropWhile_idempotent isBlank cs
  unfold trim
  rw [trimStart_of_isPrefix (trimEnd_isPrefix _) started, trimEnd_trimEnd]

/-- The end of a text decides where trimming ends. -/
theorem trimEnd_append_of_ne_nil (as : List Char) {bs : List Char} (some : trimEnd bs ≠ []) :
    trimEnd (as ++ bs) = as ++ trimEnd bs := by
  have there : bs.reverse.dropWhile isBlank ≠ [] := fun none => some (congrArg List.reverse none)
  unfold trimEnd
  rw [List.reverse_append, List.dropWhile_append, if_neg (by rwa [List.isEmpty_iff]), List.reverse_append,
    List.reverse_reverse]

theorem trim_toList {s : String} (kept : trimmed s = s) : trim s.toList = s.toList := by
  have same := congrArg String.toList kept
  unfold trimmed at same
  rw [String.toList_ofList] at same
  exact same

theorem trimEnd_of_trim {cs : List Char} (kept : trim cs = cs) : trimEnd cs = cs := by
  rw [← kept]
  exact trimEnd_trimEnd _

theorem mem_of_mem_trim {cs : List Char} {c : Char} (mem : c ∈ trim cs) : c ∈ cs :=
  (List.dropWhile_sublist isBlank).mem ((trimEnd_isPrefix _).mem mem)

end Dialogue.Text
