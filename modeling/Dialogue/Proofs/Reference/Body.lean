import Dialogue.Reference
import Mathlib.Data.List.TakeWhile
/-!
# `Dialogue.Proofs.Reference.Body` — the form of a body.

A body is told by its own characters and by the one or two that come after it: it goes on as long as it can, and what
stands further behind it plays no part. Main statements: the body that is read off a text is the prefix of it that has
the form of a body and cannot go on; what stands behind a blank does not matter; and a body that is cut short behind its
lead is a body, unless the cut is right after a `;`.
-/

namespace Dialogue.Reference

open Text (isBlank)

/-! ## §1 — the form of a body -/

/-- **Further runs**, each after a `;`. -/
inductive Runs : List Char → Prop
  | nil : Runs []
  | cons {run later : List Char} (some : run ≠ []) (inside : ∀ c ∈ run, isRunChar c = true) (rest : Runs later) :
    Runs (';' :: (run ++ later))

/-- **The form of a body:** what leads to a name, a run, and further runs. -/
inductive Body : List Char → Prop
  | mk {lead run later : List Char} (leads : lead = ['.', '/'] ∨ lead = ['.', '.', '/']) (some : run ≠ [])
    (inside : ∀ c ∈ run, isRunChar c = true) (rest : Runs later) : Body (lead ++ (run ++ later))

/-- No run goes on with the text. -/
def Stops (rest : List Char) : Prop := ∀ c ∈ rest.head?, isRunChar c = false

/-- **No body goes on with the text**, neither with a run nor, after a `;`, with a further run. -/
structure Ends (rest : List Char) : Prop where
  run : Stops rest
  further : ∀ tail, rest = ';' :: tail → Stops tail

theorem isRunChar_of_isBlank {c : Char} (h : isBlank c = true) : isRunChar c = false := by
  simp [isRunChar, h]

theorem not_isBlank_of_isRunChar {c : Char} (h : isRunChar c = true) : isBlank c = false := by
  simp only [isRunChar, Bool.and_eq_true, Bool.not_eq_true'] at h
  exact h.1

theorem stops_nil : Stops [] := fun _ none => nomatch none

theorem stops_dropWhile (cs : List Char) : Stops (cs.dropWhile isRunChar) := by
  intro c head
  have stopped := List.head?_dropWhile_not isRunChar cs
  rw [Option.mem_def.mp head] at stopped
  exact stopped

theorem Stops.of_append {rest more : List Char} (h : Stops (rest ++ more)) : Stops rest := by
  cases rest with
  | nil => exact stops_nil
  | cons c rest => exact h

theorem Stops.append {rest more : List Char} (h : Stops rest) (hm : Stops more) : Stops (rest ++ more) := by
  cases rest with
  | nil => exact hm
  | cons c rest => exact h

theorem Runs.stops {later rest : List Char} (h : Runs later) (stops : Stops rest) : Stops (later ++ rest) := by
  cases h with
  | nil => exact stops
  | cons => exact fun c head => Option.some.inj head ▸ rfl

namespace Ends

theorem nil : Ends [] := ⟨stops_nil, fun _ other => nomatch other⟩

theorem blank {c : Char} (h : isBlank c = true) (rest : List Char) : Ends (c :: rest) := by
  refine ⟨fun d head => Option.some.inj head ▸ isRunChar_of_isBlank h, fun tail same => ?_⟩
  obtain ⟨rfl, -⟩ := List.cons.inj same
  cases h

theorem of_append {rest more : List Char} (h : Ends (rest ++ more)) : Ends rest := by
  refine ⟨h.run.of_append, fun tail same => ?_⟩
  subst same
  exact (h.further (tail ++ more) rfl).of_append

theorem append {rest more : List Char} (h : Ends rest) (hm : Ends more) : Ends (rest ++ more) := by
  cases rest with
  | nil => exact hm
  | cons c tail =>
    refine ⟨h.run.append hm.run, fun tail' same => ?_⟩
    obtain ⟨rfl, rfl⟩ := List.cons.inj same
    exact (h.further tail rfl).append hm.run

end Ends

/-! ## §2 — reading a body -/

section Reading

variable {run rest : List Char}

theorem takeWhile_of_stops (inside : ∀ c ∈ run, isRunChar c = true) (stops : Stops rest) :
    (run ++ rest).takeWhile isRunChar = run := by
  rw [List.takeWhile_append_of_pos inside]
  cases rest with
  | nil => exact List.append_nil run
  | cons c rest =>
    rw [List.takeWhile_cons_of_neg (by simp [stops c rfl]), List.append_nil]

theorem dropWhile_of_stops (inside : ∀ c ∈ run, isRunChar c = true) (stops : Stops rest) :
    (run ++ rest).dropWhile isRunChar = rest := by
  rw [List.dropWhile_append_of_pos inside]
  cases rest with
  | nil => rfl
  | cons c rest => exact List.dropWhile_cons_of_neg (by simp [stops c rfl])

end Reading

theorem furtherRuns_cons {run rest : List Char} (some : run ≠ []) (inside : ∀ c ∈ run, isRunChar c = true)
    (stops : Stops rest) :
    furtherRuns (';' :: (run ++ rest)) = (';' :: (run ++ (furtherRuns rest).1), (furtherRuns rest).2) := by
  have take := takeWhile_of_stops inside stops
  have drop := dropWhile_of_stops inside stops
  rw [furtherRuns.eq_def]
  dsimp only
  rw [if_pos ⟨rfl, by rwa [take]⟩]
  simp only [take, drop, List.cons_append]

theorem furtherRuns_of_ends {rest : List Char} (ends : Ends rest) : furtherRuns rest = ([], rest) := by
  cases rest with
  | nil =>
    unfold furtherRuns
    rfl
  | cons c tail =>
    unfold furtherRuns
    refine if_neg fun more => more.2 ?_
    exact takeWhile_of_stops (List.forall_mem_nil _) (ends.further tail (congrArg (· :: tail) more.1))

/-- **Further runs are read as far as they go.** -/
theorem furtherRuns_eq {later rest : List Char} (h : Runs later) (ends : Ends rest) :
    furtherRuns (later ++ rest) = (later, rest) := by
  induction h with
  | nil => exact furtherRuns_of_ends ends
  | cons some inside runs ih =>
    rw [List.cons_append, List.append_assoc, furtherRuns_cons some inside (runs.stops ends.run), ih]

theorem furtherRuns_spec {cs : List Char} (h : Stops cs) :
    Runs (furtherRuns cs).1 ∧ Ends (furtherRuns cs).2 := by
  fun_induction furtherRuns cs with
  | case1 => exact ⟨.nil, .nil⟩
  | case2 c cs first _ later ih =>
    obtain ⟨runs, ends⟩ := ih (stops_dropWhile cs)
    obtain ⟨rfl, some⟩ := first
    exact ⟨.cons some (fun _ mem => List.mem_takeWhile_imp mem) runs, ends⟩
  | case3 c cs other =>
    refine ⟨.nil, h, fun tail same d head => ?_⟩
    obtain ⟨rfl, rfl⟩ := List.cons.inj same
    cases cs with
    | nil => cases head
    | cons e cs =>
      obtain rfl := Option.some.inj head
      by_contra run
      refine other ⟨rfl, ?_⟩
      rw [List.takeWhile_cons_of_pos (by simpa using run)]
      exact List.cons_ne_nil _ _

theorem lead?_eq {lead : List Char} (h : lead = ['.', '/'] ∨ lead = ['.', '.', '/']) (rest : List Char) :
    lead? (lead ++ rest) = some (lead, rest) := by
  rcases h with rfl | rfl <;> rfl

theorem lead_of_lead? {cs lead rest : List Char} (h : lead? cs = some (lead, rest)) :
    lead = ['.', '/'] ∨ lead = ['.', '.', '/'] := by
  unfold lead? at h
  split at h
  · exact .inr (Prod.mk.inj (Option.some.inj h)).1.symm
  · exact .inl (Prod.mk.inj (Option.some.inj h)).1.symm
  · cases h

/-- **A body is read off a text** just when the text starts with it and it cannot go on. -/
theorem body?_eq_some_iff {cs body rest : List Char} :
    body? cs = some (body, rest) ↔ cs = body ++ rest ∧ Body body ∧ Ends rest := by
  constructor
  · intro h
    refine ⟨eq_of_body? h, ?_⟩
    unfold body? at h
    split at h
    · cases h
    · rename_i lead after leads
      split at h
      · cases h
      · rename_i some
        obtain ⟨rfl, rfl⟩ := Prod.mk.inj (Option.some.inj h)
        obtain ⟨runs, ends⟩ := furtherRuns_spec (stops_dropWhile after)
        rw [List.append_assoc]
        exact ⟨.mk (lead_of_lead? leads) some (fun _ mem => List.mem_takeWhile_imp mem) runs, ends⟩
  · rintro ⟨rfl, ⟨leads, some, inside, runs⟩, ends⟩
    rename_i lead run later
    have stops := runs.stops ends.run
    have take := takeWhile_of_stops inside stops
    have drop := dropWhile_of_stops inside stops
    unfold body?
    rw [List.append_assoc, List.append_assoc, lead?_eq leads]
    dsimp only
    rw [take, drop, if_neg some, furtherRuns_eq runs ends, List.append_assoc]

/-! ## §3 — bodies in a longer and in a shorter text -/

theorem Runs.not_isBlank {later : List Char} (h : Runs later) {c : Char} (mem : c ∈ later) : isBlank c = false := by
  induction h with
  | nil => cases mem
  | cons _ inside _ ih =>
    rcases List.mem_cons.mp mem with rfl | mem
    · rfl
    · rcases List.mem_append.mp mem with here | later
      · exact not_isBlank_of_isRunChar (inside c here)
      · exact ih later

theorem not_isBlank_of_lead {lead : List Char} (h : lead = ['.', '/'] ∨ lead = ['.', '.', '/']) {c : Char}
    (mem : c ∈ lead) : isBlank c = false := by
  have inside : ∀ d ∈ ['.', '.', '/'], isBlank d = false :=
    List.forall_mem_cons.mpr ⟨rfl, List.forall_mem_cons.mpr ⟨rfl, List.forall_mem_singleton.mpr rfl⟩⟩
  rcases h with rfl | rfl
  · exact inside c (List.mem_cons_of_mem _ mem)
  · exact inside c mem

/-- No blank stands in a body. -/
theorem Body.not_isBlank {body : List Char} (h : Body body) {c : Char} (mem : c ∈ body) : isBlank c = false := by
  obtain ⟨leads, -, inside, runs⟩ := h
  rcases List.mem_append.mp mem with lead | mem
  · exact not_isBlank_of_lead leads lead
  · rcases List.mem_append.mp mem with here | later
    · exact not_isBlank_of_isRunChar (inside c here)
    · exact runs.not_isBlank later

section Cutting

variable {cs body rest : List Char}

/-- Where a text starts with a body, one is read. -/
theorem Body.body?_ne_none (h : Body body) (rest : List Char) : body? (body ++ rest) ≠ none := by
  obtain ⟨leads, some, inside, -⟩ := h
  unfold body?
  rw [List.append_assoc, List.append_assoc, lead?_eq leads]
  dsimp only
  rw [List.takeWhile_append_of_pos inside, if_neg (by simp [some])]
  exact Option.some_ne_none _

theorem body?_none_of_append {more : List Char} (h : body? (cs ++ more) = none) : body? cs = none := by
  cases found : body? cs with
  | none => rfl
  | some read =>
    obtain ⟨body, rest⟩ := read
    obtain ⟨rfl, form, -⟩ := body?_eq_some_iff.mp found
    rw [List.append_assoc] at h
    exact absurd h (form.body?_ne_none _)

/-- **What stands behind a blank** plays no part in reading a body. -/
theorem body?_append_blank {c : Char} (blank : isBlank c = true) (more : List Char) :
    body? (cs ++ c :: more) = (body? cs).map fun read => (read.1, read.2 ++ c :: more) := by
  cases found : body? cs with
  | some read =>
    obtain ⟨body, rest⟩ := read
    obtain ⟨rfl, form, ends⟩ := body?_eq_some_iff.mp found
    exact body?_eq_some_iff.mpr ⟨List.append_assoc _ _ _, form, ends.append (.blank blank more)⟩
  | none =>
    cases longer : body? (cs ++ c :: more) with
    | none => rfl
    | some read =>
      obtain ⟨body, rest⟩ := read
      obtain ⟨whole, form, ends⟩ := body?_eq_some_iff.mp longer
      -- a body that reaches the blank would hold it, and a shorter one would have been read before
      rcases List.append_eq_append_iff.mp whole with ⟨tail, rfl, split⟩ | ⟨tail, rfl, rfl⟩
      · cases tail with
        | nil =>
          rw [List.append_nil] at form
          have alone : body? cs = some (cs, []) :=
            body?_eq_some_iff.mpr ⟨(List.append_nil cs).symm, form, .nil⟩
          rw [alone] at found
          cases found
        | cons d tail =>
          obtain ⟨rfl, -⟩ := List.cons.inj split
          have inside : c ∈ cs ++ c :: tail := List.mem_append_right _ List.mem_cons_self
          rw [form.not_isBlank inside] at blank
          cases blank
      · have alone : body? (body ++ tail) = some (body, tail) :=
          body?_eq_some_iff.mpr ⟨rfl, form, ends.of_append⟩
        rw [alone] at found
        cases found

theorem body?_of_append {more : List Char} (h : body? (body ++ (rest ++ more)) = some (body, rest ++ more)) :
    body? (body ++ rest) = some (body, rest) := by
  obtain ⟨-, form, ends⟩ := body?_eq_some_iff.mp h
  exact body?_eq_some_iff.mpr ⟨rfl, form, ends.of_append⟩

end Cutting

/-! ## §4 — bodies cut short -/

/-- Further runs that are cut short, but not right after a `;`, are further runs. -/
theorem Runs.of_prefix {later own : List Char} (h : Runs later) (start : own <+: later) (last : ¬ [';'] <:+ own) :
    Runs own := by
  induction h generalizing own with
  | nil =>
    rw [List.prefix_nil] at start
    exact start ▸ .nil
  | @cons run later some inside runs ih =>
    cases own with
    | nil => exact .nil
    | cons c own =>
      obtain ⟨rfl, cut, whole⟩ := List.cons_prefix_cons.mp start
      have more : own ≠ [] := by
        rintro rfl
        exact last (List.suffix_refl _)
      -- the cut is in the first run or behind it
      rcases List.append_eq_append_iff.mp whole with ⟨tail, rfl, -⟩ | ⟨tail, rfl, rfl⟩
      · have here : Runs (';' :: (own ++ [])) := .cons more (fun c mem => inside c (List.mem_append_left _ mem)) .nil
        rw [List.append_nil] at here
        exact here
      · refine .cons some inside (ih (List.prefix_append _ _) fun short => last ?_)
        exact (short.trans (List.suffix_append run tail)).trans (List.suffix_cons _ _)

theorem isBare_lead {lead : List Char} (h : lead = ['.', '/'] ∨ lead = ['.', '.', '/']) : isBare lead = true := by
  rcases h with rfl | rfl <;> rfl

theorem isBare_append (as bs : List Char) : isBare (as ++ bs) = (isBare as && isBare bs) := List.all_append

/-- **A body that is cut short** behind its lead, but not right after a `;`, is a body. -/
theorem Body.of_prefix {body own : List Char} (h : Body body) (start : own <+: body) (named : isBare own = false)
    (last : ¬ [';'] <:+ own) : Body own := by
  obtain ⟨leads, some, inside, runs⟩ := h
  obtain ⟨cut, whole⟩ := start
  rcases List.append_eq_append_iff.mp whole with ⟨tail, rfl, -⟩ | ⟨tail, rfl, rest⟩
  · have bare := isBare_lead leads
    rw [isBare_append, named] at bare
    cases bare
  · rename_i lead run later
    have more : tail ≠ [] := by
      rintro rfl
      rw [List.append_nil, isBare_lead leads] at named
      cases named
    -- behind its lead a body is like a further run
    have further : Runs (';' :: (run ++ later)) := .cons some inside runs
    have short : Runs (';' :: tail) := by
      refine further.of_prefix (List.cons_prefix_cons.mpr ⟨rfl, cut, rest.symm⟩) fun ends => ?_
      rcases List.suffix_cons_iff.mp ends with same | ends
      · exact more (List.cons.inj same).2.symm
      · exact last (ends.trans (List.suffix_append lead tail))
    cases short with
    | cons some inside runs => exact .mk leads some inside runs

end Dialogue.Reference
