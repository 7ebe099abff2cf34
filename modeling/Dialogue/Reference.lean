import Dialogue.Text.Blank
import Dialogue.Text.Split
/-!
# `Dialogue.Reference` — finding `@./file` references in text.

A reference is an `@`, then `./` or `../`, then a run of characters that are neither blank nor `;`, then any
number of further runs that each start with `;`. The text `;type=` in it starts a media type, which ends at
the next `;`. ASCII punctuation at the end is not part of a reference: it goes back to the text around it.
What is left must name something: dots and slashes alone do not.
-/

namespace Dialogue

/-- **A reference found in text**, before any file is touched. -/
structure Reference where
  /-- The path as written, escapes included. -/
  path : List Char
  /-- The media type given by hand. -/
  override : Option (List Char)
  deriving DecidableEq, Repr

namespace Reference

/-- The text that introduces a media type. -/
def typeMark : List Char := [';', 't', 'y', 'p', 'e', '=']

/-- **The reference as it stands in the text.** -/
def raw (r : Reference) : List Char :=
  match r.override with
  | none => '@' :: r.path
  | some m => '@' :: r.path ++ typeMark ++ m

/-- May the character stand in a run? -/
def isRunChar (c : Char) : Bool :=
  !Text.isBlank c && c != ';'

/-- The printing ASCII characters that are neither letters nor digits. -/
def isPunctuation (c : Char) : Bool :=
  let n := c.toNat
  (0x21 ≤ n && n ≤ 0x2F) || (0x3A ≤ n && n ≤ 0x40) || (0x5B ≤ n && n ≤ 0x60) ||
    (0x7B ≤ n && n ≤ 0x7E)

/-- The text without the punctuation it ends with. -/
def dropPunctuation (cs : List Char) : List Char :=
  (cs.reverse.dropWhile isPunctuation).reverse

/-- Dots and slashes alone name no file. -/
def isBare (path : List Char) : Bool :=
  path.all fun c => c == '.' || c == '/'

/-- `../` or `./` at the start of the text, and what follows. -/
def lead? : List Char → Option (List Char × List Char)
  | '.' :: '.' :: '/' :: rest => some (['.', '.', '/'], rest)
  | '.' :: '/' :: rest => some (['.', '/'], rest)
  | _ => none

/-- The further runs, each with the `;` that starts it, and what follows them. -/
def furtherRuns : List Char → List Char × List Char
  | [] => ([], [])
  | c :: cs =>
    if c = ';' ∧ cs.takeWhile isRunChar ≠ [] then
      have : (cs.dropWhile isRunChar).length ≤ cs.length := (List.dropWhile_sublist _).length_le
      let later := furtherRuns (cs.dropWhile isRunChar)
      (c :: cs.takeWhile isRunChar ++ later.1, later.2)
    else ([], c :: cs)
termination_by cs => cs.length

/-- **The longest text after an `@` that may be a reference**, and what follows it. -/
def body? (cs : List Char) : Option (List Char × List Char) :=
  match lead? cs with
  | none => none
  | some (lead, rest) =>
    if rest.takeWhile isRunChar = [] then none
    else
      let later := furtherRuns (rest.dropWhile isRunChar)
      some (lead ++ rest.takeWhile isRunChar ++ later.1, later.2)

/-- **The reference in a body.** A media type that is nothing but punctuation does not count, and only a path
without a media type loses the punctuation at its end. -/
def ofBody (body : List Char) : Reference :=
  match Text.cutAt? typeMark body with
  | none => ⟨dropPunctuation body, none⟩
  | some (path, rest) =>
    match dropPunctuation (rest.takeWhile (· != ';')) with
    | [] => ⟨dropPunctuation path, none⟩
    | mediaType => ⟨path, some mediaType⟩

/-- **The first reference in a text**, with the text before and after it. -/
structure Found where
  /-- The text before the reference. -/
  before : List Char
  /-- The reference. -/
  reference : Reference
  /-- The text after it, the punctuation given back included. -/
  after : List Char
  deriving Repr

theorem eq_of_lead? {cs lead rest : List Char} (h : lead? cs = some (lead, rest)) :
    cs = lead ++ rest := by
  unfold lead? at h
  split at h <;> simp_all <;> (obtain ⟨rfl, rfl⟩ := h; rfl)

theorem furtherRuns_append (cs : List Char) :
    (furtherRuns cs).1 ++ (furtherRuns cs).2 = cs := by
  fun_induction furtherRuns cs with
  | case1 => rfl
  | case2 c cs h _ later ih =>
    simp only [later, List.append_assoc, List.cons_append, ih, List.takeWhile_append_dropWhile]
  | case3 => rfl

/-- **Nothing is lost:** a body and what follows it are the text. -/
theorem eq_of_body? {cs body rest : List Char} (h : body? cs = some (body, rest)) :
    cs = body ++ rest := by
  unfold body? at h
  split at h
  · simp at h
  · rename_i lead after hl
    split at h
    · simp at h
    · obtain ⟨rfl, rfl⟩ := Prod.mk.inj (Option.some.inj h)
      rw [eq_of_lead? hl]
      simp only [List.append_assoc, furtherRuns_append, List.takeWhile_append_dropWhile]

theorem length_of_body? {cs body rest : List Char} (h : body? cs = some (body, rest)) :
    rest.length ≤ cs.length := by
  simp [eq_of_body? h]

/-- **Find the first reference.** A bare one stays in the text and the search goes on behind it. -/
def find? : List Char → Option Found
  | [] => none
  | c :: cs =>
    if c = '@' then
      match h : body? cs with
      | none => (find? cs).map fun f => { f with before := c :: f.before }
      | some (body, rest) =>
        have := length_of_body? h
        if isBare (ofBody body).path then
          (find? rest).map fun f => { f with before := c :: body ++ f.before }
        else some ⟨[], ofBody body, (c :: cs).drop (ofBody body).raw.length⟩
    else (find? cs).map fun f => { f with before := c :: f.before }
termination_by cs => cs.length

theorem raw_length_pos (r : Reference) : 0 < r.raw.length := by
  unfold raw
  split <;> simp

/-- Every reference found uses up text. -/
theorem length_after_find? {cs : List Char} {f : Found}
    (h : find? cs = some f) : f.after.length < cs.length := by
  fun_induction find? cs generalizing f with
  | case1 => simp at h
  | case2 cs hb ih =>
    obtain ⟨g, hg, rfl⟩ := Option.map_eq_some_iff.1 h
    have := ih hg
    simp only [List.length_cons]
    omega
  | case3 cs body rest hb hle hbare ih =>
    obtain ⟨g, hg, rfl⟩ := Option.map_eq_some_iff.1 h
    have := ih hg
    simp only [List.length_cons]
    omega
  | case4 cs body rest hb hle hbare =>
    obtain rfl := Option.some.inj h
    have := raw_length_pos (ofBody body)
    simp only [List.length_drop, List.length_cons]
    omega
  | case5 c cs hc ih =>
    obtain ⟨g, hg, rfl⟩ := Option.map_eq_some_iff.1 h
    have := ih hg
    simp only [List.length_cons]
    omega

theorem dropPunctuation_isPrefix (cs : List Char) : dropPunctuation cs <+: cs := by
  unfold dropPunctuation
  rw [← List.reverse_suffix, List.reverse_reverse]
  exact List.dropWhile_suffix _

/-- **A reference is the start of its body**, with the `@` before it. -/
theorem raw_ofBody_isPrefix (body : List Char) : (ofBody body).raw <+: '@' :: body := by
  unfold ofBody
  split
  · exact List.cons_prefix_cons.mpr ⟨rfl, dropPunctuation_isPrefix body⟩
  · rename_i path rest cut
    have whole := Text.eq_of_cutAt? cut
    split
    · refine List.cons_prefix_cons.mpr ⟨rfl, (dropPunctuation_isPrefix path).trans ?_⟩
      rw [whole, List.append_assoc]
      exact List.prefix_append _ _
    · rename_i given
      have short : dropPunctuation (rest.takeWhile (· != ';')) <+: rest :=
        (dropPunctuation_isPrefix _).trans (List.takeWhile_prefix _)
      refine List.cons_prefix_cons.mpr ⟨rfl, ?_⟩
      rw [whole]
      exact (List.prefix_append_right_inj _).mpr short

/-- **Nothing is lost:** what stands before a reference, the reference, and what follows it are the text. -/
theorem eq_of_find? {cs : List Char} {f : Found} (h : find? cs = some f) :
    cs = f.before ++ f.reference.raw ++ f.after := by
  fun_induction find? cs generalizing f with
  | case1 => cases h
  | case2 cs hb ih =>
    obtain ⟨g, hg, rfl⟩ := Option.map_eq_some_iff.mp h
    exact congrArg ('@' :: ·) (ih hg)
  | case3 cs body rest hb hle hbare ih =>
    obtain ⟨g, hg, rfl⟩ := Option.map_eq_some_iff.mp h
    have whole := eq_of_body? hb
    have further := ih hg
    rw [whole]
    show '@' :: (body ++ rest) = '@' :: body ++ g.before ++ g.reference.raw ++ g.after
    rw [further]
    simp only [List.cons_append, List.append_assoc]
  | case4 cs body rest hb hle hbare =>
    obtain rfl := Option.some.inj h
    have start : (ofBody body).raw <+: '@' :: cs := by
      refine (raw_ofBody_isPrefix body).trans (List.cons_prefix_cons.mpr ⟨rfl, ?_⟩)
      rw [eq_of_body? hb]
      exact List.prefix_append _ _
    exact (List.prefix_iff_eq_append.mp start).symm
  | case5 c cs hc ih =>
    obtain ⟨g, hg, rfl⟩ := Option.map_eq_some_iff.mp h
    exact congrArg (c :: ·) (ih hg)

end Reference

end Dialogue
