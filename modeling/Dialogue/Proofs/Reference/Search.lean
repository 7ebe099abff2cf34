import Dialogue.Proofs.Reference.Body
import Dialogue.Proofs.Text.Split
import Mathlib.Data.List.DropRight
/-!
# `Dialogue.Proofs.Reference.Search` — what a search for references sees.

A search keeps nothing from one word to the next: a blank cuts a text into two texts that are searched independently.
Nor does a reference depend on where it stands: the text before it holds none when it stands alone, and its own text,
alone, is the same reference again.
-/

namespace Dialogue.Reference

open Text (isBlank)

/-! ## §1 — finding the first reference -/

namespace Found

/-- The same reference, found in a text that goes on. -/
def followedBy (f : Found) (more : List Char) : Found := { f with after := f.after ++ more }

/-- The same reference, found behind some text. -/
def behind (f : Found) (text : List Char) : Found := { f with before := text ++ f.before }

end Found

section Finding

variable {cs body rest : List Char}

theorem find?_nil : find? [] = none := by
  unfold find?
  rfl

theorem find?_other {c : Char} (other : c ≠ '@') : find? (c :: cs) = (find? cs).map (·.behind [c]) := by
  rw [find?.eq_def]
  dsimp only
  rw [if_neg other]
  rfl

theorem find?_noBody (none : body? cs = none) : find? ('@' :: cs) = (find? cs).map (·.behind ['@']) := by
  rw [find?.eq_def]
  dsimp only
  rw [if_pos rfl]
  split
  · rfl
  · rename_i some
    rw [some] at none
    cases none

theorem find?_bare (read : body? cs = some (body, rest)) (bare : isBare (ofBody body).path = true) :
    find? ('@' :: cs) = (find? rest).map (·.behind ('@' :: body)) := by
  rw [find?.eq_def]
  dsimp only
  rw [if_pos rfl]
  split
  · rename_i none
    rw [none] at read
    cases read
  · rename_i some
    rw [some] at read
    obtain ⟨rfl, rfl⟩ := Prod.mk.inj (Option.some.inj read)
    rw [if_pos bare]
    rfl

theorem find?_named (read : body? cs = some (body, rest)) (named : isBare (ofBody body).path = false) :
    find? ('@' :: cs) = some ⟨[], ofBody body, ('@' :: cs).drop (ofBody body).raw.length⟩ := by
  rw [find?.eq_def]
  dsimp only
  rw [if_pos rfl]
  split
  · rename_i none
    rw [none] at read
    cases read
  · rename_i some
    rw [some] at read
    obtain ⟨rfl, rfl⟩ := Prod.mk.inj (Option.some.inj read)
    rw [if_neg (by simp [named])]

/-- **A blank cuts the search:** the first reference is in the text before it or else in the text after it. -/
theorem find?_append_blank {c : Char} (blank : isBlank c = true) (cs more : List Char) :
    find? (cs ++ c :: more) =
      ((find? cs).map (·.followedBy (c :: more))).or ((find? (c :: more)).map (·.behind cs)) := by
  fun_induction find? cs with
  | case1 =>
    rw [List.nil_append]
    cases find? (c :: more) <;> rfl
  | case2 cs none ih =>
    have still : body? (cs ++ c :: more) = .none := by
      rw [body?_append_blank blank, none]
      rfl
    rw [List.cons_append, find?_noBody still, ih]
    cases find? cs <;> cases find? (c :: more) <;> rfl
  | case3 cs body rest read _ bare ih =>
    have still : body? (cs ++ c :: more) = some (body, rest ++ c :: more) := by
      rw [body?_append_blank blank, read]
      rfl
    obtain rfl := eq_of_body? read
    rw [List.cons_append, find?_bare still bare, ih]
    cases find? rest <;> cases find? (c :: more) <;>
      simp [Found.behind, Found.followedBy]
  | case4 cs body rest read _ named =>
    have still : body? (cs ++ c :: more) = some (body, rest ++ c :: more) := by
      rw [body?_append_blank blank, read]
      rfl
    have whole : (ofBody body).raw.length ≤ ('@' :: cs).length := by
      refine ((raw_ofBody_isPrefix body).trans ?_).length_le
      rw [eq_of_body? read]
      exact List.cons_prefix_cons.mpr ⟨rfl, List.prefix_append _ _⟩
    rw [List.cons_append, find?_named still (by simpa using named), ← List.cons_append,
      List.drop_append_of_le_length whole]
    rfl
  | case5 d cs other ih =>
    rw [List.cons_append, find?_other other, ih]
    cases find? cs <;> cases find? (c :: more) <;> rfl

/-- **The text before a reference** holds none, also when it stands alone. -/
theorem find?_before {cs : List Char} {f : Found} (h : find? cs = some f) : find? f.before = none := by
  fun_induction find? cs generalizing f with
  | case1 => cases h
  | case2 cs none ih =>
    obtain ⟨g, found, rfl⟩ := Option.map_eq_some_iff.mp h
    rw [eq_of_find? found, List.append_assoc] at none
    rw [find?_noBody (body?_none_of_append none), ih found]
    rfl
  | case3 cs body rest read _ bare ih =>
    obtain ⟨g, found, rfl⟩ := Option.map_eq_some_iff.mp h
    -- the bare body still ends where it did, as it is cut off behind its end
    have short : body? (body ++ g.before) = some (body, g.before) := by
      have whole := read
      rw [eq_of_body? read, eq_of_find? found, List.append_assoc] at whole
      exact body?_of_append whole
    show find? ('@' :: (body ++ g.before)) = none
    rw [find?_bare short bare, ih found]
    rfl
  | case4 =>
    obtain rfl := Option.some.inj h
    exact find?_nil
  | case5 c cs other ih =>
    obtain ⟨g, found, rfl⟩ := Option.map_eq_some_iff.mp h
    show find? (c :: g.before) = none
    rw [find?_other other, ih found]
    rfl

/-- **A reference that was found** comes from a body and names something. -/
theorem body_of_find? {cs : List Char} {f : Found} (h : find? cs = some f) :
    ∃ body, Body body ∧ f.reference = ofBody body ∧ isBare f.reference.path = false := by
  fun_induction find? cs generalizing f with
  | case1 => cases h
  | case4 cs body rest read _ named =>
    obtain rfl := Option.some.inj h
    exact ⟨body, (body?_eq_some_iff.mp read).2.1, rfl, by simpa using named⟩
  | case2 cs none ih | case3 cs body rest read _ bare ih | case5 c cs other ih =>
    obtain ⟨g, found, rfl⟩ := Option.map_eq_some_iff.mp h
    exact @ih g found

end Finding

/-! ## §2 — all references -/

/-- **The references of a text**, in order. -/
def inText (cs : List Char) : List Reference :=
  match h : find? cs with
  | none => []
  | some found =>
    have := length_after_find? h
    found.reference :: inText found.after
termination_by cs.length

theorem inText_none {cs : List Char} (h : find? cs = none) : inText cs = [] := by
  unfold inText
  split
  · rfl
  · rename_i found
    rw [found] at h
    cases h

theorem inText_some {cs : List Char} {f : Found} (h : find? cs = some f) :
    inText cs = f.reference :: inText f.after := by
  rw [inText.eq_def]
  split
  · rename_i none
    rw [none] at h
    cases h
  · rename_i g found
    obtain rfl : g = f := Option.some.inj (found.symm.trans h)
    rfl

/-- What stands before the place where a search goes on does not matter. -/
theorem inText_behind {cs rest text : List Char} (h : find? cs = (find? rest).map (·.behind text)) :
    inText cs = inText rest := by
  cases found : find? rest with
  | none =>
    rw [found] at h
    rw [inText_none h, inText_none found]
  | some f =>
    rw [found] at h
    rw [inText_some h, inText_some found]
    rfl

theorem ne_at_of_isBlank {c : Char} (blank : isBlank c = true) : c ≠ '@' := by
  rintro rfl
  cases blank

/-- **A blank cuts a text** into two texts with references of their own. -/
theorem inText_append_blank {c : Char} (blank : isBlank c = true) (cs more : List Char) :
    inText (cs ++ c :: more) = inText cs ++ inText more := by
  -- on the length of the text, since what comes after a reference is shorter
  induction hn : cs.length using Nat.strongRecOn generalizing cs with
  | ind n ih =>
    have apart := find?_append_blank blank cs more
    cases found : find? cs with
    | none =>
      rw [found, Option.map_none, Option.none_or] at apart
      rw [inText_behind apart, inText_none found, inText_behind (find?_other (ne_at_of_isBlank blank))]
      rfl
    | some f =>
      rw [found, Option.map_some, Option.some_or] at apart
      have shorter := length_after_find? found
      have later := ih f.after.length (hn ▸ shorter) f.after rfl
      rw [inText_some apart, inText_some found, List.cons_append, ← later]
      rfl

/-- **Blanks between two texts** do not matter, if there are any. -/
theorem inText_append_blanks {blanks : List Char} (some : blanks ≠ []) (blank : ∀ c ∈ blanks, isBlank c = true)
    (cs more : List Char) : inText (cs ++ blanks ++ more) = inText cs ++ inText more := by
  induction blanks generalizing cs with
  | nil => exact absurd rfl some
  | cons c blanks ih =>
    have here := blank c List.mem_cons_self
    rw [List.append_assoc, List.cons_append, inText_append_blank here]
    cases blanks with
    | nil => rfl
    | cons d blanks =>
      have later := ih (List.cons_ne_nil _ _) (fun e mem => blank e (List.mem_cons_of_mem _ mem)) []
      rw [List.nil_append, inText_none find?_nil, List.nil_append] at later
      rw [later]

/-! ## §3 — a reference on its own -/

theorem dropPunctuation_dropPunctuation (cs : List Char) :
    dropPunctuation (dropPunctuation cs) = dropPunctuation cs :=
  List.rdropWhile_idempotent isPunctuation cs

/-- What is left without punctuation does not end in a `;`. -/
theorem not_suffix_dropPunctuation (cs : List Char) : ¬ [';'] <:+ dropPunctuation cs := by
  rintro ⟨start, whole⟩
  have some : dropPunctuation cs ≠ [] := by
    rw [← whole]
    exact List.append_ne_nil_of_right_ne_nil _ (List.cons_ne_nil _ _)
  have last : (dropPunctuation cs).getLast some = ';' := by
    simp only [← whole, List.getLast_append_of_ne_nil, List.getLast_singleton, ne_eq, List.cons_ne_nil,
      not_false_eq_true]
  have other := List.rdropWhile_last_not isPunctuation cs some
  exact other (congrArg isPunctuation last)

theorem ofBody_of_no_mark {body : List Char} (h : ¬ typeMark <:+: body) :
    ofBody body = ⟨dropPunctuation body, none⟩ := by
  unfold ofBody
  rw [Text.cutAt?_eq_none_iff.mpr h]

theorem ofBody_of_cut {body path rest : List Char} (cut : Text.cutAt? typeMark body = some (path, rest)) :
    ofBody body = if dropPunctuation (rest.takeWhile (· != ';')) = [] then ⟨dropPunctuation path, none⟩
      else ⟨path, some (dropPunctuation (rest.takeWhile (· != ';')))⟩ := by
  unfold ofBody
  rw [cut]
  dsimp only
  split
  · rename_i none
    rw [if_pos none]
  · rename_i some
    rw [if_neg some]

theorem typeMark_ne_nil : typeMark ≠ [] := List.cons_ne_nil _ _

/-- **The two kinds of references.** Without a media type, the path is the start of a body up to the mark of one, less
the punctuation at its end; with a media type, the mark stands behind the path and does not occur before. -/
theorem ofBody_cases (body : List Char) :
    (∃ path, ofBody body = ⟨dropPunctuation path, none⟩ ∧ path <+: body ∧ ¬ typeMark <:+: path) ∨
    ∃ path mediaType, ofBody body = ⟨path, some mediaType⟩ ∧ path ++ typeMark ++ mediaType <+: body ∧
      ¬ typeMark <:+: path ++ typeMark.dropLast ∧ mediaType ≠ [] ∧ ';' ∉ mediaType ∧
      dropPunctuation mediaType = mediaType := by
  cases cut : Text.cutAt? typeMark body with
  | none =>
    have absent := Text.cutAt?_eq_none_iff.mp cut
    exact .inl ⟨body, ofBody_of_no_mark absent, List.prefix_refl _, absent⟩
  | some pieces =>
    obtain ⟨path, rest⟩ := pieces
    obtain ⟨rfl, first⟩ := (Text.cutAt?_eq_some_iff typeMark_ne_nil).mp cut
    have made := ofBody_of_cut cut
    split at made
    · refine .inl ⟨path, made, ?_, fun inside => first (inside.trans (List.prefix_append _ _).isInfix)⟩
      rw [List.append_assoc]
      exact List.prefix_append _ _
    · rename_i some
      have short : dropPunctuation (rest.takeWhile (· != ';')) <+: rest.takeWhile (· != ';') :=
        dropPunctuation_isPrefix _
      refine .inr ⟨path, _, made, ?_, first, some, fun mem => ?_, dropPunctuation_dropPunctuation _⟩
      · exact (List.prefix_append_right_inj _).mpr (short.trans (List.takeWhile_prefix _))
      · have other := List.mem_takeWhile_imp (short.mem mem)
        exact absurd other (by decide)

/-- **A reference that is found again** when its text stands alone. -/
structure Alone (r : Reference) : Prop where
  read : body? r.raw.tail = some (r.raw.tail, [])
  reference : ofBody r.raw.tail = r
  named : isBare r.path = false

theorem alone_ofBody {body : List Char} (form : Body body) (named : isBare (ofBody body).path = false) :
    Alone (ofBody body) := by
  have whole {own : List Char} (h : Body own) : body? own = some (own, []) :=
    body?_eq_some_iff.mpr ⟨(List.append_nil own).symm, h, .nil⟩
  rcases ofBody_cases body with ⟨path, made, start, absent⟩ | ⟨path, mediaType, made, start, first, some, plain, kept⟩
  · rw [made] at named ⊢
    have short : dropPunctuation path <+: path := dropPunctuation_isPrefix path
    refine ⟨whole (form.of_prefix (short.trans start) named (not_suffix_dropPunctuation path)), ?_, named⟩
    refine (ofBody_of_no_mark fun inside => absent (inside.trans short.isInfix)).trans ?_
    exact congrArg (Reference.mk · none) (dropPunctuation_dropPunctuation path)
  · rw [made] at named ⊢
    have last : ¬ [';'] <:+ path ++ typeMark ++ mediaType := by
      intro ends
      have within := List.suffix_of_suffix_length_le ends (List.suffix_append _ mediaType)
        (List.length_pos_iff.mpr some)
      rw [← kept] at within
      exact not_suffix_dropPunctuation _ within
    have bare : isBare (path ++ typeMark ++ mediaType) = false := by
      rw [List.append_assoc, isBare_append, named]
      rfl
    refine ⟨whole (form.of_prefix start bare last), ?_, named⟩
    have cut : Text.cutAt? typeMark (path ++ typeMark ++ mediaType) = .some (path, mediaType) :=
      (Text.cutAt?_eq_some_iff typeMark_ne_nil).mpr ⟨rfl, first⟩
    have all : mediaType.takeWhile (· != ';') = mediaType := by
      rw [List.takeWhile_eq_self_iff]
      intro c mem
      exact bne_iff_ne.mpr fun same => plain (same ▸ mem)
    refine (ofBody_of_cut cut).trans ?_
    rw [all, kept, if_neg some]

/-- **A reference that was found** is found again on its own, and nothing else is. -/
theorem find?_raw {cs : List Char} {f : Found} (h : find? cs = some f) :
    find? f.reference.raw = some ⟨[], f.reference, []⟩ := by
  obtain ⟨body, form, same, named⟩ := body_of_find? h
  rw [same] at named ⊢
  have alone := alone_ofBody form named
  have whole : (ofBody body).raw = '@' :: (ofBody body).raw.tail := by
    unfold raw
    split <;> rfl
  have again : isBare (ofBody (ofBody body).raw.tail).path = false := by rw [alone.reference]; exact alone.named
  have found := find?_named alone.read again
  rw [alone.reference, ← whole, List.drop_length] at found
  exact found

end Dialogue.Reference
