import Dialogue.Proofs.Reference.Search
import Dialogue.Proofs.Text.Slice
import Dialogue.Reference.Span
/-!
# `Dialogue.Proofs.Reference.Span` — the span of a reference holds the reference.

The lengths that a search adds up are those of the parts of the reference, so each slice is there. Main statement: from a
place that cuts no character, a search passes over text that plays no part in it, gets further ahead with each pass, and
ends with the next reference in a span that holds it, if there is one.
-/

namespace Dialogue

open Text (IsBoundary from? slice? isBlank)
open Text.Utf8 (size)

namespace Reference

/-! ## §1 — the reference in a match -/

theorem splitPunctuation?_eq (cs : List Char) :
    ∃ dropped, splitPunctuation? cs = some (dropPunctuation cs, dropped) := by
  obtain ⟨dropped, whole⟩ := dropPunctuation_isPrefix cs
  refine ⟨dropped, ?_⟩
  have cut := Text.from?_append (dropPunctuation cs) dropped
  rw [whole] at cut
  rw [splitPunctuation?, cut]
  rfl

theorem splitMark?_none {body : List Char} (none : Text.cutAt? typeMark body = .none) :
    splitMark? body = some (body, .none) := by
  rw [splitMark?, none]
  rfl

theorem splitMark?_some {body path behind : List Char} (cut : Text.cutAt? typeMark body = some (path, behind)) :
    splitMark? body = some (path, some behind) := by
  have whole := Text.eq_of_cutAt? cut
  have first : slice? body 0 (size path) = some path := by
    have piece := Text.slice?_append [] path (typeMark ++ behind)
    rwa [List.nil_append, ← List.append_assoc, ← whole, show size [] = 0 from rfl, Nat.zero_add] at piece
  have last : from? body (size path + size typeMark) = some behind := by
    have piece := Text.from?_append (path ++ typeMark) behind
    rwa [← whole, Text.Utf8.size_append] at piece
  rw [splitMark?, cut]
  show (do return (← slice? body 0 (size path), some (← from? body (size path + size typeMark))) : Option _) = _
  rw [first, last]
  rfl

theorem givenType?_some (behind : List Char) :
    givenType? (some behind) = some (if dropPunctuation (behind.takeWhile (· != ';')) = [] then none
      else some (dropPunctuation (behind.takeWhile (· != ';')))) := by
  obtain ⟨dropped, split⟩ := splitPunctuation?_eq (behind.takeWhile (· != ';'))
  show (splitPunctuation? (behind.takeWhile (· != ';')) >>= fun x => some (if x.1 = [] then none else some x.1)) = _
  rw [split]
  rfl

/-- A match is an `@` and its body. -/
theorem Match.stop_eq (m : Match) : m.stop = m.start + size ('@' :: m.body) := by
  show m.start + size ['@'] + size m.body = m.start + size (['@'] ++ m.body)
  rw [Text.Utf8.size_append, Nat.add_assoc]

theorem Match.untyped?_eq (m : Match) (path : List Char) :
    m.untyped? path =
      some ⟨m.start, m.start + size (raw ⟨dropPunctuation path, none⟩), ⟨dropPunctuation path, none⟩⟩ := by
  obtain ⟨dropped, split⟩ := splitPunctuation?_eq path
  have stop : m.bodyStart + size (dropPunctuation path) = m.start + size ('@' :: dropPunctuation path) := by
    rw [Match.bodyStart, Nat.add_assoc, ← Text.Utf8.size_append]
    rfl
  rw [Match.untyped?, split]
  exact congrArg (fun stop => some (⟨m.start, stop, _⟩ : Span)) stop

theorem Match.typed_eq (m : Match) (path mediaType : List Char) :
    m.typed path mediaType = ⟨m.start, m.start + size (raw ⟨path, some mediaType⟩), ⟨path, some mediaType⟩⟩ := by
  have stop : m.bodyStart + size path + size typeMark + size mediaType =
      m.start + size (['@'] ++ path ++ typeMark ++ mediaType) := by
    simp only [Match.bodyStart, Text.Utf8.size_append]
    omega
  exact congrArg (fun stop => (⟨m.start, stop, _⟩ : Span)) stop

/-- **A match is located where its reference ends:** the lengths that are added up are those of the parts of the
reference. -/
theorem Match.locate?_eq (m : Match) :
    m.locate? = some ⟨m.start, m.start + size (ofBody m.body).raw, ofBody m.body⟩ := by
  cases cut : Text.cutAt? typeMark m.body with
  | none =>
    rw [Match.locate?, splitMark?_none cut, ofBody_of_no_mark (Text.cutAt?_eq_none_iff.mp cut)]
    exact m.untyped?_eq m.body
  | some pieces =>
    obtain ⟨path, behind⟩ := pieces
    rw [Match.locate?, splitMark?_some cut, ofBody_of_cut cut]
    simp only [Option.bind_eq_bind, Option.bind_some, givenType?_some]
    by_cases bare : dropPunctuation (behind.takeWhile (· != ';')) = []
    · rw [if_pos bare, if_pos bare]
      exact m.untyped?_eq path
    · rw [if_neg bare, if_neg bare]
      exact congrArg some (m.typed_eq path _)

/-! ## §2 — one pass of a search -/

theorem map_behind_nil (found : Option Found) : found.map (·.behind []) = found := by
  cases found <;> rfl

theorem map_behind_map (found : Option Found) (first second : List Char) :
    (found.map (·.behind second)).map (·.behind first) = found.map (·.behind (first ++ second)) := by
  rw [Option.map_map]
  cases found with
  | none => rfl
  | some f => exact congrArg (fun text => some (⟨text, f.reference, f.after⟩ : Found)) (List.append_assoc _ _ _).symm

/-- Where no match begins, the search goes on with the next character. -/
theorem find?_cons_of_none {c : Char} {cs : List Char} (none : (if c = '@' then body? cs else none) = .none) :
    find? (c :: cs) = (find? cs).map (·.behind [c]) := by
  by_cases at' : c = '@'
  · obtain rfl := at'
    rw [if_pos rfl] at none
    exact find?_noBody none
  · exact find?_other at'

/-- Without a match there is no reference. -/
theorem find?_of_match?_none {offset : Nat} {cs : List Char} (h : match? offset cs = none) : find? cs = none := by
  fun_induction match? offset cs with
  | case1 => exact find?_nil
  | case2 => cases h
  | case3 offset c cs none ih =>
    rw [find?_cons_of_none none, ih h]
    rfl

/-- **The leftmost match** is a body behind an `@`, and the search for a reference comes to it. -/
theorem match?_spec {offset : Nat} {cs : List Char} {m : Match} (h : match? offset cs = some m) :
    ∃ before rest, cs = before ++ ('@' :: m.body ++ rest) ∧ m.start = offset + size before ∧
      body? (m.body ++ rest) = some (m.body, rest) ∧
      find? cs = (find? ('@' :: m.body ++ rest)).map (·.behind before) := by
  fun_induction match? offset cs with
  | case1 => cases h
  | case2 offset c cs body rest read =>
    obtain rfl := Option.some.inj h
    split at read
    · rename_i at'
      obtain rfl := at'
      obtain rfl := eq_of_body? read
      refine ⟨[], rest, rfl, rfl, read, ?_⟩
      exact (map_behind_nil _).symm
    · cases read
  | case3 offset c cs none ih =>
    obtain ⟨before, rest, whole, start, read, found⟩ := ih h
    refine ⟨c :: before, rest, congrArg (c :: ·) whole, ?_, read, ?_⟩
    · rw [start, Text.Utf8.size_cons, Nat.add_assoc]
    · rw [find?_cons_of_none none, found]
      exact map_behind_map _ [c] before

/-- **What a reference looks like in the text:** no blank is in it, and its last character is no punctuation. -/
theorem form_of_find? {cs : List Char} {f : Found} (h : find? cs = some f) :
    (∀ c ∈ f.reference.raw, isBlank c = false) ∧ ∀ c ∈ f.reference.raw.getLast?, isPunctuation c = false := by
  obtain ⟨body, form, same, named⟩ := body_of_find? h
  rw [same] at named ⊢
  have stripped (front : List Char) {cs : List Char} (some : dropPunctuation cs ≠ []) :
      ∀ c ∈ (front ++ dropPunctuation cs).getLast?, isPunctuation c = false := by
    intro c last
    rw [List.getLast?_append_of_ne_nil _ some, List.getLast?_eq_some_getLast some] at last
    obtain rfl := Option.some.inj last
    exact Bool.eq_false_iff.mpr (List.rdropWhile_last_not isPunctuation cs some)
  constructor
  · intro c mem
    rcases List.mem_cons.mp ((raw_ofBody_isPrefix body).mem mem) with rfl | inside
    · decide
    · exact form.not_isBlank inside
  · rcases ofBody_cases body with ⟨path, made, -, -⟩ | ⟨path, mediaType, made, -, -, some, -, kept⟩
    · rw [made] at named ⊢
      have some : dropPunctuation path ≠ [] := by
        intro none
        rw [none] at named
        cases named
      exact stripped ['@'] some
    · rw [made]
      rw [← kept] at some
      have last := stripped ('@' :: path ++ typeMark) some
      rwa [kept] at last

/-- **A span that holds its reference:** it lies behind the cursor, in the leftmost match, and cuts no character; and
between its offsets there are just the `@`, the path, and the media type with its mark, if there is one. -/
structure Span.Holds (text : List Char) (cursor : Nat) (span : Span) : Prop where
  ahead : cursor ≤ span.start
  wide : span.start < span.stop
  matched : ∃ rest m, from? text cursor = some rest ∧ match? cursor rest = some m ∧ span.start = m.start ∧
    span.stop ≤ m.stop ∧ m.stop ≤ size text
  start : IsBoundary text span.start
  stop : IsBoundary text span.stop
  slice : slice? text span.start span.stop = some span.reference.raw
  unbroken : ∀ c ∈ span.reference.raw, isBlank c = false
  last : ∀ c ∈ span.reference.raw.getLast?, isPunctuation c = false

/-- The span of a reference that was found behind some text. -/
def Found.span (f : Found) (front : List Char) : Span :=
  ⟨size (front ++ f.before), size (front ++ f.before) + size f.reference.raw, f.reference⟩

theorem pass?_none {front cs : List Char} (none : match? (size front) cs = none) :
    pass? (front ++ cs) (size front) = some .nothing := by
  rw [pass?, Text.from?_append]
  simp only [Option.bind_eq_bind, Option.bind_some, none]
  rfl

theorem pass?_some {front cs : List Char} {m : Match} (found : match? (size front) cs = some m) :
    pass? (front ++ cs) (size front) = some (if isBare (ofBody m.body).path then .skip m.stop
      else .found ⟨m.start, m.start + size (ofBody m.body).raw, ofBody m.body⟩) := by
  rw [pass?, Text.from?_append]
  simp only [Option.bind_eq_bind, Option.bind_some, found, Match.locate?_eq]
  rfl

/-- **The span of a reference that was found** in the leftmost match holds it. -/
theorem holds_of_match? {front cs : List Char} {m : Match} {f : Found} (matched : match? (size front) cs = some m)
    (start : m.start = size front + size f.before) (found : find? cs = some f)
    (here : f.reference = ofBody m.body) : (f.span front).Holds (front ++ cs) (size front) := by
  obtain ⟨before, rest, split, at', -, -⟩ := match?_spec matched
  have whole := eq_of_find? found
  obtain ⟨unbroken, last⟩ := form_of_find? found
  have stop : size (front ++ f.before) + size f.reference.raw = size (front ++ f.before ++ f.reference.raw) :=
    (Text.Utf8.size_append _ _).symm
  have text : front ++ cs = front ++ f.before ++ f.reference.raw ++ f.after := by
    rw [whole]
    simp only [List.append_assoc]
  refine ⟨?_, ?_, ⟨cs, m, Text.from?_append front cs, matched, ?_, ?_, ?_⟩, ?_, ?_, ?_, unbroken, last⟩
  · show size front ≤ size (front ++ f.before)
    rw [Text.Utf8.size_append]
    exact Nat.le_add_right _ _
  · show size (front ++ f.before) < size (front ++ f.before) + size f.reference.raw
    have some := Text.size_pos (List.length_pos_iff.mp (raw_length_pos f.reference))
    omega
  · show size (front ++ f.before) = m.start
    rw [start, Text.Utf8.size_append]
  · -- what is stripped off the body is all that the reference falls short of the match
    obtain ⟨dropped, body⟩ := raw_ofBody_isPrefix m.body
    have short := congrArg size body
    rw [← here, Text.Utf8.size_append] at short
    show size (front ++ f.before) + size f.reference.raw ≤ m.stop
    rw [m.stop_eq, start, Text.Utf8.size_append]
    omega
  · rw [m.stop_eq, split, at', Text.Utf8.size_append, Text.Utf8.size_append, Text.Utf8.size_append]
    omega
  · rw [text, List.append_assoc]
    exact Text.isBoundary_append _ _
  · show IsBoundary (front ++ cs) (size (front ++ f.before) + size f.reference.raw)
    rw [text, stop]
    exact Text.isBoundary_append _ _
  · rw [text]
    exact Text.slice?_append _ _ _

/-- **One pass of a search** from a place that cuts no character: it finds that there is no reference; or it goes on
behind text that plays no part in the search; or it has found the next reference, in a span that holds it. -/
theorem pass?_cases (front cs : List Char) :
    (pass? (front ++ cs) (size front) = some .nothing ∧ find? cs = none) ∨
    (∃ skipped rest, cs = skipped ++ rest ∧ skipped ≠ [] ∧
      pass? (front ++ cs) (size front) = some (.skip (size (front ++ skipped))) ∧
      find? cs = (find? rest).map (·.behind skipped)) ∨
    ∃ f, find? cs = some f ∧ pass? (front ++ cs) (size front) = some (.found (f.span front)) ∧
      (f.span front).Holds (front ++ cs) (size front) := by
  cases matched : match? (size front) cs with
  | none => exact .inl ⟨pass?_none matched, find?_of_match?_none matched⟩
  | some m =>
    obtain ⟨before, rest, whole, start, read, found⟩ := match?_spec matched
    have pass := pass?_some matched
    cases bare : isBare (ofBody m.body).path with
    | true =>
      refine .inr (.inl ⟨before ++ '@' :: m.body, rest, ?_, ?_, ?_, ?_⟩)
      · rw [whole, List.append_assoc]
      · exact List.append_ne_nil_of_right_ne_nil _ (List.cons_ne_nil _ _)
      · have stop : m.stop = size (front ++ (before ++ '@' :: m.body)) := by
          rw [m.stop_eq, start, Text.Utf8.size_append, Text.Utf8.size_append, Nat.add_assoc]
        rw [pass, if_pos bare, stop]
      · rw [found]
        show (find? ('@' :: (m.body ++ rest))).map (·.behind before) = _
        rw [find?_bare read bare]
        exact map_behind_map _ before ('@' :: m.body)
    | false =>
      have here : find? cs =
          some ⟨before, ofBody m.body, ('@' :: (m.body ++ rest)).drop (ofBody m.body).raw.length⟩ := by
        rw [found]
        show (find? ('@' :: (m.body ++ rest))).map (·.behind before) = _
        rw [find?_named read bare]
        show some (Found.mk (before ++ []) _ _) = _
        rw [List.append_nil]
      refine .inr (.inr ⟨_, here, ?_, holds_of_match? matched start here rfl⟩)
      rw [pass, if_neg (by rw [bare]; exact Bool.false_ne_true)]
      show some (Pass.found ⟨m.start, m.start + _, _⟩) =
        some (.found ⟨size (front ++ before), size (front ++ before) + _, _⟩)
      rw [start, Text.Utf8.size_append]

/-! ## §3 — a whole search -/

theorem next?_end (text : List Char) : next? text (size text) = some (none, size text) := by
  rw [next?, if_neg (Nat.lt_irrefl _)]

section Search

variable {text : List Char} {cursor : Nat}

theorem next?_nothing (inside : cursor < size text) (pass : pass? text cursor = some .nothing) :
    next? text cursor = some (none, cursor) := by
  rw [next?, if_pos inside]
  split <;> simp_all

theorem next?_found {span : Span} (inside : cursor < size text) (pass : pass? text cursor = some (.found span)) :
    next? text cursor = some (some span, cursor) := by
  rw [next?, if_pos inside]
  split <;> simp_all

theorem next?_skip {next : Nat} (inside : cursor < size text) (pass : pass? text cursor = some (.skip next)) :
    next? text cursor = next? text next := by
  rw [next?, if_pos inside]
  split <;> simp_all

end Search

/-- **A search** passes over text that plays no part in it, and ends where the next reference is found from, if there is
one. -/
theorem next?_spec (front cs : List Char) :
    ∃ skipped rest, cs = skipped ++ rest ∧ find? cs = (find? rest).map (·.behind skipped) ∧
      next? (front ++ cs) (size front) =
        some ((find? rest).map (·.span (front ++ skipped)), size (front ++ skipped)) ∧
      ∀ f ∈ find? rest, (f.span (front ++ skipped)).Holds (front ++ cs) (size (front ++ skipped)) := by
  -- on the length of the text that is left, since a pass that goes on has passed over some of it
  induction hn : cs.length using Nat.strongRecOn generalizing front cs with
  | ind n ih =>
    by_cases empty : cs = []
    · obtain rfl := empty
      refine ⟨[], [], rfl, (map_behind_nil _).symm, ?_, fun f found => ?_⟩
      · rw [List.append_nil, next?_end, find?_nil]
        rfl
      · rw [find?_nil] at found
        cases found
    · have inside : size front < size (front ++ cs) := by
        have some := Text.size_pos empty
        rw [Text.Utf8.size_append]
        omega
      rcases pass?_cases front cs with ⟨pass, none⟩ | ⟨skipped, rest, rfl, some, pass, same⟩ | ⟨f, found, pass, holds⟩
      · refine ⟨[], cs, rfl, (map_behind_nil _).symm, ?_, fun f found => ?_⟩
        · rw [next?_nothing inside pass, none, List.append_nil]
          rfl
        · rw [none] at found
          cases found
      · have shorter : rest.length < n := by
          have some := List.length_pos_iff.mpr some
          rw [← hn, List.length_append]
          omega
        obtain ⟨further, rest, rfl, later, search, holds⟩ := ih rest.length shorter (front ++ skipped) rest rfl
        rw [List.append_assoc front skipped (further ++ rest)] at search holds
        rw [List.append_assoc front skipped further] at search holds
        refine ⟨skipped ++ further, rest, (List.append_assoc _ _ _).symm, ?_, ?_, holds⟩
        · rw [same, later]
          exact map_behind_map _ skipped further
        · rw [next?_skip inside pass, search]
      · refine ⟨[], cs, rfl, (map_behind_nil _).symm, ?_, fun g found' => ?_⟩
        · rw [next?_found inside pass, found, List.append_nil]
          rfl
        · obtain rfl : f = g := Option.some.inj (found.symm.trans found')
          rw [List.append_nil]
          exact holds

end Reference

end Dialogue
