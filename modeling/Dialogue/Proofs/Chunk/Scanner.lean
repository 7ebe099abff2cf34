import Dialogue.Chunk.Scanner
import Dialogue.Proofs.Chunk.Locality
import Dialogue.Proofs.Reference.Span
/-!
# `Dialogue.Proofs.Chunk.Scanner` — a scanner never breaks down, and gets ahead.

Wherever a scanner stands, its offsets cut the text into what was produced, what was passed over and what comes next,
and what was passed over plays no part in the search for the next reference. Main statement: each call of a scanner
returns, and hands out and asks what a reader without offsets does; in each state it comes to, its offsets lie in order
and cut no character, nothing behind them was handed out or loaded, each pass of a search either ends it or goes on
further ahead, and the spans of the references that it finds hold just these references.
-/

namespace Dialogue

open Text (IsBoundary slice?)
open Text.Utf8 (size)

namespace Chunk.Scanner

variable {files : FileAccess} {base : Option Path} {text : List Char} {s : Scanner}

/-! ## §1 — scanners and readers -/

theorem piece?_append (before piece after : List Char) :
    piece? (before ++ piece ++ after) (size before) (size (before ++ piece)) = some (textChunk piece) := by
  have cut := Text.slice?_append before piece after
  rw [← Text.Utf8.size_append] at cut
  rw [piece?, textChunk]
  by_cases empty : piece = []
  · obtain rfl := empty
    rw [List.append_nil, if_neg (Nat.lt_irrefl _), if_pos rfl]
  · have some := Text.size_pos empty
    rw [if_pos (by rw [Text.Utf8.size_append]; omega), if_neg empty, cut]
    rfl

/-- A span that holds its reference is loaded as the reference is. -/
theorem load?_of_holds {cursor : Nat} {span : Reference.Span} (holds : span.Holds text cursor) :
    load? files base text span = some (load files base span.reference) := by
  have raw : (load files base span.reference).value.raw = String.ofList span.reference.raw :=
    (load_settled files base span.reference).2
  rw [load?, holds.slice]
  show some (⟨{ (load files base span.reference).value with raw := String.ofList span.reference.raw },
    (load files base span.reference).accesses ++ []⟩ : Logged FileChunk) = _
  rw [← raw, List.append_nil]

/-- **A scanner that stands where a reader stands.** Before its text start lies what was produced, and between that and
its cursor there is text that plays no part in the search for the next reference. -/
structure Mirrors (text : List Char) (s : Scanner) (r : Reader) : Prop where
  pending : s.pending = r.pending
  finished : s.finished = r.finished
  stands : s.finished = false → s.failed = r.failed ∧ ∃ before passed after, text = before ++ (passed ++ after) ∧
    size before = s.textStart ∧ size (before ++ passed) = s.cursor ∧ r.rest = passed ++ after ∧
    Reference.find? r.rest = (Reference.find? after).map (·.behind passed)

theorem Mirrors.start (text : List Char) : Mirrors text {} ⟨text, [], [], false⟩ :=
  ⟨rfl, rfl, fun _ => ⟨rfl, [], [], text, rfl, rfl, rfl, rfl, (Reference.map_behind_nil _).symm⟩⟩

/-- **One turn** produces what stands up to the end of the next reference, and gets ahead; or, if there is none, all
that is left. -/
theorem Mirrors.turn_cases (files : FileAccess) (base : Option Path) {r : Reader} (h : Mirrors text s r)
    (idle : s.Idle) :
    (∃ f stop, Reference.find? r.rest = some f ∧ s.cursor < stop ∧
      let file := load files base f.reference
      let chunks := textChunk f.before ++ [.file file.value]
      let failed := r.failed ++ file.value.warning?.toList
      s.turn? files base text = some ⟨⟨stop, stop, chunks, failed, false⟩, file.accesses⟩ ∧
        Mirrors text ⟨stop, stop, chunks, failed, false⟩ ⟨f.after, chunks, failed, false⟩) ∨
    ∃ cursor, Reference.find? r.rest = none ∧ s.turn? files base text =
      some ⟨⟨size text, cursor, textChunk r.rest ++ warningChunk r.failed, [], true⟩, []⟩ := by
  obtain ⟨failed, before, passed, after, whole, start, cursor, rest, search⟩ := h.stands idle.2
  obtain ⟨skipped, further, split, later, next, holds⟩ := Reference.next?_spec (before ++ passed) after
  rw [List.append_assoc before, ← whole, cursor] at next
  rw [later, Reference.map_behind_map] at search
  cases found : Reference.find? further with
  | none =>
    rw [found] at next search
    refine .inr ⟨size (before ++ passed ++ skipped), search, ?_⟩
    have piece := piece?_append before (passed ++ after) []
    rw [List.append_nil, ← whole, start, ← rest] at piece
    rw [turn?, next]
    simp only [Option.bind_eq_bind, Option.bind_some, Option.map_none, piece]
    rw [idle.1, failed]
    rfl
  | some f =>
    rw [found] at next search
    have holds := holds f found
    rw [List.append_assoc before passed after, ← whole] at holds
    have text : text = before ++ (passed ++ skipped ++ f.before) ++ (f.reference.raw ++ f.after) := by
      rw [whole, split, Reference.eq_of_find? found]
      simp only [List.append_assoc]
    have place : before ++ passed ++ skipped ++ f.before = before ++ (passed ++ skipped ++ f.before) := by
      simp only [List.append_assoc]
    have piece := piece?_append before (passed ++ skipped ++ f.before) (f.reference.raw ++ f.after)
    rw [← text, start, ← place] at piece
    refine .inl ⟨f.behind (passed ++ skipped), (f.span (before ++ passed ++ skipped)).stop, search, ?_, ?_, ?_⟩
    · have ahead := holds.ahead
      have wide := holds.wide
      rw [Text.Utf8.size_append, cursor] at ahead
      omega
    · rw [turn?, next]
      simp only [Option.bind_eq_bind, Option.bind_some, Option.map_some, load?_of_holds holds]
      rw [show (f.span (before ++ passed ++ skipped)).start = size (before ++ passed ++ skipped ++ f.before) from rfl,
        piece, idle.1, failed]
      exact congrArg (fun asked => some (⟨_, asked⟩ : Logged Scanner)) (List.append_nil _)
    · refine ⟨rfl, rfl, fun _ => ⟨rfl, before ++ passed ++ skipped ++ f.before ++ f.reference.raw, [], f.after, ?_, ?_,
        ?_, rfl, (Reference.map_behind_nil _).symm⟩⟩
      · rw [text]
        simp only [List.append_assoc, List.nil_append]
      · exact Text.Utf8.size_append _ _
      · rw [List.append_nil]
        exact Text.Utf8.size_append _ _

/-- **A pass that goes on** leaves a scanner where the reader stands. -/
theorem Mirrors.skip {r : Reader} {next : Nat} (h : Mirrors text s r) (more : s.finished = false)
    (pass : Reference.pass? text s.cursor = some (.skip next)) : Mirrors text { s with cursor := next } r := by
  refine ⟨h.pending, h.finished, fun _ => ?_⟩
  obtain ⟨failed, before, passed, after, whole, start, cursor, rest, search⟩ := h.stands more
  have cases := Reference.pass?_cases (before ++ passed) after
  rw [List.append_assoc, ← whole, cursor, pass] at cases
  rcases cases with ⟨other, -⟩ | ⟨skipped, further, split, -, same, later⟩ | ⟨f, -, other, -⟩
  · cases other
  · obtain rfl := Reference.Pass.skip.inj (Option.some.inj same)
    refine ⟨failed, before, passed ++ skipped, further, ?_, start, ?_, ?_, ?_⟩
    · rw [whole, split, List.append_assoc passed]
    · rw [List.append_assoc]
    · rw [rest, split, List.append_assoc]
    · rw [search, later, Reference.map_behind_map]
  · cases other

/-- **One turn** leaves a scanner where the reader is left by producing more, and asks the same. -/
theorem Mirrors.turn (files : FileAccess) (base : Option Path) {r : Reader} (h : Mirrors text s r) (idle : s.Idle) :
    ∃ s', s.turn? files base text = some ⟨s', (r.fill files base).accesses⟩ ∧
      Mirrors text s' (r.fill files base).value ∧ (s'.finished = false → s.cursor < s'.cursor) := by
  rcases h.turn_cases files base idle with ⟨f, stop, found, ahead, turned, mirrors⟩ | ⟨cursor, none, turned⟩
  · have filled : r.fill files base = ⟨⟨f.after, textChunk f.before ++ [.file (load files base f.reference).value],
        r.failed ++ (load files base f.reference).value.warning?.toList, false⟩,
        (load files base f.reference).accesses⟩ := by
      rw [Reader.fill, found]
      exact congrArg (Logged.mk _) (List.append_nil _)
    rw [filled]
    exact ⟨_, turned, mirrors, fun _ => ahead⟩
  · have filled : r.fill files base = ⟨⟨[], textChunk r.rest ++ warningChunk r.failed, [], true⟩, []⟩ := by
      rw [Reader.fill, none]
      rfl
    rw [filled]
    exact ⟨_, turned, ⟨rfl, rfl, fun more => Bool.noConfusion more⟩, fun more => Bool.noConfusion more⟩

/-! ## §2 — steps -/

theorem advance?_of_busy (busy : ¬ s.Idle) : s.advance? files base text = some ⟨s, []⟩ := by
  rw [advance?, dif_neg busy]
  rfl

/-- **One turn is enough**, as it produces something or is the last one. -/
theorem advance?_of_turn? {turned : Logged Scanner} (idle : s.Idle) (h : s.turn? files base text = some turned) :
    s.advance? files base text = some turned := by
  rw [advance?, dif_pos idle]
  split
  · rename_i none
    rw [h] at none
    cases none
  · rename_i turned' h'
    obtain rfl : turned = turned' := Option.some.inj (h.symm.trans h')
    rw [advance?_of_busy (not_idle_of_turn? h)]
    exact congrArg (fun asked => some (⟨turned.value, asked⟩ : Logged Scanner)) (List.append_nil _)

theorem next?_of_advance? {ready : Scanner} {asked : List Access}
    (h : s.advance? files base text = some ⟨ready, asked⟩) :
    s.next? files base text = some ⟨ready.handOut, asked⟩ := by
  rw [next?, h]
  exact congrArg (fun asked => some (⟨ready.handOut, asked⟩ : Logged _)) (List.append_nil asked)

theorem handOut_nil (h : s.pending = []) : s.handOut = (none, s) := by
  rw [handOut, h]

theorem handOut_cons {c : Chunk} {cs : List Chunk} (h : s.pending = c :: cs) :
    s.handOut = (some c, { s with pending := cs }) := by
  rw [handOut, h]

theorem Mirrors.pop {r : Reader} (h : Mirrors text s r) (cs : List Chunk) :
    Mirrors text { s with pending := cs } { r with pending := cs } :=
  ⟨rfl, h.finished, h.stands⟩

/-- **One step** hands out and asks what one step of the reader does. -/
theorem Mirrors.next (files : FileAccess) (base : Option Path) {r : Reader} (h : Mirrors text s r) :
    ∃ s', s.next? files base text = some ⟨((r.next files base).value.1, s'), (r.next files base).accesses⟩ ∧
      Mirrors text s' (r.next files base).value.2 := by
  cases pending : s.pending with
  | cons c cs =>
    have busy : ¬ s.Idle := fun idle => List.cons_ne_nil c cs (pending.symm.trans idle.1)
    rw [next?_of_advance? (advance?_of_busy busy), handOut_cons pending,
      Reader.next_pending (h.pending.symm.trans pending)]
    exact ⟨_, rfl, h.pop cs⟩
  | nil =>
    have none := h.pending.symm.trans pending
    cases finished : s.finished with
    | true =>
      have busy : ¬ s.Idle := fun idle => Bool.noConfusion (finished.symm.trans idle.2)
      rw [next?_of_advance? (advance?_of_busy busy), handOut_nil pending,
        Reader.next_finished none (h.finished.symm.trans finished)]
      exact ⟨_, rfl, h⟩
    | false =>
      have idle : s.Idle := ⟨pending, finished⟩
      obtain ⟨s', turned, mirrors, -⟩ := h.turn files base idle
      cases filled : r.fill files base with
      | mk ready asked =>
        rw [filled] at turned mirrors
        have step := Reader.next_fill none (h.finished.symm.trans finished) filled
        rw [← mirrors.pending] at step
        rw [next?_of_advance? (advance?_of_turn? idle turned)]
        cases produced : s'.pending with
        | nil =>
          rw [produced] at step
          rw [step, handOut_nil produced]
          exact ⟨_, rfl, mirrors⟩
        | cons c cs =>
          rw [produced] at step
          rw [step, handOut_cons produced]
          exact ⟨_, rfl, mirrors.pop cs⟩

/-- **A scanner is called like a reader:** no call breaks down, and what is handed out and asked is the same. -/
theorem Mirrors.calls (files : FileAccess) (base : Option Path) {r : Reader} (h : Mirrors text s r) (n : Nat) :
    calls? files base text n s = some (Reader.calls files base n r) := by
  induction n generalizing s r with
  | zero => rfl
  | succ n ih =>
    obtain ⟨s', step, mirrors⟩ := h.next files base
    rw [calls?, step]
    simp only [Option.bind_eq_bind, Option.bind_some, ih mirrors]
    rfl

/-! ## §3 — the states of a scanner -/

/-- **The states that a scanner comes to**, with the chunks handed out and the questions asked before: the start, the
state within a search that has passed over a match, the state after a turn, and the state after a chunk was handed
out. -/
inductive Reached (files : FileAccess) (base : Option Path) (text : List Char) :
    Scanner → List Chunk → List Access → Prop
  | start : Reached files base text {} [] []
  | skip {s : Scanner} {out : List Chunk} {asked : List Access} {next : Nat}
    (before : Reached files base text s out asked) (idle : s.Idle) (inside : s.cursor < size text)
    (pass : Reference.pass? text s.cursor = some (.skip next)) :
    Reached files base text { s with cursor := next } out asked
  | turn {s s' : Scanner} {out : List Chunk} {asked more : List Access}
    (before : Reached files base text s out asked) (idle : s.Idle)
    (turned : s.turn? files base text = some ⟨s', more⟩) : Reached files base text s' out (asked ++ more)
  | handOut {s : Scanner} {out : List Chunk} {asked : List Access} {c : Chunk} {cs : List Chunk}
    (before : Reached files base text s out asked) (pending : s.pending = c :: cs) :
    Reached files base text { s with pending := cs } (out ++ [c]) asked

/-- **What was done before a scanner came to a state:** what it has handed out and what it has at hand is the text
before the place where a reader stands, and each question was asked to load a reference among them. -/
structure Accounts (files : FileAccess) (base : Option Path) (text : List Char) (s : Scanner) (out : List Chunk)
    (asked : List Access) (r : Reader) : Prop where
  mirrors : Mirrors text s r
  produced : s.finished = false → (out ++ s.pending).flatMap source ++ r.rest = text
  loaded : ∃ references : List Reference,
    fileChunks (out ++ s.pending) = references.map (fun r => (load files base r).value) ∧
      asked = references.flatMap fun r => (load files base r).accesses

/-- **One turn** accounts for what it produces. -/
theorem Accounts.turn {s' : Scanner} {out : List Chunk} {asked more : List Access} {r : Reader}
    (h : Accounts files base text s out asked r) (idle : s.Idle) (turned : s.turn? files base text = some ⟨s', more⟩) :
    ∃ r', Accounts files base text s' out (asked ++ more) r' := by
  obtain ⟨references, loaded, questions⟩ := h.loaded
  have produced := h.produced idle.2
  rw [idle.1, List.append_nil] at loaded produced
  rcases h.mirrors.turn_cases files base idle with
    ⟨f, stop, found, -, step, mirrors⟩ | ⟨cursor, none, step⟩
  · obtain ⟨rfl, rfl⟩ := Logged.mk.inj (Option.some.inj (turned.symm.trans step))
    refine ⟨_, mirrors, fun _ => ?_, references ++ [f.reference], ?_, ?_⟩
    · have raw : (load files base f.reference).value.raw.toList = f.reference.raw := by
        rw [(load_settled files base f.reference).2, String.toList_ofList]
      rw [← produced, Reference.eq_of_find? found]
      simp only [List.flatMap_append, List.flatMap_cons, List.flatMap_nil, Cut.flatMap_source_textChunk, source, raw,
        List.append_assoc, List.nil_append]
    · rw [fileChunks_append, fileChunks_textChunk, loaded, List.map_append]
      rfl
    · rw [List.flatMap_append, ← questions]
      exact congrArg (asked ++ ·) (List.append_nil _).symm
  · obtain ⟨rfl, rfl⟩ := Logged.mk.inj (Option.some.inj (turned.symm.trans step))
    refine ⟨⟨[], textChunk r.rest ++ warningChunk r.failed, [], true⟩, ⟨rfl, rfl, fun more => Bool.noConfusion more⟩,
      (fun more => Bool.noConfusion more), references, ?_, ?_⟩
    · rw [fileChunks_append, fileChunks_textChunk, fileChunks_warningChunk, List.append_nil, loaded]
    · rw [List.append_nil, questions]

theorem Reached.accounts {out : List Chunk} {asked : List Access} (h : Reached files base text s out asked) :
    ∃ r, Accounts files base text s out asked r := by
  induction h with
  | start => exact ⟨_, Mirrors.start text, fun _ => rfl, [], rfl, rfl⟩
  | skip _ idle _ pass ih =>
    obtain ⟨r, before⟩ := ih
    exact ⟨r, before.mirrors.skip idle.2 pass, before.produced, before.loaded⟩
  | turn _ idle turned ih =>
    obtain ⟨r, before⟩ := ih
    exact before.turn idle turned
  | @handOut s out asked c cs _ pending ih =>
    obtain ⟨r, before⟩ := ih
    have same : out ++ [c] ++ cs = out ++ s.pending := by rw [pending, List.append_assoc]; rfl
    refine ⟨{ r with pending := cs }, before.mirrors.pop cs, fun more => ?_, ?_⟩
    · show (out ++ [c] ++ cs).flatMap source ++ r.rest = text
      rw [same]
      exact before.produced more
    · show ∃ references : List Reference, fileChunks (out ++ [c] ++ cs) = _ ∧ _
      rw [same]
      exact before.loaded

/-- **A step** breaks down nowhere, and it leads from one of these states to another. -/
theorem Reached.next {out : List Chunk} {asked : List Access} (h : Reached files base text s out asked) :
    ∃ c s' more, s.next? files base text = some ⟨(c, s'), more⟩ ∧
      Reached files base text s' (out ++ c.toList) (asked ++ more) := by
  have pop {ready : Scanner} {asked : List Access} (h : Reached files base text ready out asked) :
      Reached files base text ready.handOut.2 (out ++ ready.handOut.1.toList) asked := by
    cases pending : ready.pending with
    | nil =>
      rw [handOut_nil pending]
      exact (List.append_nil out).symm ▸ h
    | cons c cs =>
      rw [handOut_cons pending]
      exact h.handOut pending
  by_cases idle : s.Idle
  · obtain ⟨r, accounts⟩ := h.accounts
    obtain ⟨s', turned, -, -⟩ := accounts.mirrors.turn files base idle
    exact ⟨_, _, _, next?_of_advance? (advance?_of_turn? idle turned), pop (h.turn idle turned)⟩
  · refine ⟨_, _, _, next?_of_advance? (advance?_of_busy idle), ?_⟩
    rw [List.append_nil]
    exact pop h

/-! ## §4 — safety and progress -/

/-- **What is safe where a scanner stands**, and what gets it ahead. -/
structure Safe (files : FileAccess) (base : Option Path) (text : List Char) (s : Scanner) (out : List Chunk)
    (asked : List Access) : Prop where
  ordered : s.textStart ≤ s.cursor ∧ s.cursor ≤ size text
  boundaries : IsBoundary text s.textStart ∧ IsBoundary text s.cursor
  /-- What was handed out, and what is at hand, is the text before the text start. -/
  produced : slice? text 0 s.textStart = some ((out ++ s.pending).flatMap source)
  /-- What was asked was asked to load the references in that text. -/
  loaded : ∃ references : List Reference,
    fileChunks (out ++ s.pending) = references.map (fun r => (load files base r).value) ∧
      asked = references.flatMap fun r => (load files base r).accesses
  /-- A pass of a search goes on further ahead, or it ends the search. -/
  pass : ∃ pass, Reference.pass? text s.cursor = some pass ∧
    (∀ next, pass = .skip next → s.cursor < next ∧ next ≤ size text ∧ IsBoundary text next) ∧
    ∀ span, pass = .found span → span.Holds text s.cursor
  /-- A search ends, and what it finds is a reference in its place. -/
  search : ∃ found cursor, Reference.next? text s.cursor = some (found, cursor) ∧ s.cursor ≤ cursor ∧
    cursor ≤ size text ∧ IsBoundary text cursor ∧ ∀ span ∈ found, span.Holds text cursor
  /-- A turn goes on further ahead, or it is the last one. -/
  turn : s.Idle → ∃ turned, s.turn? files base text = some turned ∧
    (turned.value.finished = false → s.cursor < turned.value.cursor)

theorem Reached.safe {out : List Chunk} {asked : List Access} (h : Reached files base text s out asked)
    (more : s.finished = false) : Safe files base text s out asked := by
  obtain ⟨r, accounts⟩ := h.accounts
  obtain ⟨-, before, passed, after, whole, start, cursor, rest, -⟩ := accounts.mirrors.stands more
  have text' : text = before ++ passed ++ after := by rw [whole, List.append_assoc]
  have produced : (out ++ s.pending).flatMap source = before := by
    have same := accounts.produced more
    rw [rest, whole] at same
    exact List.append_cancel_right same
  have ahead (skipped rest : List Char) (split : after = skipped ++ rest) :
      size (before ++ passed ++ skipped) ≤ size text ∧ IsBoundary text (size (before ++ passed ++ skipped)) := by
    have place : IsBoundary text (size (before ++ passed ++ skipped)) := by
      rw [text', split, ← List.append_assoc]
      exact Text.isBoundary_append _ _
    exact ⟨place.le, place⟩
  have here := ahead [] after rfl
  rw [List.append_nil, cursor] at here
  refine ⟨⟨?_, here.1⟩, ⟨?_, here.2⟩, ?_, accounts.loaded, ?_, ?_, fun idle => ?_⟩
  · rw [← start, ← cursor, Text.Utf8.size_append]
    exact Nat.le_add_right _ _
  · rw [← start, whole]
    exact Text.isBoundary_append _ _
  · have piece := Text.slice?_append [] before (passed ++ after)
    rwa [List.nil_append, ← whole, show size [] = 0 from rfl, Nat.zero_add, start, ← produced] at piece
  · have cases := Reference.pass?_cases (before ++ passed) after
    rw [← text', cursor] at cases
    rcases cases with ⟨pass, -⟩ | ⟨skipped, further, split, -, pass, -⟩ | ⟨f, -, pass, holds⟩
    · exact ⟨_, pass, (fun _ other => nomatch other), (fun _ other => nomatch other)⟩
    · refine ⟨_, pass, fun next same => ?_, (fun _ other => nomatch other)⟩
      obtain rfl := Reference.Pass.skip.inj same
      exact ⟨Reference.lt_of_pass?_skip pass, ahead skipped further split⟩
    · refine ⟨_, pass, (fun _ other => nomatch other), fun span same => ?_⟩
      obtain rfl := Reference.Pass.found.inj same
      exact holds
  · obtain ⟨skipped, further, split, -, next, holds⟩ := Reference.next?_spec (before ++ passed) after
    rw [← text', cursor] at next
    rw [← text'] at holds
    refine ⟨_, _, next, ?_, (ahead skipped further split).1, (ahead skipped further split).2, fun span found => ?_⟩
    · rw [Text.Utf8.size_append, cursor]
      exact Nat.le_add_right _ _
    · obtain ⟨f, there, rfl⟩ := Option.map_eq_some_iff.mp found
      exact holds f there
  · obtain ⟨s', turned, -, further⟩ := accounts.mirrors.turn files base idle
    exact ⟨_, turned, further⟩

/-- **A scanner never breaks down, and gets ahead.** Whatever the text and however files answer: each call returns, and
hands out and asks what a reader without offsets does; each state that a scanner comes to leads to another with the next
step; and in each of them, up to the last turn, its offsets lie in order and cut no character, nothing behind them was
handed out or loaded, a search goes on further ahead with each pass, the reference it finds lies in its match and is
just what stands between its offsets, and each turn that finds one gets ahead. -/
theorem calls?_safe (files : FileAccess) (base : Option Path) (content : String) :
    let text := content.toList
    (∀ n, calls? files base text n {} = some (Reader.calls files base n (.start content))) ∧
      ∀ s out asked, Reached files base text s out asked →
        (∃ c s' more, s.next? files base text = some ⟨(c, s'), more⟩ ∧
          Reached files base text s' (out ++ c.toList) (asked ++ more)) ∧
        (s.finished = false → Safe files base text s out asked) := by
  intro text
  exact ⟨(Mirrors.start text).calls files base, fun s out asked reached => ⟨reached.next, reached.safe⟩⟩

/-- Behind a match that names nothing, with a character of two bytes before it, and a media type ahead. -/
theorem calls?_safe_behind_bare :
    let m : Files.Memory := .ofList [(.ofString "/a.md", Text.Utf8.encode "A")]
    let files : FileAccess := ⟨m.provider, .extensionTable, .rootDirectory, .stopped⟩
    let text := "é @./. @./a.md;type=text/plain;x.".toList
    let s : Scanner := { cursor := 7 }
    (Reached files (some .rootDirectory) text s [] [] ∧ s.finished = false) ∧
      Safe files (some .rootDirectory) text s [] [] := by
  intro m files text s
  have pass : Reference.pass? text 0 = some (.skip 7) := by decide +kernel
  have inside : 0 < size text := by decide +kernel
  have reached : Reached files (some .rootDirectory) text s [] [] := .skip .start ⟨rfl, rfl⟩ inside pass
  obtain ⟨-, states⟩ := calls?_safe files (some .rootDirectory) "é @./. @./a.md;type=text/plain;x."
  exact ⟨⟨reached, rfl⟩, (states s [] [] reached).2 rfl⟩

end Chunk.Scanner

end Dialogue
