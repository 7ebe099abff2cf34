import Dialogue.Chunk
import Dialogue.Reference.Span
/-!
# `Dialogue.Chunk.Scanner` — reading chunks with byte offsets into the text.

A scanner keeps the whole text and two offsets: the start of the text it has not produced yet, and the place where the
next search begins. Where a search or a slice by offsets breaks down, so does the whole call.
-/

namespace Dialogue

open Text.Utf8 (size)

namespace Chunk

/-- **A scanner**, between two steps. -/
structure Scanner where
  /-- The offset of the text that was not produced yet. -/
  textStart : Nat := 0
  /-- The offset where the next search begins. -/
  cursor : Nat := 0
  /-- Chunks produced and not yet handed out. -/
  pending : List Chunk := []
  /-- What could not be loaded so far. -/
  failed : List Warning := []
  /-- Is the text used up? -/
  finished : Bool := false
  deriving Repr

namespace Scanner

/-- The text between two offsets as a chunk, unless there is none. -/
def piece? (text : List Char) (start stop : Nat) : Option (List Chunk) :=
  if start < stop then (Text.slice? text start stop).map fun cs => [.text (String.ofList cs)] else some []

/-- Load the reference in a span of the text. -/
def load? (files : FileAccess) (base : Option Path) (text : List Char) (span : Reference.Span) :
    Option (Logged FileChunk) := do
  let raw ← Text.slice? text span.start span.stop
  return do
    return { ← load files base span.reference with raw := String.ofList raw }

/-- **One turn:** chunks from the next reference, or from the end of the text. -/
def turn? (files : FileAccess) (base : Option Path) (text : List Char) (s : Scanner) : Option (Logged Scanner) := do
  match ← Reference.next? text s.cursor with
  | (some span, _) =>
    let before ← piece? text s.textStart span.start
    let loading ← load? files base text span
    return do
      let file ← loading
      return ⟨span.stop, span.stop, s.pending ++ before ++ [.file file], s.failed ++ file.warning?.toList, false⟩
  | (none, cursor) =>
    let before ← piece? text s.textStart (size text)
    return return ⟨size text, cursor, s.pending ++ before ++ warningChunk s.failed, [], true⟩

/-- Must more be produced before anything can be handed out? -/
def Idle (s : Scanner) : Prop := s.pending = [] ∧ s.finished = false

instance (s : Scanner) : Decidable s.Idle := inferInstanceAs (Decidable (_ ∧ _))

/-- **A turn produces something**, or it is the last one. -/
theorem not_idle_of_turn? {files : FileAccess} {base : Option Path} {text : List Char} {s : Scanner}
    {turned : Logged Scanner} (h : s.turn? files base text = some turned) : ¬ turned.value.Idle := by
  obtain ⟨⟨found, cursor⟩, -, h⟩ := Option.bind_eq_some_iff.mp h
  cases found with
  | some span =>
    obtain ⟨before, -, h⟩ := Option.bind_eq_some_iff.mp h
    obtain ⟨loading, -, h⟩ := Option.bind_eq_some_iff.mp h
    obtain rfl := Option.some.inj h
    exact fun idle => List.append_ne_nil_of_right_ne_nil _ (List.cons_ne_nil _ _) idle.1
  | none =>
    obtain ⟨before, -, h⟩ := Option.bind_eq_some_iff.mp h
    obtain rfl := Option.some.inj h
    exact fun idle => Bool.noConfusion idle.2

/-- **Take turns** until there is something to hand out, or the text is used up. -/
def advance? (files : FileAccess) (base : Option Path) (text : List Char) (s : Scanner) : Option (Logged Scanner) :=
  if _ : s.Idle then
    match h : s.turn? files base text with
    | none => none
    | some turned =>
      have := not_idle_of_turn? h
      (advance? files base text turned.value).map fun rest => turned >>= fun _ => rest
  else some (pure s)
termination_by if s.Idle then 1 else 0
decreasing_by
  rw [if_pos ‹s.Idle›, if_neg ‹¬ turned.value.Idle›]
  exact Nat.one_pos

/-- The first of the chunks produced, and the scanner without it. -/
def handOut (s : Scanner) : Option Chunk × Scanner :=
  match s.pending with
  | [] => (none, s)
  | c :: cs => (some c, { s with pending := cs })

/-- **One step:** the next chunk, if there is one. -/
def next? (files : FileAccess) (base : Option Path) (text : List Char) (s : Scanner) :
    Option (Logged (Option Chunk × Scanner)) := do
  let ready ← s.advance? files base text
  return do return (← ready).handOut

/-- **Several steps in a row**, each with what it hands out. -/
def calls? (files : FileAccess) (base : Option Path) (text : List Char) :
    Nat → Scanner → Option (Logged (List (Option Chunk)))
  | 0, _ => some (return [])
  | n + 1, s => do
    let step ← s.next? files base text
    let later ← calls? files base text n step.value.2
    return do
      let (c, _) ← step
      return c :: (← later)

end Scanner

end Chunk

end Dialogue
