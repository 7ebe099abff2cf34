import Dialogue.Proofs.Position
import Dialogue.Transcript
/-!
# `Dialogue.Proofs.Transcript.Coordinates` — where messages stand in their document.

A message being read starts at a known place, and the lines that are still to come start in column one; each line
keeps this up. Main statement: the messages of a document are slices of it, one after another, each of them knows its
line and where its text starts, and every place in that text is a place of the document.
-/

namespace Dialogue

open Text (isBlank)
open Text.Utf8 (size)

/-- **What a message starts with:** its marker, or nothing when it stands right after the script block. -/
def Role.Leads (role : Role) (front opening lead : List Char) : Prop :=
  lead = role.marker ∨ (lead = [] ∧ role = .you ∧ opening = front)

/-- **A message stands in a document** after `before`: its text is a slice of the document, with nothing but blanks
between the text and the marker at the start of the message's line, and all places in it are places of the
document. `front` is the script block. -/
structure Message.Stands (src front : List Char) (m : Message) (before : List Char) : Prop where
  slice : ∃ rest, src = before ++ m.content.toList ++ rest
  line : ∃ opening lead gap, before = opening ++ lead ++ gap ∧ m.role.Leads front opening lead ∧
    (∀ c ∈ gap, isBlank c = true) ∧ Position.after opening = ⟨m.line, 1⟩
  start : Position.atOffset? src (size before) = some m.contentStart
  inside : ∀ inner rest, m.content.toList = inner ++ rest →
    Position.atOffset? src (size before + size inner) = some (m.documentPosition inner)

/-- **Messages one after another** in a document, the first of them not before byte `low`. -/
inductive Transcript.InOrder (src front : List Char) : (low : Nat) → List Message → Prop
  | nil {low : Nat} : InOrder src front low []
  | cons {low : Nat} {m : Message} {ms : List Message} {before : List Char} (hlow : low ≤ size before)
    (here : m.Stands src front before) (rest : InOrder src front (size before + size m.content.toList) ms) :
    InOrder src front low (m :: ms)

/-- **The script block as it stands in a document**, fences and all; nothing when there is none. -/
def Transcript.Fronts (front : List Char) : Option Frontmatter → Prop
  | none => front = []
  | some f => ∃ first closing, front = first ++ f.code.toList ++ closing ∧
    Transcript.openingFence? first = some f.language.toList ∧ Transcript.isClosingFence closing = true

namespace Transcript

variable {front : List Char}

theorem InOrder.from {src : List Char} {low low₁ : Nat} {ms : List Message} (h : InOrder src front low₁ ms)
    (hl : low ≤ low₁) : InOrder src front low ms := by
  cases h with
  | nil => exact .nil
  | cons hlow here rest => exact .cons (Nat.le_trans hl hlow) here rest

/-! ## §1 — messages being read -/

theorem ofLine?_eq {line raw : List Char} {role : Role} (h : Role.ofLine? line = some (role, raw)) :
    line = role.marker ++ raw := by
  obtain ⟨r, -, hr⟩ := List.exists_of_findSome?_eq_some h
  obtain ⟨rest, found, same⟩ := Option.map_eq_some_iff.mp hr
  obtain ⟨rfl, rfl⟩ := Prod.mk.inj same
  exact Text.after?_eq_some_iff.mp found

theorem no_feed_marker (role : Role) : '\n' ∉ role.marker := by
  cases role <;> decide

/-- **A message being read**, whose raw text starts after `before`. -/
structure Draft.Stands (front : List Char) (d : Draft) (before : List Char) : Prop where
  start : Position.after before = d.start
  line : ∃ opening lead, before = opening ++ lead ∧ d.role.Leads front opening lead ∧
    Position.after opening = ⟨d.start.line, 1⟩

/-- **The finished message** stands where trimming leaves its text. -/
theorem Draft.Stands.message {d : Draft} {before : List Char} (h : d.Stands front before) (rest : List Char) :
    d.message.Stands (before ++ d.raw ++ rest) front (before ++ d.raw.takeWhile isBlank) := by
  obtain ⟨tail, whole, -⟩ := Text.trim_append d.raw
  have content : d.message.content.toList = Text.trim d.raw := String.toList_ofList
  have slice : before ++ d.raw ++ rest =
      before ++ d.raw.takeWhile isBlank ++ d.message.content.toList ++ (tail ++ rest) :=
    calc before ++ d.raw ++ rest
        = before ++ (d.raw.takeWhile isBlank ++ Text.trim d.raw ++ tail) ++ rest := by rw [← whole]
      _ = before ++ d.raw.takeWhile isBlank ++ d.message.content.toList ++ (tail ++ rest) := by
        rw [content]
        simp only [List.append_assoc]
  have start : Position.after (before ++ d.raw.takeWhile isBlank) = d.message.contentStart := by
    rw [Position.after_append, h.start]
    rfl
  -- trimming takes off blanks only, so between the marker and the text there are only blanks
  refine ⟨⟨_, slice⟩, ?_, ?_, ?_⟩
  · obtain ⟨opening, lead, rfl, leads, line⟩ := h.line
    exact ⟨opening, lead, _, rfl, leads, fun c hc => List.mem_takeWhile_imp hc, line⟩
  · rw [slice, List.append_assoc, Position.atOffset?_append, start]
  · intro inner after cut
    have whole : before ++ d.raw ++ rest =
        before ++ d.raw.takeWhile isBlank ++ inner ++ (after ++ (tail ++ rest)) := by
      rw [slice, cut]
      simp only [List.append_assoc]
    rw [whole, ← Text.Utf8.size_append, Position.atOffset?_append, Message.documentPosition, ← start,
      Position.within_after]

/-- The finished message ends before what comes after its raw text. -/
theorem Draft.size_message_le (d : Draft) (before : List Char) :
    size (before ++ d.raw.takeWhile isBlank) + size d.message.content.toList ≤ size (before ++ d.raw) := by
  obtain ⟨tail, whole, -⟩ := Text.trim_append d.raw
  have content : d.message.content.toList = Text.trim d.raw := String.toList_ofList
  have sizes := congrArg size whole
  rw [Text.Utf8.size_append, Text.Utf8.size_append] at sizes
  rw [content, Text.Utf8.size_append, Text.Utf8.size_append]
  omega

/-- **A marker line** starts the next message. -/
theorem draft_stands_of_marker {text : List Char} {number : Nat} (h : Position.after text = ⟨number, 1⟩)
    (role : Role) (raw : List Char) :
    (⟨role, raw, ⟨number, role.marker.length + 1⟩⟩ : Draft).Stands front (text ++ role.marker) := by
  refine ⟨?_, text, role.marker, rfl, .inl rfl, h⟩
  rw [Position.after_append, h, Position.advanceBy_of_no_feed _ (no_feed_marker role)]
  simp only [Position.mk.injEq, true_and]
  omega

/-! ## §2 — the messages of lines -/

/-- **Each line keeps messages in order:** it belongs to the message being read or starts the next one. -/
theorem messagesFrom_inOrder {lines : List (List Char)} (lined : Lined lines) {number low : Nat} {d : Draft}
    {before : List Char} (h : d.Stands front before) (hlow : low ≤ size before)
    (next : lines ≠ [] → Position.after (before ++ d.raw) = ⟨number, 1⟩) :
    InOrder (before ++ d.raw ++ lines.flatten) front low (messagesFrom number d lines) := by
  induction lines generalizing number low d before with
  | nil =>
    refine .cons ?_ (h.message []) .nil
    rw [Text.Utf8.size_append]
    omega
  | cons line rest ih =>
    have here := next (List.cons_ne_nil _ _)
    have after_line : rest ≠ [] → Position.after (before ++ d.raw ++ line) = ⟨number + 1, 1⟩ := by
      intro more
      rw [Position.after_append, here]
      exact lined.advanceBy_head more _
    unfold messagesFrom
    split
    -- a marker line ends the message being read, any other line goes on with it
    case h_1 role raw found =>
      obtain rfl := ofLine?_eq found
      have started : Draft.Stands front ⟨role, raw, ⟨number, role.marker.length + 1⟩⟩
          (before ++ d.raw ++ role.marker) := draft_stands_of_marker here role raw
      have further : size (before ++ d.raw) ≤ size (before ++ d.raw ++ role.marker) := by
        rw [Text.Utf8.size_append _ role.marker]
        omega
      have reached : rest ≠ [] → Position.after (before ++ d.raw ++ role.marker ++ raw) = ⟨number + 1, 1⟩ := by
        intro more
        rw [List.append_assoc]
        exact after_line more
      have later := ih lined.tail started further reached
      have whole : before ++ d.raw ++ ((role.marker ++ raw) :: rest).flatten =
          before ++ d.raw ++ role.marker ++ raw ++ rest.flatten := by
        rw [List.flatten_cons]
        simp only [List.append_assoc]
      refine .cons ?_ (h.message _) ?_
      · rw [Text.Utf8.size_append]
        omega
      · rw [whole]
        exact later.from (d.size_message_le before)
    case h_2 =>
      have grown : (⟨d.role, d.raw ++ line, d.start⟩ : Draft).Stands front before := ⟨h.start, h.line⟩
      have reached : rest ≠ [] → Position.after (before ++ (d.raw ++ line)) = ⟨number + 1, 1⟩ := by
        rw [← List.append_assoc]
        exact after_line
      have later := ih lined.tail grown hlow reached
      rw [List.flatten_cons, ← List.append_assoc, List.append_assoc before]
      exact later

/-- Does a line go on with the text before it? -/
def isText (line : List Char) : Bool := (Role.ofLine? line).isNone

/-- The messages of lines that start with a marker line. -/
def markedMessages (number : Nat) : List (List Char) → List Message
  | [] => []
  | line :: rest => match Role.ofLine? line with
    | none => []
    | some (role, raw) => messagesFrom (number + 1) ⟨role, raw, ⟨number, role.marker.length + 1⟩⟩ rest

/-- Text before the first marker counts when it is not blank. -/
theorem bodyMessages_eq (number : Nat) (lines : List (List Char)) :
    bodyMessages number lines =
      (if Text.trim (lines.takeWhile isText).flatten = [] then []
        else [(⟨.you, (lines.takeWhile isText).flatten, ⟨number, 1⟩⟩ : Draft).message]) ++
      markedMessages (number + (lines.takeWhile isText).length) (lines.dropWhile isText) := by
  unfold bodyMessages markedMessages
  dsimp only
  change (match lines.dropWhile isText with | [] => _ | line :: rest => _) = _
  split
  · exact (List.append_nil _).symm
  · rename_i line rest _
    cases Role.ofLine? line with
    | none => exact (List.append_nil _).symm
    | some _ => rfl

theorem markedMessages_inOrder {lines : List (List Char)} (lined : Lined lines) {number : Nat} {text : List Char}
    (next : lines ≠ [] → Position.after text = ⟨number, 1⟩) :
    InOrder (text ++ lines.flatten) front (size text) (markedMessages number lines) := by
  unfold markedMessages
  split
  · exact .nil
  · rename_i line rest
    have here := next (List.cons_ne_nil _ _)
    split
    · exact .nil
    · rename_i role raw found
      obtain rfl := ofLine?_eq found
      have started : Draft.Stands front ⟨role, raw, ⟨number, role.marker.length + 1⟩⟩ (text ++ role.marker) :=
        draft_stands_of_marker here role raw
      have further : size text ≤ size (text ++ role.marker) := by
        rw [Text.Utf8.size_append]
        omega
      have reached : rest ≠ [] → Position.after (text ++ role.marker ++ raw) = ⟨number + 1, 1⟩ := by
        intro more
        rw [List.append_assoc, Position.after_append, here]
        exact lined.advanceBy_head more _
      have later := messagesFrom_inOrder lined.tail started further reached
      rw [List.flatten_cons, ← List.append_assoc, ← List.append_assoc]
      exact later

/-- **The messages of the lines after the script block** stand in order. -/
theorem bodyMessages_inOrder {lines : List (List Char)} (lined : Lined lines) {number : Nat}
    (next : lines ≠ [] → Position.after front = ⟨number, 1⟩) :
    InOrder (front ++ lines.flatten) front 0 (bodyMessages number lines) := by
  have parts : lines.takeWhile isText ++ lines.dropWhile isText = lines := List.takeWhile_append_dropWhile
  rw [bodyMessages_eq]
  generalize lines.takeWhile isText = texts, lines.dropWhile isText = marked at parts ⊢
  subst parts
  have reached : marked ≠ [] → Position.after (front ++ texts.flatten) = ⟨number + texts.length, 1⟩ := by
    intro more
    rw [Position.after_append, next (by simp [more])]
    exact lined.advanceBy_flatten more number
  have later : InOrder (front ++ texts.flatten ++ marked.flatten) front (size (front ++ texts.flatten))
      (markedMessages (number + texts.length) marked) := markedMessages_inOrder lined.drop reached
  rw [List.flatten_append, ← List.append_assoc]
  -- blank text before the first marker makes no message, and is no part of any
  split
  · exact later.from (Nat.zero_le _)
  · rename_i text
    have started : Draft.Stands front ⟨.you, texts.flatten, ⟨number, 1⟩⟩ front := by
      have some_line : texts ++ marked ≠ [] := by
        intro none
        obtain ⟨rfl, -⟩ := List.append_eq_nil_iff.mp none
        exact text rfl
      refine ⟨next some_line, front, [], (List.append_nil _).symm, .inr ⟨rfl, rfl, rfl⟩, next some_line⟩
    exact .cons (Nat.zero_le _) (started.message _) (later.from (Draft.size_message_le _ front))

/-! ## §3 — documents -/

/-- **A script block ends at the first closing fence.** -/
theorem toFence?_eq_some_iff {lines code after : List (List Char)} :
    toFence? lines = some (code, after) ↔ ∃ closing, lines = code ++ closing :: after ∧
      isClosingFence closing = true ∧ ∀ line ∈ code, isClosingFence line = false := by
  induction lines generalizing code with
  | nil =>
    refine ⟨nofun, ?_⟩
    rintro ⟨closing, whole, -⟩
    exact absurd whole.symm (List.append_ne_nil_of_right_ne_nil _ (List.cons_ne_nil _ _))
  | cons line rest ih =>
    unfold toFence?
    by_cases fence : isClosingFence line = true
    · rw [if_pos fence]
      constructor
      · rintro ⟨⟩
        exact ⟨line, rfl, fence, nofun⟩
      · rintro ⟨closing, whole, -, inside⟩
        cases code with
        | nil =>
          obtain ⟨-, rfl⟩ := List.cons.inj whole
          rfl
        | cons first code =>
          obtain ⟨rfl, -⟩ := List.cons.inj whole
          rw [inside line List.mem_cons_self] at fence
          cases fence
    · rw [if_neg fence, Option.map_eq_some_iff]
      constructor
      · rintro ⟨⟨code, after⟩, found, ⟨⟩⟩
        obtain ⟨closing, rfl, closed, inside⟩ := ih.mp found
        exact ⟨closing, rfl, closed, List.forall_mem_cons.mpr ⟨Bool.eq_false_iff.mpr fence, inside⟩⟩
      · rintro ⟨closing, whole, closed, inside⟩
        cases code with
        | nil =>
          obtain ⟨rfl, -⟩ := List.cons.inj whole
          exact absurd closed fence
        | cons first code =>
          obtain ⟨rfl, rfl⟩ := List.cons.inj whole
          exact ⟨(code, after), ih.mpr ⟨closing, rfl, closed, (List.forall_mem_cons.mp inside).2⟩, rfl⟩

/-- **A script block does not end** when no line is a closing fence. -/
theorem toFence?_eq_none_iff {lines : List (List Char)} :
    toFence? lines = none ↔ ∀ line ∈ lines, isClosingFence line = false := by
  induction lines with
  | nil => exact ⟨fun _ => nofun, fun _ => rfl⟩
  | cons line rest ih =>
    unfold toFence?
    by_cases fence : isClosingFence line = true
    · rw [if_pos fence]
      refine ⟨nofun, fun inside => ?_⟩
      rw [inside line List.mem_cons_self] at fence
      cases fence
    · rw [if_neg fence, Option.map_eq_none_iff, ih, List.forall_mem_cons]
      exact ⟨fun inside => ⟨Bool.eq_false_iff.mpr fence, inside⟩, And.right⟩

/-- **What a document of lines is read as.** -/
inductive Reads : List (List Char) → Transcript → Prop
  | messages {lines : List (List Char)} (plain : ∀ first ∈ lines.head?, openingFence? first = none) :
    Reads lines ⟨none, bodyMessages 1 lines⟩
  | block {first language : List Char} {rest code after : List (List Char)}
    (opened : openingFence? first = some language) (closed : toFence? rest = some (code, after)) :
    Reads (first :: rest)
      ⟨some ⟨String.ofList language, String.ofList code.flatten, 1⟩, bodyMessages (code.length + 3) after⟩

theorem parse_eq_ok_iff {src : String} {t : Transcript} : parse src = .ok t ↔ Reads (Text.lines src.toList) t := by
  unfold parse
  generalize Text.lines src.toList = lines
  dsimp only
  constructor
  · intro h
    split at h
    · obtain rfl := Except.ok.inj h
      exact .messages nofun
    · rename_i first rest
      split at h
      · rename_i none
        obtain rfl := Except.ok.inj h
        exact .messages fun line mem => Option.some.inj mem ▸ none
      · split at h
        · cases h
        · rename_i opened _ code after closed
          obtain rfl := Except.ok.inj h
          exact .block opened closed
  · rintro (plain | ⟨opened, closed⟩)
    · cases lines with
      | nil => rfl
      | cons first rest =>
        dsimp only
        rw [plain first rfl]
    · dsimp only
      rw [opened]
      dsimp only
      rw [closed]

/-- **A document of lines whose script block is never closed.** -/
def Unclosed (lines : List (List Char)) : Prop :=
  ∃ first rest language, lines = first :: rest ∧ openingFence? first = some language ∧
    ∀ line ∈ rest, isClosingFence line = false

theorem parse_eq_error_iff {src : String} {e : TranscriptError} :
    parse src = .error e ↔ e = .unterminatedFrontmatter 1 ∧ Unclosed (Text.lines src.toList) := by
  unfold parse
  generalize Text.lines src.toList = lines
  dsimp only
  constructor
  · intro h
    split at h
    · cases h
    · rename_i first rest
      split at h
      · cases h
      · rename_i language opened
        split at h
        · rename_i never
          exact ⟨(Except.error.inj h).symm, first, rest, language, rfl, opened, toFence?_eq_none_iff.mp never⟩
        · cases h
  · rintro ⟨rfl, first, rest, language, rfl, opened, never⟩
    dsimp only
    rw [opened]
    dsimp only
    rw [toFence?_eq_none_iff.mpr never]

/-- **The messages of a document** stand in it in order, after its script block. -/
theorem parse_inOrder {src : String} {t : Transcript} (h : parse src = .ok t) :
    ∃ front, Fronts front t.frontmatter ∧ InOrder src.toList front 0 t.messages := by
  have lined := lined_lines src.toList
  rw [← Text.flatten_lines src.toList]
  rw [parse_eq_ok_iff] at h
  generalize Text.lines src.toList = lines at h lined ⊢
  cases h with
  | messages =>
    have body : InOrder ([] ++ lines.flatten) [] 0 (bodyMessages 1 lines) := bodyMessages_inOrder lined fun _ => rfl
    exact ⟨[], rfl, body⟩
  | @block first language rest code after opened closed =>
    obtain ⟨closing, rfl, fence, -⟩ := toFence?_eq_some_iff.mp closed
    -- the script block is its two fences and the lines between them
    have blocks : first :: (code ++ closing :: after) = (first :: code ++ [closing]) ++ after := by simp
    rw [blocks] at lined ⊢
    have front : (first :: code ++ [closing]).flatten = first ++ code.flatten ++ closing := by simp
    refine ⟨first ++ code.flatten ++ closing, ?_, ?_⟩
    · refine ⟨first, closing, ?_, ?_, fence⟩
      · rw [String.toList_ofList]
      · rw [String.toList_ofList]
        exact opened
    · rw [List.flatten_append, front]
      refine bodyMessages_inOrder lined.drop fun more => ?_
      have lines := lined.advanceBy_flatten more 1
      rw [front] at lines
      have length : 1 + (first :: code ++ [closing]).length = code.length + 3 := by
        simp only [List.length_append, List.length_cons, List.length_nil]
        omega
      rw [length] at lines
      exact lines

end Transcript

end Dialogue
