import Dialogue.Proofs.Transcript.RoundTrip
/-!
# `Dialogue.Proofs.Transcript.Growth` — documents that grow at the end.

A document is read line by line, and a marker line ends whatever is being read, just as the end of the document does.
Main statement: where a document has no line left open, messages can be written behind it; they are read as they are on
their own, further down by the lines of the document, and what was read from the document stays as it was.
-/

namespace Dialogue

open Text (Ended)

/-! ## §1 — further down -/

/-- A place further down, by `n` lines. -/
def Position.below (p : Position) (n : Nat) : Position := ⟨p.line + n, p.column⟩

/-- **A message further down** a document, by `n` lines. -/
def Message.below (m : Message) (n : Nat) : Message :=
  { m with line := m.line + n, contentStart := m.contentStart.below n }

theorem Position.advance_below (p : Position) (n : Nat) (c : Char) : (p.below n).advance c = (p.advance c).below n := by
  unfold advance
  split
  · show (⟨p.line + n + 1, 1⟩ : Position) = ⟨p.line + 1 + n, 1⟩
    rw [Nat.add_right_comm]
  · rfl

theorem Position.advanceBy_below (p : Position) (n : Nat) (cs : List Char) :
    (p.below n).advanceBy cs = (p.advanceBy cs).below n := by
  induction cs generalizing p with
  | nil => rfl
  | cons c cs ih =>
    show ((p.below n).advance c).advanceBy cs = ((p.advance c).advanceBy cs).below n
    rw [advance_below, ih]

namespace Transcript

/-- A message being read further down. -/
def Draft.below (d : Draft) (n : Nat) : Draft := { d with start := d.start.below n }

theorem Draft.message_below (d : Draft) (n : Nat) : (d.below n).message = d.message.below n := by
  unfold Draft.message Draft.below Message.below
  rw [Position.advanceBy_below]
  rfl

/-- **Lines further down** make the same messages further down. -/
theorem messagesFrom_below (number n : Nat) (d : Draft) (lines : List (List Char)) :
    messagesFrom (number + n) (d.below n) lines = (messagesFrom number d lines).map (·.below n) := by
  induction lines generalizing number d with
  | nil => exact congrArg ([·]) (d.message_below n)
  | cons line rest ih =>
    unfold messagesFrom
    rw [Nat.add_right_comm]
    split
    · rename_i role raw _
      rw [List.map_cons, ← ih, ← d.message_below]
      rfl
    · exact ih (number + 1) { d with raw := d.raw ++ line }

theorem markedMessages_below (number n : Nat) (lines : List (List Char)) :
    markedMessages (number + n) lines = (markedMessages number lines).map (·.below n) := by
  unfold markedMessages
  split
  · rfl
  · split
    · rfl
    · rw [← messagesFrom_below, Nat.add_right_comm]
      rfl

/-! ## §2 — marker lines -/

variable {lines texts more : List (List Char)}

theorem Marked.append (first : Marked lines) (later : Marked more) : Marked (lines ++ more) := by
  cases lines with
  | nil => exact later
  | cons line rest => exact first

/-- What is left when lines of text are dropped starts with a marker line. -/
theorem marked_dropWhile (lines : List (List Char)) : Marked (lines.dropWhile isText) := by
  intro line mem
  have head := List.head?_dropWhile_not isText lines
  rw [Option.mem_def.mp mem] at head
  exact head

/-! ## §3 — messages behind others -/

/-- **A marker line ends the message being read** as the end of the lines does. -/
theorem messagesFrom_append (number : Nat) (d : Draft) (marked : Marked more) :
    messagesFrom number d (lines ++ more) =
      messagesFrom number d lines ++ markedMessages (number + lines.length) more := by
  induction lines generalizing number d with
  | nil =>
    rw [List.nil_append, messagesFrom_eq, marked.takeWhile, marked.dropWhile, List.flatten_nil, List.append_nil]
    rfl
  | cons line rest ih =>
    have count : number + (line :: rest).length = number + 1 + rest.length := by
      rw [List.length_cons]
      omega
    rw [List.cons_append, count]
    unfold messagesFrom
    split
    · rw [ih, List.cons_append]
    · exact ih _ _

theorem markedMessages_append (number : Nat) (first : Marked lines) (marked : Marked more) :
    markedMessages number (lines ++ more) =
      markedMessages number lines ++ markedMessages (number + lines.length) more := by
  cases lines with
  | nil => rfl
  | cons line rest =>
    obtain ⟨role, raw, found⟩ := marker_of_isText (first line rfl)
    rw [List.cons_append, markedMessages_cons found, markedMessages_cons found, messagesFrom_append _ _ marked,
      List.length_cons, Nat.add_right_comm, Nat.add_assoc]

/-- The messages of lines of text and lines that start with a marker line. -/
theorem bodyMessages_parts (number : Nat) (plain : ∀ line ∈ texts, isText line = true) (marked : Marked lines) :
    bodyMessages number (texts ++ lines) =
      (if Text.trim texts.flatten = [] then [] else [(⟨.you, texts.flatten, ⟨number, 1⟩⟩ : Draft).message]) ++
        markedMessages (number + texts.length) lines := by
  rw [bodyMessages_eq, List.takeWhile_append_of_pos plain, List.dropWhile_append_of_pos plain, marked.takeWhile,
    marked.dropWhile, List.append_nil]

/-- **Messages behind lines** leave the messages of the lines as they are. -/
theorem bodyMessages_append (number : Nat) (marked : Marked more) :
    bodyMessages number (lines ++ more) =
      bodyMessages number lines ++ markedMessages (number + lines.length) more := by
  have parts : lines.takeWhile isText ++ lines.dropWhile isText = lines := List.takeWhile_append_dropWhile
  have plain : ∀ line ∈ lines.takeWhile isText, isText line = true := fun _ mem => List.mem_takeWhile_imp mem
  have first := marked_dropWhile lines
  generalize lines.takeWhile isText = texts, lines.dropWhile isText = rest at parts plain first
  subst parts
  rw [List.append_assoc, bodyMessages_parts number plain (first.append marked), bodyMessages_parts number plain first,
    markedMessages_append _ first marked, List.length_append, Nat.add_assoc, List.append_assoc]

theorem bodyMessages_marked (number : Nat) (marked : Marked lines) :
    bodyMessages number lines = markedMessages number lines := by
  have none : bodyMessages number ([] ++ lines) = _ := bodyMessages_append number marked
  exact none

/-! ## §4 — documents -/

/-- **A document goes on with messages**, whose lines start with a marker line. -/
theorem Reads.append {t : Transcript} (read : Reads lines t) (marked : Marked more) :
    Reads (lines ++ more) ⟨t.frontmatter, t.messages ++ markedMessages (1 + lines.length) more⟩ := by
  cases read with
  | messages opens =>
    rw [← bodyMessages_append 1 marked]
    refine .messages fun first mem => ?_
    cases lines with
    | nil => exact marked.openingFence? first mem
    | cons line rest => exact opens first mem
  | @block first language rest code after opened closed =>
    obtain ⟨closing, rfl, fence, inside⟩ := toFence?_eq_some_iff.mp closed
    have count : 1 + (first :: (code ++ closing :: after)).length = code.length + 3 + after.length := by
      simp only [List.length_cons, List.length_append]
      omega
    rw [count, ← bodyMessages_append _ marked]
    refine .block opened (toFence?_eq_some_iff.mpr ⟨closing, ?_, fence, inside⟩)
    show code ++ closing :: after ++ more = _
    rw [List.append_assoc, List.cons_append]

/-- **A document can be gone on with.** Where no line of a document is left open, a text that starts with a marker can
be written behind it: it is a document on its own, without a script block, and the two together are a document with the
script block and the messages of the first, as they were, and then the messages of the second, as many lines further
down as there are in the first. -/
theorem parse_append {a b : String} {t : Transcript} {role : Role} (read : parse a = .ok t) (ended : Ended a.toList)
    (marked : role.marker <+: b.toList) :
    ∃ ms, parse b = .ok ⟨none, ms⟩ ∧
      parse (a ++ b) = .ok ⟨t.frontmatter, t.messages ++ ms.map (·.below (a.toList.count '\n'))⟩ := by
  have starts := marked_lines marked
  refine ⟨markedMessages 1 (Text.lines b.toList), ?_, ?_⟩
  · rw [parse_eq_ok_iff, ← bodyMessages_marked 1 starts]
    exact .messages starts.openingFence?
  · rw [parse_eq_ok_iff] at read ⊢
    rw [String.toList_append, Text.lines_append ended, ← markedMessages_below, ← Text.length_lines ended]
    exact read.append starts

/-- A script block, text before the first marker and a message that is being read at the end; behind them a message
whose text is not in the line of its marker. -/
theorem parse_append_open_message :
    let a := "```rhai\nlet n = 1;\n```\nHello\n@You: so\n\n"
    let b := "@Assistant:\n\n  said\n@You:"
    let t : Transcript :=
      ⟨some ⟨"rhai", "let n = 1;\n", 1⟩, [⟨.you, "Hello", 4, ⟨4, 1⟩⟩, ⟨.you, "so", 5, ⟨5, 7⟩⟩]⟩
    (parse a = .ok t ∧ Ended a.toList ∧ Role.marker .assistant <+: b.toList) ∧
      ∃ ms, parse b = .ok ⟨none, ms⟩ ∧
        parse (a ++ b) = .ok ⟨t.frontmatter, t.messages ++ ms.map (·.below (a.toList.count '\n'))⟩ := by
  intro a b t
  have read : parse a = .ok t := by decide +kernel
  have ended : Ended a.toList := .inr ⟨a.toList.dropLast, by decide +kernel⟩
  have marked : Role.marker .assistant <+: b.toList := ⟨b.toList.drop 11, by decide +kernel⟩
  exact ⟨⟨read, ended, marked⟩, parse_append read ended marked⟩

/-- Text that is not marked goes on with the message at the end of the document. -/
example : (parse ("@You: so\n" ++ "@You: what\n")).toOption.map (·.messages.length) = some 2 ∧
    (parse ("@You: so\n" ++ " @You: what\n")).toOption.map (·.messages.length) = some 1 := by
  decide +kernel

end Transcript

end Dialogue
