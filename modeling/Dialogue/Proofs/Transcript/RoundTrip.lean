import Dialogue.Proofs.Text.Lines
import Dialogue.Proofs.Text.Split
import Dialogue.Proofs.Transcript.Coordinates
/-!
# `Dialogue.Proofs.Transcript.RoundTrip` — documents are written and read back.

An outline is what a document says without where it says it: its script block, and who says what. Main statement: an
outline in which nothing stands where it would be read as something else is read back from the document that is written
from it; and what is read from any document is such an outline.
-/

namespace Dialogue

open Text (trim trimEnd Ended)

/-! ## §1 — outlines -/

/-- **What a document says**, without where it says it. -/
structure Outline where
  /-- The language and the code of the script block. -/
  block : Option (String × String)
  /-- Who says what. -/
  messages : List (Role × String)

/-- What a message says. -/
def Message.turn (m : Message) : Role × String := (m.role, m.content)

/-- What a document says. -/
def Transcript.outline (t : Transcript) : Outline :=
  ⟨t.frontmatter.map fun f => (f.language, f.code), t.messages.map Message.turn⟩

namespace Outline

/-- A script block as it is written: a fence with the language, the code, a fence. -/
def writtenBlock : Option (String × String) → List Char
  | none => []
  | some (language, code) =>
    (Transcript.fence ++ language.toList ++ ['\n']) ++ code.toList ++ (Transcript.fence ++ ['\n'])

/-- A message as it is written: the marker of its role, a blank, its text. -/
def writtenTurn (m : Role × String) : List Char := m.1.marker ++ (' ' :: m.2.toList ++ ['\n'])

/-- **The document that is written** from an outline. -/
def render (o : Outline) : String := String.ofList (writtenBlock o.block ++ o.messages.flatMap writtenTurn)

/-- **A script block that can be written:** a language in one line, and code in whole lines, none of them a fence. -/
structure BlockFits (language code : String) : Prop where
  some : language ≠ ""
  trimmed : Text.trimmed language = language
  oneLine : '\n' ∉ language.toList
  ended : Ended code.toList
  noFence : ∀ line ∈ Text.lines code.toList, trimEnd line ≠ Transcript.fence

/-- **A text that can be written:** no line of it but the first starts with a marker. -/
structure TextFits (content : String) : Prop where
  trimmed : Text.trimmed content = content
  unmarked : ∀ line ∈ (Text.lines content.toList).tail, ∀ role : Role, ¬ role.marker <+: line

/-- **An outline that can be written.** -/
structure Fits (o : Outline) : Prop where
  block : ∀ language code, o.block = some (language, code) → BlockFits language code
  messages : ∀ m ∈ o.messages, TextFits m.2

end Outline

/-! ## §2 — markers -/

namespace Role

theorem ofLine?_eq_none_iff {line : List Char} : ofLine? line = none ↔ ∀ role : Role, ¬ role.marker <+: line := by
  unfold ofLine?
  simp only [List.findSome?_eq_none_iff, Option.map_eq_none_iff, Text.after?_eq_none_iff]
  refine ⟨fun h role => h role ?_, fun h role _ => h role⟩
  cases role <;> decide

theorem marker_ne_nil (role : Role) : role.marker ≠ [] := by
  cases role <;> decide

theorem ofLine?_marker (role : Role) (raw : List Char) : ofLine? (role.marker ++ raw) = some (role, raw) := by
  cases role <;> rfl

end Role

namespace Transcript

theorem isText_iff {line : List Char} : isText line = true ↔ ∀ role : Role, ¬ role.marker <+: line := by
  unfold isText
  rw [Option.isNone_iff_eq_none, Role.ofLine?_eq_none_iff]

/-- **No marker starts a line** of the text, the first line apart. -/
def Unmarked (cs : List Char) : Prop := ∀ role : Role, ¬ ('\n' :: role.marker) <:+: cs

theorem Unmarked.within {as bs : List Char} (h : Unmarked bs) (inside : as <:+: bs) : Unmarked as :=
  fun role here => h role (here.trans inside)

theorem unmarked_cons_iff {c : Char} {cs : List Char} :
    Unmarked (c :: cs) ↔ (c = '\n' → ∀ role : Role, ¬ role.marker <+: cs) ∧ Unmarked cs := by
  unfold Unmarked
  simp only [List.infix_cons_iff, List.cons_prefix_cons, not_or, not_and, forall_and]
  exact and_congr_left fun _ => ⟨fun h feed role => h role feed.symm, fun h role feed => h feed.symm role⟩

theorem unmarked_append_iff {as bs : List Char} (plain : '\n' ∉ as) : Unmarked (as ++ bs) ↔ Unmarked bs := by
  induction as with
  | nil => exact Iff.rfl
  | cons c cs ih =>
    rw [List.mem_cons, not_or] at plain
    rw [List.cons_append, unmarked_cons_iff, ih plain.2]
    exact and_iff_right fun feed => absurd feed.symm plain.1

theorem unmarked_nil : Unmarked [] := fun _ here => absurd (List.infix_nil.mp here) (List.cons_ne_nil _ _)

theorem unmarked_of_no_feed {cs : List Char} (plain : '\n' ∉ cs) : Unmarked cs := by
  rw [← List.append_nil cs, unmarked_append_iff plain]
  exact unmarked_nil

/-- A line feed at the end starts no line with a marker. -/
theorem unmarked_append_feed {cs : List Char} (h : Unmarked cs) : Unmarked (cs ++ ['\n']) := by
  intro role here
  rcases List.infix_concat_iff.mp here with last | inside
  · rcases List.suffix_concat_iff.mp last with none | ⟨start, whole, -⟩
    · cases none
    · cases start with
      | nil => exact role.marker_ne_nil (List.cons.inj whole).2
      | cons c start =>
        have ends : role.marker = start ++ ['\n'] := (List.cons.inj whole).2
        refine no_feed_marker role ?_
        rw [ends]
        exact List.mem_append_right _ List.mem_cons_self
  · exact h role inside

/-- Whether a text starts with a marker is told by its first line. -/
theorem marker_isPrefix_iff {line : List Char} {rest : List (List Char)} (lined : Lined (line :: rest)) (role : Role) :
    role.marker <+: (line :: rest).flatten ↔ role.marker <+: line := by
  have start : line <+: (line :: rest).flatten := List.prefix_append _ _
  refine ⟨fun here => ?_, fun here => here.trans start⟩
  cases lined with
  | last =>
    rw [List.flatten_cons, List.flatten_nil, List.append_nil] at here
    exact here
  | @whole body _ plain later =>
    -- a marker that went on behind the line would have its line feed in it
    rcases List.prefix_or_prefix_of_prefix here start with within | beyond
    · exact within
    · exact absurd (beyond.mem (List.mem_append_right _ List.mem_cons_self)) (no_feed_marker role)

/-- **A text of lines is unmarked** just when no line but the first starts with a marker. -/
theorem unmarked_flatten_iff {lines : List (List Char)} (lined : Lined lines) :
    Unmarked lines.flatten ↔ ∀ line ∈ lines.tail, isText line = true := by
  induction lined with
  | nil => exact iff_of_true unmarked_nil nofun
  | last plain =>
    rw [List.flatten_cons, List.flatten_nil, List.append_nil]
    exact iff_of_true (unmarked_of_no_feed plain) nofun
  | @whole body rest plain later ih =>
    rw [List.flatten_cons, List.append_assoc, unmarked_append_iff plain, List.singleton_append, unmarked_cons_iff, ih,
      List.tail_cons]
    cases rest with
    | nil => exact iff_of_true ⟨fun _ role here => role.marker_ne_nil (List.prefix_nil.mp here), nofun⟩ nofun
    | cons line rest =>
      rw [List.forall_mem_cons, isText_iff, List.tail_cons]
      refine and_congr_left fun _ => ⟨fun h role here => h rfl role ?_, fun h _ role here => h role ?_⟩
      · exact (marker_isPrefix_iff later role).mpr here
      · exact (marker_isPrefix_iff later role).mp here

/-! ## §3 — texts of messages -/

/-- **The lines of an unmarked text:** a first line that anything may be, and lines that start with no marker. -/
theorem isText_of_unmarked {cs : List Char} (h : Unmarked cs) : ∀ line ∈ (Text.lines cs).tail, isText line = true := by
  rw [← Text.flatten_lines cs, unmarked_flatten_iff (lined_lines cs)] at h
  exact h

/-- **What a message read from lines says** is a text that can be written. -/
theorem textFits_message {d : Draft} (h : Unmarked d.raw) : Outline.TextFits d.message.content := by
  obtain ⟨tail, whole, -⟩ := Text.trim_append d.raw
  have content : d.message.content.toList = trim d.raw := String.toList_ofList
  have inside : trim d.raw <:+: d.raw := ⟨_, tail, whole.symm⟩
  refine ⟨?_, ?_⟩
  · show String.ofList (trim d.message.content.toList) = d.message.content
    rw [content, Text.trim_trim]
    rfl
  · rw [content]
    exact fun line mem => isText_iff.mp (isText_of_unmarked (h.within inside) line mem)

/-- **The text of a message as it is written** is trimmed to itself. -/
theorem trim_written {content : String} (h : Outline.TextFits content) :
    trim (' ' :: content.toList ++ ['\n']) = content.toList := by
  rw [Text.trim_append_blank rfl, Text.trim_cons_blank rfl, Text.trim_toList h.trimmed]

theorem unmarked_written {content : String} (h : Outline.TextFits content) :
    Unmarked (' ' :: content.toList ++ ['\n']) := by
  have inner : Unmarked content.toList := by
    rw [← Text.flatten_lines content.toList, unmarked_flatten_iff (lined_lines _)]
    exact fun line mem => isText_iff.mpr (h.unmarked line mem)
  have blank : Unmarked (' ' :: content.toList) := unmarked_cons_iff.mpr ⟨nofun, inner⟩
  exact unmarked_append_feed blank

/-! ## §4 — messages -/

theorem isText_of_marker {line raw : List Char} {role : Role} (found : Role.ofLine? line = some (role, raw)) :
    isText line = false := by
  unfold isText
  rw [found]
  rfl

/-- **Lines that start with a marker line**, if there are any. -/
def Marked (lines : List (List Char)) : Prop := ∀ line ∈ lines.head?, isText line = false

theorem Marked.takeWhile {lines : List (List Char)} (h : Marked lines) : lines.takeWhile isText = [] := by
  cases lines with
  | nil => rfl
  | cons line rest =>
    refine List.takeWhile_cons_of_neg ?_
    rw [h line rfl]
    exact Bool.false_ne_true

theorem Marked.dropWhile {lines : List (List Char)} (h : Marked lines) : lines.dropWhile isText = lines := by
  have parts : lines.takeWhile isText ++ lines.dropWhile isText = lines := List.takeWhile_append_dropWhile
  rw [h.takeWhile] at parts
  exact parts

/-- A text that starts with a marker has lines that do. -/
theorem marked_lines {cs : List Char} {role : Role} (h : role.marker <+: cs) : Marked (Text.lines cs) := by
  have whole := Text.flatten_lines cs
  have lined := lined_lines cs
  intro line mem
  cases own : Text.lines cs with
  | nil =>
    rw [own] at mem
    cases mem
  | cons first rest =>
    rw [own] at whole lined mem
    obtain rfl : first = line := Option.some.inj mem
    rw [← whole] at h
    obtain ⟨raw, rfl⟩ := (marker_isPrefix_iff lined role).mp h
    exact isText_of_marker (role.ofLine?_marker raw)

theorem markedMessages_cons {line raw : List Char} {role : Role} (found : Role.ofLine? line = some (role, raw))
    (number : Nat) (rest : List (List Char)) :
    markedMessages number (line :: rest) =
      messagesFrom (number + 1) ⟨role, raw, ⟨number, role.marker.length + 1⟩⟩ rest := by
  unfold markedMessages
  dsimp only
  rw [found]

/-- **A message being read takes all lines up to the next marker.** -/
theorem messagesFrom_eq (number : Nat) (d : Draft) (lines : List (List Char)) :
    messagesFrom number d lines =
      (⟨d.role, d.raw ++ (lines.takeWhile isText).flatten, d.start⟩ : Draft).message ::
        markedMessages (number + (lines.takeWhile isText).length) (lines.dropWhile isText) := by
  induction lines generalizing number d with
  | nil =>
    rw [List.takeWhile_nil, List.flatten_nil, List.append_nil]
    rfl
  | cons line rest ih =>
    unfold messagesFrom
    split
    · rename_i role raw found
      have marker : ¬ isText line = true := by
        rw [isText_of_marker found]
        exact Bool.false_ne_true
      rw [List.takeWhile_cons_of_neg marker, List.dropWhile_cons_of_neg marker, markedMessages_cons found,
        List.flatten_nil, List.append_nil]
      rfl
    · rename_i none
      have text : isText line = true := Option.isNone_iff_eq_none.mpr none
      rw [ih, List.takeWhile_cons_of_pos text, List.dropWhile_cons_of_pos text, List.flatten_cons, List.append_assoc,
        List.length_cons, Nat.add_right_comm, Nat.add_assoc]

/-- **The lines of a message that is written**, with others after it: the marker starts the first of its own, and no
other starts with one. -/
theorem lines_written {m : Role × String} (h : Outline.TextFits m.2) (more : List Char) :
    ∃ raw rest, Text.lines (Outline.writtenTurn m ++ more) = (m.1.marker ++ raw) :: (rest ++ Text.lines more) ∧
      (∀ line ∈ rest, isText line = true) ∧ raw ++ rest.flatten = ' ' :: m.2.toList ++ ['\n'] := by
  have whole := Text.flatten_lines (' ' :: m.2.toList ++ ['\n'])
  have texts := isText_of_unmarked (unmarked_written h)
  cases own : Text.lines (' ' :: m.2.toList ++ ['\n']) with
  | nil =>
    rw [own] at whole
    cases whole
  | cons raw rest =>
    rw [own] at whole texts
    refine ⟨raw, rest, ?_, texts, whole⟩
    have ended : Ended (Outline.writtenTurn m) := by
      unfold Outline.writtenTurn
      rw [← List.append_assoc]
      exact .feed _
    rw [Text.lines_append ended]
    unfold Outline.writtenTurn
    rw [Text.lines_append_of_no_feed (no_feed_marker m.1) own]
    rfl

/-- Written messages start with a marker, if there are any. -/
theorem marked_written (messages : List (Role × String)) :
    Marked (Text.lines (messages.flatMap Outline.writtenTurn)) := by
  cases messages with
  | nil => nofun
  | cons m messages =>
    have start : m.1.marker <+: (m :: messages).flatMap Outline.writtenTurn := by
      refine ⟨' ' :: m.2.toList ++ ['\n'] ++ messages.flatMap Outline.writtenTurn, ?_⟩
      rw [List.flatMap_cons, ← List.append_assoc]
      rfl
    exact marked_lines start

/-- **Messages that are written** are read back. -/
theorem turns_of_written {messages : List (Role × String)} (h : ∀ m ∈ messages, Outline.TextFits m.2) (number : Nat) :
    (bodyMessages number (Text.lines (messages.flatMap Outline.writtenTurn))).map Message.turn = messages := by
  have marked (number : Nat) :
      (markedMessages number (Text.lines (messages.flatMap Outline.writtenTurn))).map Message.turn = messages := by
    induction messages generalizing number with
    | nil => rfl
    | cons m messages ih =>
      have fits := h m List.mem_cons_self
      have later : ∀ n ∈ messages, Outline.TextFits n.2 := fun n mem => h n (List.mem_cons_of_mem _ mem)
      obtain ⟨raw, rest, lines, texts, whole⟩ := lines_written fits (messages.flatMap Outline.writtenTurn)
      rw [List.flatMap_cons, lines, markedMessages_cons (Role.ofLine?_marker m.1 raw), messagesFrom_eq,
        List.takeWhile_append_of_pos texts, List.dropWhile_append_of_pos texts, (marked_written messages).takeWhile,
        (marked_written messages).dropWhile, List.map_cons, ih later, List.append_nil]
      show (m.1, String.ofList (trim (raw ++ rest.flatten))) :: messages = _
      rw [whole, trim_written fits, String.ofList_toList]
  rw [bodyMessages_eq, (marked_written messages).takeWhile, (marked_written messages).dropWhile]
  exact marked _

/-- **Messages that are read** can be written. -/
theorem textFits_markedMessages {lines : List (List Char)} (lined : Lined lines) (number : Nat) :
    ∀ m ∈ markedMessages number lines, Outline.TextFits m.content := by
  induction hn : lines.length using Nat.strongRecOn generalizing lines number with
  | ind n ih =>
    cases lines with
    | nil => nofun
    | cons line rest =>
      cases found : Role.ofLine? line with
      | none =>
        unfold markedMessages
        dsimp only
        rw [found]
        nofun
      | some marker =>
        obtain ⟨role, raw⟩ := marker
        have parts : rest.takeWhile isText ++ rest.dropWhile isText = rest := List.takeWhile_append_dropWhile
        rw [markedMessages_cons found, messagesFrom_eq]
        intro m mem
        rcases List.mem_cons.mp mem with rfl | later
        · -- the text of the message ends the lines that it was read from
          have own : Lined (line :: rest.takeWhile isText) := by
            rw [← parts, ← List.cons_append] at lined
            exact lined.take
          have unmarked := (unmarked_flatten_iff own).mpr fun text mem => List.mem_takeWhile_imp mem
          rw [List.flatten_cons, ofLine?_eq found, List.append_assoc] at unmarked
          exact textFits_message (unmarked.within (List.suffix_append _ _).isInfix)
        · have shorter : (rest.dropWhile isText).length < n := by
            have bound := (List.dropWhile_sublist isText (l := rest)).length_le
            rw [← hn, List.length_cons]
            omega
          have after : Lined (rest.dropWhile isText) := by
            have lines := lined.tail
            rw [← parts] at lines
            exact lines.drop
          exact ih _ shorter after _ rfl m later

theorem textFits_bodyMessages {lines : List (List Char)} (lined : Lined lines) (number : Nat) :
    ∀ m ∈ bodyMessages number lines, Outline.TextFits m.content := by
  have parts : lines.takeWhile isText ++ lines.dropWhile isText = lines := List.takeWhile_append_dropWhile
  rw [← parts] at lined
  rw [bodyMessages_eq]
  intro m mem
  rcases List.mem_append.mp mem with first | later
  · split at first
    · cases first
    · obtain rfl := List.mem_singleton.mp first
      refine textFits_message ((unmarked_flatten_iff lined.take).mpr fun text mem => ?_)
      exact List.mem_takeWhile_imp (List.mem_of_mem_tail mem)
  · exact textFits_markedMessages lined.drop _ m later

/-! ## §5 — script blocks -/

theorem openingFence?_written {language code : String} (h : Outline.BlockFits language code) :
    openingFence? (fence ++ language.toList ++ ['\n']) = some language.toList := by
  have kept : trim language.toList = language.toList := Text.trim_toList h.trimmed
  have some : language.toList ≠ [] := fun none => h.some (String.toList_eq_nil_iff.mp none)
  have last := Text.trimEnd_of_trim kept
  have line : trimEnd (fence ++ language.toList ++ ['\n']) = fence ++ language.toList := by
    rw [Text.trimEnd_append_blank rfl, Text.trimEnd_append_of_ne_nil fence (by rwa [last]), last]
  have rest : Text.after? fence (fence ++ language.toList) = .some language.toList := Text.after?_eq_some_iff.mpr rfl
  unfold openingFence?
  rw [line, rest]
  dsimp only
  rw [kept, if_neg some]

/-- A line that starts with a marker opens no script block. -/
theorem openingFence?_marker (role : Role) (raw : List Char) : openingFence? (role.marker ++ raw) = none := by
  have none : Text.after? fence (trimEnd (role.marker ++ raw)) = none := by
    rw [Text.after?_eq_none_iff]
    intro here
    have start := here.trans (Text.trimEnd_isPrefix _)
    cases role <;> exact absurd (List.cons_prefix_cons.mp start).1 (by decide)
  unfold openingFence?
  rw [none]

/-- A line that does not go on with the text before it starts with a marker. -/
theorem marker_of_isText {line : List Char} (h : isText line = false) :
    ∃ role raw, Role.ofLine? line = some (role, raw) := by
  cases found : Role.ofLine? line with
  | none =>
    unfold isText at h
    rw [found] at h
    cases h
  | some marker => exact ⟨marker.1, marker.2, rfl⟩

/-- No script block starts with a marker line. -/
theorem Marked.openingFence? {lines : List (List Char)} (h : Marked lines) :
    ∀ first ∈ lines.head?, openingFence? first = none := by
  intro first mem
  obtain ⟨role, raw, found⟩ := marker_of_isText (h first mem)
  rw [ofLine?_eq found]
  exact openingFence?_marker role raw

/-- **The language that a line opens a script block with** can be written. -/
theorem fits_of_openingFence? {first language : List Char} {rest : List (List Char)} (lined : Lined (first :: rest))
    (opened : openingFence? first = some language) : language ≠ [] ∧ trim language = language ∧ '\n' ∉ language := by
  have oneLine : '\n' ∉ trimEnd first := by
    cases lined with
    | last plain => exact fun mem => plain ((Text.trimEnd_isPrefix _).mem mem)
    | whole plain _ =>
      rw [Text.trimEnd_append_blank rfl]
      exact fun mem => plain ((Text.trimEnd_isPrefix _).mem mem)
  unfold openingFence? at opened
  split at opened
  · cases opened
  · rename_i text found
    dsimp only at opened
    split at opened
    · cases opened
    · rename_i some
      obtain rfl := Option.some.inj opened
      refine ⟨some, Text.trim_trim text, fun mem => oneLine ?_⟩
      rw [Text.after?_eq_some_iff.mp found]
      exact List.mem_append_right _ (Text.mem_of_mem_trim mem)

/-! ## §6 — documents -/

/-- The lines of a document that starts with a script block. -/
theorem lines_block {language code : String} (h : Outline.BlockFits language code) (more : List Char) :
    Text.lines (Outline.writtenBlock (some (language, code)) ++ more) =
      (fence ++ language.toList ++ ['\n']) :: (Text.lines code.toList ++ (fence ++ ['\n']) :: Text.lines more) := by
  have noFeed : '\n' ∉ fence := by decide
  have oneLine : '\n' ∉ fence ++ language.toList := fun mem => (List.mem_append.mp mem).elim noFeed h.oneLine
  have opening : Ended (fence ++ language.toList ++ ['\n']) := .feed _
  have closing : Ended (fence ++ ['\n']) := .feed _
  unfold Outline.writtenBlock
  dsimp only
  rw [Text.lines_append ((opening.append h.ended).append closing), Text.lines_append (opening.append h.ended),
    Text.lines_append opening, Text.lines_line oneLine, Text.lines_line noFeed]
  simp only [List.cons_append, List.nil_append, List.append_assoc]

/-- **An outline that can be written** is read back. -/
theorem outline_of_written {o : Outline} (h : o.Fits) : ∃ t, parse o.render = .ok t ∧ t.outline = o := by
  obtain ⟨block, messages⟩ := o
  have turns := turns_of_written h.messages
  have text : (Outline.render ⟨block, messages⟩).toList =
      Outline.writtenBlock block ++ messages.flatMap Outline.writtenTurn := String.toList_ofList
  cases block with
  | none =>
    refine ⟨⟨none, bodyMessages 1 (Text.lines (messages.flatMap Outline.writtenTurn))⟩, ?_, ?_⟩
    · rw [parse_eq_ok_iff, text]
      show Reads (Text.lines (messages.flatMap Outline.writtenTurn)) _
      exact .messages (marked_written messages).openingFence?
    · exact congrArg (Outline.mk none) (turns 1)
  | some block =>
    obtain ⟨language, code⟩ := block
    have fits := h.block language code rfl
    have closed : toFence? (Text.lines code.toList ++ (fence ++ ['\n']) ::
        Text.lines (messages.flatMap Outline.writtenTurn)) =
        some (Text.lines code.toList, Text.lines (messages.flatMap Outline.writtenTurn)) := by
      refine toFence?_eq_some_iff.mpr ⟨fence ++ ['\n'], rfl, by decide, fun line mem => ?_⟩
      exact decide_eq_false (fits.noFence line mem)
    have read := Reads.block (openingFence?_written fits) closed
    rw [← lines_block fits, ← text, ← parse_eq_ok_iff] at read
    refine ⟨_, read, ?_⟩
    unfold outline
    rw [turns, Text.flatten_lines, String.ofList_toList, Option.map_some, String.ofList_toList]

/-- **What is read from a document** can be written. -/
theorem fits_outline {src : String} {t : Transcript} (h : parse src = .ok t) : t.outline.Fits := by
  have lined := lined_lines src.toList
  rw [parse_eq_ok_iff] at h
  generalize Text.lines src.toList = lines at h lined
  have said {ms : List Message} (fits : ∀ m ∈ ms, Outline.TextFits m.content) :
      ∀ m ∈ ms.map Message.turn, Outline.TextFits m.2 := by
    rintro _ mem
    obtain ⟨m, there, rfl⟩ := List.mem_map.mp mem
    exact fits m there
  cases h with
  | messages plain => exact ⟨nofun, said (textFits_bodyMessages lined 1)⟩
  | @block first language rest code after opened closed =>
    obtain ⟨closing, rfl, -, inside⟩ := toFence?_eq_some_iff.mp closed
    obtain ⟨some, trimmed, oneLine⟩ := fits_of_openingFence? lined opened
    obtain ⟨whole, ended⟩ := Text.lines_flatten lined.tail (List.cons_ne_nil _ _)
    refine ⟨?_, said (textFits_bodyMessages lined.tail.drop.tail _)⟩
    rintro _ _ ⟨⟩
    refine ⟨?_, ?_, ?_, ?_, ?_⟩
    · exact fun none => some (String.toList_ofList.symm.trans (congrArg String.toList none))
    · unfold Text.trimmed
      rw [String.toList_ofList, trimmed]
    · rw [String.toList_ofList]
      exact oneLine
    · rw [String.toList_ofList]
      exact ended
    · rw [String.toList_ofList, whole]
      exact fun line mem => of_decide_eq_false (inside line mem)

/-- **Documents are written and read back:** an outline that can be written is what its document says; and what any
document says can be written, so that writing it and reading it again changes nothing. -/
theorem parse_render :
    (∀ o : Outline, o.Fits → ∃ t, parse o.render = .ok t ∧ t.outline = o) ∧
      ∀ src t, parse src = .ok t → t.outline.Fits ∧ ∃ again, parse t.outline.render = .ok again ∧
        again.outline = t.outline :=
  ⟨fun _ fits => outline_of_written fits,
    fun _ _ read => ⟨fits_outline read, outline_of_written (fits_outline read)⟩⟩

/-- A script block, text before the first marker, a message without text, and a marker inside a line. -/
theorem parse_render_implicit :
    let src := "```rhai \nlet n = 1;\n```\nHello\n@You:\n@Assistant: so\n @You: said"
    let t : Transcript := ⟨some ⟨"rhai", "let n = 1;\n", 1⟩, [⟨.you, "Hello", 4, ⟨4, 1⟩⟩, ⟨.you, "", 5, ⟨6, 1⟩⟩,
      ⟨.assistant, "so\n @You: said", 6, ⟨6, 13⟩⟩]⟩
    let o : Outline := ⟨some ("rhai", "let n = 1;\n"), [(.you, "Hello"), (.you, ""), (.assistant, "so\n @You: said")]⟩
    (parse src = .ok t ∧ o.Fits) ∧ (∃ again, parse o.render = .ok again ∧ again.outline = o) ∧
      t.outline.Fits ∧ ∃ again, parse t.outline.render = .ok again ∧ again.outline = t.outline := by
  intro src t o
  have read : parse src = .ok t := by decide +kernel
  have texts : ∀ m ∈ o.messages, Text.trimmed m.2 = m.2 ∧
      ∀ line ∈ (Text.lines m.2.toList).tail, isText line = true := by decide +kernel
  have fits : o.Fits := by
    refine ⟨?_, fun m mem => ⟨(texts m mem).1, fun line there => isText_iff.mp ((texts m mem).2 line there)⟩⟩
    rintro _ _ ⟨⟩
    exact ⟨by decide, by decide +kernel, by decide, .inr ⟨"let n = 1;".toList, by decide⟩, by decide +kernel⟩
  exact ⟨⟨read, fits⟩, parse_render.1 o fits, parse_render.2 src t read⟩

end Transcript

end Dialogue
