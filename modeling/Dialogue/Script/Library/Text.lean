import Dialogue.Path
import Dialogue.Script.Library.Outcome
import Dialogue.Text.Blank
import Dialogue.Text.Case
/-!
# `Dialogue.Script.Library.Text` — functions on texts and paths.

Positions in a text count characters. `trim` and `replace` change the text they are called on.
-/

namespace Dialogue.Script.Library

/-- A text or a character as characters. -/
def phrase? : Value → Option (List Char)
  | .str s => some s.toList
  | .char c => some [c]
  | _ => none

/-- The text of characters. -/
def textOf (cs : List Char) : Value := .str (String.ofList cs)

/-- The pieces between occurrences of a phrase. -/
def pieces (phrase : List Char) : (fuel : Nat) → List Char → List (List Char)
  | 0, cs => [cs]
  | fuel + 1, cs =>
    match Text.cutAt? phrase cs with
    | some (before, rest) => before :: pieces phrase fuel rest
    | none => [cs]

/-- **The pieces between occurrences of a phrase.** The empty phrase occurs around every character. -/
def splitBy (phrase cs : List Char) : List (List Char) :=
  if phrase = [] then [[]] ++ cs.map (fun c => [c]) ++ [[]] else pieces phrase (cs.length + 1) cs

/-- The words of a text. -/
def words (cs : List Char) : List (List Char) :=
  (cs.splitBy fun a b => Text.isBlank a == Text.isBlank b).filter fun w => !w.any Text.isBlank

/-- Pieces put together with a phrase between them. -/
def joinedBy (phrase : List Char) (ps : List (List Char)) : List Char := phrase.intercalate ps

/-- The text with a phrase replaced everywhere. -/
def replaced (cs phrase other : List Char) : List Char := joinedBy other (splitBy phrase cs)

/-- Does a text hold a phrase? -/
def holds (cs phrase : List Char) : Bool := (Text.cutAt? phrase cs).isSome

/-- The position of the first occurrence of a phrase at or after `start`. -/
def indexFrom (cs phrase : List Char) (start : Int64) : Int :=
  if cs = [] ∨ (0 < start.toInt ∧ (cs.length : Int) ≤ start.toInt) then -1
  else
    let skipped := offset cs.length start
    match Text.cutAt? phrase (cs.drop skipped) with
    | some (before, _) => skipped + before.length
    | none => -1

/-- **A part of a text**, from `start` and `length` characters long. -/
def part (cs : List Char) (start length : Int) : List Char :=
  let from_ := if 0 ≤ start then start.toNat else cs.length - (-start).toNat
  (cs.drop from_).take length.toNat

/-- Two pieces of a text, cut at a position. -/
def cutIn (cs : List Char) (n : Int64) : List Value :=
  let i := n.toInt
  let at_ := if 0 ≤ i then i.toNat else cs.length - (-i).toNat
  [textOf (cs.take at_), textOf (cs.drop at_)]

/-- A whole number as a value. -/
def whole (n : Int) : Value := .int (Int64.ofInt n)

/-- **Functions on texts.** -/
def onTexts? (name : String) (arguments : List Value) : Call :=
  match arguments with
  | .str s :: rest =>
    let cs := s.toList
    match name, rest with
    | "len", [] => .count cs.length
    | "bytes", [] => .count s.utf8ByteSize
    | "is_empty", [] => .truth cs.isEmpty
    | "to_upper", [] => .text (Text.toUpper s)
    | "to_lower", [] => .text (Text.toLower s)
    | "trim", [] => .becomes (textOf (Text.trim cs)) .unit
    | "clear", [] => .becomes (.str "") .unit
    | "split", [] => .yields (.array ((words cs).map textOf))
    | "split", [.int n] => .yields (.array (cutIn cs n))
    | "split", [p] => .given (phrase? p) fun p => .yields (.array ((splitBy p cs).map textOf))
    | "contains", [p] => .given (phrase? p) fun p => .truth (holds cs p)
    | "starts_with", [.str p] => .truth (p.toList.isPrefixOf cs)
    | "ends_with", [.str p] => .truth (p.toList.isSuffixOf cs)
    | "index_of", [p] => .given (phrase? p) fun p => .yields (whole (indexFrom cs p 0))
    | "index_of", [p, .int n] => .given (phrase? p) fun p => .yields (whole (indexFrom cs p n))
    | "sub_string", [.int n] => .yields (textOf (part cs n.toInt cs.length))
    | "sub_string", [.int n, .int k] => .yields (textOf (part cs n.toInt k.toInt))
    | "sub_string", [.range first last inclusive] =>
      let start := max first.toInt 0
      let stop := max last.toInt start
      .yields (textOf (part cs start (stop - start + if inclusive then 1 else 0)))
    | "replace", [p, q] =>
      .given (phrase? p) fun p => .given (phrase? q) fun q => .becomes (textOf (replaced cs p q)) .unit
    | _, _ => none
  | [.char c] =>
    match name with
    | "to_upper" => .given (Text.toUpper c.toString).toList.head? fun d => .yields (.char d)
    | "to_lower" => .given (Text.toLower c.toString).toList.head? fun d => .yields (.char d)
    | _ => none
  | _ => none

/-- **Functions on paths.** -/
def onPaths? (name : String) (arguments : List Value) : Call :=
  match name, arguments with
  | "dirname", [.str p] =>
    .text (((Path.ofString p).parent?.map Path.toString).getD "")
  | "basename", [.str p] =>
    .text (((Path.ofString p).fileName?.map String.ofList).getD "")
  | "join_path", [.str p, .str q] =>
    .text ((Path.ofString p).resolve (Path.ofString q)).toString
  | _, _ => none

end Dialogue.Script.Library
