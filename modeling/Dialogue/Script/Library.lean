import Dialogue.Script.Library.Collection
import Dialogue.Script.Library.Number
import Dialogue.Script.Library.Text
/-!
# `Dialogue.Script.Library` — the functions that every script has.

These work on values alone. Those that call back into the script, or ask for files, are part of evaluation.
-/

namespace Dialogue.Script.Library

/-- The text of a value with strings quoted. -/
def detailed (v : Value) : String := v.innerText Inclusion.shape

/-- **Functions on any value.** How an include is shown counts as a change to it. -/
def onAll? (name : String) (arguments : List Value) : Call :=
  match name, arguments with
  | "to_string", [.inclusion i] => .becomes (.inclusion i) (.str i.text)
  | "to_debug", [.inclusion i] => .becomes (.inclusion i) (.str i.shape)
  | "to_string", [v] => .text v.scriptText
  | "to_debug", [v] => .text (detailed v)
  | "type_of", [v] => .text v.typeName
  | "print", [_] | "print", [] | "debug", [_] | "debug", [] => .yields .unit
  -- how long it takes does not show but in later readings of the clock
  | "sleep", [.int _] | "sleep", [.float _] => .yields .unit
  | _, _ => none

/-- **Call a function of the library**, if there is one that takes these arguments. -/
def call? (name : String) (arguments : List Value) : Call :=
  onAll? name arguments <|> onTexts? name arguments <|> onArrays? name arguments <|>
    onMaps? name arguments <|> onNumbers? name arguments <|> onPaths? name arguments

end Dialogue.Script.Library
