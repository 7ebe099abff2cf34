import Dialogue.Text.Blank
import Dialogue.Text.Split
/-!
# `Dialogue.Media.Essence` — media types without parameters.
-/

namespace Dialogue.Media

/-- A letter in lower case; letters beyond ASCII stay as they are. -/
def lower (c : Char) : Char :=
  if 'A' ≤ c ∧ c ≤ 'Z' then Char.ofNat (c.toNat + 32) else c

/-- **The essence of a media type:** what stands before the first `;`, trimmed, in lower case. -/
def essence (mediaType : String) : String :=
  let head := mediaType.toList.takeWhile (· != ';')
  String.ofList ((Text.trim head).map lower)

end Dialogue.Media
