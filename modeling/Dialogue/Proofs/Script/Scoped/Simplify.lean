import Dialogue.Proofs.Script.Scoped
import Dialogue.Proofs.Script.Simplify
/-!
# `Dialogue.Proofs.Script.Scoped.Simplify` — scoped code made shorter is scoped.

The declarations that are left in a block are the first ones, and those fit as they did before. Main statement: a
scoped script that is made shorter is scoped, and declares the first variables that it declared before.
-/

namespace Dialogue.Script.Simplify

/-- **Code is scoped through its parts**, and constants are whatever they may be. -/
theorem scopedCode_transparent : Transparent scopedCode ScopedBlock where
  scalar pos _ := .constant _ pos
  literal _ _ pos := .constant _ pos
  template | .template h pos => ⟨h, fun h => .template h pos⟩
  array | .array h pos => ⟨h, fun h => .array h pos⟩
  object | .object h pos => ⟨h, fun h => .object h pos⟩
  operation | .operation op h pos => ⟨h, fun h => .operation op h pos⟩
  call | .call name h pos here => ⟨h, fun h => .call name h pos here⟩
  both | .both ha hb pos => ⟨⟨ha, hb⟩, fun ha hb => .both ha hb pos⟩
  either | .either ha hb pos => ⟨⟨ha, hb⟩, fun ha hb => .either ha hb pos⟩
  orElse | .orElse ha hb pos => ⟨⟨ha, hb⟩, fun ha hb => .orElse ha hb pos⟩
  chain | .chain hr hs => ⟨⟨hr, hs⟩, fun hr hs => .chain hr hs⟩
  statements | .statements h placed pos => ⟨⟨h, placed⟩, fun h => .statements h.statements h.placed pos⟩
  index | .index h bracket optional => ⟨h, fun h => .index h bracket optional⟩
  method | .method name h pos dot optional => ⟨h, fun h => .method name h pos dot optional⟩
  noop := .noop
  alone := ⟨fun | .expr h => h, .expr⟩
  block := ⟨fun | .block h placed _ => ⟨h, placed⟩, fun h => .block h.statements h.placed _⟩
  declare | .declare name constant inPlace h pos => ⟨h, fun h => .declare name constant inPlace h pos⟩
  assign | .assign ht op hv pos => ⟨⟨ht, hv⟩, fun ht hv => .assign ht _ hv _⟩
  branch
    | .branch hc hy placedYes hn placedNo pos => ⟨⟨hc, ⟨hy, placedYes⟩, ⟨hn, placedNo⟩⟩, fun hc hy hn =>
      .branch hc hy.statements hy.placed hn.statements hn.placed pos⟩
  switch | .switch hi ha hf pos => ⟨⟨hi, ha, hf⟩, fun hi ha hf => .switch hi ha hf pos⟩
  repeatWhile
    | .repeatWhile hc hb placed pos => ⟨⟨hc, ⟨hb, placed⟩⟩, fun hc hb =>
      .repeatWhile hc hb.statements hb.placed pos⟩
  repeatAfter
    | .repeatAfter hb placed hc goOn pos => ⟨⟨⟨hb, placed⟩, hc⟩, fun hb hc =>
      .repeatAfter hb.statements hb.placed hc goOn pos⟩
  each
    | .each name counter hi hb placed pos => ⟨⟨hi, ⟨hb, placed⟩⟩, fun hi hb =>
      .each name counter hi hb.statements hb.placed pos⟩
  leave | .leave h pos => ⟨h, fun h => .leave h pos⟩
  giveBack | .giveBack h pos => ⟨h, fun h => .giveBack h pos⟩
  raise | .raise h pos => ⟨h, fun h => .raise h pos⟩
  attempt
    | .attempt hb placed name hh placedHandler pos => ⟨⟨⟨hb, placed⟩, ⟨hh, placedHandler⟩⟩, fun hb hh =>
      .attempt hb.statements hb.placed name hh.statements hh.placed pos⟩
  importModule | .importModule h pos => ⟨h, fun h => .importModule h pos⟩
  arm | .mk patterns hg ha => ⟨⟨hg, ha⟩, fun hg ha => .mk patterns hg ha⟩
  inner h := h.statements
  shorter h shortens := ⟨shortens.statements, h.placed.of_isPrefix shortens.first⟩
  plain := .plain

/-- **A scoped script made shorter** is scoped, and declares the first variables that it declared before. -/
theorem shortens_script (k : Known) {s : Program} (h : ScopedBlock s.statements) :
    Shortens scopedCode s.statements (script k s).statements := by
  have agrees : k.Agrees scopedCode k := ⟨fun _ => rfl, fun _ pos => .constant _ pos⟩
  exact (alike_repeated scopedCode_transparent agrees _ tries h.statements).2

end Dialogue.Script.Simplify
