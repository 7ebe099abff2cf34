import Dialogue.Proofs.Script.Reading
import Dialogue.Proofs.Script.Scoped
/-!
# `Dialogue.Proofs.Script.Scoped.Reading` — scripts are read as scoped code.

Reading makes blocks whose declarations fit, and so the code that it makes of them is scoped. Main statement: a script
that is read is a scoped block, and no two of its functions have one key.
-/

namespace Dialogue.Script

/-- **Code is scoped** when its parts are. Nothing is asked of the code of closures. -/
theorem scopedCode_closed : scopedCode.Closed where
  constant {v} pos _ := .constant v pos
  var := .var
  this := .this
  template h pos := .template h pos
  array h pos := .array h pos
  object h pos := .object h pos
  operation op _ h pos := .operation op h pos
  call name _ h pos here := .call name h pos here
  both ha hb pos := .both ha hb pos
  either ha hb pos := .either ha hb pos
  orElse ha hb pos := .orElse ha hb pos
  chain hr _ hs := .chain hr hs
  closure captured code _ pos := .closure captured code pos
  statements h pos := .statements h.statements h.placed pos
  property := .property
  index h bracket optional := .index h bracket optional
  method name _ h pos dot optional := .method name h pos dot optional
  function _ _ _ _ := trivial
  noop := .noop
  declare name constant inPlace _ h pos := .declare name constant inPlace h pos
  assign ht op _ hv pos := .assign ht op hv pos
  alone h := .expr h
  block h pos := .block h.statements h.placed pos
  branch hc _ _ hy hn pos := .branch hc hy.statements hy.placed hn.statements hn.placed pos
  switch hi _ ha _ hf pos := .switch hi ha hf pos
  repeatWhile hc _ hb pos := .repeatWhile hc hb.statements hb.placed pos
  repeatAfter hb _ hc goOn pos := .repeatAfter hb.statements hb.placed hc goOn pos
  each name counter _ hi _ hb pos := .each name counter hi hb.statements hb.placed pos
  leave h pos := .leave h pos
  proceed := .proceed
  giveBack h pos := .giveBack h pos
  raise h pos := .raise h pos
  attempt hb name _ hh pos := .attempt hb.statements hb.placed name hh.statements hh.placed pos
  importModule h pos := .importModule h pos
  arm patterns _ hg _ ha := .mk patterns hg ha

/-- **A script that is read is scoped**, and no two of its functions have one key. -/
theorem Parser.scoped_script {text : String} {s : Program} (h : script text = .ok s) :
    ScopedBlock s.statements ∧ Keyed s.functions :=
  have whole := read_script scopedCode_closed h
  ⟨whole.block, whole.functions.keyed⟩

end Dialogue.Script
