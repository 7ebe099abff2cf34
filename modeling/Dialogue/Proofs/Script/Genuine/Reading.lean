import Dialogue.Proofs.Script.Genuine
import Dialogue.Proofs.Script.Reading
/-!
# `Dialogue.Proofs.Script.Genuine.Reading` — no text says a failure.

What is read has scalars for its constants, and constants that are put together of those. So whatever a script may come
to hold, at first there is no failure in it. Main statements: a script that is read is genuine, whichever failures are,
and so is a single expression.
-/

namespace Dialogue.Script

variable {P : Failure → Prop}

/-- **Genuine code**, of each kind. -/
abbrev genuineCode (P : Failure → Prop) : Judgement where
  expr := Expr.Genuine P
  step := Step.Genuine P
  stmt := Stmt.Genuine P
  arm := Arm.Genuine P
  function := Function.Genuine P

/-- **Code is genuine** when its parts are, and scalars are for a start. -/
theorem genuineCode_closed : (genuineCode P).Closed where
  constant pos h := .constant (.scalar h) pos
  var := .var
  this := .this
  template h pos := .template h pos
  array h pos := .array h pos
  object h pos := .object h pos
  operation op _ h pos := .operation op h pos
  call name _ h pos := .call name h pos
  both ha hb pos := .both ha hb pos
  either ha hb pos := .either ha hb pos
  orElse ha hb pos := .orElse ha hb pos
  chain hr _ hs := .chain hr hs
  closure captured _ h pos := .closure captured h pos
  statements h pos := .statements h.statements pos
  property := .property
  index h bracket optional := .index h bracket optional
  method name _ h pos dot optional := .method name h pos dot optional
  function name params _ h := .mk name params h
  noop := .noop
  declare name constant inPlace _ h pos := .declare name constant inPlace h pos
  assign ht op _ hv pos := .assign ht op hv pos
  alone h := .expr h
  block h pos := .block h.statements pos
  branch hc _ _ hy hn pos := .branch hc hy.statements hn.statements pos
  switch hi _ ha _ hf pos := .switch hi ha hf pos
  repeatWhile hc _ hb pos := .repeatWhile hc hb.statements pos
  repeatAfter hb _ hc goOn pos := .repeatAfter hb.statements hc goOn pos
  each name counter _ hi _ hb pos := .each name counter hi hb.statements pos
  leave h pos := .leave h pos
  proceed := .proceed
  giveBack h pos := .giveBack h pos
  raise h pos := .raise h pos
  attempt hb name _ hh pos := .attempt hb.statements name hh.statements pos
  importModule h pos := .importModule h pos
  arm patterns _ hg _ ha := .mk patterns hg ha

namespace Parser

theorem genuine_whole {s : Program} (h : (genuineCode P).Whole s) : s.Genuine P :=
  ⟨h.block.statements, h.functions.each⟩

variable {text : String} {s : Program}

/-- **A script that is read is genuine**, whichever failures are. -/
theorem genuine_script (h : script text = .ok s) : s.Genuine P := genuine_whole (read_script genuineCode_closed h)

/-- **A single expression that is read is genuine**, whichever failures are. -/
theorem genuine_singleExpression (h : singleExpression text = .ok s) : s.Genuine P :=
  genuine_whole (read_singleExpression genuineCode_closed h)

end Parser

end Dialogue.Script
