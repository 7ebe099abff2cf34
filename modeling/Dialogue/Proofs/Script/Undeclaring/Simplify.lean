import Dialogue.Proofs.Script.Simplify
/-!
# `Dialogue.Proofs.Script.Undeclaring.Simplify` — code without declarations made shorter.

What is known of variables only matters for those that the code mentions. Main statement: a script that declares
nothing becomes the same script with whatever is known alike of the variables it mentions, and still declares nothing
then, nor mentions any others.
-/

namespace Dialogue.Script

variable (N : Mention → Prop)

/-- **Code that declares nothing** and mentions nothing but what is in `N`, of each kind. -/
abbrev undeclaringCode : Judgement where
  expr := Expr.Within N
  step := Step.Within N
  stmt := Stmt.Within N
  arm := Arm.Within N
  function _ := True

namespace Simplify

/-- Statements that declare nothing, and name nothing but what is in `N`. -/
abbrev AllWithin (ss : List Stmt) : Prop := ∀ s ∈ ss, s.Within N

variable {N}

/-- **Code declares nothing** when its parts do not. Statements of other kinds than the ones here may not be in it. -/
theorem undeclaringCode_transparent : Transparent (undeclaringCode N) (AllWithin N) where
  scalar pos _ := .constant _ pos
  literal _ _ pos := .constant _ pos
  template | .template h pos => ⟨h, fun h => .template h pos⟩
  array | .array h pos => ⟨h, fun h => .array h pos⟩
  object | .object h pos => ⟨h, fun h => .object h pos⟩
  operation | .operation op h pos => ⟨h, fun h => .operation op h pos⟩
  call | .call name h pos hh => ⟨h, fun h => .call name h pos hh⟩
  both | .both ha hb pos => ⟨⟨ha, hb⟩, fun ha hb => .both ha hb pos⟩
  either | .either ha hb pos => ⟨⟨ha, hb⟩, fun ha hb => .either ha hb pos⟩
  orElse | .orElse ha hb pos => ⟨⟨ha, hb⟩, fun ha hb => .orElse ha hb pos⟩
  chain | .chain hr hs => ⟨⟨hr, hs⟩, fun hr hs => .chain hr hs⟩
  statements | .statements h pos => ⟨h, fun h => .statements h pos⟩
  index | .index h bracket optional => ⟨h, fun h => .index h bracket optional⟩
  method | .method name h pos dot optional => ⟨h, fun h => .method name h pos dot optional⟩
  noop := .noop
  alone := ⟨fun | .expr h => h, .expr⟩
  block := ⟨fun | .block h _ => h, fun h => .block h _⟩
  declare := nofun
  assign | .assign ht op hv pos => ⟨⟨ht, hv⟩, fun ht hv => .assign ht _ hv _⟩
  branch | .branch hc hy hn pos => ⟨⟨hc, hy, hn⟩, fun hc hy hn => .branch hc hy hn pos⟩
  switch | .switch hi ha hf pos => ⟨⟨hi, ha, hf⟩, fun hi ha hf => .switch hi ha hf pos⟩
  repeatWhile := nofun
  repeatAfter := nofun
  each := nofun
  leave := nofun
  giveBack := nofun
  raise := nofun
  attempt := nofun
  importModule := nofun
  arm | .mk patterns hg ha => ⟨⟨hg, ha⟩, fun hg ha => .mk patterns hg ha⟩
  inner h := h
  shorter _ shortens := shortens.statements
  plain h s mem := (h s mem).inner

/-- **A script that declares nothing** does not either once it is made shorter, and what is known of the variables
that it does not mention makes no difference. -/
theorem alike_statements_script {k k' : Known} (known : ∀ name, N (.variable name) → k' name = k name) {s : Program}
    (h : AllWithin N s.statements) :
    (script k' s).statements = (script k s).statements ∧ AllWithin N (script k s).statements := by
  have agrees : k.Agrees (undeclaringCode N) k' := ⟨fun | .var h _ => known _ h, fun _ pos => .constant _ pos⟩
  exact (alike_repeated undeclaringCode_transparent agrees _ tries h).imp_right Shortens.statements

end Simplify

end Dialogue.Script
