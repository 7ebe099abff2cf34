import Dialogue.Proofs.Script.Genuine.Reading
import Dialogue.Proofs.Script.Simplify
/-!
# `Dialogue.Proofs.Script.Genuine.Simplify` — code made shorter holds no other failures.

What is put in the place of code is a part of it, a scalar that was computed, or the value of a constant that is known.
Main statement: a genuine script that is made shorter, with genuine constants known, is a genuine script.
-/

namespace Dialogue.Script

variable {P : Failure → Prop}

/-! ## §1 — literals -/

namespace Expr

mutual

/-- **The constant that a genuine expression stands for** is genuine. -/
theorem Genuine.literal? : ∀ {e : Expr} {c : Constant}, e.Genuine P → e.literal? = some c → Constant.Genuine P c
  | .constant _ _, _, .constant h _, rfl => h
  | .array _ _, _, .array h _, e => by
    obtain ⟨cs, hcs, rfl⟩ := Option.map_eq_some_iff.mp e
    exact .array (Genuine.literals? h hcs)
  | .object _ _, _, .object h _, e => by
    obtain ⟨fs, hfs, rfl⟩ := Option.map_eq_some_iff.mp e
    exact .object (FieldsHold.ofFields (Genuine.literalFields? h hfs))
  | .template _ _, _, _, e => by
    obtain ⟨cs, -, rfl⟩ := Option.map_eq_some_iff.mp e
    exact Datum.holds_str _

theorem Genuine.literals? : ∀ {es : List Expr} {cs : List Constant}, (∀ e ∈ es, e.Genuine P) →
    literals? es = some cs → ∀ c ∈ cs, Constant.Genuine P c
  | [], _, _, rfl => nofun
  | _ :: _, _, h, e => by
    obtain ⟨he, hes⟩ := List.forall_mem_cons.mp h
    obtain ⟨c, hc, e⟩ := Option.bind_eq_some_iff.mp e
    obtain ⟨cs, hcs, e⟩ := Option.bind_eq_some_iff.mp e
    cases e
    exact List.forall_mem_cons.mpr ⟨Genuine.literal? he hc, Genuine.literals? hes hcs⟩

theorem Genuine.literalFields? : ∀ {fs : List (String × Expr)} {gs : List (String × Constant)},
    (∀ f ∈ fs, f.2.Genuine P) → literalFields? fs = some gs → ∀ g ∈ gs, Constant.Genuine P g.2
  | [], _, _, rfl => nofun
  | (_, _) :: _, _, h, e => by
    obtain ⟨hf, hfs⟩ := List.forall_mem_cons.mp h
    obtain ⟨c, hc, e⟩ := Option.bind_eq_some_iff.mp e
    obtain ⟨gs, hgs, e⟩ := Option.bind_eq_some_iff.mp e
    cases e
    exact List.forall_mem_cons.mpr ⟨Genuine.literal? hf hc, Genuine.literalFields? hfs hgs⟩

end

end Expr

/-! ## §2 — scripts -/

namespace Simplify

/-- **Code is genuine through its parts.** -/
theorem genuineCode_transparent : Transparent (genuineCode P) (AllGenuine P) where
  scalar pos h := .constant (.scalar h) pos
  literal h stands pos := .constant (h.literal? stands) pos
  template | .template h pos => ⟨h, fun h => .template h pos⟩
  array | .array h pos => ⟨h, fun h => .array h pos⟩
  object | .object h pos => ⟨h, fun h => .object h pos⟩
  operation | .operation op h pos => ⟨h, fun h => .operation op h pos⟩
  call | .call name h pos here => ⟨h, fun h => .call name h pos here⟩
  both | .both ha hb pos => ⟨⟨ha, hb⟩, fun ha hb => .both ha hb pos⟩
  either | .either ha hb pos => ⟨⟨ha, hb⟩, fun ha hb => .either ha hb pos⟩
  orElse | .orElse ha hb pos => ⟨⟨ha, hb⟩, fun ha hb => .orElse ha hb pos⟩
  chain | .chain hr hs => ⟨⟨hr, hs⟩, fun hr hs => .chain hr hs⟩
  statements | .statements h pos => ⟨h, fun h => .statements h pos⟩
  index | .index h bracket optional => ⟨h, fun h => .index h bracket optional⟩
  method | .method name h pos dot optional => ⟨h, fun h => .method name h pos dot optional⟩
  noop := .noop
  alone := ⟨fun | .expr h => h, .expr⟩
  block := ⟨fun | .block h _ => h, fun h => .block h _⟩
  declare | .declare name constant inPlace h pos => ⟨h, fun h => .declare name constant inPlace h pos⟩
  assign | .assign ht op hv pos => ⟨⟨ht, hv⟩, fun ht hv => .assign ht _ hv _⟩
  branch | .branch hc hy hn pos => ⟨⟨hc, hy, hn⟩, fun hc hy hn => .branch hc hy hn pos⟩
  switch | .switch hi ha hf pos => ⟨⟨hi, ha, hf⟩, fun hi ha hf => .switch hi ha hf pos⟩
  repeatWhile | .repeatWhile hc hb pos => ⟨⟨hc, hb⟩, fun hc hb => .repeatWhile hc hb pos⟩
  repeatAfter | .repeatAfter hb hc goOn pos => ⟨⟨hb, hc⟩, fun hb hc => .repeatAfter hb hc goOn pos⟩
  each | .each name counter hi hb pos => ⟨⟨hi, hb⟩, fun hi hb => .each name counter hi hb pos⟩
  leave | .leave h pos => ⟨h, fun h => .leave h pos⟩
  giveBack | .giveBack h pos => ⟨h, fun h => .giveBack h pos⟩
  raise | .raise h pos => ⟨h, fun h => .raise h pos⟩
  attempt | .attempt hb name hh pos => ⟨⟨hb, hh⟩, fun hb hh => .attempt hb name hh pos⟩
  importModule | .importModule h pos => ⟨h, fun h => .importModule h pos⟩
  arm | .mk patterns hg ha => ⟨⟨hg, ha⟩, fun hg ha => .mk patterns hg ha⟩
  inner h := h
  shorter _ shortens := shortens.statements
  plain h s mem := (h s mem).inner

/-- **Constants that are known** are genuine. -/
def Known.Genuine (P : Failure → Prop) (k : Known) : Prop := ∀ name v, k name = some v → Constant.Genuine P v

theorem Known.Genuine.agrees {k : Known} (h : k.Genuine P) : k.Agrees (genuineCode P) k :=
  ⟨fun _ => rfl, fun known pos => .constant (h _ _ known) pos⟩

theorem Known.Genuine.without {k : Known} (h : k.Genuine P) (names : List String) : (k.without names).Genuine P := by
  intro other c known
  unfold Known.without at known
  split at known
  · cases known
  · exact h other c known

/-- **A genuine script made shorter** is genuine, and so are its functions. -/
theorem genuine_script {k : Known} (hk : k.Genuine P) {s : Program} (h : s.Genuine P) : (script k s).Genuine P := by
  have shorter {k : Known} (hk : k.Genuine P) {ss : List Stmt} (h : AllGenuine P ss) : AllGenuine P (wholeBlock k ss) :=
    (alike_repeated genuineCode_transparent hk.agrees _ tries h).2.statements
  refine ⟨shorter hk h.statements, fun f mem => ?_⟩
  obtain ⟨g, there, rfl⟩ := List.mem_map.mp mem
  exact .mk _ _ (shorter (hk.without _) (h.functions g there).body)

end Simplify

end Dialogue.Script
