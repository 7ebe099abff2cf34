import Dialogue.Proofs.Text.Split
import Dialogue.Segment
import Mathlib.Data.List.Chain
/-!
# `Dialogue.Proofs.Segment` — the only way to cut a template.

Braces overlap: `{{{` opens at its first two braces, `}}}` closes at its first two, and `{{` that is never closed opens
nothing. What the pieces of a template look like can be told from the pieces alone. Main statement: lists of pieces that
look so are just the lists that templates are cut into, so a template is cut in one way, and pieces that are put together
are cut out again.
-/

namespace Dialogue.Segment

open Text (cutAt? cutAt?_eq_some_iff cutAt?_eq_none_iff)

/-! ## §1 — the form of a cut -/

/-- The text that a piece stands for. -/
def Placed.source : Placed → List Char
  | .text value => value
  | .expression _ raw _ => raw

/-- **What may stand next to what:** no text next to a text, and a text before an expression ends right where the braces
of the expression can first be seen. -/
def Placed.Meets : Placed → Placed → Prop
  | .text _, .text _ => False
  | .text value, .expression .. => ¬ opening <:+: value ++ ['{']
  | .expression .., _ => True

/-- **Braces that open are never closed** in the text. -/
def Unclosed (text : List Char) : Prop :=
  ∀ head tail, text = head ++ opening ++ tail → ¬ closing <:+: tail

/-- **Pieces as a template is cut into them**, where it stands behind some text. -/
structure WellCut (start : List Char) (ps : List Placed) : Prop where
  solid : .text [] ∉ ps
  /-- An expression is its code in braces, is closed by the first braces that can close it, and says where it stands. -/
  expression : ∀ earlier code raw offset later, ps = earlier ++ .expression code raw offset :: later →
    raw = opening ++ code ++ closing ∧ ¬ closing <:+: code ++ ['}'] ∧
      offset = Text.Utf8.size (start ++ earlier.flatMap Placed.source)
  meets : ps.IsChain Placed.Meets
  last : ∀ value, .text value ∈ ps.getLast? → Unclosed value

/-- What a piece looks like on its own, where it stands behind some text. -/
def Placed.Fits (start : List Char) : Placed → Prop
  | .text value => value ≠ []
  | .expression code raw offset =>
    raw = opening ++ code ++ closing ∧ ¬ closing <:+: code ++ ['}'] ∧ offset = Text.Utf8.size start

theorem wellCut_nil (start : List Char) : WellCut start [] where
  solid := List.not_mem_nil
  expression := by
    intro earlier code raw offset later h
    exact absurd h.symm (List.append_ne_nil_of_right_ne_nil _ (List.cons_ne_nil _ _))
  meets := .nil
  last := by
    intro value h
    cases h

/-- **Pieces are told one by one:** the first piece by itself and by the one behind it, then the others. -/
theorem wellCut_cons_iff {start : List Char} {p : Placed} {ps : List Placed} :
    WellCut start (p :: ps) ↔
      p.Fits start ∧ (∀ q ∈ ps.head?, p.Meets q) ∧ (ps = [] → ∀ value, p = .text value → Unclosed value) ∧
        WellCut (start ++ p.source) ps := by
  constructor
  · intro h
    refine ⟨?_, (List.isChain_cons.mp h.meets).1, ?_, ?_⟩
    · cases p with
      | text value =>
        intro none
        exact h.solid (none ▸ List.mem_cons_self)
      | expression code raw offset =>
        have here := h.expression [] code raw offset ps rfl
        rw [List.flatMap_nil, List.append_nil] at here
        exact here
    · rintro rfl value rfl
      exact h.last value rfl
    · refine ⟨fun mem => h.solid (List.mem_cons_of_mem _ mem), ?_, (List.isChain_cons.mp h.meets).2, ?_⟩
      · intro earlier code raw offset later split
        have here := h.expression (p :: earlier) code raw offset later (congrArg (p :: ·) split)
        rw [List.flatMap_cons, ← List.append_assoc] at here
        exact here
      · intro value mem
        apply h.last value
        cases ps with
        | nil => cases mem
        | cons q qs =>
          rw [List.getLast?_cons_cons]
          exact mem
  · rintro ⟨fits, meets, last, rest⟩
    refine ⟨?_, ?_, List.isChain_cons.mpr ⟨meets, rest.meets⟩, ?_⟩
    · intro mem
      rcases List.mem_cons.mp mem with here | later
      · subst here
        exact fits rfl
      · exact rest.solid later
    · -- an expression is the first piece itself, or stands behind it among the others
      intro earlier code raw offset later split
      cases earlier with
      | nil =>
        obtain ⟨rfl, -⟩ := List.cons.inj split
        rw [List.flatMap_nil, List.append_nil]
        exact fits
      | cons q earlier =>
        obtain ⟨rfl, behind⟩ := List.cons.inj split
        rw [List.flatMap_cons, ← List.append_assoc]
        exact rest.expression earlier code raw offset later behind
    · intro value mem
      cases ps with
      | nil => exact last rfl value (Option.some.inj mem)
      | cons q qs =>
        rw [List.getLast?_cons_cons] at mem
        exact rest.last value mem

/-! ## §2 — cutting a template -/

theorem closing_dropLast : closing.dropLast = ['}'] := rfl

theorem opening_dropLast : opening.dropLast = ['{'] := rfl

theorem opening_ne_nil : opening ≠ [] := List.cons_ne_nil _ _

theorem closing_ne_nil : closing ≠ [] := List.cons_ne_nil _ _

/-- Braces that open in a text have behind them nothing but what stands behind its first opening braces. -/
theorem unclosed_of_cut {src before inner : List Char} (opens : cutAt? opening src = some (before, inner))
    (never : cutAt? closing inner = none) : Unclosed src := by
  intro head tail same closed
  have behind : tail <:+ inner := Text.suffix_of_cutAt? opening_ne_nil opens same
  exact cutAt?_eq_none_iff.mp never (closed.trans behind.isInfix)

theorem unclosed_of_no_opening {src : List Char} (none : cutAt? opening src = none) : Unclosed src := by
  intro head tail same _
  apply cutAt?_eq_none_iff.mp none
  rw [same]
  exact (List.suffix_append head opening).isInfix.trans (List.prefix_append _ tail).isInfix

/-- A text in which no braces are closed is a single piece. -/
theorem ofTemplate_unclosed {src : List Char} (h : Unclosed src) : ofTemplate src = literal src := by
  fun_cases ofTemplate src with
  | case1 => rfl
  | case2 => rfl
  | case3 before inner opens code rest closes =>
    have same := Text.eq_of_cutAt? opens
    have inside : closing <:+: inner := by
      rw [Text.eq_of_cutAt? closes]
      exact (List.suffix_append code closing).isInfix.trans (List.prefix_append _ rest).isInfix
    exact absurd inside (h before inner same)

/-- **An expression is cut out** with the text before it. -/
theorem ofTemplate_expression {value code : List Char} (early : ¬ opening <:+: value ++ ['{'])
    (short : ¬ closing <:+: code ++ ['}']) (rest : List Char) :
    ofTemplate (value ++ (opening ++ code ++ closing) ++ rest) =
      literal value ++ expression code :: ofTemplate rest := by
  have opens : cutAt? opening (value ++ (opening ++ code ++ closing) ++ rest) =
      some (value, code ++ closing ++ rest) := by
    rw [← opening_dropLast] at early
    refine (cutAt?_eq_some_iff opening_ne_nil).mpr ⟨?_, early⟩
    simp only [List.append_assoc]
  have closes : cutAt? closing (code ++ closing ++ rest) = some (code, rest) := by
    rw [← closing_dropLast] at short
    exact (cutAt?_eq_some_iff closing_ne_nil).mpr ⟨rfl, short⟩
  rw [ofTemplate.eq_def]
  split
  · rename_i none
    rw [none] at opens
    cases opens
  · rename_i before inner found
    obtain ⟨rfl, rfl⟩ := Prod.mk.inj (Option.some.inj (found.symm.trans opens))
    split
    · rename_i none
      rw [none] at closes
      cases closes
    · rename_i code' rest' found
      obtain ⟨rfl, rfl⟩ := Prod.mk.inj (Option.some.inj (found.symm.trans closes))
      rfl

/-- An expression at the start of a template has no text before it. -/
theorem ofTemplate_opening {code : List Char} (short : ¬ closing <:+: code ++ ['}']) (rest : List Char) :
    ofTemplate (opening ++ code ++ closing ++ rest) = expression code :: ofTemplate rest := by
  have early : ¬ opening <:+: [] ++ ['{'] := by decide
  exact ofTemplate_expression early short rest

/-! ## §3 — pieces in their places -/

/-- Pieces as they are reported where they stand behind some text. -/
def laid (start : List Char) (segments : List Segment) : List Placed :=
  (located start segments).map fun (before, s) => place before s

theorem laid_cons (start : List Char) (s : Segment) (rest : List Segment) :
    laid start (s :: rest) = place start s :: laid (start ++ s.raw) rest := rfl

theorem source_place (before : List Char) (s : Segment) : (place before s).source = s.raw := by
  cases s <;> rfl

theorem flatMap_source_laid (start : List Char) (segments : List Segment) :
    (laid start segments).flatMap Placed.source = segments.flatMap raw := by
  induction segments generalizing start with
  | nil => rfl
  | cons s rest ih => rw [laid_cons, List.flatMap_cons, List.flatMap_cons, ih, source_place]

/-- Text that is not there is no piece. -/
theorem laid_literal_append (start value : List Char) (rest : List Segment) :
    laid start (literal value ++ rest) =
      (if value = [] then [] else [.text value]) ++ laid (start ++ value) rest := by
  unfold literal
  split
  · rename_i none
    rw [none, List.append_nil]
    rfl
  · rfl

/-- The last text of a template is well cut. -/
theorem wellCut_literal (start : List Char) {value : List Char} (h : Unclosed value) :
    WellCut start (laid start (literal value)) := by
  unfold literal
  split
  · exact wellCut_nil start
  · rename_i solid
    refine wellCut_cons_iff.mpr ⟨solid, ?_, ?_, wellCut_nil _⟩
    · intro q mem
      cases mem
    · intro _ value' same
      cases same
      exact h

/-- **A template is cut well**, wherever it stands. -/
theorem wellCut_ofTemplate (start src : List Char) : WellCut start (laid start (ofTemplate src)) := by
  fun_induction ofTemplate src generalizing start with
  | case1 src none => exact wellCut_literal start (unclosed_of_no_opening none)
  | case2 src before inner opens never => exact wellCut_literal start (unclosed_of_cut opens never)
  | case3 src before inner opens code rest closes _ ih =>
    have early := ((cutAt?_eq_some_iff opening_ne_nil).mp opens).2
    have short := ((cutAt?_eq_some_iff closing_ne_nil).mp closes).2
    have behind : WellCut (start ++ before) (laid (start ++ before) (expression code :: ofTemplate rest)) := by
      rw [laid_cons]
      refine wellCut_cons_iff.mpr ⟨⟨rfl, short, rfl⟩, fun _ _ => trivial, ?_, ih _⟩
      intro _ value same
      cases same
    rw [laid_literal_append]
    split
    · rename_i none
      subst none
      rw [List.append_nil] at behind ⊢
      exact behind
    · rename_i solid
      refine wellCut_cons_iff.mpr ⟨solid, ?_, ?_, behind⟩
      · intro q mem
        cases mem
        exact early
      · intro none
        cases none

/-- **Pieces that are well cut** are cut out of their text again. -/
theorem laid_of_wellCut {start : List Char} {ps : List Placed} (h : WellCut start ps) :
    laid start (ofTemplate (ps.flatMap Placed.source)) = ps := by
  induction ps generalizing start with
  | nil =>
    have none : ofTemplate [] = [] := ofTemplate_unclosed (unclosed_of_no_opening rfl)
    rw [List.flatMap_nil, none]
    rfl
  | cons p ps ih =>
    obtain ⟨fits, meets, last, later⟩ := wellCut_cons_iff.mp h
    have again := ih later
    cases p with
    | expression code raw offset =>
      obtain ⟨rfl, short, rfl⟩ := fits
      have cut := ofTemplate_opening short (ps.flatMap Placed.source)
      show laid start (ofTemplate ((opening ++ code ++ closing) ++ ps.flatMap Placed.source)) = _
      rw [cut]
      show place start (expression code) :: laid (start ++ (expression code).raw) _ = _
      exact congrArg _ again
    | text value =>
      cases ps with
      | nil =>
        have alone := last rfl value rfl
        show laid start (ofTemplate (value ++ [])) = _
        rw [List.append_nil, ofTemplate_unclosed alone, literal, if_neg fits]
        rfl
      | cons q ps =>
        cases q with
        | text other => exact (meets _ rfl).elim
        | expression code raw offset =>
          -- the expression is cut out behind the text as it is cut out on its own
          obtain ⟨⟨rfl, short, -⟩, -⟩ := wellCut_cons_iff.mp later
          have early : ¬ opening <:+: value ++ ['{'] := meets _ rfl
          have own := ofTemplate_opening short (ps.flatMap Placed.source)
          have cut := ofTemplate_expression early short (ps.flatMap Placed.source)
          have both : ofTemplate (value ++ (opening ++ code ++ closing) ++ ps.flatMap Placed.source) =
              literal value ++ ofTemplate (opening ++ code ++ closing ++ ps.flatMap Placed.source) := by
            rw [cut, own]
          show laid start (ofTemplate (value ++ (opening ++ code ++ closing ++ ps.flatMap Placed.source))) = _
          rw [← List.append_assoc, both, laid_literal_append, if_neg fits]
          exact congrArg (_ :: ·) again

/-- **There is one way to cut a template.** The pieces of a template are the only pieces that make up its text and are
well cut; so pieces that are well cut are what their text is cut into. -/
theorem pieces_eq_iff (src : List Char) (ps : List Placed) :
    pieces src = ps ↔ ps.flatMap Placed.source = src ∧ WellCut [] ps := by
  constructor
  · rintro rfl
    refine ⟨?_, wellCut_ofTemplate [] src⟩
    show (laid [] (ofTemplate src)).flatMap Placed.source = src
    rw [flatMap_source_laid, flatMap_raw_ofTemplate]
  · rintro ⟨rfl, cut⟩
    exact laid_of_wellCut cut

/-- Three braces open at the first two and close at the first two. -/
example : pieces ['a', '{', '{', '{', 'b', '}', '}', '}'] =
    [.text ['a'], .expression ['{', 'b'] ['{', '{', '{', 'b', '}', '}'] 1, .text ['}']] := by cbv

end Dialogue.Segment
