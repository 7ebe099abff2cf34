import Dialogue.Path
/-!
# `Dialogue.Proofs.Path` — normal forms of paths.

Normalizing works on a stack of components: names on top of the root, or names on top of some `..`. No step leaves
that shape, and a path of that shape is spelled and read back without a change. Main statements: normalizing twice
is normalizing once, a normal form has the components it was made from, only the root and the empty path have no
parent, and seen from an absolute path everything is absolute, in normal form, and free of `.` and `..`.
-/

namespace Dialogue.Path

open Component

/-! ## §1 — stacks of components -/

/-- A piece that is a name: not empty, no separator in it, neither `.` nor `..`. -/
structure ProperName (text : List Char) : Prop where
  some : text ≠ []
  whole : '/' ∉ text
  notHere : text ≠ ['.']
  notUp : text ≠ ['.', '.']

/-- **Components in normal form**, the last one first: names, below them the root or any number of `..`. -/
inductive NormalStack : List Component → Prop
  | nil : NormalStack []
  | atRoot : NormalStack [root]
  | climbing {s : List Component} (h : ∀ c ∈ s, c = up) : NormalStack (up :: s)
  | named {text : List Char} {s : List Component} (proper : ProperName text) (h : NormalStack s) :
    NormalStack (name text :: s)

/-- A component that may come after the first. -/
def IsInner (c : Component) : Prop := c = up ∨ ∃ text, c = name text ∧ ProperName text

/-- **One step keeps the shape.** -/
theorem NormalStack.step {s : List Component} (h : NormalStack s) {c : Component} (hc : IsInner c) :
    NormalStack (normalStep s c) := by
  rcases hc with rfl | ⟨text, rfl, proper⟩
  · cases h with
    | nil => exact .climbing fun _ none => absurd none List.not_mem_nil
    | atRoot => exact .atRoot
    | climbing ups => exact .climbing (List.forall_mem_cons.mpr ⟨rfl, ups⟩)
    | named _ below => exact below
  · exact .named proper h

theorem NormalStack.foldl {body : List Component} (hb : ∀ c ∈ body, IsInner c) {s : List Component}
    (h : NormalStack s) : NormalStack (body.foldl normalStep s) := by
  induction body generalizing s with
  | nil => exact h
  | cons c body ih =>
    exact ih (fun d hd => hb d (List.mem_cons_of_mem _ hd)) (h.step (hb c List.mem_cons_self))

/-- Only `..` adds up. -/
theorem foldl_reverse_of_ups {s : List Component} (ups : ∀ c ∈ s, c = up) : s.reverse.foldl normalStep [] = s := by
  induction s with
  | nil => rfl
  | cons c s ih =>
    obtain ⟨rfl, below⟩ := List.forall_mem_cons.mp ups
    rw [List.reverse_cons, List.foldl_append, ih below]
    -- what is on top decides the step, and that is `..` again if it is anything
    cases s with
    | nil => rfl
    | cons d s =>
      obtain rfl := below d List.mem_cons_self
      rfl

/-- **Nothing is left to do** on components in normal form. -/
theorem NormalStack.foldl_reverse {s : List Component} (h : NormalStack s) : s.reverse.foldl normalStep [] = s := by
  induction h with
  | nil => rfl
  | atRoot => rfl
  | climbing ups => exact foldl_reverse_of_ups (List.forall_mem_cons.mpr ⟨rfl, ups⟩)
  | named _ _ ih =>
    rw [List.reverse_cons, List.foldl_append, ih]
    rfl

/-! ## §2 — components of a path -/

theorem isInner_of_ofPiece? {piece : List Char} {c : Component} (whole : '/' ∉ piece) (h : ofPiece? piece = some c) :
    IsInner c := by
  unfold ofPiece? at h
  split at h
  · cases h
  · rename_i named
    rw [not_or] at named
    split at h
    · exact .inl (Option.some.inj h).symm
    · rename_i notUp
      exact .inr ⟨piece, (Option.some.inj h).symm, named.1, whole, named.2, notUp⟩

/-- The names and `..` of a path, without a first root or `.`. -/
def inner (p : Path) : List Component := (Text.splitAt '/' p.text).filterMap ofPiece?

theorem isInner_of_mem {p : Path} {c : Component} (h : c ∈ p.inner) : IsInner c := by
  obtain ⟨piece, mem, found⟩ := List.mem_filterMap.mp h
  exact isInner_of_ofPiece? (Text.not_mem_of_mem_splitAt mem) found

/-- The stack that a path starts from: the root, or nothing. -/
def ground (p : Path) : List Component := if p.isAbsolute then [root] else []

/-- The stack that normalizing a path ends with. -/
def stack (p : Path) : List Component := p.inner.foldl normalStep p.ground

/-- **A leading `.` does not count:** normalizing goes through names and `..` alone. -/
theorem foldl_components (p : Path) : p.components.foldl normalStep [] = p.stack := by
  unfold components stack inner ground
  dsimp only
  split
  · rfl
  · split <;> rfl

theorem normalComponents_eq (p : Path) : normalComponents p.components = p.stack.reverse := by
  rw [normalComponents, foldl_components]

theorem normalize_eq (p : Path) : p.normalize = ofComponents p.stack.reverse := by
  rw [normalize, normalComponents_eq]

/-- **Normalizing ends in normal form.** -/
theorem normalStack (p : Path) : NormalStack p.stack := by
  unfold stack ground
  split
  · exact NormalStack.atRoot.foldl fun _ => isInner_of_mem
  · exact NormalStack.nil.foldl fun _ => isInner_of_mem

/-! ## §3 — spelling -/

theorem IsInner.ofPiece?_text {c : Component} (h : IsInner c) : ofPiece? c.text = some c := by
  rcases h with rfl | ⟨text, rfl, proper⟩
  · rfl
  · unfold ofPiece?
    have named : ¬ ((name text).text = [] ∨ (name text).text = ['.']) := by
      rw [not_or]
      exact ⟨proper.some, proper.notHere⟩
    rw [if_neg named]
    exact if_neg proper.notUp

theorem IsInner.text_ne_dot {c : Component} (h : IsInner c) : c.text ≠ ['.'] := by
  intro same
  have found := h.ofPiece?_text
  rw [same] at found
  cases found

theorem IsInner.not_mem_text {c : Component} (h : IsInner c) : '/' ∉ c.text := by
  rcases h with rfl | ⟨text, rfl, proper⟩
  · decide
  · exact proper.whole

theorem filterMap_ofPiece?_text {body : List Component} (h : ∀ c ∈ body, IsInner c) :
    (body.map Component.text).filterMap ofPiece? = body := by
  induction body with
  | nil => rfl
  | cons c body ih =>
    rw [List.map_cons, List.filterMap_cons_some (h c List.mem_cons_self).ofPiece?_text,
      ih fun d hd => h d (List.mem_cons_of_mem _ hd)]

/-- Components in normal form, first one first: inner ones, perhaps after the root. -/
theorem NormalStack.reverse_cases {s : List Component} (h : NormalStack s) :
    ∃ body, (∀ c ∈ body, IsInner c) ∧ (s.reverse = root :: body ∨ s.reverse = body) := by
  induction h with
  | nil => exact ⟨[], by simp, .inr rfl⟩
  | atRoot => exact ⟨[], by simp, .inl rfl⟩
  | @climbing s ups =>
    have all : ∀ c ∈ up :: s, c = up := List.forall_mem_cons.mpr ⟨rfl, ups⟩
    exact ⟨(up :: s).reverse, fun c hc => .inl (all c (List.mem_reverse.mp hc)), .inr rfl⟩
  | @named text s proper _ ih =>
    obtain ⟨body, inner, first⟩ := ih
    refine ⟨body ++ [Component.name text], fun c hc => ?_, ?_⟩
    · rcases List.mem_append.mp hc with below | top
      · exact inner c below
      · exact .inr ⟨text, List.mem_singleton.mp top, proper⟩
    · rw [List.reverse_cons]
      rcases first with first | first
      · exact .inl (by rw [first]; rfl)
      · exact .inr (by rw [first])

theorem IsInner.text_ofComponents {c : Component} (h : IsInner c) (body : List Component) :
    (ofComponents (c :: body)).text = Text.joinWith '/' ((c :: body).map Component.text) := by
  rcases h with rfl | ⟨text, rfl, proper⟩
  · rfl
  · rfl

theorem joinWith_cons (sep : Char) (piece : List Char) (pieces : List (List Char)) :
    ∃ rest, Text.joinWith sep (piece :: pieces) = piece ++ rest := by
  cases pieces with
  | nil => exact ⟨[], (List.append_nil _).symm⟩
  | cons next pieces => exact ⟨_, rfl⟩

/-- A path that starts with a name or with `..` is relative. -/
theorem IsInner.not_isAbsolute {c : Component} (h : IsInner c) (body : List Component) :
    (ofComponents (c :: body)).isAbsolute = false := by
  obtain ⟨rest, join⟩ := joinWith_cons '/' c.text (body.map Component.text)
  unfold isAbsolute
  rw [h.text_ofComponents body, List.map_cons, join]
  rcases h with rfl | ⟨text, rfl, proper⟩
  · rfl
  · cases text with
    | nil => exact absurd rfl proper.some
    | cons d ds =>
      have other : d ≠ '/' := fun same => proper.whole (same ▸ List.mem_cons_self)
      show (some d == some '/') = false
      rw [beq_eq_false_iff_ne]
      exact fun same => other (Option.some.inj same)

/-- **The pieces of a spelling in normal form** are those of its components. -/
theorem NormalStack.pieces {s : List Component} (h : NormalStack s) (notNil : s ≠ []) (other : s ≠ [root]) :
    Text.splitAt '/' (ofComponents s.reverse).text = s.reverse.map Component.text := by
  obtain ⟨body, inner, first⟩ := h.reverse_cases
  have whole : ∀ piece ∈ body.map Component.text, '/' ∉ piece := by
    intro piece mem
    obtain ⟨c, hc, rfl⟩ := List.mem_map.mp mem
    exact (inner c hc).not_mem_text
  rcases first with first | first
  · rw [first]
    cases body with
    | nil => exact absurd (List.reverse_eq_cons_iff.mp first) other
    | cons c body =>
      refine Text.splitAt_joinWith (List.cons_ne_nil _ _) fun piece mem => ?_
      rcases List.mem_cons.mp mem with rfl | later
      · exact List.not_mem_nil
      · exact whole piece later
  · rw [first]
    cases body with
    | nil => exact absurd (List.reverse_eq_nil_iff.mp first) notNil
    | cons c body =>
      rw [(inner c List.mem_cons_self).text_ofComponents body]
      exact Text.splitAt_joinWith (List.cons_ne_nil _ _) whole

/-- **The spelling of components in normal form** falls into just these components. -/
theorem NormalStack.components_ofComponents {s : List Component} (h : NormalStack s) (notNil : s ≠ []) :
    (ofComponents s.reverse).components = s.reverse := by
  by_cases other : s = [root]
  · subst other
    rfl
  · have pieces := h.pieces notNil other
    obtain ⟨body, inner, first⟩ := h.reverse_cases
    unfold components
    rw [pieces]
    -- the root is read off the first separator, everything else off the pieces
    rcases first with first | first
    · rw [first]
      cases body with
      | nil => exact absurd (List.reverse_eq_cons_iff.mp first) other
      | cons c body =>
        have absolute : (ofComponents (root :: c :: body)).isAbsolute = true := rfl
        dsimp only
        rw [if_pos absolute]
        exact congrArg (root :: ·) (filterMap_ofPiece?_text inner)
    · rw [first]
      cases body with
      | nil => exact absurd (List.reverse_eq_nil_iff.mp first) notNil
      | cons c body =>
        have here := inner c List.mem_cons_self
        -- no component in normal form is spelled `.`
        have plain : ((c :: body).map Component.text).head? ≠ some ['.'] :=
          fun same => here.text_ne_dot (Option.some.inj same)
        dsimp only
        rw [here.not_isAbsolute body, if_neg Bool.false_ne_true, if_neg plain]
        exact filterMap_ofPiece?_text inner

/-! ## §4 — normal forms -/

/-- **A normal form leaves the stack** that it was made from. -/
theorem stack_normalize (p : Path) : p.normalize.stack = p.stack := by
  have normal := p.normalStack
  rw [normalize_eq, ← foldl_components]
  generalize p.stack = s at normal
  -- no components at all are spelled `.`, which reads as a component that normalizing drops
  by_cases none : s = []
  · subst none
    rfl
  · rw [normal.components_ofComponents none]
    exact normal.foldl_reverse

theorem normalComponents_normalize (p : Path) :
    normalComponents p.normalize.components = normalComponents p.components := by
  rw [normalComponents_eq, normalComponents_eq, stack_normalize]

/-- **Normalizing twice** is normalizing once. -/
theorem normalize_normalize (p : Path) : p.normalize.normalize = p.normalize := by
  rw [normalize_eq, stack_normalize, ← normalize_eq]

/-- A piece that is a component is what a parent leaves out first. -/
theorem dropFiller_of_inner {c : Component} (h : IsInner c) (absolute : Bool) (before : List (List Char)) :
    dropFiller absolute (c.text :: before) = c.text :: before := by
  have step : isStep absolute before.length c.text = true := by
    unfold isStep
    rw [h.ofPiece?_text]
    rfl
  rw [dropFiller, if_pos step]

/-- **Only the root has no parent** among normal forms. -/
theorem eq_root_of_parent? {p : Path} (h : p.normalize.parent? = none) : p.normalize = rootDirectory := by
  have normal := p.normalStack
  rw [normalize_eq] at h ⊢
  generalize p.stack = s at normal h
  by_cases none : s = []
  · subst none
    cases h
  · by_cases other : s = [root]
    · subst other
      rfl
    · exfalso
      -- below its last component, anything else has a parent
      have inner : ∃ c below, s = c :: below ∧ IsInner c := by
        cases normal with
        | nil => exact absurd rfl none
        | atRoot => exact absurd rfl other
        | climbing => exact ⟨_, _, rfl, .inl rfl⟩
        | named proper => exact ⟨_, _, rfl, .inr ⟨_, rfl, proper⟩⟩
      unfold parent? at h
      rw [normal.pieces none other, ← List.map_reverse, List.reverse_reverse] at h
      obtain ⟨c, below, rfl, inner⟩ := inner
      dsimp only at h
      rw [List.map_cons, dropFiller_of_inner inner] at h
      dsimp only at h
      split at h <;> cases h

/-- Where all is filler, no piece is a component. -/
theorem isStep_of_dropFiller {absolute : Bool} {pieces : List (List Char)} (filler : dropFiller absolute pieces = [])
    {after before : List (List Char)} {piece : List Char} (same : pieces = after ++ piece :: before) :
    isStep absolute before.length piece = false := by
  induction pieces generalizing after with
  | nil => cases after <;> cases same
  | cons first rest ih =>
    unfold dropFiller at filler
    split at filler
    · cases filler
    · rename_i noStep
      cases after with
      | nil =>
        obtain ⟨rfl, rfl⟩ := List.cons.inj same
        exact Bool.eq_false_iff.mpr noStep
      | cons _ after =>
        obtain ⟨rfl, rfl⟩ := List.cons.inj same
        exact ih filler rfl

/-- **Only the root and the empty path have no parent**, however they are spelled. -/
theorem components_of_parent? {p : Path} (h : p.parent? = none) : p.components = [] ∨ p.components = [root] := by
  have filler : dropFiller p.isAbsolute (Text.splitAt '/' p.text).reverse = [] := by
    unfold parent? at h
    dsimp only at h
    split at h
    · assumption
    · split at h <;> cases h
  have noStep {before after : List (List Char)} {piece : List Char}
      (same : Text.splitAt '/' p.text = before ++ piece :: after) :
      isStep p.isAbsolute before.length piece = false := by
    have reversed : (Text.splitAt '/' p.text).reverse = after.reverse ++ piece :: before.reverse := by
      simp [same]
    simpa using isStep_of_dropFiller filler reversed
  have nothing : (Text.splitAt '/' p.text).filterMap ofPiece? = [] := by
    rw [List.filterMap_eq_nil_iff]
    intro piece mem
    obtain ⟨before, after, same⟩ := List.append_of_mem mem
    have step := noStep same
    unfold isStep at step
    rw [Bool.or_eq_false_iff] at step
    exact Option.not_isSome_iff_eq_none.mp (Bool.eq_false_iff.mp step.1)
  unfold components
  dsimp only
  rw [nothing]
  cases absolute : p.isAbsolute with
  | true => exact .inr rfl
  | false =>
    -- a leading `.` would be a component
    have notHere : (Text.splitAt '/' p.text).head? ≠ some ['.'] := by
      intro head
      obtain ⟨rest, same⟩ := List.head?_eq_some_iff.mp head
      have first : Text.splitAt '/' p.text = [] ++ ['.'] :: rest := same
      have step := noStep first
      rw [absolute] at step
      cases step
    exact .inl (if_neg notHere)

/-! ## §5 — absolute paths -/

/-- **A path that is settled:** absolute, and spelled in normal form. -/
structure Settled (p : Path) : Prop where
  absolute : p.isAbsolute = true
  normal : p.normalize = p

/-- No step takes the root away or puts it there. -/
theorem IsInner.root_mem_step {c : Component} (h : IsInner c) (s : List Component) :
    root ∈ normalStep s c ↔ root ∈ s := by
  rcases h with rfl | ⟨text, rfl, -⟩
  · unfold normalStep
    split <;> simp_all
  · simp [normalStep]

theorem root_mem_foldl {body : List Component} (hb : ∀ c ∈ body, IsInner c) (s : List Component) :
    root ∈ body.foldl normalStep s ↔ root ∈ s := by
  induction body generalizing s with
  | nil => rfl
  | cons c body ih =>
    obtain ⟨first, later⟩ := List.forall_mem_cons.mp hb
    rw [List.foldl_cons, ih later, first.root_mem_step]

/-- **The root is what an absolute path starts from**, and it stays there. -/
theorem root_mem_stack (p : Path) : root ∈ p.stack ↔ p.isAbsolute = true := by
  unfold stack
  rw [root_mem_foldl fun _ => isInner_of_mem]
  unfold ground
  split <;> simp_all

/-- **Components in normal form** are spelled as an absolute path just when the root is there. -/
theorem NormalStack.isAbsolute_iff {s : List Component} (h : NormalStack s) :
    (ofComponents s.reverse).isAbsolute = true ↔ root ∈ s := by
  obtain ⟨body, inner, first | first⟩ := h.reverse_cases
  · rw [← List.mem_reverse, first]
    exact iff_of_true (by cases body <;> rfl) List.mem_cons_self
  · rw [← List.mem_reverse, first]
    have none : root ∉ body := fun mem => by
      rcases inner root mem with other | ⟨_, other, _⟩ <;> cases other
    cases body with
    | nil => exact iff_of_false nofun none
    | cons c body =>
      rw [(inner c List.mem_cons_self).not_isAbsolute body]
      exact iff_of_false nofun none

/-- **The normal form of a path** is absolute just when the path is. -/
theorem isAbsolute_normalize (p : Path) : p.normalize.isAbsolute = p.isAbsolute := by
  rw [Bool.eq_iff_iff, ← root_mem_stack p, normalize_eq]
  exact p.normalStack.isAbsolute_iff

/-- **A path seen from an absolute one** is settled. -/
theorem settled_resolve {p : Path} (h : p.isAbsolute = true) (q : Path) : (p.resolve q).Settled := by
  refine ⟨(isAbsolute_normalize _).trans ?_, normalize_normalize _⟩
  unfold join
  split
  · assumption
  · obtain ⟨rest, text⟩ := List.head?_eq_some_iff.mp (eq_of_beq h)
    split <;> simp [isAbsolute, text]

theorem dropFiller_suffix (absolute : Bool) (pieces : List (List Char)) : dropFiller absolute pieces <:+ pieces := by
  induction pieces with
  | nil => exact List.suffix_rfl
  | cons piece before ih =>
    unfold dropFiller
    split
    · exact List.suffix_rfl
    · exact ih.trans (List.suffix_cons _ _)

/-- What is left after the filler starts with a component. -/
theorem isStep_of_dropFiller_eq {absolute : Bool} {pieces before : List (List Char)} {piece : List Char}
    (left : dropFiller absolute pieces = piece :: before) : isStep absolute before.length piece = true := by
  induction pieces with
  | nil => cases left
  | cons first rest ih =>
    unfold dropFiller at left
    split at left
    · cases left
      assumption
    · exact ih left

/-- Pieces after an empty one spell an absolute path. -/
theorem isAbsolute_joinWith {pieces rest : List (List Char)} {last : List Char} (some : last ≠ [])
    (start : pieces ++ [last] <+: [] :: rest) : (⟨Text.joinWith '/' (pieces ++ [last])⟩ : Path).isAbsolute = true := by
  obtain ⟨more, same⟩ := start
  cases pieces with
  | nil => exact absurd (List.cons.inj same).1 some
  | cons empty pieces =>
    obtain ⟨next, after, pieces_eq⟩ := List.exists_cons_of_ne_nil (List.concat_ne_nil last pieces)
    obtain rfl := (List.cons.inj same).1
    rw [List.cons_append, pieces_eq]
    rfl

/-- **The parent of an absolute path** is absolute. -/
theorem isAbsolute_of_parent? {p dir : Path} (h : p.isAbsolute = true) (above : p.parent? = some dir) :
    dir.isAbsolute = true := by
  unfold parent? at above
  dsimp only at above
  rw [h] at above
  split at above
  · cases above
  · rename_i last before found
    split at above
    · cases above
      rfl
    · rename_i kept
      cases above
      obtain ⟨rest, text⟩ := List.head?_eq_some_iff.mp (eq_of_beq h)
      have start : (dropFiller true before).reverse <+: [] :: Text.splitAt '/' rest := by
        have pieces : Text.splitAt '/' p.text = [] :: Text.splitAt '/' rest := by
          rw [text]
          exact if_pos rfl
        have whole := dropFiller_suffix true (Text.splitAt '/' p.text).reverse
        rw [found] at whole
        rw [← pieces, ← List.reverse_suffix, List.reverse_reverse]
        exact ((dropFiller_suffix true before).trans (List.suffix_cons _ _)).trans whole
      generalize left : dropFiller true before = pieces at kept start
      cases pieces with
      | nil => exact absurd rfl kept
      | cons piece others =>
        rw [List.reverse_cons] at start ⊢
        refine isAbsolute_joinWith (fun empty => ?_) start
        -- an empty piece is filler
        have step := isStep_of_dropFiller_eq left
        rw [empty] at step
        simp [isStep, ofPiece?] at step

/-- **A settled path has a directory**, unless it is the root. -/
theorem Settled.exists_parent {p : Path} (h : p.Settled) (notRoot : p ≠ rootDirectory) :
    ∃ dir, p.parent? = some dir ∧ dir.isAbsolute = true := by
  cases above : p.parent? with
  | some dir => exact ⟨dir, rfl, isAbsolute_of_parent? h.absolute above⟩
  | none =>
    rw [← h.normal] at above notRoot
    exact absurd (eq_root_of_parent? above) notRoot

/-- Over the root there are only names. -/
theorem NormalStack.names {s : List Component} (h : NormalStack s) (mem : root ∈ s) :
    ∀ c ∈ s, c = root ∨ ∃ text, c = name text ∧ ProperName text := by
  induction h with
  | nil => exact List.forall_mem_nil _
  | atRoot => exact List.forall_mem_singleton.mpr (.inl rfl)
  | climbing ups =>
    rcases List.mem_cons.mp mem with other | below
    · cases other
    · cases ups root below
  | @named text s proper _ ih =>
    have below : root ∈ s := (List.mem_cons.mp mem).resolve_left nofun
    exact List.forall_mem_cons.mpr ⟨.inr ⟨text, rfl, proper⟩, ih below⟩

/-- **In a settled path** no piece is `.` or `..`. -/
theorem Settled.pieces {p : Path} (h : p.Settled) :
    ∀ piece ∈ Text.splitAt '/' p.text, piece ≠ ['.'] ∧ piece ≠ ['.', '.'] := by
  have normal := p.normalStack
  have spelled : ofComponents p.stack.reverse = p := p.normalize_eq.symm.trans h.normal
  generalize p.stack = s at normal spelled
  by_cases none : s = []
  · subst none
    have absolute := h.absolute
    rw [← spelled] at absolute
    cases absolute
  · by_cases other : s = [root]
    · subst other
      rw [← spelled]
      decide
    · have rooted : root ∈ s := normal.isAbsolute_iff.mp (spelled ▸ h.absolute)
      rw [← spelled, normal.pieces none other]
      intro piece mem
      obtain ⟨c, hc, rfl⟩ := List.mem_map.mp mem
      rcases normal.names rooted c (List.mem_reverse.mp hc) with rfl | ⟨text, rfl, proper⟩
      · decide
      · exact ⟨proper.notHere, proper.notUp⟩

end Dialogue.Path
