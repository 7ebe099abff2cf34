import Dialogue.Emission
/-!
# `Dialogue.Proofs.Emission` — what a builder gathers.

A value adds its leaves from left to right: a text as it is, a file with the position that the builder stands at. Main
statements: this is all that a value does to a builder, whatever was done to the builder before, so how the includes in a
value are nested cannot be told from what is emitted; and what an include emits reads as the text form of the include.
-/

namespace Dialogue

/-- A leaf as it is emitted at a position. -/
def Emitted.ofLeaf (position : Option Position) : Inclusion.Leaf → Emitted
  | .text t => .text t
  | .binary filename mediaType data => .file filename mediaType data position

/-- The leaves of what an expression hands over. -/
def Emittable.leaves : Emittable → List Inclusion.Leaf
  | .absent => []
  | .text t => Inclusion.textLeaf t
  | .inclusion i => i.leaves

namespace Emission

/-! ## §1 — one value -/

/-- A builder with leaves after its parts. -/
def withLeaves (b : Emission) (leaves : List Inclusion.Leaf) : Emission :=
  { b with parts := b.parts ++ leaves.map (.ofLeaf b.position) }

theorem withLeaves_nil (b : Emission) : b.withLeaves [] = b := by
  simp [withLeaves]

theorem withLeaves_append (b : Emission) (ls ms : List Inclusion.Leaf) :
    b.withLeaves (ls ++ ms) = (b.withLeaves ls).withLeaves ms := by
  simp [withLeaves]

theorem appendText_eq (b : Emission) (t : String) : b.appendText t = b.withLeaves (Inclusion.textLeaf t) := by
  unfold appendText Inclusion.textLeaf
  split
  · exact b.withLeaves_nil.symm
  · rfl

mutual

theorem emitInclusion_eq : ∀ (b : Emission) (i : Inclusion), b.emitInclusion i = b.withLeaves i.leaves
  | b, .binary filename mediaType data => by
      unfold emitInclusion Inclusion.leaves
      rfl
  | b, .composite children => by
      unfold emitInclusion Inclusion.leaves
      exact emitChildren_eq b children

theorem emitChildren_eq : ∀ (b : Emission) (children : List (String ⊕ Inclusion)),
    b.emitChildren children = b.withLeaves (Inclusion.childrenLeaves children)
  | b, [] => by
      unfold emitChildren Inclusion.childrenLeaves
      exact b.withLeaves_nil.symm
  | b, .inl t :: rest => by
      unfold emitChildren Inclusion.childrenLeaves
      rw [withLeaves_append, ← appendText_eq]
      exact emitChildren_eq _ rest
  | b, .inr i :: rest => by
      unfold emitChildren Inclusion.childrenLeaves
      rw [withLeaves_append, ← emitInclusion_eq b i]
      exact emitChildren_eq _ rest

end

/-- **A value adds its leaves**, and leaves a builder as it is otherwise. -/
theorem emit_eq (b : Emission) (x : Emittable) : b.emit x = b.withLeaves x.leaves := by
  cases x with
  | absent => exact b.withLeaves_nil.symm
  | text t => exact b.appendText_eq t
  | inclusion i => exact b.emitInclusion_eq i

/-! ## §2 — a builder at work -/

/-- **One thing that is done to a builder.** -/
inductive Step
  | text (t : String)
  | file (filename mediaType : String) (data : Bytes)
  /-- Files are emitted at this position from now on. -/
  | position (p : Option Position)
  | diagnostic (d : Diagnostic)
  | value (x : Emittable)

/-- The builder after a step. -/
def step (b : Emission) : Step → Emission
  | .text t => b.appendText t
  | .file filename mediaType data => b.appendFile filename mediaType data
  | .position p => { b with position := p }
  | .diagnostic d => (b.pushDiagnostic d).1
  | .value x => b.emit x

/-- **The builder after some steps**, one after the other. -/
def run (b : Emission) (steps : List Step) : Emission := steps.foldl step b

/-- The leaves that a step adds. -/
def Step.leaves : Step → List Inclusion.Leaf
  | .text t => Inclusion.textLeaf t
  | .file filename mediaType data => [.binary filename mediaType data]
  | .position _ | .diagnostic _ => []
  | .value x => x.leaves

/-- The position after a step. -/
def Step.moves (old : Option Position) : Step → Option Position
  | .position p => p
  | _ => old

/-- **What steps emit** from a position on: each its leaves, and each file with the position that was set last. -/
def emitted : Option Position → List Step → List Emitted
  | _, [] => []
  | p, s :: rest => s.leaves.map (.ofLeaf p) ++ emitted (s.moves p) rest

/-- **A step** adds its leaves, and is the only one to move the position if it sets one. -/
theorem parts_step (b : Emission) (s : Step) :
    (b.step s).parts = b.parts ++ s.leaves.map (.ofLeaf b.position) ∧ (b.step s).position = s.moves b.position := by
  cases s with
  | text t =>
    have same : b.step (.text t) = b.withLeaves (Inclusion.textLeaf t) := b.appendText_eq t
    rw [same]
    exact ⟨rfl, rfl⟩
  | file filename mediaType data => exact ⟨rfl, rfl⟩
  | position p => exact ⟨(List.append_nil _).symm, rfl⟩
  | diagnostic d =>
    show (b.pushDiagnostic d).1.parts = b.parts ++ [] ∧ (b.pushDiagnostic d).1.position = b.position
    rw [List.append_nil]
    unfold pushDiagnostic
    split
    · exact ⟨rfl, rfl⟩
    · exact ⟨rfl, rfl⟩
  | value x =>
    have same : b.step (.value x) = b.withLeaves x.leaves := b.emit_eq x
    rw [same]
    exact ⟨rfl, rfl⟩

/-- **A run** adds what its steps emit. -/
theorem parts_run (b : Emission) (steps : List Step) :
    (b.run steps).parts = b.parts ++ emitted b.position steps := by
  induction steps generalizing b with
  | nil => exact (List.append_nil _).symm
  | cons s rest ih =>
    obtain ⟨parts, position⟩ := b.parts_step s
    show ((b.step s).run rest).parts = _
    rw [ih, parts, position, List.append_assoc]
    rfl

theorem run_append (b : Emission) (before after : List Step) :
    b.run (before ++ after) = (b.run before).run after := List.foldl_append

/-- **Emitting a value flattens it.** Whatever was done to a builder, it holds what that emitted, in order. A value then
adds its leaves behind these parts, each file at the position of the builder, and leaves position and diagnostics as they
are. So another value with the same leaves would have done the same, however its includes are nested. -/
theorem emit_flattens (start : Emission) (before after : List Step) (x : Emittable) :
    (start.run before).parts = start.parts ++ emitted start.position before ∧
    ((start.run before).emit x).parts =
      (start.run before).parts ++ x.leaves.map (.ofLeaf (start.run before).position) ∧
    ((start.run before).emit x).position = (start.run before).position ∧
    ((start.run before).emit x).diagnostics = (start.run before).diagnostics ∧
    ∀ y : Emittable, y.leaves = x.leaves →
      start.run (before ++ .value y :: after) = start.run (before ++ .value x :: after) := by
  have flat : (start.run before).emit x = (start.run before).withLeaves x.leaves := emit_eq _ x
  refine ⟨start.parts_run before, ?_, ?_, ?_, ?_⟩
  · rw [flat]
    rfl
  · rw [flat]
    rfl
  · rw [flat]
    rfl
  · intro y same
    rw [run_append, run_append]
    show ((start.run before).emit y).run after = ((start.run before).emit x).run after
    rw [flat, emit_eq _ y, same]

/-- An include within includes, with an empty text beside it, and the same text and image without any nesting: emitted at
a position, between a text and a file. -/
theorem nested_include_flattens :
    let image : Inclusion := .binary "logo.png" "image/png" [137, 80]
    let nested : Emittable := .inclusion (.composite [.inr (.composite [.inl "a", .inr (.composite [])]), .inl "",
      .inr (.composite [.inr image])])
    let flat : Emittable := .inclusion (.composite [.inl "a", .inr image])
    let before : List Step := [.text "see ", .position (some ⟨4, 2⟩)]
    let after : List Step := [.position none, .file "b.bin" "application/pdf" [0]]
    nested.leaves = flat.leaves ∧
      withDiagnostics.run (before ++ .value nested :: after) = withDiagnostics.run (before ++ .value flat :: after) ∧
      (withDiagnostics.run (before ++ .value nested :: after)).parts =
        [.text "see ", .text "a", .file "logo.png" "image/png" [137, 80] (some ⟨4, 2⟩),
          .file "b.bin" "application/pdf" [0] none] := by
  intro image nested flat before after
  have same : nested.leaves = flat.leaves := by decide
  have flattened := (emit_flattens withDiagnostics before after flat).2.2.2.2 nested same
  exact ⟨same, flattened, by decide⟩

end Emission

/-! ## §3 — an include as text -/

/-- A leaf as text: a text as it is, a binary include by its file name. -/
def Inclusion.Leaf.shown : Leaf → String
  | .text t => t
  | .binary filename _ _ => filename

/-- An emitted part as text: a text as it is, a file by its name. -/
def Emitted.shown : Emitted → String
  | .text t => t
  | .file filename _ _ _ => filename

/-- Where a leaf is emitted does not show in its text. -/
theorem Emitted.shown_ofLeaf (position : Option Position) (l : Inclusion.Leaf) :
    (ofLeaf position l).shown = l.shown := by
  cases l <;> rfl

namespace Inclusion

/-- A text that is empty leaves no leaf, and would add nothing to the text. -/
theorem join_textLeaf (t : String) : String.join ((textLeaf t).map Leaf.shown) = t := by
  unfold textLeaf
  split
  · rename_i empty
    exact (String.isEmpty_iff.mp empty).symm
  · exact String.empty_append

mutual

/-- **The text of an include** is that of its leaves from left to right. -/
theorem join_leaves : ∀ i : Inclusion, String.join (i.leaves.map Leaf.shown) = i.text
  | .binary filename mediaType data => by
      unfold leaves text
      exact String.empty_append
  | .composite children => by
      unfold leaves text
      exact join_childrenLeaves children

theorem join_childrenLeaves : ∀ children : List (String ⊕ Inclusion),
    String.join ((childrenLeaves children).map Leaf.shown) = childrenText children
  | [] => rfl
  | .inl t :: rest => by
      unfold childrenLeaves childrenText
      rw [List.map_append, String.join_append, join_textLeaf, join_childrenLeaves rest]
  | .inr i :: rest => by
      unfold childrenLeaves childrenText
      rw [List.map_append, String.join_append, join_leaves i, join_childrenLeaves rest]

end

end Inclusion

namespace Emission

/-- **What a builder holds, as text.** -/
def shown (b : Emission) : String := String.join (b.parts.map Emitted.shown)

/-- Leaves add their text. -/
theorem shown_withLeaves (b : Emission) (leaves : List Inclusion.Leaf) :
    (b.withLeaves leaves).shown = b.shown ++ String.join (leaves.map Inclusion.Leaf.shown) := by
  have same : (leaves.map (Emitted.ofLeaf b.position)).map Emitted.shown = leaves.map Inclusion.Leaf.shown := by
    rw [List.map_map]
    exact List.map_congr_left fun l _ => Emitted.shown_ofLeaf b.position l
  unfold shown withLeaves
  rw [List.map_append, String.join_append, same]

/-- **An include means the same emitted as stringified.** What it emits into a builder without parts, at whatever position
and with or without a place for diagnostics, reads as its text form; into any builder it emits as much behind what is
there. -/
theorem shown_emit_inclusion (i : Inclusion) :
    (∀ position diagnostics, (emit { position, diagnostics } (.inclusion i)).shown = i.text) ∧
    ∀ b : Emission, (b.emit (.inclusion i)).shown = b.shown ++ i.text := by
  have behind (b : Emission) : (b.emit (.inclusion i)).shown = b.shown ++ i.text := by
    rw [emit_eq, shown_withLeaves]
    exact congrArg (b.shown ++ ·) i.join_leaves
  refine ⟨fun position diagnostics => ?_, behind⟩
  -- a builder without parts is the case of nothing to add to
  have nothing : shown { position, diagnostics } = "" := rfl
  rw [behind, nothing, String.empty_append]

end Emission

end Dialogue
