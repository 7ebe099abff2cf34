import Dialogue.Proofs.Emission
import Dialogue.Proofs.Include.Depth
/-!
# `Dialogue.Proofs.Include.Leaves` — what an included text hands over.

An included text is a template of its own: its expressions are evaluated while it is included, and nothing else of it is
looked at. Main statement: what a text include hands over are, piece by piece, its literal text as it stands in the file,
file references and all, and the leaves of the values of its expressions.
-/

namespace Dialogue.Include

open Script (Value Cell)
open Inclusion (Leaf)

/-! ## §1 — pieces -/

/-- **What the pieces of a text hand over**, with the questions their expressions ask. -/
inductive HandsOver (answer : Clock → Request → Logged Answer) :
    Clock → Environment × Array Cell → List Segment → List Leaf → List Access → Prop
  | nil {clock : Clock} {x : Environment × Array Cell} : HandsOver answer clock x [] [] []
  /-- Literal text is one leaf, and nothing is asked for it. -/
  | text {clock : Clock} {x : Environment × Array Cell} {t : List Char} {rest : List Segment} {leaves : List Leaf}
    {asked : List Access} (solid : t ≠ []) (later : HandsOver answer clock x rest leaves asked) :
    HandsOver answer clock x (.text t :: rest) (.text (String.ofList t) :: leaves) asked
  | expression {clock : Clock} {x y : Environment × Array Cell} {code : List Char} {v : Value} {rest : List Segment}
    {leaves : List Leaf} {asked askedLater : List Access}
    (value : (x.1.evaluateWith answer clock.first (String.ofList code)).run x.2 = ⟨((.ok v, y.1), y.2), asked⟩)
    (later : HandsOver answer clock.rest y rest leaves askedLater) :
    HandsOver answer clock x (.expression code :: rest) ((Environment.emittable v).leaves ++ leaves)
      (asked ++ askedLater)

/-- The value of an expression hands over its leaves. -/
theorem leaves_child (v : Value) (children : List (String ⊕ Inclusion)) :
    Inclusion.childrenLeaves (Resolver.child v :: children) =
      (Environment.emittable v).leaves ++ Inclusion.childrenLeaves children := by
  unfold Resolver.child
  cases Environment.emittable v <;> rfl

theorem leaves_literal {t : List Char} (solid : t ≠ []) (children : List (String ⊕ Inclusion)) :
    Inclusion.childrenLeaves (.inl (String.ofList t) :: children) =
      .text (String.ofList t) :: Inclusion.childrenLeaves children := by
  show Inclusion.textLeaf (String.ofList t) ++ _ = _
  unfold Inclusion.textLeaf
  rw [if_neg (Segment.not_isEmpty_ofList solid)]
  rfl

namespace Resolver

variable {answer : Clock → Request → Logged Answer} {files : FileAccess} {clock : Clock} {r : Resolver} {i : Inclusion}
  {asked : List Access}

/-- **A template that is expanded** hands over the leaves of its children. -/
theorem handsOver_of_expand {x : Environment × Array Cell} {segments : List Segment}
    {children : List (String ⊕ Inclusion)} (solid : .text [] ∉ segments)
    (done : expand answer clock x.1 x.2 segments = ⟨.ok children, asked⟩) :
    HandsOver answer clock x segments (Inclusion.childrenLeaves children) asked := by
  induction segments generalizing clock x children asked with
  | nil =>
    cases done
    exact .nil
  | cons segment rest ih =>
    have solid_rest : Segment.text [] ∉ rest := fun mem => solid (List.mem_cons_of_mem _ mem)
    cases segment with
    | text t =>
      have solid_text : t ≠ [] := fun none => solid (none ▸ List.mem_cons_self)
      unfold expand at done
      rcases expanded : expand answer clock x.1 x.2 rest with ⟨r, later⟩
      rw [expanded, Logged.mk_bind] at done
      cases r with
      | error e => cases done
      | ok children' =>
        cases done
        rw [leaves_literal solid_text, Logged.accesses_pure, List.append_nil]
        exact .text solid_text (ih solid_rest expanded)
    | expression code =>
      unfold expand at done
      rcases evaluated : (x.1.evaluateWith answer clock.first (String.ofList code)).run x.2 with
        ⟨⟨⟨r, env⟩, cells⟩, first⟩
      rw [evaluated, Logged.mk_bind] at done
      cases r with
      | error e => cases done
      | ok v =>
        dsimp only at done
        rcases expanded : expand answer clock.rest env cells rest with ⟨r, later⟩
        rw [expanded, Logged.mk_bind] at done
        cases r with
        | error e => cases done
        | ok children' =>
          cases done
          rw [leaves_child, Logged.accesses_pure, List.append_nil]
          have later_hands_over := ih (x := (env, cells)) solid_rest expanded
          exact .expression evaluated later_hands_over

/-! ## §2 — includes -/

/-- **A text that is included** is read, and hands over what its pieces do. -/
theorem handsOver_of_text {p : Path} {deeper : Resolver → Clock → Request → Logged Answer}
    (done : text files clock r p deeper = ⟨.ok i, asked⟩) :
    ∃ source later, files.provider.readText p = .ok source ∧
      HandsOver (deeper (r.inside p)) clock (.child p (r.stack.extended p), #[]) (Segment.ofTemplate source.toList)
        i.leaves later ∧
      asked = .readText p :: later := by
  rw [text_eq] at done
  split at done
  · cases done
  · cases read : files.provider.readText p with
    | error e =>
      rw [read] at done
      cases done
    | ok source =>
      rw [read] at done
      dsimp only [orFailure] at done
      rcases expanded : expand (deeper (r.inside p)) clock (.child p (r.stack.extended p)) #[]
        (Segment.ofTemplate source.toList) with ⟨expansion, later⟩
      rw [expanded] at done
      cases expansion with
      | error e => cases done
      | ok children =>
        cases done
        exact ⟨source, later, rfl, handsOver_of_expand (Segment.text_not_mem_ofTemplate _) expanded, rfl⟩

/-- **A text include, as what it hands over:** the file is read as text once, and its pieces hand over the leaves. -/
def TextHandsOver (files : FileAccess) (clock : Clock) (r : Resolver) (q : Request) (leaves : List Leaf)
    (asked : List Access) : Prop :=
  let p := r.target q.path
  ∃ source later, files.provider.readText p = .ok source ∧
    HandsOver (fetchWithin files (files.provider.capacity + 3) (r.inside p)) clock
      (.child p (r.stack.extended p), #[]) (Segment.ofTemplate source.toList) leaves later ∧
    asked = .isReadable p :: .readText p :: later

/-- **Whatever a text include yields**, its leaves are what the pieces of the file hand over. -/
theorem fetchAt_handsOver {q : Request} (isText : q.options.binary = false)
    (done : fetchAt files r clock q = ⟨.ok i, asked⟩) : TextHandsOver files clock r q i.leaves asked := by
  have unfolded : fetchAt files r clock q = once files (fetchWithin files (files.provider.capacity + 3)) r clock q := rfl
  rw [unfolded, once_eq, isText] at done
  unfold TextHandsOver
  dsimp only
  generalize r.target q.path = p at done ⊢
  split at done
  · simp only [Bool.false_eq_true, if_false] at done
    rcases included : text files clock r p (fetchWithin files (files.provider.capacity + 3)) with ⟨answer, later⟩
    rw [included] at done
    obtain ⟨rfl, rfl⟩ := Logged.mk.inj done
    obtain ⟨source, later, read, handsOver, rfl⟩ := handsOver_of_text included
    exact ⟨source, later, read, handsOver, rfl⟩
  · cases done

end Resolver

end Dialogue.Include
