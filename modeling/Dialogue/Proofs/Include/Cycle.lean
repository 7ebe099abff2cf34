import Dialogue.Proofs.Files.Memory
import Dialogue.Proofs.Include.Trace
/-!
# `Dialogue.Proofs.Include.Cycle` — no text is included within itself.

The stack tells files apart by the components of their paths, the files themselves by normal form. The two agree on
paths that are in normal form, and a path that is seen from a directory always is. Where there is no directory, a path
stands as it was written, and only if it was written in normal form does the stack know the file again.
-/

namespace Dialogue.Include

open Script (Cell)

/-- **A path in normal form**, up to what does not count in spelling. -/
def Canonical (p : Path) : Prop := p.components = p.normalize.components

theorem canonical_normalize (p : Path) : Canonical p.normalize :=
  congrArg Path.components (Path.normalize_normalize p).symm

/-- **Paths to one file** have one normal form. -/
def SameFile (p q : Path) : Prop := p.normalize = q.normalize

/-- In normal form, paths to one file have the same components. -/
theorem components_of_sameFile {p q : Path} (hp : Canonical p) (hq : Canonical q) (h : SameFile p q) :
    p.components = q.components := by
  rw [hp, hq, h]

/-- **Includes without a directory spell their paths in normal form.** -/
inductive Event.Spelled : Event → Prop
  | access {a : Access} : Spelled (.access a)
  | text {dir : Option Path} {p : Path} {asked : List Access} {inside : List Event} {answer : Answer}
    (plain : dir = none → Canonical p) (below : ∀ e ∈ inside, Spelled e) : Spelled (.text dir p asked inside answer)

/-- **No text is read while it is being included.** `open_` are the texts being included, outermost first, and `seed`
is what the stack started with. A text is read only by the attempt to include it, and not if it is being included
already: such an attempt finds out that the file is readable, does nothing more, and fails as a cycle. -/
inductive Event.Guarded (seed : List Path) : (open_ : List Path) → Event → Prop
  | access {open_ : List Path} {a : Access} (noText : ∀ p, a ≠ .readText p) : Guarded seed open_ (.access a)
  | text {open_ : List Path} {dir : Option Path} {p : Path} {asked : List Access} {inside : List Event}
    {answer : Answer} (read : ∀ q, .readText q ∈ asked → q = p ∧ ∀ o ∈ open_, ¬ SameFile o p)
    (refused : (∃ o ∈ open_, SameFile o p) → asked = [.isReadable p] ∧ inside = [] ∧
      answer = .error (.circularInclude ((seed ++ open_ ++ [p]).map Path.toString)))
    (below : ∀ e ∈ inside, Guarded seed (open_ ++ [p]) e) : Guarded seed open_ (.text dir p asked inside answer)

section

variable {files : FileAccess} {seed open_ : List Path} {r : Resolver}

/-! ## §1 — binary includes -/

/-- **A binary include reads no text.** -/
theorem accesses_binary (depth : Nat) {clock : Clock} {q : Request} (binary : q.options.binary = true) {a : Access}
    (mem : a ∈ (Resolver.fetchWithin files (depth + 1) r clock q).accesses) (p : Path) : a ≠ .readText p := by
  unfold Resolver.fetchWithin at mem
  dsimp only at mem
  rw [Resolver.isReadable_bind] at mem
  rcases List.mem_cons.mp mem with rfl | later
  · intro same
    cases same
  · cases hr : files.provider.isReadable (r.target q.path) with
    | false =>
      rw [hr] at later
      cases later
    | true =>
      rw [hr] at later
      change a ∈ (if q.options.binary then Resolver.binary files q (r.target q.path) else _ : Logged Answer).accesses
        at later
      rw [if_pos binary] at later
      unfold Resolver.binary at later
      split at later
      · cases later
      · obtain rfl := List.mem_singleton.mp later
        intro same
        cases same

/-! ## §2 — text includes -/

/-- **A path is in normal form** when it is seen from a directory, or was written so. -/
theorem canonical_target {path : String} (plain : r.dir = none → Canonical (r.target path)) :
    Canonical (r.target path) := by
  cases hd : r.dir with
  | none => exact plain hd
  | some dir =>
    unfold Resolver.target
    rw [hd]
    exact canonical_normalize _

/-- The stack knows a file again that is being included. -/
theorem contains_of_sameFile (stack : r.stack.paths = seed ++ open_) (canonical : ∀ o ∈ open_, Canonical o) {p : Path}
    (hp : Canonical p) (again : ∃ o ∈ open_, SameFile o p) : r.stack.contains p = true := by
  obtain ⟨o, mem, same⟩ := again
  refine Stack.contains_iff.mpr ⟨o, ?_, components_of_sameFile (canonical o mem) hp same⟩
  rw [stack]
  exact List.mem_append_right _ mem

variable (identity : ∀ p q, SameFile p q → files.provider.isReadable p = files.provider.isReadable q)

include identity

/-- **A text include is guarded**, if what is included in it is. -/
theorem guarded_textTraced (stack : r.stack.paths = seed ++ open_)
    (being : ∀ o ∈ open_, Canonical o ∧ files.provider.isReadable o = true) {p : Path}
    (seen : r.dir ≠ none → Canonical p) {clock : Clock} {answer : Resolver → Clock → Request → Traced Answer}
    (below : ∀ r' clock q, r'.stack.paths = seed ++ (open_ ++ [p]) → Canonical p → files.provider.isReadable p = true →
      (answer r' clock q).All fun e => e.Spelled → e.Guarded seed (open_ ++ [p])) :
    (Resolver.textTraced files clock r p answer).All fun e => e.Spelled → e.Guarded seed open_ := by
  -- a path seen from a directory is in normal form, and any other was spelled so
  have canonical {asked : List Access} {inside : List Event} {a : Answer}
      (spelled : (Event.text r.dir p asked inside a).Spelled) : Canonical p ∧ ∀ e ∈ inside, e.Spelled := by
    cases spelled with
    | text plain below =>
      by_cases hd : r.dir = none
      · exact ⟨plain hd, below⟩
      · exact ⟨seen hd, below⟩
  have unread (q : Path) : Access.readText q ∉ [Access.isReadable p] := by simp
  refine Resolver.all_textTraced (Q := fun e => Canonical p → e.Spelled → e.Guarded seed (open_ ++ [p]))
    ?missing ?known ?below ?read
  case missing =>
    intro missing _
    refine .text (fun q hq => absurd hq (unread q)) (fun again => ?_) (List.forall_mem_nil _)
    obtain ⟨o, ho, same⟩ := again
    rw [← identity o p same, (being o ho).2] at missing
    cases missing
  case known =>
    intro _ _ _
    refine .text (fun q hq => absurd hq (unread q)) (fun _ => ⟨rfl, rfl, ?_⟩) (List.forall_mem_nil _)
    unfold Stack.chainWith
    rw [stack]
  case below =>
    intro readable _ clock q e he hp
    refine below _ clock q ?_ hp readable e he
    show r.stack.paths ++ [p] = _
    rw [stack, List.append_assoc]
  case read =>
    intro _ unknown inside a guarded spelled
    obtain ⟨hp, within⟩ := canonical spelled
    -- the stack does not know the file, so it is not being included
    have fresh : ∀ o ∈ open_, ¬ SameFile o p := by
      intro o ho same
      rw [contains_of_sameFile stack (fun o ho => (being o ho).1) hp ⟨o, ho, same⟩] at unknown
      cases unknown
    refine .text (fun q hq => ?_) (fun again => ?_) fun e he => guarded e he hp (within e he)
    · rcases List.mem_cons.mp hq with other | last
      · cases other
      · exact ⟨Access.readText.inj (List.mem_singleton.mp last), fresh⟩
    · obtain ⟨o, ho, same⟩ := again
      exact absurd same (fresh o ho)

/-- **Including is guarded**, as far as paths without a directory are spelled in normal form. -/
theorem guarded_fetchTraced (depth : Nat) (clock : Clock) (q : Request) (stack : r.stack.paths = seed ++ open_)
    (being : ∀ o ∈ open_, Canonical o ∧ files.provider.isReadable o = true) :
    (Resolver.fetchTraced files depth r clock q).All fun e => e.Spelled → e.Guarded seed open_ := by
  induction depth generalizing r clock q open_ with
  | zero => exact .pure _
  | succ depth ih =>
    unfold Resolver.fetchTraced
    split
    · rename_i binary
      intro e mem _
      obtain ⟨a, ha, rfl⟩ := List.mem_map.mp mem
      exact .access (accesses_binary depth binary ha)
    · have seen : r.dir ≠ none → Canonical (r.target q.path) := fun hd =>
        canonical_target fun none => absurd none hd
      refine guarded_textTraced identity stack being seen fun r' clock' q' deeper hp readable => ?_
      refine ih clock' q' deeper fun o ho => ?_
      rcases List.mem_append.mp ho with before | last
      · exact being o before
      · obtain rfl := List.mem_singleton.mp last
        exact ⟨hp, readable⟩

omit identity

/-- **Seen from a directory, all paths are in normal form**, unless there is a file in the place of the root. -/
theorem spelled_fetchTraced (noRoot : files.provider.isReadable .rootDirectory = false) (depth : Nat) (clock : Clock)
    (q : Request) (seen : r.dir ≠ none) : (Resolver.fetchTraced files depth r clock q).All Event.Spelled := by
  induction depth generalizing r clock q with
  | zero => exact .pure _
  | succ depth ih =>
    unfold Resolver.fetchTraced
    split
    · intro e mem
      obtain ⟨a, -, rfl⟩ := List.mem_map.mp mem
      exact .access
    · have plain : r.dir = none → Canonical (r.target q.path) := fun none => absurd none seen
      refine Resolver.all_textTraced (fun _ => .text plain (List.forall_mem_nil _))
        (fun _ _ => .text plain (List.forall_mem_nil _)) (fun readable _ clock' q' => ih clock' q' fun none => ?_)
        (fun _ _ _ _ below => .text plain below)
      -- a file without a parent would stand in the place of the root
      obtain ⟨dir, hd⟩ := Option.ne_none_iff_exists'.mp seen
      have normal : r.target q.path = (dir.join (.ofString q.path)).normalize := by
        unfold Resolver.target
        rw [hd]
        rfl
      have root : r.target q.path = .rootDirectory := by
        rw [normal] at none ⊢
        exact Path.eq_root_of_parent? none
      rw [root, noRoot] at readable
      cases readable

end

/-! ## §3 — files in memory -/

/-- Files in memory are told apart by normal form. -/
theorem isReadable_of_sameFile (m : Files.Memory) {p q : Path} (h : SameFile p q) :
    m.provider.isReadable p = m.provider.isReadable q := by
  rw [Files.Memory.isReadable_provider, Files.Memory.find?_of_same h, Files.Memory.isReadable_provider]

/-- **Cycles are refused.** Whatever an expression does with files in memory, no text is read while it is being
included, and the attempt to include it again fails as a cycle before the text is read; provided that includes made
without a directory spell their paths in normal form. An environment of a file sees all paths from a directory, and
so do the files included in it, unless one stands in the place of the root. -/
theorem evaluate_refuses_cycles (m : Files.Memory) (detector : Media.Detector) (directory : Path) (clock : Clock)
    (env : Environment) (code : String) (cells : Array Cell)
    (spelled : (env.dir ≠ none ∧ m.find? .rootDirectory = none) ∨
      ((traced ⟨m.provider, detector, directory, clock⟩ env code).run cells).All Event.Spelled) :
    ((traced ⟨m.provider, detector, directory, clock⟩ env code).run cells).log =
        (env.evaluate ⟨m.provider, detector, directory, clock⟩ code).run cells ∧
      ((traced ⟨m.provider, detector, directory, clock⟩ env code).run cells).All
        (Event.Guarded env.includes.paths []) := by
  refine ⟨log_traced _ env code cells, ?_⟩
  have answered (now : Clock) (q : Request) : (Resolver.fetchTraced ⟨m.provider, detector, directory, clock⟩
      (Resolver.maxDepth ⟨m.provider, detector, directory, clock⟩) (.ofEnvironment env) now q).All fun e =>
        e.Spelled → e.Guarded env.includes.paths [] :=
    guarded_fetchTraced (fun _ _ => isReadable_of_sameFile m) _ now q (List.append_nil _).symm
      fun _ none => absurd none List.not_mem_nil
  have guarded := Traced.all_evaluateWith answered clock env cells code
  have plain : ((traced ⟨m.provider, detector, directory, clock⟩ env code).run cells).All Event.Spelled := by
    rcases spelled with ⟨seen, noRoot⟩ | spelled
    · refine Traced.all_evaluateWith (fun now q => spelled_fetchTraced ?_ _ now q seen) clock env cells code
      show (m.find? .rootDirectory).isSome = false
      rw [noRoot]
      rfl
    · exact spelled
  exact fun e mem => guarded e mem (plain e mem)

/-- A file that includes itself under another spelling. -/
theorem self_include_refused :
    let m : Files.Memory :=
      .ofList [(.ofString "/docs/a.md", Text.Utf8.encode "\x7b\x7b include(\"x/../a.md\") \x7d\x7d")]
    let env : Environment := .ofFile .rootDirectory (.ofString "/docs/main.md")
    let files : FileAccess := ⟨m.provider, .extensionTable, .rootDirectory, .stopped⟩
    (env.dir ≠ none ∧ m.find? .rootDirectory = none) ∧
      ((traced files env "include(\"./a.md\")").run #[]).log = (env.evaluate files "include(\"./a.md\")").run #[] ∧
      ((traced files env "include(\"./a.md\")").run #[]).All (Event.Guarded env.includes.paths []) := by
  intro m env files
  have seen : env.dir ≠ none ∧ m.find? .rootDirectory = none := by decide +kernel
  exact ⟨seen, evaluate_refuses_cycles m .extensionTable .rootDirectory .stopped env _ #[] (.inl seen)⟩

/-- Where there is no directory, a path spelled otherwise stands as it was written, and its file is read again. -/
example :
    let m : Files.Memory := .ofList [(.ofString "a.md", Text.Utf8.encode "\x7b\x7b include(\"a.md\") \x7d\x7d")]
    ((Environment.evaluate ⟨m.provider, .extensionTable, .rootDirectory, .stopped⟩ .empty "include(\"./a.md\")").run
      #[]).accesses = [.isReadable (.ofString "./a.md"), .readText (.ofString "./a.md"), .isReadable (.ofString "a.md"),
        .readText (.ofString "a.md"), .isReadable (.ofString "a.md")] := by
  decide +kernel

end Dialogue.Include
