import Dialogue.Proofs.Include.Cycle
/-!
# `Dialogue.Proofs.Include.Depth` — includes end.

Nothing counts how deep includes nest. What ends them is the stack: a text that is opened was not on it and is from
then on. Seen from a directory, a path is in normal form, so each file in memory is opened once at most. Without a
directory a path stands as it was written; but only two paths leave the files they lead to without a directory, so
along one chain that happens three times at most. Main statement: unfolded often enough, an include does not depend on
what answers the includes nested deeper, and no chain of opened texts is longer than that.
-/

namespace Dialogue

open Dialogue.Path (Component)

namespace Include

/-! ## §1 — what is not on the stack -/

/-- **How many of the given paths are not on the stack**, paths being told apart by their components. -/
def Stack.absent (s : Stack) (spellings : List (List Component)) : Nat :=
  spellings.countP fun cs => !s.paths.any fun p => p.components == cs

theorem Stack.absent_le (s : Stack) (spellings : List (List Component)) : s.absent spellings ≤ spellings.length :=
  List.countP_le_length

theorem Stack.absent_extended_le (s : Stack) (p : Path) (spellings : List (List Component)) :
    (s.extended p).absent spellings ≤ s.absent spellings := by
  refine List.countP_mono_left fun cs _ absent => ?_
  simp only [paths_extended, List.any_append, Bool.not_or, Bool.and_eq_true] at absent
  exact absent.1

/-- **A path put on the stack is absent no more.** -/
theorem Stack.absent_extended_lt {s : Stack} {p : Path} (fresh : s.contains p = false)
    {spellings : List (List Component)} (mem : p.components ∈ spellings) :
    (s.extended p).absent spellings + 1 ≤ s.absent spellings := by
  induction spellings with
  | nil => cases mem
  | cons cs rest ih =>
    unfold absent at ih ⊢
    rw [List.countP_cons, List.countP_cons]
    by_cases here : p.components = cs
    · subst here
      have before : (!s.paths.any fun q => q.components == p.components) = true := by
        simpa [contains, Path.same] using fresh
      have after : (!(s.extended p).paths.any fun q => q.components == p.components) = false := by
        simp
      have others := absent_extended_le s p rest
      unfold absent at others
      simp only [before, after, if_true, Bool.false_eq_true, if_false]
      omega
    · have later := ih ((List.mem_cons.mp mem).resolve_left here)
      have same : (!(s.extended p).paths.any fun q => q.components == cs) =
          !s.paths.any fun q => q.components == cs := by
        simp [here]
      rw [same]
      omega

end Include

/-- **How the files are spelled** when their paths are in normal form. -/
def Files.Memory.spellings (m : Files.Memory) : List (List Component) :=
  m.entries.map fun e => (Path.ofComponents e.1).components

theorem Files.Memory.length_spellings (m : Files.Memory) : m.spellings.length = m.size := List.length_map _

theorem Files.Memory.mem_spellings {m : Files.Memory} {p : Path} (canonical : Include.Canonical p)
    (readable : m.provider.isReadable p = true) : p.components ∈ m.spellings := by
  have found : (m.find? p).isSome = true := readable
  unfold find? at found
  rw [Option.isSome_map, List.find?_isSome] at found
  obtain ⟨e, mem, same⟩ := found
  refine List.mem_map.mpr ⟨e, mem, ?_⟩
  rw [of_decide_eq_true same]
  exact canonical.symm

namespace Include.Resolver

/-! ## §2 — opening a text -/

/-- Where the includes in a text are resolved. -/
def inside (r : Resolver) (p : Path) : Resolver := ofEnvironment (.child p (r.stack.extended p))

/-- **A text is opened** when it is readable and not being included already. -/
structure Opens (files : FileAccess) (r : Resolver) (p : Path) : Prop where
  readable : files.provider.isReadable p = true
  fresh : r.stack.contains p = false

/-- The files in memory that can still be opened by paths in normal form. -/
def unopened (m : Files.Memory) (r : Resolver) : Nat := r.stack.absent m.spellings

/-- The components of paths that have no parent. -/
def parentless : List (List Component) := [[], [.root]]

/-- How often a path can still be taken as it was written: now, if there is no directory, and in each text that
is opened by a path without a parent. -/
def strays (r : Resolver) : Nat := r.dir.isNone.toNat + r.stack.absent parentless

theorem strays_le (r : Resolver) : r.strays ≤ 3 := by
  have count := r.stack.absent_le parentless
  have one := Bool.toNat_le r.dir.isNone
  unfold strays
  simp only [parentless, List.length_cons, List.length_nil] at count ⊢
  omega

theorem unopened_le (m : Files.Memory) (r : Resolver) : r.unopened m ≤ m.size :=
  m.length_spellings ▸ r.stack.absent_le m.spellings

variable {m : Files.Memory} {detector : Media.Detector} {directory : Path} {clock : Clock} {r : Resolver}

/-- **Opening a text uses up** a file in memory, or, without a directory, one of the paths taken as written. -/
theorem room_inside {path : String} (opens : Opens ⟨m.provider, detector, directory, clock⟩ r (r.target path)) :
    (r.inside (r.target path)).unopened m + r.dir.isSome.toNat ≤ r.unopened m ∧
      (r.inside (r.target path)).strays + r.dir.isNone.toNat ≤ r.strays := by
  have files : (r.inside (r.target path)).unopened m = (r.stack.extended (r.target path)).absent m.spellings := rfl
  have parent : (r.inside (r.target path)).strays =
      (r.target path).parent?.isNone.toNat + (r.stack.extended (r.target path)).absent parentless := rfl
  constructor
  · rw [files]
    cases seen : r.dir with
    | none => exact r.stack.absent_extended_le _ _
    | some dir =>
      have canonical : Canonical (r.target path) := canonical_target fun none => by
        rw [seen] at none
        cases none
      exact Stack.absent_extended_lt opens.fresh (Files.Memory.mem_spellings canonical opens.readable)
  · rw [parent]
    unfold strays
    have fewer := r.stack.absent_extended_le (r.target path) parentless
    cases above : (r.target path).parent? with
    | some dir =>
      simp only [Option.isNone_some, Bool.toNat_false]
      omega
    | none =>
      have mem : (r.target path).components ∈ parentless := by
        rcases Path.components_of_parent? above with none | root
        · rw [none]
          exact List.mem_cons_self
        · rw [root]
          exact List.mem_cons_of_mem _ List.mem_cons_self
      have fewer := Stack.absent_extended_lt opens.fresh mem
      simp only [Option.isNone_none, Bool.toNat_true]
      omega

/-! ## §3 — unfolding includes -/

/-- **One include**, those in its text being answered by `deeper`. -/
def once (files : FileAccess) (deeper : Resolver → Clock → Request → Logged Answer) (r : Resolver) (now : Clock)
    (q : Request) : Logged Answer := do
  let p := r.target q.path
  if !(← files.isReadable p) then return .error (.fileNotFound p.toString)
  if q.options.binary then binary files q p
  else text files now r p deeper

/-- **Includes unfolded** so many times, what is nested deeper being answered by `deepest`. -/
def unfolded (files : FileAccess) (deepest : Resolver → Clock → Request → Logged Answer) :
    (times : Nat) → Resolver → Clock → Request → Logged Answer
  | 0 => deepest
  | times + 1 => once files (unfolded files deepest times)

theorem fetchWithin_eq_unfolded (files : FileAccess) (depth : Nat) :
    fetchWithin files depth = unfolded files (fetchWithin files 0) depth := by
  induction depth with
  | zero => rfl
  | succ depth ih =>
    show once files (fetchWithin files depth) = once files (unfolded files (fetchWithin files 0) depth)
    rw [ih]

theorem unfolded_once (files : FileAccess) (deepest : Resolver → Clock → Request → Logged Answer) (times : Nat) :
    unfolded files (once files deepest) times = once files (unfolded files deepest times) := by
  induction times with
  | zero => rfl
  | succ times ih =>
    show once files (unfolded files (once files deepest) times) = _
    rw [ih]
    rfl

variable {files : FileAccess} {deeper deeper' : Resolver → Clock → Request → Logged Answer} {now : Clock}

/-- **A text include, step by step:** a file on the stack is refused; otherwise it is read, and its text expanded. -/
theorem text_eq (p : Path) : text files now r p deeper =
    if r.stack.contains p then ⟨.error (.circularInclude (r.stack.chainWith p)), []⟩
    else match orFailure p (files.provider.readText p) with
      | .error e => ⟨.error e, [.readText p]⟩
      | .ok source =>
        let children := expand (deeper (r.inside p)) now (.child p (r.stack.extended p)) #[]
          (Segment.ofTemplate source.toList)
        ⟨children.value.map .composite, .readText p :: children.accesses⟩ := by
  unfold text
  split
  · rfl
  · rw [readText_bind]
    generalize orFailure p (files.provider.readText p) = read
    cases read with
    | error e => rfl
    | ok source =>
      dsimp only [inside]
      rw [Logged.accesses_bind, Logged.accesses_pure, List.append_nil]
      rfl

/-- **An include, step by step.** -/
theorem once_eq (q : Request) : once files deeper r now q =
    if files.provider.isReadable (r.target q.path) then
      let asked := if q.options.binary then binary files q (r.target q.path)
        else text files now r (r.target q.path) deeper
      ⟨asked.value, .isReadable (r.target q.path) :: asked.accesses⟩
    else ⟨.error (.fileNotFound (r.target q.path).toString), [.isReadable (r.target q.path)]⟩ := by
  unfold once
  dsimp only
  rw [isReadable_bind]
  cases files.provider.isReadable (r.target q.path) <;> rfl

/-- Only what is asked for inside a text that is opened is answered by `deeper`. -/
theorem once_congr {q : Request} (same : Opens files r (r.target q.path) →
    deeper (r.inside (r.target q.path)) = deeper' (r.inside (r.target q.path))) :
    once files deeper r now q = once files deeper' r now q := by
  rw [once_eq, once_eq]
  split
  · rename_i readable
    have text : text files now r (r.target q.path) deeper = text files now r (r.target q.path) deeper' := by
      rw [text_eq, text_eq]
      split
      · rfl
      · rename_i fresh
        rw [same ⟨readable, Bool.eq_false_iff.mpr fresh⟩]
    rw [text]
  · rfl

/-- **Unfolded often enough, nothing is left to answer.** -/
theorem unfolded_eq (deepest deepest' : Resolver → Clock → Request → Logged Answer) {times : Nat}
    (enough : r.unopened m + r.strays < times) (now : Clock) (q : Request) :
    unfolded ⟨m.provider, detector, directory, clock⟩ deepest times r now q =
      unfolded ⟨m.provider, detector, directory, clock⟩ deepest' times r now q := by
  induction times generalizing r now q with
  | zero => omega
  | succ times ih =>
    refine once_congr fun opens => funext fun now' => funext fun q' => ih ?_ now' q'
    obtain ⟨files, strays⟩ := room_inside opens
    have one : r.dir.isSome.toNat + r.dir.isNone.toNat = 1 := by cases r.dir <;> rfl
    omega

/-- **What includes come to**, whatever answers those that are nested too deep. -/
theorem unfolded_eq_fetchAt (deepest : Resolver → Clock → Request → Logged Answer) (r : Resolver) (now : Clock)
    (q : Request) : unfolded ⟨m.provider, detector, directory, clock⟩ deepest (m.size + 4) r now q =
      fetchAt ⟨m.provider, detector, directory, clock⟩ r now q := by
  show _ = fetchWithin _ (m.size + 4) r now q
  rw [fetchWithin_eq_unfolded]
  refine unfolded_eq _ _ ?_ now q
  have files := r.unopened_le m
  have strays := r.strays_le
  omega

/-- **An include is one include** whose own includes are answered in the same way. -/
theorem fetchAt_eq_once (r : Resolver) (now : Clock) (q : Request) :
    fetchAt ⟨m.provider, detector, directory, clock⟩ r now q =
      once ⟨m.provider, detector, directory, clock⟩ (fetchAt ⟨m.provider, detector, directory, clock⟩) r now q := by
  have again : unfolded ⟨m.provider, detector, directory, clock⟩
      (fetchAt ⟨m.provider, detector, directory, clock⟩) (m.size + 4) =
      fetchAt ⟨m.provider, detector, directory, clock⟩ :=
    funext fun r => funext fun now => funext fun q => unfolded_eq_fetchAt _ r now q
  rw [← unfolded_eq_fetchAt (once _ (fetchAt _)), unfolded_once, again]

end Resolver

/-! ## §4 — chains of opened texts -/

mutual

/-- **The chains of texts opened one inside the other**, outermost first: where each of their paths was seen from. -/
def Event.chains : Event → List (List (Option Path))
  | .access _ => []
  | .text dir p asked inside _ => if .readText p ∈ asked then [dir] :: (chainsOf inside).map (dir :: ·) else []

/-- The chains that start in one of several events. -/
def chainsOf : List Event → List (List (Option Path))
  | [] => []
  | e :: es => e.chains ++ chainsOf es

end

theorem mem_chainsOf {es : List Event} {chain : List (Option Path)} (mem : chain ∈ chainsOf es) :
    ∃ e ∈ es, chain ∈ e.chains := by
  induction es with
  | nil => cases mem
  | cons e es ih =>
    rcases List.mem_append.mp mem with here | later
    · exact ⟨e, List.mem_cons_self, here⟩
    · obtain ⟨e', mem, chain⟩ := ih later
      exact ⟨e', List.mem_cons_of_mem _ mem, chain⟩

namespace Resolver

variable {m : Files.Memory} {detector : Media.Detector} {directory : Path} {clock : Clock} {r : Resolver}

/-- **A chain has room in the files**, and in the paths that can be taken as written. -/
def HasRoom (m : Files.Memory) (r : Resolver) (chain : List (Option Path)) : Prop :=
  chain.countP Option.isSome ≤ r.unopened m ∧ chain.countP Option.isNone ≤ r.strays

/-- **The chains of a text include have room**, if those of what is included in it have. -/
theorem hasRoom_textTraced {path : String} {now : Clock} {answer : Resolver → Clock → Request → Traced Answer}
    (deeper : ∀ now q, (answer (r.inside (r.target path)) now q).All fun e =>
      ∀ chain ∈ e.chains, (r.inside (r.target path)).HasRoom m chain) :
    (textTraced ⟨m.provider, detector, directory, clock⟩ now r (r.target path) answer).All fun e =>
      ∀ chain ∈ e.chains, r.HasRoom m chain := by
  have none {asked : List Access} {inside : List Event} {a : Answer} (unread : .readText (r.target path) ∉ asked) :
      ∀ chain ∈ (Event.text r.dir (r.target path) asked inside a).chains, r.HasRoom m chain := by
    intro chain mem
    rw [Event.chains, if_neg unread] at mem
    cases mem
  have some {asked : List Access} {inside : List Event} {a : Answer}
      (opens : Opens ⟨m.provider, detector, directory, clock⟩ r (r.target path))
      (below : ∀ e ∈ inside, ∀ chain ∈ e.chains, (r.inside (r.target path)).HasRoom m chain) :
      ∀ chain ∈ (Event.text r.dir (r.target path) asked inside a).chains, r.HasRoom m chain := by
    intro chain mem
    obtain ⟨files, strays⟩ := room_inside opens
    rw [Event.chains] at mem
    split at mem
    · unfold HasRoom
      -- a chain is this text, perhaps with a chain of what was included in it
      rcases List.mem_cons.mp mem with rfl | longer
      · cases seen : r.dir <;> rw [seen] at files strays <;> simp at files strays ⊢ <;> omega
      · obtain ⟨rest, inner, rfl⟩ := List.mem_map.mp longer
        obtain ⟨e, he, hc⟩ := mem_chainsOf inner
        obtain ⟨restFiles, restStrays⟩ := below e he rest hc
        cases seen : r.dir <;> rw [seen] at files strays <;> simp at files strays ⊢ <;> omega
    · cases mem
  refine all_textTraced (fun _ => none (by simp)) (fun _ _ => none (by simp)) (fun _ _ => deeper) ?_
  exact fun readable fresh inside a below => some ⟨readable, fresh⟩ below

/-- **All chains of an include have room.** -/
theorem hasRoom_fetchTraced (depth : Nat) (now : Clock) (q : Request) :
    (fetchTraced ⟨m.provider, detector, directory, clock⟩ depth r now q).All fun e =>
      ∀ chain ∈ e.chains, r.HasRoom m chain := by
  induction depth generalizing r now q with
  | zero => exact .pure _
  | succ depth ih =>
    unfold fetchTraced
    split
    · intro e mem
      obtain ⟨a, -, rfl⟩ := List.mem_map.mp mem
      exact fun _ none => absurd none List.not_mem_nil
    · exact hasRoom_textTraced fun now' q' => ih now' q'

/-- **Includes end.** Whatever `n` files are in memory, wherever paths are seen from and whatever the clock reads:
unfolded `n + 4` times, an include does not depend on what answers the includes nested deeper, so the bound on their
depth is never met; it is one include whose own includes are answered in the same way; and in all that happens on the
way, a chain of texts opened one inside the other has at most `n` texts, not counting those whose path was taken as
written since there was no directory, which are three at most. -/
theorem fetch_ends (m : Files.Memory) (detector : Media.Detector) (directory : Path) (clock : Clock) (r : Resolver)
    (now : Clock) (q : Request) :
    let files : FileAccess := ⟨m.provider, detector, directory, clock⟩
    (∀ deepest : Resolver → Clock → Request → Logged Answer,
        unfolded files deepest (m.size + 4) r now q = fetchAt files r now q) ∧
      fetchAt files r now q = once files (fetchAt files) r now q ∧
      (fetchTraced files (maxDepth files) r now q).log = fetchAt files r now q ∧
      ∀ chain ∈ chainsOf (fetchTraced files (maxDepth files) r now q).events,
        chain.length ≤ m.size + chain.countP Option.isNone ∧ chain.countP Option.isNone ≤ 3 := by
  intro files
  refine ⟨fun deepest => unfolded_eq_fetchAt deepest r now q, fetchAt_eq_once r now q,
    log_fetchTraced files _ r now q, ?_⟩
  intro chain mem
  obtain ⟨e, he, hc⟩ := mem_chainsOf mem
  obtain ⟨files, strays⟩ := hasRoom_fetchTraced _ now q e he chain hc
  have opened := r.unopened_le m
  have written := r.strays_le
  have split : chain.length = chain.countP Option.isSome + _ := List.length_eq_countP_add_countP Option.isSome
  have notSome : chain.countP (fun a => decide ¬ a.isSome = true) = chain.countP Option.isNone :=
    List.countP_congr fun a _ => by cases a <;> simp
  rw [notSome] at split
  omega

/-- Asked for under another spelling, a file that includes itself is opened twice. -/
example :
    let m : Files.Memory := .ofList [(.ofString "a.md", Text.Utf8.encode "\x7b\x7b include(\"a.md\") \x7d\x7d")]
    let files : FileAccess := ⟨m.provider, .extensionTable, .rootDirectory, .stopped⟩
    chainsOf (fetchTraced files (maxDepth files) ⟨none, {}⟩ .stopped ⟨"./a.md", {}⟩).events =
      [[none], [none, some ⟨['.']⟩]] := by
  decide +kernel

end Resolver

end Include

end Dialogue
