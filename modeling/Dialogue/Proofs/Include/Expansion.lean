import Dialogue.Proofs.Include.Call
import Dialogue.Proofs.Include.Depth
/-!
# `Dialogue.Proofs.Include.Expansion` — including is expanding text.

When all that the expressions in files do is include further files, an include is the expansion of a template: from
left to right, each expression is replaced by the expansion of the file it names, seen from the directory of the file
it stands in. `Expands` is that expansion, without environments, resolvers or an evaluator. Main statement: evaluating
a call of `include` in the environment of a document yields what the expansion yields, or fails as the expansion does.
-/

namespace Dialogue.Include

open Script (Value Cell Expr Machine Context Eval Interpreter ExceptRel)

/-! ## §1 — the expansion of files -/

/-- **What can be expanded:** a file, or pieces of one in which paths are seen from a directory. -/
inductive Template
  | file (p : Path)
  | pieces (dir : Path) (segments : List Segment)

/-- **What a template expands to**, while the files `open_` are being expanded: its text with every expression replaced
by what the file expands to that it includes, or the first failure on the way. -/
inductive Expands (m : Files.Memory) : (open_ : List Path) → Template → Except Failure String → Prop
  | missing {open_ : List Path} {p : Path} (nothing : m.find? p = none) :
    Expands m open_ (.file p) (.error (.fileNotFound p.toString))
  | cycle {open_ : List Path} {p : Path} {data : Bytes} (found : m.find? p = some data) (again : p ∈ open_) :
    Expands m open_ (.file p) (.error (.circularInclude ((open_ ++ [p]).map Path.toString)))
  | unreadable {open_ : List Path} {p : Path} {data : Bytes} {fault : Text.Utf8.Fault} (found : m.find? p = some data)
    (fresh : p ∉ open_) (broken : Text.Utf8.decode data = .error fault) :
    Expands m open_ (.file p) (.error (.readFailure p.toString fault.message))
  | text {open_ : List Path} {p dir : Path} {data : Bytes} {source : String} {outcome : Except Failure String}
    (found : m.find? p = some data) (fresh : p ∉ open_) (decoded : Text.Utf8.decode data = .ok source)
    (above : p.parent? = some dir)
    (inside : Expands m (open_ ++ [p]) (.pieces dir (Segment.ofTemplate source.toList)) outcome) :
    Expands m open_ (.file p) outcome
  | done {open_ : List Path} {dir : Path} : Expands m open_ (.pieces dir []) (.ok "")
  | literal {open_ : List Path} {dir : Path} {t : List Char} {rest : List Segment} {outcome : Except Failure String}
    (later : Expands m open_ (.pieces dir rest) outcome) :
    Expands m open_ (.pieces dir (.text t :: rest)) (outcome.map (String.ofList t ++ ·))
  | failed {open_ : List Path} {dir : Path} {code : List Char} {path : String} {rest : List Segment} {e : Failure}
    (call : Calls (String.ofList code) path)
    (inside : Expands m open_ (.file (dir.resolve (.ofString path))) (.error e)) :
    Expands m open_ (.pieces dir (.expression code :: rest)) (.error e)
  | replaced {open_ : List Path} {dir : Path} {code : List Char} {path t : String} {rest : List Segment}
    {outcome : Except Failure String} (call : Calls (String.ofList code) path)
    (inside : Expands m open_ (.file (dir.resolve (.ofString path))) (.ok t))
    (later : Expands m open_ (.pieces dir rest) outcome) :
    Expands m open_ (.pieces dir (.expression code :: rest)) (outcome.map (t ++ ·))

/-- **A template expands to one thing only.** -/
theorem Expands.unique {m : Files.Memory} {open_ : List Path} {t : Template} {a b : Except Failure String}
    (h : Expands m open_ t a) (h' : Expands m open_ t b) : b = a := by
  induction h generalizing b with
  | missing nothing =>
    cases h' with
    | missing => rfl
    | cycle found | unreadable found | text found => simp [nothing] at found
  | cycle found again =>
    cases h' with
    | missing nothing => simp [found] at nothing
    | cycle => rfl
    | unreadable _ fresh | text _ fresh => exact absurd again fresh
  | unreadable found fresh broken =>
    cases h' with
    | missing nothing => simp [found] at nothing
    | cycle _ again => exact absurd again fresh
    | unreadable found' _ broken' =>
      obtain rfl := Option.some.inj (found.symm.trans found')
      obtain rfl := Except.error.inj (broken.symm.trans broken')
      rfl
    | text found' _ decoded =>
      obtain rfl := Option.some.inj (found.symm.trans found')
      cases broken.symm.trans decoded
  | text found fresh decoded above _ ih =>
    cases h' with
    | missing nothing => simp [found] at nothing
    | cycle _ again => exact absurd again fresh
    | unreadable found' _ broken =>
      obtain rfl := Option.some.inj (found.symm.trans found')
      cases decoded.symm.trans broken
    | text found' _ decoded' above' inside =>
      obtain rfl := Option.some.inj (found.symm.trans found')
      obtain rfl := Except.ok.inj (decoded.symm.trans decoded')
      obtain rfl := Option.some.inj (above.symm.trans above')
      exact ih inside
  | done =>
    cases h' with
    | done => rfl
  | literal _ ih =>
    cases h' with
    | literal later => rw [ih later]
  | failed call _ ih =>
    cases h' with
    | failed call' inside =>
      rw [call.unique call'] at inside
      exact ih inside
    | replaced call' inside =>
      rw [call.unique call'] at inside
      cases ih inside
  | replaced call _ _ ihInside ihLater =>
    cases h' with
    | failed call' inside =>
      rw [call.unique call'] at inside
      cases ihInside inside
    | replaced call' inside later =>
      rw [call.unique call'] at inside
      cases ihInside inside
      rw [ihLater later]

/-! ## §2 — includes without binary files -/

/-- **Children that are text:** together they read as `t`, and what they emit are the pieces of `t` in order. -/
structure ChildrenRender (children : List (String ⊕ Inclusion)) (t : String) : Prop where
  text : Inclusion.childrenText children = t
  emitted : ∀ b : Emission, ∃ ts : List String,
    (b.emitChildren children).parts = b.parts ++ ts.map .text ∧ String.join ts = t

/-- **An include that is text:** a composite that reads as `t`, and emits the pieces of `t` in order. -/
def Renders (i : Inclusion) (t : String) : Prop := ∃ children, i = .composite children ∧ ChildrenRender children t

theorem ChildrenRender.nil : ChildrenRender [] "" :=
  ⟨rfl, fun _ => ⟨[], (List.append_nil _).symm, rfl⟩⟩

theorem ChildrenRender.literal {children : List (String ⊕ Inclusion)} {t : String} (h : ChildrenRender children t)
    (u : String) : ChildrenRender (.inl u :: children) (u ++ t) := by
  refine ⟨congrArg (u ++ ·) h.text, fun b => ?_⟩
  obtain ⟨ts, parts, joined⟩ := h.emitted (b.appendText u)
  show ∃ us, (Emission.emitChildren (b.appendText u) children).parts = _ ∧ _
  rw [parts]
  unfold Emission.appendText
  split
  · rename_i empty
    refine ⟨ts, rfl, ?_⟩
    rw [joined, String.isEmpty_iff.mp empty, String.empty_append]
  · refine ⟨u :: ts, List.append_assoc _ _ _, ?_⟩
    rw [String.join_cons, joined]

theorem ChildrenRender.inside {children : List (String ⊕ Inclusion)} {i : Inclusion} {t u : String}
    (here : Renders i u) (later : ChildrenRender children t) : ChildrenRender (.inr i :: children) (u ++ t) := by
  obtain ⟨inner, rfl, h⟩ := here
  refine ⟨?_, fun b => ?_⟩
  · show Inclusion.childrenText inner ++ Inclusion.childrenText children = _
    rw [h.text, later.text]
  · obtain ⟨us, innerParts, innerJoined⟩ := h.emitted b
    obtain ⟨ts, parts, joined⟩ := later.emitted (b.emitChildren inner)
    refine ⟨us ++ ts, ?_, ?_⟩
    · show (Emission.emitChildren (b.emitChildren inner) children).parts = _
      rw [parts, innerParts, List.map_append, List.append_assoc]
    · rw [String.join_append, innerJoined, joined]

/-! ## §3 — includes expand files -/

/-- **Every expression in every file calls `include`** with a literal path. -/
def OnlyIncludes (m : Files.Memory) : Prop :=
  ∀ p data source, m.find? p = some data → Text.Utf8.decode data = .ok source →
    ∀ code, .expression code ∈ Segment.ofTemplate source.toList → ∃ path, Calls (String.ofList code) path

section

variable {m : Files.Memory} {open_ : List Path} {dir : Path}

/-- **Pieces are expanded** when each include in them is answered with the expansion of its file. -/
theorem expand_expands {answer : Clock → Request → Logged Answer}
    (inside : ∀ clock path, ∃ outcome, Expands m open_ (.file (dir.resolve (.ofString path))) outcome ∧
      ExceptRel Eq Renders (answer clock ⟨path, {}⟩).value outcome)
    (clock : Clock) (env : Environment) (plain : env.functions = []) (ready : env.withInclude = env) (cells : Array Cell)
    {segments : List Segment}
    (calls : ∀ code, .expression code ∈ segments → ∃ path, Calls (String.ofList code) path) :
    ∃ outcome, Expands m open_ (.pieces dir segments) outcome ∧
      ExceptRel Eq ChildrenRender (Resolver.expand answer clock env cells segments).value outcome := by
  induction segments generalizing clock with
  | nil => exact ⟨.ok "", .done, .ok .nil⟩
  | cons segment rest ih =>
    have ih (clock : Clock) := ih clock fun code mem => calls code (List.mem_cons_of_mem _ mem)
    cases segment with
    | text t =>
      obtain ⟨outcome, later, rendered⟩ := ih clock
      refine ⟨outcome.map (String.ofList t ++ ·), .literal later, ?_⟩
      exact rendered.map fun _ _ h => h.literal _
    | expression code =>
      obtain ⟨path, call⟩ := calls code List.mem_cons_self
      obtain ⟨target, expands, agrees⟩ := inside clock.first.first path
      obtain ⟨outcome, later, rendered⟩ := ih clock.rest
      have value := evaluateWith_of_calls call answer clock.first plain cells
      rw [ready] at value
      unfold Resolver.expand
      rw [Logged.value_bind, value]
      cases answered : (answer clock.first.first ⟨path, {}⟩).value with
      | error e =>
        rw [answered] at agrees
        cases agrees with
        | error same => exact ⟨_, .failed call expands, .error same⟩
      | ok i =>
        rw [answered] at agrees
        cases agrees with
        | ok here => exact ⟨_, .replaced call expands later, rendered.map fun _ _ h => h.inside here⟩

/-- Paths in normal form are on the stack when they are among its paths. -/
theorem contains_eq_decide {r : Resolver} (normal : ∀ o ∈ r.stack.paths, o.normalize = o) {p : Path}
    (hp : p.normalize = p) : r.stack.contains p = true ↔ p ∈ r.stack.paths := by
  rw [Stack.contains_iff]
  constructor
  · rintro ⟨o, mem, same⟩
    have equal : o.normalize = p.normalize := by
      unfold Path.normalize
      rw [same]
    rw [normal o mem, hp] at equal
    exact equal ▸ mem
  · exact fun mem => ⟨p, mem, rfl⟩

/-- Opening a file in normal form keeps the paths on the stack in normal form. -/
theorem normal_inside {r : Resolver} (normal : ∀ o ∈ r.stack.paths, o.normalize = o) {p : Path}
    (hp : p.normalize = p) : ∀ o ∈ (r.inside p).stack.paths, o.normalize = o := by
  intro o mem
  rcases List.mem_append.mp mem with before | last
  · exact normal o before
  · rw [List.mem_singleton.mp last, hp]

/-- A file has a parent: one without would stand in the place of the root. -/
theorem parent?_of_found (noRoot : m.find? .rootDirectory = none) {p : Path} (hp : p.normalize = p) {data : Bytes}
    (found : m.find? p = some data) : ∃ above, p.parent? = some above := by
  refine Option.ne_none_iff_exists'.mp fun none => ?_
  rw [← hp] at none
  have root := Path.eq_root_of_parent? none
  rw [hp] at root
  rw [root, noRoot] at found
  cases found

variable (detector : Media.Detector) (directory : Path) (clock : Clock)

/-- **An include is the expansion of its file**, the files on the stack being those that are expanded. -/
theorem fetchAt_expands (calls : OnlyIncludes m) (noRoot : m.find? .rootDirectory = none) {r : Resolver}
    (seen : r.dir = some dir) (normal : ∀ o ∈ r.stack.paths, o.normalize = o) (now : Clock) (path : String) :
    ∃ outcome, Expands m r.stack.paths (.file (dir.resolve (.ofString path))) outcome ∧
      ExceptRel Eq Renders (Resolver.fetchAt ⟨m.provider, detector, directory, clock⟩ r now ⟨path, {}⟩).value
        outcome := by
  induction room : r.unopened m using Nat.strongRecOn generalizing r dir now path with
  | ind _ ih =>
    have target : r.target path = dir.resolve (.ofString path) := by
      unfold Resolver.target
      rw [seen]
    have hp : (r.target path).normalize = r.target path := by
      rw [target]
      exact Path.normalize_normalize _
    rw [← target, Resolver.fetchAt_eq_once, Resolver.once_eq]
    dsimp only
    cases found : m.find? (r.target path) with
    | none =>
      rw [Files.Memory.isReadable_provider, found]
      exact ⟨_, .missing found, .error rfl⟩
    | some data =>
      rw [Files.Memory.isReadable_provider, found]
      show ∃ outcome, _ ∧ ExceptRel Eq Renders (Resolver.text _ now r (r.target path) _).value outcome
      rw [Resolver.text_eq]
      split
      · rename_i known
        exact ⟨_, .cycle found ((contains_eq_decide normal hp).mp known), .error rfl⟩
      · rename_i unknown
        have fresh : r.target path ∉ r.stack.paths := fun mem => unknown ((contains_eq_decide normal hp).mpr mem)
        dsimp only
        rw [Files.Memory.readText_provider found]
        unfold Files.Memory.textOf
        cases decoded : Text.Utf8.decode data with
        | error fault => exact ⟨_, .unreadable found fresh decoded, .error rfl⟩
        | ok source =>
          dsimp only [Resolver.orFailure]
          obtain ⟨above, parent⟩ := parent?_of_found noRoot hp found
          have readable : m.provider.isReadable (r.target path) = true := by
            rw [Files.Memory.isReadable_provider, found]
            rfl
          have opens : Resolver.Opens ⟨m.provider, detector, directory, clock⟩ r (r.target path) :=
            ⟨readable, Bool.eq_false_iff.mpr unknown⟩
          have less : (r.inside (r.target path)).unopened m < r.unopened m := by
            have used := (Resolver.room_inside opens).1
            rw [seen] at used
            exact used
          have inner := expand_expands
            (fun now' path' => ih _ (room ▸ less) parent (normal_inside normal hp) now' path' rfl) now
            (.child (r.target path) (r.stack.extended (r.target path))) rfl rfl #[]
            fun code mem => calls _ _ _ found decoded code mem
          obtain ⟨outcome, expands, rendered⟩ := inner
          refine ⟨outcome, .text found fresh decoded parent expands, ?_⟩
          exact rendered.mapLeft fun _ _ h => ⟨_, rfl, h⟩

end

/-- **Evaluating a call of `include` is expanding its file.** In the environment of a document, with files in memory
whose expressions include further files and do nothing else, the file has one expansion. Where that is a text, the
value is a composite that reads as that text and emits it piece by piece; where it is a failure, evaluation fails with
the very same failure. The document itself counts as a file that is being expanded. -/
theorem evaluate_expands (m : Files.Memory) (detector : Media.Detector) (directory : Path) (clock : Clock)
    (document : Path) (code path : String) (cells : Array Cell) (calls : OnlyIncludes m)
    (noRoot : m.find? .rootDirectory = none)
    (file : directory.resolve document ≠ .rootDirectory) (call : Calls code path) :
    let files : FileAccess := ⟨m.provider, detector, directory, clock⟩
    let env := Environment.ofFile directory document
    ∃ dir outcome value, (directory.resolve document).parent? = some dir ∧
      (∀ o, Expands m [directory.resolve document] (.file (dir.resolve (.ofString path))) o ↔ o = outcome) ∧
      ((env.evaluate files code).run cells).value = ((value, env.withInclude), cells) ∧
      ExceptRel Eq (fun v t => ∃ i, v = .inclusion i ∧ Renders i t) value outcome := by
  intro files env
  obtain ⟨dir, above⟩ : ∃ dir, (directory.resolve document).parent? = some dir :=
    Option.ne_none_iff_exists'.mp fun none => file (Path.eq_root_of_parent? none)
  have normal : ∀ o ∈ (Resolver.ofEnvironment env).stack.paths, o.normalize = o := by
    intro o mem
    rw [List.mem_singleton.mp mem]
    exact Path.normalize_normalize _
  obtain ⟨outcome, expands, agrees⟩ := fetchAt_expands detector directory clock calls noRoot
    (r := .ofEnvironment env) above normal clock.first path
  refine ⟨dir, outcome, (Resolver.fetchAt files (.ofEnvironment env) clock.first ⟨path, {}⟩).value.map .inclusion,
    above, fun o => ⟨expands.unique, fun same => same ▸ expands⟩, ?_, ?_⟩
  · exact evaluateWith_of_calls call _ clock rfl cells
  · exact agrees.mapLeft fun i _ h => ⟨i, rfl, h⟩

/-- It is enough to look at the files one by one. -/
theorem onlyIncludes_of_entries {m : Files.Memory}
    (each : ∀ e ∈ m.entries, ∃ source, Text.Utf8.decode e.2 = .ok source ∧
      ∀ code, .expression code ∈ Segment.ofTemplate source.toList → ∃ path, Calls (String.ofList code) path) :
    OnlyIncludes m := by
  intro p data source found decoded
  obtain ⟨e, there, rfl⟩ := Option.map_eq_some_iff.mp found
  obtain ⟨source', decoded', calls⟩ := each e (List.mem_of_find?_eq_some there)
  obtain rfl := Except.ok.inj (decoded.symm.trans decoded')
  exact calls

/-- A file that is included twice is expanded twice. -/
theorem shared_file_expands :
    let a := "A\x7b\x7binclude(\"b.md\")\x7d\x7d, again \x7b\x7b include(\"x/../b.md\") \x7d\x7d"
    let m : Files.Memory :=
      .ofList [(.ofString "/docs/a.md", Text.Utf8.encode a), (.ofString "/docs/b.md", Text.Utf8.encode "B")]
    let document : Path := .ofString "/docs/main.md"
    let files : FileAccess := ⟨m.provider, .extensionTable, .rootDirectory, .stopped⟩
    let env := Environment.ofFile .rootDirectory document
    (OnlyIncludes m ∧ m.find? .rootDirectory = none ∧ Path.rootDirectory.resolve document ≠ .rootDirectory ∧
      Calls "include(\"a.md\")" "a.md") ∧
    ∃ dir outcome value, (Path.rootDirectory.resolve document).parent? = some dir ∧
      (∀ o, Expands m [Path.rootDirectory.resolve document] (.file (dir.resolve (.ofString "a.md"))) o ↔ o = outcome) ∧
      ((env.evaluate files "include(\"a.md\")").run #[]).value = ((value, env.withInclude), #[]) ∧
      ExceptRel Eq (fun v t => ∃ i, v = .inclusion i ∧ Renders i t) value outcome := by
  intro a m document files env
  have noRoot : m.find? .rootDirectory = none := by decide +kernel
  have file : Path.rootDirectory.resolve document ≠ .rootDirectory := by decide +kernel
  have call : Calls "include(\"a.md\")" "a.md" :=
    calls_of_trim "include(\"a.md\")".toList "a.md".toList (by decide +kernel) (by decide +kernel)
  have calls : OnlyIncludes m := by
    refine onlyIncludes_of_entries (List.forall_mem_cons.mpr ⟨?_, List.forall_mem_cons.mpr ⟨?_, nofun⟩⟩)
    · have pieces : Segment.ofTemplate "B".toList = [.text ['B']] := by decide +kernel
      refine ⟨"B", by decide +kernel, fun code mem => ?_⟩
      rw [pieces] at mem
      cases List.mem_singleton.mp mem
    · have pieces : Segment.ofTemplate a.toList = [.text ['A'], .expression "include(\"b.md\")".toList,
          .text ", again ".toList, .expression " include(\"x/../b.md\") ".toList] := by
        decide +kernel
      refine ⟨a, by decide +kernel, fun code mem => ?_⟩
      rw [pieces] at mem
      simp only [List.mem_cons, reduceCtorEq, Segment.expression.injEq, List.not_mem_nil, or_false, false_or] at mem
      rcases mem with rfl | rfl
      · exact ⟨_, calls_of_trim _ "b.md".toList (by decide +kernel) (by decide +kernel)⟩
      · exact ⟨_, calls_of_trim _ "x/../b.md".toList (by decide +kernel) (by decide +kernel)⟩
  exact ⟨⟨calls, noRoot, file, call⟩,
    evaluate_expands m .extensionTable .rootDirectory .stopped document _ _ #[] calls noRoot file call⟩

end Dialogue.Include
