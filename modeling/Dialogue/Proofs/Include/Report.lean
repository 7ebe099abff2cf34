import Dialogue.Proofs.Environment.Genuine
import Dialogue.Proofs.Environment.History
import Dialogue.Proofs.Include.Depth
import Mathlib.Data.List.Nodup
/-!
# `Dialogue.Proofs.Include.Report` — a reported cycle is a cycle.

A text include is refused with the names of the files that are being included and of the one that is among them. By the
time such a failure surfaces, it may have been caught, kept in a variable or a closure, and thrown again by a later
script; but since no script can make one, it is still the answer to a request, and tells who included whom when the
request was made. Main statement: whatever scripts are run in the environment of a document, a cycle that is reported
starts with the document, comes back to exactly one of its files, and in each of its files a text include was asked for
that leads to the next.
-/

namespace Dialogue

open Script (Value Cell)

namespace Include.Resolver

/-! ## §1 — who includes whom -/

/-- Includes in a text are resolved in the directory of its file. -/
theorem dir_inside (r : Resolver) (p : Path) : (r.inside p).dir = p.parent? := rfl

/-- **The requests made while a text is expanded** that is opened at `p`. -/
def requestsIn (files : FileAccess) (clock : Clock) (r : Resolver) (p : Path) (source : String) :
    List (Clock × Request) :=
  (expand (Asked.noting fun clock q => (fetchAt files (r.inside p) clock q).value) clock
    (.child p (r.stack.extended p)) #[] (Segment.ofTemplate source.toList)).requests

/-- **A chain of text includes.** The first of its files is asked for by one of the requests `asked`, seen from where
`r` resolves paths; each further one by a request made while the text of the file before it is expanded, seen from the
directory of that file. -/
inductive Leads (files : FileAccess) : Resolver → (asked : List (Clock × Request)) → List Path → Prop
  | last {r : Resolver} {asked : List (Clock × Request)} {clock : Clock} {q : Request} (made : (clock, q) ∈ asked)
    (text : q.options.binary = false) : Leads files r asked [r.target q.path]
  | through {r : Resolver} {asked : List (Clock × Request)} {clock : Clock} {q : Request} {source : String}
    {rest : List Path} (made : (clock, q) ∈ asked) (text : q.options.binary = false)
    (read : files.provider.readText (r.target q.path) = .ok source)
    (inner : Leads files (r.inside (r.target q.path)) (requestsIn files clock r (r.target q.path) source) rest) :
    Leads files r asked (r.target q.path :: rest)

theorem Leads.ne_nil {files : FileAccess} {r : Resolver} {asked : List (Clock × Request)} {ps : List Path}
    (h : Leads files r asked ps) : ps ≠ [] := by
  cases h <;> exact List.cons_ne_nil _ _

/-- **Files one after another, and then one of them again.** -/
structure Returns (earlier : List Path) (last : Path) : Prop where
  distinct : earlier.Nodup
  once : earlier.count last = 1
  settled : ∀ p ∈ earlier, p.Settled

/-- **If the failure is a cycle, it is a real one:** the files being included, and from there on a chain of text
includes that returns. -/
def Reported (files : FileAccess) (r : Resolver) (asked : List (Clock × Request)) (e : Failure) : Prop :=
  ∀ chain, e = .circularInclude chain → ∃ earlier last further, Returns earlier last ∧
    earlier ++ [last] = r.stack.paths ++ further ∧ chain = (earlier ++ [last]).map Path.toString ∧
    Leads files r asked further

theorem reported_of_ne {files : FileAccess} {r : Resolver} {asked : List (Clock × Request)} {e : Failure}
    (other : ∀ chain, e ≠ .circularInclude chain) : Reported files r asked e :=
  fun chain same => absurd same (other chain)

/-- What an environment fails with in its own words is no cycle. -/
theorem admits_reported (files : FileAccess) (r : Resolver) (asked : List (Clock × Request)) :
    Environment.Admits (Reported files r asked) :=
  ⟨fun _ _ => reported_of_ne nofun, fun _ _ => reported_of_ne nofun, fun _ _ _ => reported_of_ne nofun⟩

/-! ## §2 — resolvers on the way -/

/-- **A resolver under a document:** it has a directory, and the files being included are different ones, spelled in
full. -/
structure Sound (r : Resolver) : Prop where
  dir : ∃ d, r.dir = some d ∧ d.isAbsolute = true
  settled : ∀ p ∈ r.stack.paths, p.Settled
  distinct : r.stack.paths.Nodup

namespace Sound

variable {r : Resolver} {p : Path}

theorem target (h : r.Sound) (path : String) : (r.target path).Settled := by
  obtain ⟨d, dir, absolute⟩ := h.dir
  unfold Resolver.target
  rw [dir]
  exact Path.settled_resolve absolute _

/-- Files spelled in full are on the stack when they are found there. -/
theorem mem_of_contains (h : r.Sound) (hp : p.Settled) (found : r.stack.contains p = true) : p ∈ r.stack.paths := by
  obtain ⟨o, mem, same⟩ := Stack.contains_iff.mp found
  have equal : o = p := by
    rw [← (h.settled o mem).normal, ← hp.normal, Path.normalize, same, Path.normalize]
  exact equal ▸ mem

/-- **Opening a text** that is not open yet, and not in the place of the root. -/
theorem inside (h : r.Sound) (hp : p.Settled) (fresh : r.stack.contains p = false) (notRoot : p ≠ .rootDirectory) :
    (r.inside p).Sound := by
  refine ⟨?_, List.forall_mem_append.mpr ⟨h.settled, List.forall_mem_singleton.mpr hp⟩, ?_⟩
  · rw [dir_inside]
    exact hp.exists_parent notRoot
  · refine List.nodup_append.mpr ⟨h.distinct, List.nodup_singleton p, fun a before b last same => ?_⟩
    obtain rfl := List.mem_singleton.mp last
    rw [Stack.contains_iff.mpr ⟨a, before, same ▸ rfl⟩] at fresh
    cases fresh

/-- **A file that is found on the stack** comes there once. -/
theorem returns (h : r.Sound) (hp : p.Settled) (found : r.stack.contains p = true) : Returns r.stack.paths p :=
  ⟨h.distinct, List.count_eq_one_of_mem h.distinct (h.mem_of_contains hp found), h.settled⟩

end Sound

/-! ## §3 — answers -/

theorem eq_of_orFailure_ok {α : Type} {p : Path} {read : Except ReadError α} {a : α} (h : orFailure p read = .ok a) :
    read = .ok a := by
  cases read with
  | error e => cases h
  | ok b => exact congrArg _ (Except.ok.inj h)

/-- A read fails in one way. -/
theorem error_of_orFailure {α : Type} {p : Path} {read : Except ReadError α} {e : Failure}
    (h : orFailure p read = .error e) : ∃ text, e = .readFailure p.toString text := by
  cases read with
  | error cause => exact ⟨cause.message, (Except.error.inj h).symm⟩
  | ok a => cases h

/-- **A binary include** fails for want of a media type, or because its file cannot be read. -/
theorem error_of_binary {files : FileAccess} {q : Request} {p : Path} {e : Failure}
    (failed : (binary files q p).value = .error e) :
    e = .mimeUndetermined p.toString ∨ ∃ text, e = .readFailure p.toString text := by
  unfold binary at failed
  split at failed
  · exact .inl (Except.error.inj failed).symm
  · exact .inr (error_of_orFailure (Environment.error_of_map failed))

/-- **A failure that is a chain further in** is one from here. -/
theorem Reported.outward {files : FileAccess} {r : Resolver} {asked : List (Clock × Request)} {clock : Clock}
    {q : Request} {source : String} {e : Failure} (made : (clock, q) ∈ asked) (text : q.options.binary = false)
    (read : files.provider.readText (r.target q.path) = .ok source)
    (h : Reported files (r.inside (r.target q.path)) (requestsIn files clock r (r.target q.path) source) e) :
    Reported files r asked e := by
  intro chain same
  obtain ⟨earlier, last, further, returns, whole, spelled, leads⟩ := h chain same
  refine ⟨earlier, last, r.target q.path :: further, returns, ?_, spelled, .through made text read leads⟩
  rw [whole]
  exact List.append_assoc _ [_] further

/-- **A text include** that fails with a cycle: it finds its file on the stack, or what its text asks for does. -/
theorem reported_text {files : FileAccess} {r : Resolver} (h : r.Sound) {clock : Clock} {q : Request}
    {asked : List (Clock × Request)} (made : (clock, q) ∈ asked) (isText : q.options.binary = false)
    (inside : r.stack.contains (r.target q.path) = false → ∀ asked', ∀ q' ∈ asked', ∀ e,
      (fetchAt files (r.inside (r.target q.path)) q'.1 q'.2).value = .error e →
        Reported files (r.inside (r.target q.path)) asked' e)
    {e : Failure} (failed : (text files clock r (r.target q.path) (fetchAt files)).value = .error e) :
    Reported files r asked e := by
  rw [text_eq] at failed
  split at failed
  · rename_i found
    obtain rfl := Except.error.inj failed
    -- the stack is all of the chain but its end, and the end is asked for here
    rintro chain ⟨⟩
    exact ⟨_, _, _, h.returns (h.target q.path) found, rfl, rfl, .last made isText⟩
  · rename_i fresh
    split at failed
    · rename_i unread
      obtain rfl := Except.error.inj failed
      obtain ⟨text, rfl⟩ := error_of_orFailure unread
      exact reported_of_ne nofun
    · rename_i source read
      have expanded := Environment.error_of_map failed
      rw [← Environment.value_expand] at expanded
      have answered := inside (Bool.eq_false_iff.mpr fresh) (requestsIn files clock r (r.target q.path) source)
      have reported := (Environment.genuine_child _ _).expand (admits_reported _ _ _).evaluation answered expanded
      exact reported.outward made isText (eq_of_orFailure_ok read)

variable {m : Files.Memory} {detector : Media.Detector} {directory : Path} {clock : Clock}

/-- **What a request is answered with** is no cycle, or a real one. -/
theorem reported_fetchAt (noRoot : m.find? .rootDirectory = none) {r : Resolver} (h : r.Sound)
    {asked : List (Clock × Request)} : ∀ q ∈ asked, ∀ e,
      (fetchAt ⟨m.provider, detector, directory, clock⟩ r q.1 q.2).value = .error e →
      Reported ⟨m.provider, detector, directory, clock⟩ r asked e := by
  -- with each text that is opened, fewer files are left to open
  induction room : r.unopened m using Nat.strong_induction_on generalizing r asked with
  | _ n ih =>
    rintro ⟨now, q⟩ made e failed
    rw [fetchAt_eq_once, once_eq] at failed
    split at failed
    · rename_i readable
      dsimp only at failed
      split at failed
      · rcases error_of_binary failed with rfl | ⟨text, rfl⟩ <;> exact reported_of_ne nofun
      · rename_i isText
        refine reported_text h made (Bool.eq_false_iff.mpr isText) (fun fresh asked' => ?_) failed
        have notRoot : r.target q.path ≠ .rootDirectory := by
          intro same
          have there : (m.find? (r.target q.path)).isSome = true := readable
          rw [same, noRoot] at there
          cases there
        have fewer : (r.inside (r.target q.path)).unopened m < n := by
          obtain ⟨d, dir, -⟩ := h.dir
          have opens : Opens ⟨m.provider, detector, directory, clock⟩ r (r.target q.path) := ⟨readable, fresh⟩
          have uses := (room_inside opens).1
          rw [dir] at uses
          exact room ▸ uses
        exact ih _ fewer (h.inside (h.target q.path) fresh notRoot) rfl
    · obtain rfl := Except.error.inj failed
      exact reported_of_ne nofun

/-- **The environment of a document** resolves includes in its directory, with the document on the stack. -/
theorem sound_ofFile {document : Path} (absolute : directory.isAbsolute = true)
    (notRoot : directory.resolve document ≠ .rootDirectory) :
    (ofEnvironment (.ofFile directory document)).Sound := by
  have settled := Path.settled_resolve absolute document
  exact ⟨settled.exists_parent notRoot, List.forall_mem_singleton.mpr settled, List.nodup_singleton _⟩

end Include.Resolver

/-! ## §4 — scripts one after another -/

/-- **A script**, as it is run in an environment. -/
inductive Source
  /-- A block, which may add variables. -/
  | block (code : String)
  /-- A single expression. -/
  | expression (code : String)

/-- Run a script. Yields nothing but how it ends. -/
def Source.runWith {m : Type → Type} [Monad m] (answer : Clock → Include.Request → m Include.Answer) (clock : Clock)
    (env : Environment) : Source → StateT (Array Cell) m (Environment.Outcome Unit)
  | .block code => do
    let (r, env) ← env.executeWith answer clock code
    return (r.map fun _ => (), env)
  | .expression code => do
    let (r, env) ← env.evaluateWith answer clock code
    return (r.map fun _ => (), env)

namespace Environment

open Include (Request Answer)

/-- **Run scripts one after another** in an environment, requests being answered as it says. Each script has readings of
the clock of its own. Yields how each ends. -/
def session {m : Type → Type} [Monad m] (answer : Environment → Clock → Request → m Answer) (clock : Clock)
    (env : Environment) : List Source → StateT (Array Cell) m (List (Except Failure Unit))
  | [] => return []
  | s :: rest => do
    let (r, env) ← s.runWith (answer env) clock.first env
    return r :: (← env.session answer clock.rest rest)

/-- How scripts end that are run with files at hand, in an environment that has not been used. -/
def outcomes (files : FileAccess) (env : Environment) (scripts : List Source) : List (Except Failure Unit) :=
  ((env.session (fun env => Include.Resolver.fetchAt files (.ofEnvironment env)) files.clock scripts).run #[]).value.1

/-- The requests that these scripts make. Noting them changes nothing else (`value_session`). -/
def requests (files : FileAccess) (env : Environment) (scripts : List Source) : List (Clock × Request) :=
  ((env.session (fun env => Asked.noting fun clock q =>
    (Include.Resolver.fetchAt files (.ofEnvironment env) clock q).value) files.clock scripts).run #[]).requests

end Environment

/-! ## §5 — what sessions keep -/

namespace Source

open Include (Request Answer)

variable {env : Environment} {cells : Array Cell}

section

variable {m : Type → Type} [Monad m] (answer : Clock → Request → m Answer) (clock : Clock) (env : Environment)
  (cells : Array Cell) (code : String)

theorem run_block : ((block code).runWith answer clock env).run cells =
    (env.executeWith answer clock code).run cells >>= fun r => pure ((r.1.1.map fun _ => (), r.1.2), r.2) :=
  StateT.run_bind ..

theorem run_expression : ((expression code).runWith answer clock env).run cells =
    (env.evaluateWith answer clock code).run cells >>= fun r => pure ((r.1.1.map fun _ => (), r.1.2), r.2) :=
  StateT.run_bind ..

end

/-- A script ends in the same way, whether requests or questions are noted. -/
theorem value_runWith (answer : Clock → Request → Logged Answer) (clock : Clock) (env : Environment)
    (cells : Array Cell) (s : Source) :
    ((s.runWith (Asked.noting fun clock q => (answer clock q).value) clock env).run cells).value =
      ((s.runWith answer clock env).run cells).value := by
  cases s with
  | block code =>
    rw [run_block, run_block, Asked.value_bind, Logged.value_bind, env.value_executeWith]
    rfl
  | expression code =>
    rw [run_expression, run_expression, Asked.value_bind, Logged.value_bind, env.value_evaluateWith]
    rfl

/-- A script does not move its environment. -/
theorem later_runWith (answer : Clock → Request → Logged Answer) (clock : Clock) (env : Environment)
    (cells : Array Cell) (s : Source) : env.Later ((s.runWith answer clock env).run cells).value.1.2 := by
  cases s with
  | block code =>
    have later := env.later_executeWith answer clock code cells
    rw [run_block, Logged.value_bind]
    generalize Logged.value (StateT.run _ cells) = ended at later ⊢
    exact later
  | expression code =>
    have later := env.later_evaluateWith answer clock code cells
    rw [run_expression, Logged.value_bind]
    generalize Logged.value (StateT.run _ cells) = ended at later ⊢
    exact later

/-- **A script** keeps to `P`. -/
theorem keeps_runWith {P : Failure → Prop} (h : env.Genuine P cells) (own : Environment.Admits P)
    {answer : Clock → Request → Answer} {clock : Clock} (s : Source)
    (answered : ((s.runWith (Asked.noting answer) clock env).run cells).Answered P answer) :
    Environment.Ends P ((s.runWith (Asked.noting answer) clock env).run cells).value := by
  cases s with
  | block code =>
    rw [run_block] at answered ⊢
    have ends := h.executeWith own answered.first
    rw [Asked.value_bind]
    exact ends.map _
  | expression code =>
    rw [run_expression] at answered ⊢
    have ends := h.evaluateWith own.evaluation answered.first
    rw [Asked.value_bind]
    exact ends.map _

end Source

namespace Environment

open Include (Request Answer)

theorem value_session (answer : Environment → Clock → Request → Logged Answer) (clock : Clock) (env : Environment)
    (cells : Array Cell) (scripts : List Source) :
    ((env.session (fun env => Asked.noting fun clock q => (answer env clock q).value) clock scripts).run cells).value =
      ((env.session answer clock scripts).run cells).value := by
  induction scripts generalizing clock env cells with
  | nil => rfl
  | cons s rest ih =>
    unfold session
    rw [StateT.run_bind, StateT.run_bind, Asked.value_bind, Logged.value_bind, s.value_runWith]
    dsimp only
    rw [StateT.run_bind, StateT.run_bind, Asked.value_bind, Logged.value_bind, ih]
    rfl

/-- **Scripts one after another** keep to `P`, as long as requests are answered in the same way. -/
theorem Genuine.session {P : Failure → Prop} {env : Environment} {cells : Array Cell} (h : env.Genuine P cells)
    (own : Admits P) {answer : Environment → Clock → Request → Logged Answer} {fixed : Clock → Request → Answer}
    (same : ∀ left, env.Later left → (fun clock q => (answer left clock q).value) = fixed) {clock : Clock}
    {scripts : List Source}
    (answered : ((env.session (fun env => Asked.noting fun clock q => (answer env clock q).value) clock scripts).run
      cells).Answered P fixed) :
    ∀ e, .error e ∈ ((env.session (fun env => Asked.noting fun clock q => (answer env clock q).value) clock
      scripts).run cells).value.1 → P e := by
  induction scripts generalizing clock env cells with
  | nil => exact fun e none => absurd none List.not_mem_nil
  | cons s rest ih =>
    unfold Environment.session at answered ⊢
    rw [StateT.run_bind] at answered ⊢
    have first := answered.first
    have later := answered.second
    -- the script leaves the environment in its place, and so those after it are answered in the same way
    have now : (fun clock q => (answer env clock q).value) = fixed := same env (later_refl env)
    have moved := s.later_runWith (answer env) clock.first env cells
    rw [← s.value_runWith, now] at moved
    rw [now] at first later ⊢
    have ends := s.keeps_runWith h own first
    rw [Asked.value_bind]
    generalize Asked.value ((s.runWith (Asked.noting fixed) clock.first env).run cells) = ended at ends later moved
    obtain ⟨⟨r, left⟩, cells'⟩ := ended
    dsimp only at later ⊢
    rw [StateT.run_bind] at later ⊢
    rw [Asked.value_bind]
    intro e mem
    rcases List.mem_cons.mp mem with here | after
    · exact ends.failure e here.symm
    · exact ih ends.left (fun left' on => same left' (moved.trans on)) later.first e after

end Environment

/-! ## §6 — reported cycles -/

namespace Include

open Resolver (Leads Returns Reported)

/-- **What scripts fail with** is no cycle, or a real one. -/
theorem reported_outcomes {m : Files.Memory} (detector : Media.Detector) {directory document : Path} (clock : Clock)
    (scripts : List Source) (absolute : directory.isAbsolute = true)
    (notRoot : directory.resolve document ≠ .rootDirectory) (noFile : m.find? .rootDirectory = none) {e : Failure}
    (failed : .error e ∈
      (Environment.ofFile directory document).outcomes ⟨m.provider, detector, directory, clock⟩ scripts) :
    Reported ⟨m.provider, detector, directory, clock⟩ (.ofEnvironment (.ofFile directory document))
      ((Environment.ofFile directory document).requests ⟨m.provider, detector, directory, clock⟩ scripts) e := by
  have sound := Resolver.sound_ofFile absolute notRoot
  generalize place : Environment.ofFile directory document = env at failed sound
  have start : env.Genuine (Reported ⟨m.provider, detector, directory, clock⟩ (.ofEnvironment env)
      (env.requests ⟨m.provider, detector, directory, clock⟩ scripts)) #[] :=
    place ▸ Environment.genuine_ofPath _
  have fixed (left : Environment) (later : env.Later left) :
      (fun now q => (Resolver.fetchAt ⟨m.provider, detector, directory, clock⟩ (.ofEnvironment left) now q).value) =
        fun now q => (Resolver.fetchAt ⟨m.provider, detector, directory, clock⟩ (.ofEnvironment env) now q).value := by
    rw [later.resolver]
  -- the scripts end in the same way when their requests are noted
  unfold Environment.outcomes at failed
  rw [← Environment.value_session] at failed
  exact start.session (Resolver.admits_reported _ _ _) fixed (Resolver.reported_fetchAt noFile sound) e failed

/-- **Every cycle that is reported is one.** Whatever scripts are run one after another in the environment of a
document, and whatever files are in memory, except that nothing is in the place of the root: a cycle that one of the
scripts fails with names the document first, then other files, each of them once, absolute and without `.` or `..`, and
at the end exactly one of these files again; and it is a chain of text includes, of which the scripts asked for the
first, and the text of each file for the next, seen from the directory of that file. -/
theorem circularInclude_returns (m : Files.Memory) (detector : Media.Detector) (directory document : Path)
    (clock : Clock) (scripts : List Source) (absolute : directory.isAbsolute = true)
    (notRoot : directory.resolve document ≠ .rootDirectory) (noFile : m.find? .rootDirectory = none) :
    let files : FileAccess := ⟨m.provider, detector, directory, clock⟩
    let env := Environment.ofFile directory document
    ∀ chain, .error (.circularInclude chain) ∈ env.outcomes files scripts → ∃ earlier last,
      chain = (earlier ++ [last]).map Path.toString ∧ earlier.head? = some (directory.resolve document) ∧
      earlier.Nodup ∧ earlier.count last = 1 ∧
      (∀ p ∈ earlier, p.isAbsolute = true ∧ ∀ piece ∈ Text.splitAt '/' p.text, piece ≠ ['.'] ∧ piece ≠ ['.', '.']) ∧
      Leads files (.ofEnvironment env) (env.requests files scripts) (earlier.tail ++ [last]) := by
  intro files env chain mem
  have reported := reported_outcomes detector clock scripts absolute notRoot noFile mem
  obtain ⟨earlier, last, further, returns, whole, spelled, leads⟩ := reported chain rfl
  -- the document stands before the files that were asked for, of which there is one at least
  cases earlier with
  | nil => exact absurd (List.cons.inj whole).2.symm leads.ne_nil
  | cons first others =>
    obtain ⟨document_eq, rest⟩ := List.cons.inj whole
    refine ⟨first :: others, last, spelled, congrArg some document_eq, returns.distinct, returns.once, ?_, ?_⟩
    · exact fun p mem => ⟨(returns.settled p mem).absolute, (returns.settled p mem).pieces⟩
    · have walked : others ++ [last] = further := rest
      exact walked ▸ leads

/-- A cycle that was caught, kept in a variable, and thrown by a later script: the document is not part of it. -/
theorem kept_cycle_returns :
    let m : Files.Memory := .ofList
      [(.ofString "/docs/a.md", Text.Utf8.encode "\x7b\x7b include(\"b.md\") \x7d\x7d"),
        (.ofString "/docs/b.md", Text.Utf8.encode "\x7b\x7b include(\"a.md\") \x7d\x7d")]
    let directory : Path := .ofString "/docs"
    let document : Path := .ofString "main.md"
    let scripts : List Source :=
      [.block "let kept = (); try \x7b include(\"a.md\") \x7d catch (e) \x7b kept = e \x7d", .block "throw kept"]
    let files : FileAccess := ⟨m.provider, .extensionTable, directory, .stopped⟩
    let env := Environment.ofFile directory document
    let chain := ["/docs/main.md", "/docs/a.md", "/docs/b.md", "/docs/a.md"]
    env.outcomes files scripts = [.ok (), .error (.circularInclude chain)] ∧ ∃ earlier last,
      chain = (earlier ++ [last]).map Path.toString ∧ earlier.head? = some (directory.resolve document) ∧
      earlier.Nodup ∧ earlier.count last = 1 ∧
      (∀ p ∈ earlier, p.isAbsolute = true ∧ ∀ piece ∈ Text.splitAt '/' p.text, piece ≠ ['.'] ∧ piece ≠ ['.', '.']) ∧
      Leads files (.ofEnvironment env) (env.requests files scripts) (earlier.tail ++ [last]) := by
  intro m directory document scripts files env chain
  have ends : env.outcomes files scripts = [.ok (), .error (.circularInclude chain)] := by decide +kernel
  have surfaces : .error (.circularInclude chain) ∈ env.outcomes files scripts := by
    rw [ends]
    exact List.mem_cons_of_mem _ List.mem_cons_self
  exact ⟨ends, circularInclude_returns m .extensionTable directory document .stopped scripts (by decide) (by decide)
    (by decide)
    chain surfaces⟩

end Include

end Dialogue
