import Dialogue.CommandLine
import Dialogue.Files.Tree
/-!
# `Dialogue.Proofs.CommandLine.Quiet` — what a quiet run keeps to itself.

Every report of a run goes through one gate, which is shut when reports are unwanted. What is logged does not go through
it, and comes before all reports. The options take no other part in what a run does. Main statement: a quiet run reads
the same files, prints the same results, logs the same lines and has the same exit code; and nothing but those lines is
on its standard error, whether the run went through or stopped at an error.
-/

namespace Dialogue.CommandLine

/-- **The options with reports unwanted.** -/
def Options.hushed (o : Options) : Options := { o with quiet := true }

/-- An outcome without its reports. -/
def Outcome.silent (out : Outcome) : Outcome := { out with stderr := "" }

/-- **Work without its reports.** -/
def silenced (x : Logged Outcome) : Logged Outcome := ⟨x.value.silent, x.accesses⟩

/-! ## §1 — outcomes -/

section

variable (o : Options)

@[simp] theorem format_hushed : o.hushed.format = o.format := rfl

@[simp] theorem report_hushed (text json : String) : o.hushed.report text json = "" :=
  Options.report_quiet o.hushed rfl text json

@[simp] theorem stop_hushed (message : String) : o.hushed.stop message = (o.stop message).silent := by
  simp [Options.stop, Outcome.silent]

@[simp] theorem fail_hushed (message : String) (d : Diagnostic) :
    o.hushed.fail message d = (o.fail message d).silent := by
  simp [Options.fail, Outcome.silent]

theorem warn_hushed (heading : String) (ds : List Diagnostic) : o.hushed.warn heading ds = "" :=
  Options.warn_quiet o.hushed rfl heading ds

@[simp] theorem showParts_hushed (document : String) (p : Document.Prepared) :
    showParts o.hushed document p = (showParts o document p).silent := by
  simp [showParts, Outcome.silent, Options.warnUnloaded, Options.warnUnsupported, warn_hushed]

@[simp] theorem showValue_hushed (expression : String) (v : Script.Value) :
    showValue o.hushed expression v = (showValue o expression v).silent := rfl

/-! ## §2 — commands -/

variable (files : FileAccess)

theorem parts_hushed (document source : String) :
    parts o.hushed files document source = silenced (parts o files document source) := by
  unfold parts
  generalize Document.prepare files (.ofString document) source = prepared
  obtain ⟨r, asked⟩ := prepared
  cases r <;> simp [silenced, Logged.mk_bind]

theorem chunks_hushed (file content : String) :
    chunks o.hushed files file content = silenced (chunks o files file content) := by
  unfold chunks
  generalize Chunk.read files (Path.ofString file).parent? content = read
  obtain ⟨cs, asked⟩ := read
  simp only [format_hushed, Logged.mk_bind]
  cases o.format <;> simp [silenced, Outcome.silent, Options.warnUnloaded, warn_hushed]

theorem eval_hushed (document expression source : String) :
    eval o.hushed files document expression source = silenced (eval o files document expression source) := by
  unfold eval
  dsimp only
  simp only [StateT.run_bind]
  generalize (Document.environment files (.ofString document) source).run #[] = found
  obtain ⟨⟨r, cells⟩, asked⟩ := found
  cases r with
  | error f =>
    simp only [Logged.mk_bind, fail_hushed]
    rfl
  | ok env =>
    simp only [Logged.mk_bind, StateT.run_bind]
    generalize (env.evaluateAt files files.clock.rest expression).run cells = evaluated
    obtain ⟨⟨⟨r, env'⟩, cells'⟩, asked'⟩ := evaluated
    simp only [Logged.mk_bind]
    cases r with
    | error f =>
      simp only [fail_hushed]
      rfl
    | ok v => rfl

/-- **A command carried out quietly** does what it does otherwise, and reports nothing. -/
theorem perform_hushed (source : String) (c : Command) :
    c.perform o.hushed files source = silenced (c.perform o files source) := by
  cases c with
  | parts document => exact parts_hushed o files document source
  | chunks file => exact chunks_hushed o files file source
  | eval document expression => exact eval_hushed o files document expression source

theorem work_hushed (c : Command) : work o.hushed files c = silenced (work o files c) := by
  unfold work
  generalize files.readText (.ofString c.file) = text
  obtain ⟨r, asked⟩ := text
  cases r with
  | error e => simp [silenced, Logged.mk_bind]
  | ok source => simp [silenced, Logged.mk_bind, perform_hushed]

/-- **What a command does**, but for the lines that are logged meanwhile. -/
def carriedOut (h : Host) (o : Options) (c : Command) : Logged Outcome := do
  match ← loadConfig (h.files .extension) o.config with
  | .error message => return o.stop ("error: " ++ message)
  | .ok config => work o (h.files (detectionOf o config)) c

/-- **The lines that are logged for a command;** there are none without settings. -/
def logOf (h : Host) (o : Options) (c : Command) : String :=
  match (loadConfig (h.files .extension) o.config).value with
  | .error _ => ""
  | .ok config => h.logged (loggingOf o config) (detectionOf o config) c

/-- **A command carried out** is what it does, after the lines that are logged for it. -/
theorem execute_eq (h : Host) (c : Command) :
    execute h o c = ⟨(carriedOut h o c).value.after (logOf h o c), (carriedOut h o c).accesses⟩ := by
  unfold execute carriedOut logOf
  generalize loadConfig (h.files .extension) o.config = loaded
  obtain ⟨r, asked⟩ := loaded
  cases r with
  | error message => rfl
  | ok config =>
    simp only [Logged.mk_bind]
    generalize work o (h.files (detectionOf o config)) c = done
    obtain ⟨out, asked'⟩ := done
    simp [Logged.mk_bind]

theorem logOf_hushed (h : Host) (c : Command) : logOf h o.hushed c = logOf h o c := rfl

theorem carriedOut_hushed (h : Host) (c : Command) :
    carriedOut h o.hushed c = silenced (carriedOut h o c) := by
  unfold carriedOut
  have config : o.hushed.config = o.config := rfl
  rw [config]
  generalize loadConfig (h.files .extension) o.config = loaded
  obtain ⟨r, asked⟩ := loaded
  cases r with
  | error message => simp [silenced, Logged.mk_bind]
  | ok config =>
    have detection : detectionOf o.hushed config = detectionOf o config := rfl
    simp only [Logged.mk_bind, detection, work_hushed]
    rfl

end

/-! ## §3 — arguments -/

namespace Arguments

/-- What is read, with reports unwanted. -/
def hush {α : Type} (read : Options × α) : Options × α := (read.1.hushed, read.2)

/-- An option with a value goes into its place, whether or not reports are wanted. -/
theorem placed_hushed {β : Type} (place : Option β → Options) (old : Option β) (ofName? : String → Option β)
    (given : Option String) (rest : List String) :
    (do
      let (v, rest) ← valueOf given rest
      return ((place (← give old (ofName? v))).hushed, rest) : Step (Options × List String)) =
    Except.map hush (do
      let (v, rest) ← valueOf given rest
      return (place (← give old (ofName? v)), rest)) := by
  cases valueOf given rest with
  | error i => rfl
  | ok read =>
    show (give old (ofName? read.1) >>= _) = Except.map hush (give old (ofName? read.1) >>= _)
    cases give old (ofName? read.1) <;> rfl

/-- **Any other option** is read in the same way where reports are unwanted. -/
theorem long_hushed (top : Bool) (o : Options) {word : List Char} (other : splitOption word ≠ ("quiet", none))
    (rest : List String) : long top o.hushed word rest = (long top o word rest).map hush := by
  unfold long
  generalize splitOption word = split at other ⊢
  obtain ⟨name, given⟩ := split
  dsimp only
  -- the names of options, in the order in which they are tried
  split
  · exact absurd rfl other
  · rfl
  · rfl
  · exact placed_hushed (fun given => { o with output := given }) ..
  · exact placed_hushed (fun given => { o with config := given }) ..
  · exact placed_hushed (fun given => { o with logLevel := given }) ..
  · exact placed_hushed (fun given => { o with detection := given }) ..
  · rfl

/-- What went through went through step by step. -/
theorem bind_ok {α β : Type} {x : Step α} {f : α → Step β} {b : β} (h : x >>= f = .ok b) :
    ∃ a, x = .ok a ∧ f a = .ok b := by
  cases x with
  | error i => exact nomatch h
  | ok a => exact ⟨a, rfl, h⟩

/-- **How arguments begin** that ask for a command: with an option, or with the command, which is read without a look
at the options before it. -/
theorem beforeCommand_ok {fuel : Nat} {o o' : Options} {args : List String} {c : Command}
    (accepted : beforeCommand (fuel + 1) o args = .ok (o', c)) :
    (∃ name rest read, (∀ o₀, beforeCommand (fuel + 1) o₀ args = (do
        let (o, rest) ← long true o₀ name rest
        beforeCommand fuel o rest)) ∧
      long true o name rest = .ok read ∧ beforeCommand fuel read.1 read.2 = .ok (o', c)) ∨
    ∃ inner : Options, o' = inner.orElse o ∧
      ∀ o₀, beforeCommand (fuel + 1) o₀ args = .ok (inner.orElse o₀, c) := by
  cases args with
  | nil => exact nomatch accepted
  | cons a rest =>
    simp only [beforeCommand] at accepted ⊢
    split at accepted
    · exact nomatch accepted
    next name _ _ =>
      obtain ⟨read, option, after⟩ := bind_ok accepted
      exact .inl ⟨name, rest, read, fun _ => rfl, option, after⟩
    · exact nomatch accepted
    · right
      split at accepted
      · exact nomatch accepted
      · split at accepted
        · exact nomatch accepted
        next count _ =>
          obtain ⟨⟨inner, words⟩, read, command⟩ := bind_ok accepted
          dsimp only at command
          split at command
          next c known =>
            obtain ⟨rfl, rfl⟩ := Prod.mk.inj (Except.ok.inj command)
            refine ⟨inner, rfl, fun o₀ => ?_⟩
            rw [if_neg ‹_›]
            simp only [read, bind, Except.bind, known]
          · exact nomatch command

/-- An option leaves reports unwanted where they are. -/
theorem long_quiet {top : Bool} {o : Options} {word : List Char} {rest : List String}
    {read : Options × List String} (h : long top o word rest = .ok read) (quiet : o.quiet = true) :
    read.1.quiet = true := by
  by_cases other : splitOption word = ("quiet", none)
  · simp [long, other, quiet, throw, throwThe, MonadExceptOf.throw] at h
  · have same : o.hushed = o := by simp [Options.hushed, ← quiet]
    have := long_hushed top o other rest
    rw [same, h] at this
    injection this with this
    exact congrArg (·.1.quiet) this

/-- Options before a command leave reports unwanted where they are. -/
theorem beforeCommand_quiet {fuel : Nat} {o o' : Options} {args : List String} {c : Command}
    (accepted : beforeCommand fuel o args = .ok (o', c)) (quiet : o.quiet = true) : o'.quiet = true := by
  induction fuel generalizing o args with
  | zero => exact nomatch accepted
  | succ fuel ih =>
    obtain ⟨name, rest, read, -, option, after⟩ | ⟨inner, rfl, -⟩ := beforeCommand_ok accepted
    · exact ih after (long_quiet option quiet)
    · simp [Options.orElse, quiet]

/-- **Arguments that leave reports wanted** are read in the same way where reports are unwanted. -/
theorem beforeCommand_hushed {fuel : Nat} {o o' : Options} {args : List String} {c : Command}
    (accepted : beforeCommand fuel o args = .ok (o', c)) (loud : o'.quiet = false) :
    beforeCommand fuel o.hushed args = .ok (o'.hushed, c) := by
  induction fuel generalizing o args with
  | zero => exact nomatch accepted
  | succ fuel ih =>
    obtain ⟨name, rest, read, step, option, after⟩ | ⟨inner, rfl, step⟩ := beforeCommand_ok accepted
    · rw [step]
      -- `--quiet` cannot be among them, since nothing after it takes it back
      have other : splitOption name ≠ ("quiet", none) := by
        intro isQuiet
        have quiet : read.1.quiet = true := by
          simp only [long, isQuiet] at option
          split at option
          · exact nomatch option
          · cases option; rfl
        rw [beforeCommand_quiet after quiet] at loud
        exact nomatch loud
      rw [long_hushed true o other rest, option]
      exact ih after
    · rw [step]
      simp [Options.orElse, Options.hushed]

/-- **Reading stops short** only where there is nothing to run. -/
structure Decided {α : Type} (x : Step α) : Prop where
  ne_run : ∀ o c, x ≠ .error (.run o c)

theorem Decided.bind {α β : Type} {x : Step α} (hx : Decided x) {f : α → Step β} (hf : ∀ a, Decided (f a)) :
    Decided (x >>= f) := by
  refine ⟨fun o c => ?_⟩
  cases x with
  | error i => exact fun h => hx.ne_run o c (congrArg _ (Except.error.inj h))
  | ok a => exact (hf a).ne_run o c

theorem decided_ok {α : Type} (a : α) : Decided (.ok a : Step α) := ⟨fun _ _ => nofun⟩

theorem decided_error {α : Type} {i : Invocation} (h : ∀ o c, i ≠ .run o c) : Decided (.error i : Step α) :=
  ⟨fun o c same => h o c (Except.error.inj same)⟩

theorem decided_valueOf (given : Option String) (rest : List String) : Decided (valueOf given rest) := by
  unfold valueOf
  split
  · exact decided_ok _
  · split
    · exact decided_error fun _ _ => nofun
    · exact decided_ok _
  · exact decided_error fun _ _ => nofun

theorem decided_give {α : Type} (old new : Option α) : Decided (give old new) := by
  unfold give
  split
  · exact decided_ok _
  · exact decided_error fun _ _ => nofun

theorem decided_long (top : Bool) (o : Options) (word : List Char) (rest : List String) :
    Decided (long top o word rest) := by
  have placed {β : Type} (place : Option β → Options) (old : Option β) (ofName? : String → Option β)
      (given : Option String) : Decided (do
        let (v, rest) ← valueOf given rest
        return (place (← give old (ofName? v)), rest)) :=
    (decided_valueOf given rest).bind fun _ => (decided_give ..).bind fun _ => decided_ok _
  unfold long
  split
  split
  · split
    · exact decided_error fun _ _ => nofun
    · exact decided_ok _
  · exact decided_error fun _ _ => nofun
  · exact decided_error fun _ _ => by split <;> nofun
  · exact placed (fun given => { o with output := given }) ..
  · exact placed (fun given => { o with config := given }) ..
  · exact placed (fun given => { o with logLevel := given }) ..
  · exact placed (fun given => { o with detection := given }) ..
  · exact decided_error fun _ _ => nofun

theorem short_ne_run (top : Bool) (ch : Char) (o : Options) (c : Command) : short top ch ≠ .run o c := by
  unfold short
  split
  · nofun
  · split <;> nofun

theorem decided_afterCommand (count fuel : Nat) (o : Options) (words : List String) (bare : Bool)
    (args : List String) : Decided (afterCommand count fuel o words bare args) := by
  induction fuel generalizing o words bare args with
  | zero => exact decided_error fun _ _ => nofun
  | succ fuel ih =>
    cases args with
    | nil => exact decided_ok _
    | cons a rest =>
      have word : Decided (if words.length < count then afterCommand count fuel o (words ++ [a]) bare rest
          else .error .misuse) := by
        split
        · exact ih ..
        · exact decided_error fun _ _ => nofun
      simp only [afterCommand]
      split
      · exact word
      · split
        · exact ih ..
        · exact (decided_long ..).bind fun _ => ih ..
        · exact decided_error (short_ne_run _ _)
        · exact word

theorem helpOn_ne_run (words : List String) (o : Options) (c : Command) : helpOn words ≠ .run o c := by
  unfold helpOn
  split
  · nofun
  · split <;> nofun
  · nofun

theorem decided_beforeCommand (fuel : Nat) (o : Options) (args : List String) :
    Decided (beforeCommand fuel o args) := by
  induction fuel generalizing o args with
  | zero => exact decided_error fun _ _ => nofun
  | succ fuel ih =>
    cases args with
    | nil => exact decided_error fun _ _ => nofun
    | cons a rest =>
      simp only [beforeCommand]
      split
      · exact decided_error fun _ _ => nofun
      · exact (decided_long ..).bind fun _ => ih ..
      · exact decided_error (short_ne_run _ _)
      · split
        · exact decided_error (helpOn_ne_run _)
        · split
          · exact decided_error fun _ _ => nofun
          · refine (decided_afterCommand ..).bind fun _ => ?_
            split
            · exact decided_ok _
            · exact decided_error fun _ _ => nofun

/-- **`--quiet` before arguments that ask for reports** asks for the same without reports. -/
theorem parse_quiet {args : List String} {o : Options} {c : Command} (asked : parse args = .run o c)
    (loud : o.quiet = false) : parse ("--quiet" :: args) = .run o.hushed c := by
  have accepted : beforeCommand (args.length + 1) {} args = .ok (o, c) := by
    simp only [parse] at asked
    split at asked
    next read => cases asked; exact read
    next refused => exact absurd (asked ▸ refused) ((decided_beforeCommand ..).ne_run o c)
  have first : beforeCommand (args.length + 1 + 1) {} ("--quiet" :: args) =
      beforeCommand (args.length + 1) (Options.hushed {}) args := rfl
  simp only [parse, List.length_cons, first, beforeCommand_hushed accepted loud]

end Arguments

/-! ## §4 — runs -/

/-- **How a run ends:** it goes through, or it stops at one error, which is all that it reports. -/
inductive Ended (o : Options) : Outcome → Prop
  | through {out : Outcome} (success : out.exit = 0) : Ended o out
  | stopped (message : String) : Ended o (o.stop message)
  | failed (message : String) (d : Diagnostic) : Ended o (o.fail message d)

section

variable (o : Options) (files : FileAccess)

/-- An expression comes to an error or to its value, whichever of the two evaluations it is that fails. -/
theorem eval_value (document expression source : String) :
    (∃ message d, (eval o files document expression source).value = o.fail message d) ∨
      ∃ v, (eval o files document expression source).value = showValue o expression v := by
  unfold eval
  dsimp only
  simp only [StateT.run_bind]
  generalize (Document.environment files (.ofString document) source).run #[] = found
  obtain ⟨⟨r, cells⟩, asked⟩ := found
  cases r with
  | error f => exact .inl ⟨_, _, rfl⟩
  | ok env =>
    simp only [Logged.mk_bind, StateT.run_bind]
    generalize (env.evaluateAt files files.clock.rest expression).run cells = evaluated
    obtain ⟨⟨⟨r, env'⟩, cells'⟩, asked'⟩ := evaluated
    cases r with
    | error f => exact .inl ⟨_, _, rfl⟩
    | ok v => exact .inr ⟨v, rfl⟩

theorem ended_eval (document expression source : String) :
    Ended o (eval o files document expression source).value := by
  obtain ⟨message, d, failed⟩ | ⟨v, shown⟩ := eval_value o files document expression source
  · rw [failed]
    exact .failed message d
  · rw [shown]
    exact .through rfl

theorem ended_parts (document source : String) : Ended o (parts o files document source).value := by
  unfold parts
  generalize Document.prepare files (.ofString document) source = prepared
  obtain ⟨r, asked⟩ := prepared
  cases r with
  | error f => exact .failed ..
  | ok p => exact .through rfl

theorem ended_chunks (file content : String) : Ended o (chunks o files file content).value := by
  apply Ended.through
  unfold chunks
  generalize Chunk.read files (Path.ofString file).parent? content = read
  obtain ⟨cs, asked⟩ := read
  cases o.format <;> rfl

/-- **A command goes through or stops at one error.** -/
theorem ended_carriedOut (h : Host) (c : Command) : Ended o (carriedOut h o c).value := by
  unfold carriedOut
  generalize loadConfig (h.files .extension) o.config = loaded
  obtain ⟨r, asked⟩ := loaded
  cases r with
  | error message => exact .stopped _
  | ok config =>
    show Ended o (work o (h.files (detectionOf o config)) c).value
    generalize h.files (detectionOf o config) = files
    unfold work
    generalize files.readText (.ofString c.file) = text
    obtain ⟨r, asked'⟩ := text
    cases r with
    | error e => exact .stopped _
    | ok source =>
      show Ended o (c.perform o files source).value
      cases c with
      | parts document => exact ended_parts o files document source
      | chunks file => exact ended_chunks o files file source
      | eval document expression => exact ended_eval o files document expression source

end

theorem append_newline_ne_empty (s : String) : s ++ "\n" ≠ "" := by
  intro h
  have := congrArg String.length h
  simp at this

/-- A report that is wanted is not empty. -/
theorem report_ne_empty {o : Options} (loud : o.quiet = false) (text json : String) :
    o.report (text ++ "\n") (json ++ "\n") ≠ "" := by
  rw [Options.report, if_neg (by simp [loud])]
  cases o.format <;> exact append_newline_ne_empty _

/-- **A run that does not go through** ends with exit code 1 and prints its error and nothing else. -/
theorem Ended.exit_ne_zero {o : Options} (loud : o.quiet = false) {out : Outcome} (ended : Ended o out)
    (failure : out.exit ≠ 0) :
    out.exit = 1 ∧ out.stdout = "" ∧ out.stderr ≠ "" := by
  cases ended with
  | through success => exact absurd success failure
  | stopped message => exact ⟨rfl, rfl, report_ne_empty loud _ _⟩
  | failed message d => exact ⟨rfl, rfl, report_ne_empty loud _ _⟩

/-- **What a quiet run keeps to itself.** Arguments that ask for a command can be given with `--quiet` before them, and
whatever other arguments ask for the same without reports: both runs log the same lines on the standard error, and what
comes after those is an outcome and that outcome without its reports, after the same reads of files, with the same results
and the same exit code. The outcome with reports goes through, or it ends with exit code 1 and prints nothing but the
report of one error; that report is what the quiet run loses. -/
theorem run_quiet (h : Host) {args : List String} {o : Options} {c : Command}
    (asked : Arguments.parse args = .run o c) (loud : o.quiet = false) :
    Arguments.parse ("--quiet" :: args) = .run o.hushed c ∧
    ∃ out accesses, run h args = ⟨out.after (logOf h o c), accesses⟩ ∧
      (∀ quiet, Arguments.parse quiet = .run o.hushed c →
        run h quiet = ⟨out.silent.after (logOf h o c), accesses⟩) ∧
      Ended o out ∧ (out.exit ≠ 0 → out.exit = 1 ∧ out.stdout = "" ∧ out.stderr ≠ "") := by
  have ended := ended_carriedOut o h c
  refine ⟨Arguments.parse_quiet asked loud, (carriedOut h o c).value, (carriedOut h o c).accesses, ?_,
    fun quiet same => ?_, ended, ended.exit_ne_zero loud⟩
  · simp only [run, asked, execute_eq]
  · simp only [run, same, execute_eq, logOf_hushed, carriedOut_hushed, silenced]

/-- A computer without files or programs, which logs one line whatever is to be logged. -/
def Host.bare : Host where
  provider := Files.Tree.provider {} ⟨['/']⟩
  workingDirectory := ⟨['/']⟩
  tool := ⟨"file", false, fun _ => .error "not run"⟩
  logged := fun _ _ _ => "started\n"

/-- Preparing a document that is not there ends with exit code 1 and a message after what is logged, and quietly without
the message. -/
theorem missing_document_quiet :
    Arguments.parse ["parts", "nope.md"] = .run {} (.parts "nope.md") ∧
    (run .bare ["parts", "nope.md"]).value =
      ⟨1, "", "started\nerror reading file 'nope.md': No such file or directory (os error 2)\n"⟩ ∧
    (run .bare ["--quiet", "parts", "nope.md"]).value = ⟨1, "", "started\n"⟩ := by
  have asked : Arguments.parse ["parts", "nope.md"] = .run {} (.parts "nope.md") := by decide
  have logged : logOf .bare {} (.parts "nope.md") = "started\n" := by decide
  have loudly : (run .bare ["parts", "nope.md"]).value =
      ⟨1, "", "started\nerror reading file 'nope.md': No such file or directory (os error 2)\n"⟩ := by
    decide
  obtain ⟨parsed, out, accesses, ran, quietly, -⟩ := run_quiet .bare asked rfl
  rw [ran, Outcome.mk.injEq] at loudly
  obtain ⟨exit, stdout, -⟩ := loudly
  refine ⟨asked, by decide, ?_⟩
  rw [quietly _ parsed, logged, Outcome.mk.injEq]
  exact ⟨exit, stdout, rfl⟩

end Dialogue.CommandLine
