import Dialogue.Files.Memory
import Dialogue.Proofs.Document.Steps
import Dialogue.Proofs.Environment.Lockstep
/-!
# `Dialogue.Proofs.Document.Isolation` — what one message can tell of the others.

Each message starts from a fresh environment, but the closures of the script block share their cells with all of
them. That is the only way from one message to another: as long as the messages before it leave the cells of the
script block as they found them, a message is made ready exactly as if it were the first, whatever they evaluated,
and however many cells they made on their own.
-/

namespace Dialogue.Document

open Script (Value Cell Shift CellsLinked ScopesLinked FieldsLinked ExceptRel)

/-! ## §1 — messages in step -/

section InStep

variable {σ : Shift} {w : Nat} (files : FileAccess)

/-- The environment of a file holds no cells, and so is in step with itself. -/
theorem linked_bare (path : Path) : (bare files path).Linked σ.apart w (bare files path) := by
  refine ⟨rfl, rfl, rfl, rfl, ScopesLinked.alone ?_⟩
  have own : ∀ (name text : String), Script.Entry.Linked (σ.Rel w) ⟨name, true, .own (.str text)⟩
      ⟨name, true, .own (.str text)⟩ := by
    intro name text
    have text : (Script.Datum.str text : Value).Linked (σ.Rel w) (.str text) := .plain trivial
    exact ⟨rfl, rfl, .own text⟩
  unfold bare Environment.ofFile Environment.ofPath
  dsimp only
  cases (files.workingDirectory.resolve path).parent? with
  | none => exact .cons (own _ _) .nil
  | some dir => exact .cons (own _ _) (.cons (own _ _) .nil)

theorem linked_environment {s s' : Setting} (path : s'.path = s.path) (functions : s'.functions = s.functions)
    (bindings : FieldsLinked (σ.Rel w) s.bindings s'.bindings) :
    (s.environment files).Linked σ.apart w (s'.environment files) := by
  unfold Setting.environment
  rw [path, functions]
  exact ((linked_bare files s.path).seed bindings).seedFunctions s.functions

/-- **The pieces of a message** add up to the same in environments in step. -/
theorem linked_gather (s s' : Setting) (path : s'.path = s.path) (m : Message) {env env' : Environment}
    (clock : Clock) (h : env.Linked σ w env') (pieces : List (List Char × Segment)) :
    CellWork.Linked σ w (fun _ => Eq) (gather files s m clock env pieces) (gather files s' m clock env' pieces) := by
  have file : s'.file = s.file := congrArg Path.toString path
  induction pieces generalizing clock env env' w with
  | nil => exact .pure fun _ _ => rfl
  | cons piece rest ih =>
    obtain ⟨before, text | code⟩ := piece
    · have same : literal files s' m.role (String.ofList text) = literal files s m.role (String.ofList text) := by
        unfold literal
        rw [path]
      unfold gather
      rw [same]
      refine CellWork.Linked.bind (A := fun _ => Eq) (.lift _ fun _ _ => rfl) fun w₁ hw₁ g _ e => ?_
      subst e
      refine (ih clock (h.grow hw₁)).bind fun w₂ _ r _ e => ?_
      subst e
      exact .pure fun _ _ => rfl
    · unfold gather
      refine (h.evaluateAt files clock.first _).bind fun w₁ hw₁ r r' hr => ?_
      obtain ⟨r, env₁⟩ := r
      obtain ⟨r', env₁'⟩ := r'
      obtain ⟨result, environment⟩ := hr
      dsimp only at result environment ⊢
      cases result with
      | error e =>
        subst e
        rw [file]
        exact .pure fun _ _ => rfl
      | @ok v v' hv =>
        -- the values differ in cells only, which they do not show
        have shown : emitted s'.file (m.documentPosition before) v' =
            emitted s.file (m.documentPosition before) v := by
          unfold emitted
          rw [file, Environment.emittable_of_linked hv]
        dsimp only
        rw [shown]
        refine (ih clock.rest environment).bind fun w₂ _ g _ e => ?_
        subst e
        exact .pure fun _ _ => rfl

/-- **A message** is made ready alike with linked bindings. -/
theorem linked_message {s s' : Setting} (path : s'.path = s.path) (functions : s'.functions = s.functions)
    (bindings : FieldsLinked (σ.Rel w) s.bindings s'.bindings) (clock : Clock) (m : Message) :
    CellWork.Linked σ.apart w (fun _ => Eq) (message files s clock m) (message files s' clock m) := by
  have environment := linked_environment files path functions bindings
  rw [message_eq, message_eq]
  split
  · exact .pure fun _ _ => rfl
  · exact linked_gather files s s' path m clock environment _

/-- **The script block** is in step with itself. -/
theorem linked_runFrontmatter (file : String) (path : Path) (t : Transcript) :
    CellWork.Linked σ.apart w (fun w₁ => ExceptRel Eq fun r r' => FieldsLinked (σ.Rel w₁) r.1 r'.1)
      (runFrontmatter files file (bare files path) t) (runFrontmatter files file (bare files path) t) := by
  unfold runFrontmatter
  split
  · exact .pure fun _ _ => .ok .nil
  · dsimp only
    split
    · exact .pure fun _ _ => .error rfl
    · refine ((linked_bare files path).executeAt files files.clock.first _).bind fun w₁ hw₁ r r' hr => ?_
      obtain ⟨r, env⟩ := r
      obtain ⟨r', env'⟩ := r'
      obtain ⟨result, environment⟩ := hr
      dsimp only at result ⊢
      cases result with
      | error e => exact .pure fun _ _ => .error (congrArg (Failure.frontmatter file) e)
      | ok hb => exact .pure fun _ hw => .ok (hb.imp fun _ _ hf => ⟨hf.1, hf.2.grow hw⟩)

end InStep

/-! ## §2 — cells that are left alone -/

/-- **The cells are as they were;** new ones may have come after them. -/
def Untouched (before after : Array Cell) : Prop := ∀ k < before.size, after[k]? = before[k]?

theorem size_of_untouched {before after : Array Cell} (h : Untouched before after) : before.size ≤ after.size := by
  by_contra less
  have last := h (before.size - 1) (by omega)
  rw [Array.getElem?_eq_none (by omega), Array.getElem?_eq_getElem (by omega)] at last
  exact absurd last (by nofun)

/-- Where no cell is skipped, a gap after the cells changes nothing. -/
theorem rel_of_still {kept gap i j : Nat} (h : ({} : Shift).Rel kept i j) : ({ kept, gap } : Shift).Rel kept i j := by
  obtain ⟨hi, hj⟩ := h
  refine ⟨hi, ?_⟩
  rw [hj]
  unfold Shift.past
  rw [if_neg (Nat.not_lt_zero i), if_pos hi]
  rfl

/-- **Cells left alone** are those they were, with a gap of new ones after them. -/
theorem linked_of_untouched {cs ds : Array Cell} (h : CellsLinked {} cs cs) (untouched : Untouched cs ds) :
    CellsLinked { kept := cs.size, gap := ds.size - cs.size } cs ds := by
  have size := size_of_untouched untouched
  refine ⟨Nat.le_refl _, by dsimp only; omega, ?_⟩
  intro i c hc
  have hi : i < cs.size := (Array.getElem?_eq_some_iff.mp hc).1
  obtain ⟨d, hd, linked⟩ := h.cells i c hc
  have still : ({} : Shift).past i = i := by simp [Shift.past]
  rw [still, hc] at hd
  obtain rfl : c = d := Option.some.inj hd
  -- each cell stands where it stood, before the gap
  refine ⟨c, ?_, linked.value.mono fun _ _ => rel_of_still, rfl⟩
  have kept : ({ kept := cs.size, gap := ds.size - cs.size } : Shift).past i = i := if_pos hi
  rw [kept, untouched i hi, hc]

variable {files : FileAccess}

/-- **What the script block leaves** is linked with itself: every cell a closure holds is there. -/
theorem linked_of_ran {file : String} {path : Path} {t : Transcript} {bindings : Bindings} {env : Environment}
    {cells : Array Cell}
    (ran : ((runFrontmatter files file (bare files path) t).run #[]).value = (.ok (bindings, env), cells)) :
    FieldsLinked (({} : Shift).Rel cells.size) bindings bindings ∧ CellsLinked {} cells cells := by
  have none : CellsLinked (Shift.apart {}) #[] #[] := ⟨Nat.le_refl _, rfl, fun _ _ h => absurd h (by simp)⟩
  obtain ⟨-, -, value, left⟩ := linked_runFrontmatter files file path t #[] #[] (Nat.zero_le _) none
  rw [ran] at value left
  dsimp only at value left
  cases value with
  | ok h => exact ⟨h, left⟩

/-! ## §3 — documents -/

/-- **The readings of the clock that message `i` has**, of those that all messages have. -/
def readingsOf (clock : Clock) : Nat → Clock
  | 0 => clock.first
  | i + 1 => readingsOf clock.rest i

/-- **The cells that message `i` finds**, after the messages before it. -/
def cellsBefore (files : FileAccess) (s : Setting) (clock : Clock) (cells : Array Cell) (ms : List Message) (i : Nat) :
    Array Cell :=
  ((messages files s clock (ms.take i)).run cells).value.2

section Messages

variable {s : Setting} {clock : Clock} {ms : List Message} {m : Message} {cells cells₁ : Array Cell}

/-- **Messages are made ready one after another**, each on the cells that those before it leave. -/
theorem gathered_of_messages {p : Prepared} (h : ((messages files s clock ms).run cells).value.1 = .ok p) :
    ∃ gs : List Gathered, gs.length = ms.length ∧ p = .assembled ms gs ∧
      ∀ i m g, ms[i]? = some m → gs[i]? = some g →
        ((message files s (readingsOf clock i) m).run (cellsBefore files s clock cells ms i)).value.1 = .ok g := by
  induction ms generalizing clock cells p with
  | nil =>
    obtain rfl : ({} : Prepared) = p := Except.ok.inj h
    exact ⟨[], rfl, rfl, by simp⟩
  | cons m rest ih =>
    rcases first : (message files s clock.first m).run cells with ⟨⟨e | g, cells₁⟩, asked⟩
    · rw [messages_error first] at h
      cases h
    · rw [messages_ok first] at h
      obtain ⟨q, later, rfl⟩ := ok_of_map h
      obtain ⟨gs, length, rfl, each⟩ := ih later
      refine ⟨g :: gs, congrArg (· + 1) length, rfl, ?_⟩
      -- the messages before one of the rest are the first message and those before it in the rest
      intro i m' g' hm hg
      cases i with
      | zero =>
        obtain rfl : m = m' := Option.some.inj hm
        obtain rfl : g = g' := Option.some.inj hg
        exact congrArg (·.value.1) first
      | succ i =>
        have before : cellsBefore files s clock cells (m :: rest) (i + 1) =
            cellsBefore files s clock.rest cells₁ rest i := by
          unfold cellsBefore
          rw [List.take_succ_cons, messages_ok first]
          rfl
        rw [before]
        exact each i m' g' hm hg

/-- **A message on cells left alone** is made ready as it is on the cells themselves. -/
theorem message_of_untouched {bindings : Bindings} (path : Path) (functions : List Script.Function)
    (linked : FieldsLinked (({} : Shift).Rel cells.size) bindings bindings)
    (held : CellsLinked {} cells cells) (untouched : Untouched cells cells₁) (clock : Clock) (m : Message) :
    ((message files ⟨path, bindings, functions⟩ clock m).run cells₁).value.1 =
      ((message files ⟨path, bindings, functions⟩ clock m).run cells).value.1 := by
  have moved : FieldsLinked (({ kept := cells.size, gap := cells₁.size - cells.size } : Shift).Rel cells.size) bindings
      bindings :=
    linked.imp fun _ _ hf => ⟨hf.1, hf.2.mono fun _ _ => rel_of_still⟩
  let s : Setting := ⟨path, bindings, functions⟩
  -- the message is in step with itself on cells with a gap after those of the script block
  have step : CellWork.Linked (Shift.apart { kept := cells.size, gap := cells₁.size - cells.size }) cells.size
      (fun _ => Eq) (message files s clock m) (message files s clock m) := linked_message files rfl rfl moved clock m
  have same := step cells cells₁ (Nat.le_refl _) (linked_of_untouched held untouched)
  exact same.value.symm

/-- **Messages are isolated, up to the shared cells of the script block.** When a document is made ready, each of its
messages adds, warnings and diagnostics included, what it yields on the cells that the messages before it leave. As
long as those leave the cells of the script block as they found them, that is what it yields directly after the
script block, with the same readings of the clock. -/
theorem prepare_isolated {path : Path} {source : String} {t : Transcript} {bindings : Bindings} {env : Environment}
    {p : Prepared} (parsed : Transcript.parse source = .ok t)
    (ran : ((runFrontmatter files path.toString (bare files path) t).run #[]).value = (.ok (bindings, env), cells))
    (prepared : (prepare files path source).value = .ok p) :
    ∃ gs : List Gathered, gs.length = t.messages.length ∧ p = .assembled t.messages gs ∧
      ∀ i m g, t.messages[i]? = some m → gs[i]? = some g →
        let s : Setting := ⟨path, bindings, env.functions⟩
        let readings := readingsOf files.clock.rest i
        let left := cellsBefore files s files.clock.rest cells t.messages i
        ((message files s readings m).run left).value.1 = .ok g ∧
          (Untouched cells left → ((message files s readings m).run cells).value.1 = .ok g) := by
  obtain ⟨linked, held⟩ := linked_of_ran ran
  rw [prepare_value parsed ran] at prepared
  obtain ⟨gs, length, assembled, each⟩ := gathered_of_messages prepared
  refine ⟨gs, length, assembled, ?_⟩
  intro i m g hm hg s readings left
  have here := each i m g hm hg
  refine ⟨here, fun untouched => ?_⟩
  rw [← message_of_untouched path env.functions linked held untouched readings m]
  exact here

end Messages

/-! ## §4 — a document whose messages share a closure -/

namespace Sample

/-- No files at all. -/
def noFiles : FileAccess := ⟨(Files.Memory.ofList []).provider, .extensionTable, .rootDirectory, .stopped⟩

def path : Path := .ofString "/docs/chat.md"

/-- Both messages call a closure that captured a variable of the script block. -/
def source : String :=
  "```rhai\nlet n = 1;\nlet shown = || n;\n```\n@System: {{ shown.call() }}\n@System: {{ shown.call() }}\n"

def first : Message := ⟨.system, "{{ shown.call() }}", 5, ⟨5, 10⟩⟩

def second : Message := ⟨.system, "{{ shown.call() }}", 6, ⟨6, 10⟩⟩

def transcript : Transcript := ⟨some ⟨"rhai", "let n = 1;\nlet shown = || n;\n", 1⟩, [first, second]⟩

/-- One cell on both sides, with the same number in it. -/
def sameNumber (cs ds : Array Cell) : Bool :=
  cs.size == 1 && match (cs[0]? : Option Cell), (ds[0]? : Option Cell) with
    | some ⟨.int a, x⟩, some ⟨.int b, y⟩ => a == b && x == y
    | _, _ => false

/-- Are both messages made ready after a script block, and is its cell left alone by the first? -/
def goesThrough : Except Failure (Bindings × Environment) × Array Cell → Bool
  | (.error _, _) => false
  | (.ok (bindings, env), cells) =>
    let s : Setting := ⟨path, bindings, env.functions⟩
    ((messages noFiles s .stopped [first, second]).run cells).value.1.isOk &&
      sameNumber cells ((messages noFiles s .stopped [first]).run cells).value.2

theorem ok_of_isOk {ε α : Type} {x : Except ε α} (h : x.isOk = true) : ∃ a, x = .ok a := by
  cases x with
  | error e => cases h
  | ok a => exact ⟨a, rfl⟩

theorem untouched_of_sameNumber {cs ds : Array Cell} (h : sameNumber cs ds) : Untouched cs ds := by
  intro k hk
  unfold sameNumber at h
  rw [Bool.and_eq_true, beq_iff_eq] at h
  obtain ⟨one, h⟩ := h
  obtain rfl : k = 0 := by omega
  generalize (cs[0]? : Option Cell) = c, (ds[0]? : Option Cell) = d at h ⊢
  split at h
  · rw [Bool.and_eq_true, beq_iff_eq, beq_iff_eq] at h
    rw [h.1, h.2]
  · cases h

theorem pieces : Segment.ofTemplate "{{ shown.call() }}".toList = [.expression " shown.call() ".toList] := by
  cbv

theorem ran : goesThrough ((runFrontmatter noFiles path.toString (bare noFiles path) transcript).run #[]).value := by
  unfold goesThrough
  simp only [first, second, messages, message, pieces]
  decide +kernel

end Sample

theorem shared_closure_isolated : ∃ bindings env cells p gs,
    Transcript.parse Sample.source = .ok Sample.transcript ∧
    ((runFrontmatter Sample.noFiles Sample.path.toString (bare Sample.noFiles Sample.path) Sample.transcript).run
      #[]).value = (.ok (bindings, env), cells) ∧
    (prepare Sample.noFiles Sample.path Sample.source).value = .ok p ∧ p = .assembled Sample.transcript.messages gs ∧
    ∀ g, gs[1]? = some g →
      ((message Sample.noFiles ⟨Sample.path, bindings, env.functions⟩ .stopped Sample.second).run cells).value.1 =
        .ok g := by
  have through := Sample.ran
  have parsed : Transcript.parse Sample.source = .ok Sample.transcript := by decide +kernel
  obtain ⟨r, cells, ran⟩ : ∃ r cells, ((runFrontmatter Sample.noFiles Sample.path.toString
      (bare Sample.noFiles Sample.path) Sample.transcript).run #[]).value = (r, cells) := ⟨_, _, rfl⟩
  rw [ran] at through
  cases r with
  | error e => cases through
  | ok r =>
    obtain ⟨bindings, env⟩ := r
    obtain ⟨ready, same⟩ := Bool.and_eq_true_iff.mp through
    obtain ⟨p, ready⟩ := Sample.ok_of_isOk ready
    have prepared := (prepare_value parsed ran).trans ready
    obtain ⟨gs, length, assembled, each⟩ := prepare_isolated parsed ran prepared
    refine ⟨bindings, env, cells, p, gs, parsed, ran, prepared, assembled, fun g hg => ?_⟩
    exact (each 1 Sample.second g rfl hg).2 (Sample.untouched_of_sameNumber same)

/-- A closure that changes the variable it captured carries it from one message to the next. -/
example :
    let files : FileAccess := ⟨(Files.Memory.ofList []).provider, .extensionTable, .rootDirectory, .stopped⟩
    let source := "```rhai\nlet n = 0;\nlet bump = || \x7b n += 1; n \x7d;\n```\n@System: {{ bump.call() }}\n" ++
      "@You: {{ bump.call() }}\n"
    (prepare files (.ofString "/docs/chat.md") source).value.toOption.map (fun p => p.messages.map (·.parts)) =
      some [[.text "1"], [.text "2"]] := by
  decide +kernel

end Dialogue.Document
