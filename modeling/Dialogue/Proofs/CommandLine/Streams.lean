import Dialogue.Proofs.CommandLine.Quiet
import Dialogue.Proofs.Diagnostic
/-!
# `Dialogue.Proofs.CommandLine.Streams` — what a run that is asked for JSON prints.

A run that goes through prints one document, and one that stops prints none. Reports are one document as well, but for
one case: preparing a document reports the references that could not be loaded and the content that cannot be sent on
each by themselves. What is logged comes before the reports, on the same stream. Main statement: the standard output is
always empty or one document, and empty exactly when the run ends with exit code 1; the standard error is what is
logged and then the reports, which are empty or one document exactly when there are not both kinds of them, and with
both are two documents.
-/

namespace Dialogue

open Json (Lexical)

/-! ## §1 — documents without decimal fractions -/

theorem Part.lexical_json (p : Part) : Lexical p.json := by
  cases p <;> simp [Part.json]

theorem Warning.lexical_json (w : Warning) : Lexical w.json := by
  simp [Warning.json]

theorem Chunk.lexical_json (c : Chunk) : Lexical c.json := by
  cases c with
  | text value => simp [Chunk.json]
  | file f => cases h : f.mediaType <;> cases e : f.error <;> simp [Chunk.json, FileChunk.json, h, e]
  | warnings entries => simp [Chunk.json, Warning.lexical_json]

theorem Document.ReadyMessage.lexical_json (m : Document.ReadyMessage) : Lexical m.json := by
  simp [Document.ReadyMessage.json, Part.lexical_json]

theorem Document.Prepared.lexical_json (p : Document.Prepared) : Lexical p.json := by
  simp [Document.Prepared.json, Document.ReadyMessage.lexical_json, Warning.lexical_json, Diagnostic.lexical_json]

namespace CommandLine

/-! ## §2 — streams -/

/-- **One document** on a stream: a text of it and the end of its line. -/
def OneDocument (out : String) : Prop := ∃ text j, out = text ++ "\n" ∧ Json.IsText text j

/-- **At most one document** on a stream. -/
def AtMostOne (out : String) : Prop := out = "" ∨ OneDocument out

theorem OneDocument.ne_empty {out : String} (h : OneDocument out) : out ≠ "" := by
  obtain ⟨text, j, rfl, -⟩ := h
  exact append_newline_ne_empty text

theorem oneDocument_jsonLines {j : Json} (h : Lexical j) : OneDocument (jsonLines j) :=
  ⟨j.prettyString, j, rfl, Json.isText_prettyString h⟩

theorem oneDocument_compactString {j : Json} (h : Lexical j) : OneDocument (j.compactString ++ "\n") :=
  ⟨j.compactString, j, rfl, Json.isText_compactString h⟩

/-- **Two documents are more than one.** -/
theorem not_atMostOne_append {first second : String} (hf : OneDocument first) (hs : OneDocument second) :
    ¬ AtMostOne (first ++ second) := by
  obtain ⟨text, j, rfl, isText⟩ := hf
  obtain ⟨text', k, rfl, isText'⟩ := hs
  have lines : text ++ "\n" ++ (text' ++ "\n") = (text ++ "\n" ++ text') ++ "\n" := by
    simp only [String.append_assoc]
  rw [lines]
  rintro (none | ⟨both, l, same, isBoth⟩)
  · exact append_newline_ne_empty _ none
  · -- both end in the same end of a line, so what stands before it is the same
    have ends : (text ++ "\n" ++ text').toList ++ "\n".toList = both.toList ++ "\n".toList := by
      rw [← String.toList_append, ← String.toList_append, same]
    have same : text ++ "\n" ++ text' = both := String.toList_inj.mp (List.append_cancel_right ends)
    rw [← same] at isBoth
    exact Json.not_isText_append isText isText' isBoth

/-! ## §3 — outcomes -/

/-- **What an outcome prints** for a reader of JSON: a document or nothing on either stream, unless it reports twice. -/
structure Printed (out : Outcome) (twice : Prop) : Prop where
  stdout : AtMostOne out.stdout
  empty : out.stdout = "" ↔ out.exit = 1
  single : ¬ twice → AtMostOne out.stderr
  double : twice → ∃ first second, OneDocument first ∧ OneDocument second ∧ out.stderr = first ++ second

section

variable {o : Options}

theorem report_json (json : o.format = .json) {text report : String} (h : OneDocument report) :
    AtMostOne (o.report text report) := by
  unfold Options.report
  split
  · exact .inl rfl
  · rw [json]
    exact .inr h

/-- A run that stops prints its error and nothing else. -/
theorem printed_of_stop {out : Outcome} (exit : out.exit = 1) (stdout : out.stdout = "")
    (stderr : AtMostOne out.stderr) : Printed out False where
  stdout := .inl stdout
  empty := iff_of_true stdout exit
  single _ := stderr
  double := False.elim

theorem printed_stop (json : o.format = .json) (message : String) : Printed (o.stop message) False := by
  have document : Lexical (.obj [("error", .str message)]) := by simp
  exact printed_of_stop rfl rfl (report_json json (oneDocument_compactString document))

theorem printed_fail (json : o.format = .json) (message : String) (d : Diagnostic) :
    Printed (o.fail message d) False :=
  printed_of_stop rfl rfl (report_json json (oneDocument_jsonLines d.lexical_fullJson))

theorem printed_value (json : o.format = .json) (expression : String) (v : Script.Value) :
    Printed (showValue o expression v) False := by
  have document : Lexical (.obj [("expression", .str (Text.trimmed expression)),
      ("parts", .arr ((valueParts v).map Part.json))]) := by
    simp [Part.lexical_json]
  have stdout : OneDocument (showValue o expression v).stdout := by
    rw [showValue, json]
    exact oneDocument_jsonLines document
  exact ⟨.inr stdout, iff_of_false stdout.ne_empty Nat.zero_ne_one, fun _ => .inl rfl, False.elim⟩

theorem printed_chunks (json : o.format = .json) (files : FileAccess) (file content : String) :
    Printed (chunks o files file content).value False := by
  unfold chunks
  generalize Chunk.read files (Path.ofString file).parent? content = read
  obtain ⟨cs, asked⟩ := read
  rw [json]
  have document : Lexical (.arr (cs.map Chunk.json)) := by simp [Chunk.lexical_json]
  have stdout : OneDocument (jsonLines (.arr (cs.map Chunk.json))) := oneDocument_jsonLines document
  exact ⟨.inr stdout, iff_of_false stdout.ne_empty Nat.zero_ne_one, fun _ => .inl rfl, False.elim⟩

theorem printed_eval (json : o.format = .json) (files : FileAccess) (document expression source : String) :
    Printed (eval o files document expression source).value False := by
  obtain ⟨message, d, failed⟩ | ⟨v, shown⟩ := eval_value o files document expression source
  · rw [failed]
    exact printed_fail json message d
  · rw [shown]
    exact printed_value json expression v

/-- Reports that did not stop the run are one document, if there are any. -/
theorem warn_json (json : o.format = .json) (loud : o.quiet = false) (heading : String) {ds : List Diagnostic}
    (some : ds ≠ []) : OneDocument (o.warn heading ds) := by
  have document : Lexical (.arr (ds.map Diagnostic.fullJson)) := by simp [Diagnostic.lexical_fullJson]
  rw [Options.warn, if_neg some, Options.report, if_neg (by simp [loud]), json]
  exact oneDocument_jsonLines document

theorem warn_atMostOne (json : o.format = .json) (heading : String) (ds : List Diagnostic) :
    AtMostOne (o.warn heading ds) := by
  by_cases quiet : o.quiet = true
  · exact .inl (Options.warn_quiet o quiet heading ds)
  · by_cases none : ds = []
    · exact .inl (if_pos none)
    · exact .inr (warn_json json (by simpa using quiet) heading none)

/-- **A prepared document** is printed, and the two kinds of reports on it are printed each by themselves. -/
theorem printed_parts (json : o.format = .json) (document : String) (p : Document.Prepared) :
    Printed (showParts o document p) (o.quiet = false ∧ p.warnings ≠ [] ∧ p.diagnostics ≠ []) := by
  have stdout : OneDocument (showParts o document p).stdout := by
    rw [showParts, json]
    exact oneDocument_jsonLines p.lexical_json
  refine ⟨.inr stdout, iff_of_false stdout.ne_empty Nat.zero_ne_one, fun once => ?_, fun twice => ?_⟩
  · show AtMostOne (o.warn _ _ ++ o.warn _ _)
    by_cases quiet : o.quiet = true
    · rw [Options.warn_quiet o quiet, Options.warn_quiet o quiet]
      exact .inl rfl
    · have loud : o.quiet = false := by simpa using quiet
      by_cases unloaded : p.warnings = []
      · have none : o.warn "file references could not be loaded" (p.warnings.map (·.diagnostic document)) = "" := by
          rw [unloaded]
          rfl
        rw [none, String.empty_append]
        exact warn_atMostOne json _ _
      · have sent : p.diagnostics = [] := by
          by_contra unsupported
          exact once ⟨loud, unloaded, unsupported⟩
        have none : o.warn "unsupported content" p.diagnostics = "" := by
          rw [sent]
          rfl
        rw [none, String.append_empty]
        exact warn_atMostOne json _ _
  · obtain ⟨loud, unloaded, unsupported⟩ := twice
    exact ⟨_, _, warn_json json loud _ (by simpa using unloaded), warn_json json loud _ unsupported, rfl⟩

end

/-! ## §4 — runs -/

/-- **A run gets as far as a document made ready:** the settings are loaded, the file is read and the document prepared. -/
def Readies (h : Host) (o : Options) (document : String) (p : Document.Prepared) : Prop :=
  ∃ config source, (loadConfig (h.files .extension) o.config).value = .ok config ∧
    let files := h.files (detectionOf o config)
    (files.readText (.ofString document)).value = .ok source ∧
      (Document.prepare files (.ofString document) source).value = .ok p

/-- **A run with two kinds of reports:** it prepares a document in which there are references that could not be loaded
and content that cannot be sent on, and reports are wanted. -/
def ReportsTwice (h : Host) (o : Options) (c : Command) : Prop :=
  o.quiet = false ∧ ∃ document p, c = .parts document ∧ Readies h o document p ∧ p.warnings ≠ [] ∧ p.diagnostics ≠ []

section

variable {h : Host} {o : Options} {document : String}

theorem readies_iff {config : Config} {source : String} {p : Document.Prepared}
    (loaded : (loadConfig (h.files .extension) o.config).value = .ok config)
    (read : ((h.files (detectionOf o config)).readText (.ofString document)).value = .ok source) :
    Readies h o document p ↔
      (Document.prepare (h.files (detectionOf o config)) (.ofString document) source).value = .ok p := by
  constructor
  · rintro ⟨config', source', loaded', read', prepared⟩
    obtain rfl := Except.ok.inj (loaded.symm.trans loaded')
    obtain rfl := Except.ok.inj (read.symm.trans read')
    exact prepared
  · intro prepared
    exact ⟨config, source, loaded, read, prepared⟩

theorem Readies.unique {p q : Document.Prepared} (hp : Readies h o document p) (hq : Readies h o document q) :
    p = q := by
  obtain ⟨config, source, loaded, read, prepared⟩ := hp
  exact Except.ok.inj (prepared.symm.trans ((readies_iff loaded read).mp hq))

theorem reportsTwice_iff {p : Document.Prepared} (ready : Readies h o document p) :
    ReportsTwice h o (.parts document) ↔ o.quiet = false ∧ p.warnings ≠ [] ∧ p.diagnostics ≠ [] := by
  constructor
  · rintro ⟨loud, document', q, same, ready', some⟩
    obtain rfl := Command.parts.inj same
    obtain rfl := ready.unique ready'
    exact ⟨loud, some⟩
  · rintro ⟨loud, some⟩
    exact ⟨loud, document, p, rfl, ready, some⟩

/-- Nothing is reported twice where no document is made ready. -/
theorem Printed.of_no_document {out : Outcome} {c : Command} (printed : Printed out False)
    (none : ∀ document p, c = .parts document → ¬ Readies h o document p) : Printed out (ReportsTwice h o c) := by
  have once : ¬ ReportsTwice h o c := fun ⟨_, document, p, same, ready, _⟩ => none document p same ready
  rwa [eq_false once]

/-- Preparing a document prints it, and both kinds of reports on it. -/
theorem printed_prepare (json : o.format = .json) {config : Config} {source : String}
    (loaded : (loadConfig (h.files .extension) o.config).value = .ok config)
    (read : ((h.files (detectionOf o config)).readText (.ofString document)).value = .ok source) :
    Printed (parts o (h.files (detectionOf o config)) document source).value
      (ReportsTwice h o (.parts document)) := by
  have ready (p : Document.Prepared) := readies_iff (p := p) loaded read
  unfold parts
  generalize Document.prepare (h.files (detectionOf o config)) (.ofString document) source = outcome at ready
  obtain ⟨r, asked⟩ := outcome
  cases r with
  | error f =>
    refine (printed_fail json _ _).of_no_document fun document' p same readied => ?_
    obtain rfl := Command.parts.inj same
    exact nomatch (ready p).mp readied
  | ok p =>
    rw [propext (reportsTwice_iff ((ready p).mpr rfl))]
    exact printed_parts json document p

end

/-- **A command prints** one document or none, and reports in one document or none unless there are two kinds. -/
theorem printed_carriedOut (h : Host) {o : Options} (json : o.format = .json) (c : Command) :
    Printed (carriedOut h o c).value (ReportsTwice h o c) := by
  unfold carriedOut
  generalize loaded : loadConfig (h.files .extension) o.config = found
  obtain ⟨r, asked⟩ := found
  -- a run that stops on its way to a document has made none ready
  cases r with
  | error message =>
    refine (printed_stop json _).of_no_document fun document p _ ⟨config, source, found, _⟩ => ?_
    rw [loaded] at found
    cases found
  | ok config =>
    show Printed (work o (h.files (detectionOf o config)) c).value _
    unfold work
    generalize read : (h.files (detectionOf o config)).readText (.ofString c.file) = text
    obtain ⟨r, asked'⟩ := text
    have found : (loadConfig (h.files .extension) o.config).value = .ok config := congrArg Logged.value loaded
    cases r with
    | error e =>
      refine (printed_stop json _).of_no_document fun document p same ⟨config', source, found', read', _⟩ => ?_
      obtain rfl := Except.ok.inj (found.symm.trans found')
      subst same
      cases (congrArg Logged.value read).symm.trans read'
    | ok source =>
      show Printed (c.perform o _ source).value _
      cases c with
      | parts document => exact printed_prepare json found (congrArg Logged.value read)
      | chunks file =>
        exact (printed_chunks json _ file source).of_no_document fun _ _ other => nomatch other
      | eval document expression =>
        exact (printed_eval json _ document expression source).of_no_document fun _ _ other => nomatch other

/-- **What a run that is asked for JSON prints.** The standard output is empty or one document, and it is empty exactly
when the run ends with exit code 1. The standard error is what is logged, and after it the reports. These are empty or
one document, unless there are two kinds of them: then, and only then, they are two documents, one after the other, and
no longer one. So where nothing is logged, the standard error is empty or one document unless there are two kinds of
reports. -/
theorem run_json (h : Host) {args : List String} {o : Options} {c : Command} (asked : Arguments.parse args = .run o c)
    (json : o.format = .json) :
    let out := (run h args).value
    AtMostOne out.stdout ∧ (out.stdout = "" ↔ out.exit = 1) ∧
      ∃ reports, out.stderr = logOf h o c ++ reports ∧ (AtMostOne reports ↔ ¬ ReportsTwice h o c) ∧
        (ReportsTwice h o c →
          ∃ first second, OneDocument first ∧ OneDocument second ∧ reports = first ++ second) ∧
        (logOf h o c = "" → (AtMostOne out.stderr ↔ ¬ ReportsTwice h o c)) := by
  intro out
  have executed : out = (carriedOut h o c).value.after (logOf h o c) := by simp only [out, run, asked, execute_eq]
  have printed := printed_carriedOut h json c
  have once : AtMostOne (carriedOut h o c).value.stderr ↔ ¬ ReportsTwice h o c := by
    refine ⟨fun once twice => ?_, printed.single⟩
    obtain ⟨first, second, one, other, both⟩ := printed.double twice
    rw [both] at once
    exact not_atMostOne_append one other once
  rw [executed]
  refine ⟨printed.stdout, printed.empty, (carriedOut h o c).value.stderr, rfl, once, printed.double, fun nothing => ?_⟩
  show AtMostOne (logOf h o c ++ _) ↔ _
  rw [nothing, String.empty_append]
  exact once

/-- A document with a reference to a file that is not there and an include of a file of no known type, where nothing is
logged. -/
theorem run_json_reports_twice :
    let text := "@You: @./gone.txt \x7b\x7b include(\"x.bin\", #\x7b binary: true \x7d) \x7d\x7d\n"
    let m : Files.Memory := .ofList [(.ofString "/chat.md", Text.Utf8.encode text), (.ofString "/x.bin", [0x78])]
    let h : Host :=
      { provider := m.provider, workingDirectory := .rootDirectory, tool := ⟨"file", false, fun _ => .error "not run"⟩ }
    let args := ["--output", "json", "parts", "/chat.md"]
    let o : Options := ⟨some .json, false, none, none, none⟩
    let out := (run h args).value
    (Arguments.parse args = .run o (.parts "/chat.md") ∧ o.format = .json) ∧ ReportsTwice h o (.parts "/chat.md") ∧
      AtMostOne out.stdout ∧ ¬ AtMostOne out.stderr ∧
      ∃ first second, OneDocument first ∧ OneDocument second ∧ out.stderr = first ++ second := by
  intro text m h args o out
  have asked : Arguments.parse args = .run o (.parts "/chat.md") := by decide +kernel
  have loaded : (loadConfig (h.files .extension) o.config).value = .ok {} := by decide +kernel
  let files := h.files (detectionOf o {})
  have read : (files.readText (.ofString "/chat.md")).value = .ok text := by decide +kernel
  have both : ((Document.prepare files (.ofString "/chat.md") text).value.toOption.any fun p =>
      !p.warnings.isEmpty && !p.diagnostics.isEmpty) = true := by
    decide +kernel
  have twice : ReportsTwice h o (.parts "/chat.md") := by
    have ready (p : Document.Prepared) := readies_iff (p := p) loaded read
    generalize (Document.prepare files (.ofString "/chat.md") text).value = prepared at both ready
    cases prepared with
    | error f => cases both
    | ok p =>
      simp only [Except.toOption, Option.any_some, Bool.and_eq_true, Bool.not_eq_true', List.isEmpty_eq_false_iff] at both
      exact ⟨rfl, "/chat.md", p, rfl, (ready p).mpr rfl, both⟩
  have nothing : logOf h o (.parts "/chat.md") = "" := by
    unfold logOf
    rw [loaded]
  obtain ⟨stdout, -, reports, stderr, -, double, once⟩ := run_json h asked rfl
  refine ⟨⟨asked, rfl⟩, twice, stdout, fun single => (once nothing).mp single twice, ?_⟩
  have whole : out.stderr = reports := by
    rw [stderr, nothing, String.empty_append]
  rw [whole]
  exact double twice

end CommandLine

end Dialogue
