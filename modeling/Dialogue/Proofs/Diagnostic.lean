import Dialogue.Diagnostic.Reader
import Dialogue.Proofs.Json.Reading
import Dialogue.Proofs.Position.Order
/-!
# `Dialogue.Proofs.Diagnostic` — diagnostics are read back as they were written.

A diagnostic is written in two forms, of which one leaves out a position that is missing and the other says that there
is none, and which order their fields differently. Main statement: one reader takes both forms, in whatever text of
them, back to the diagnostic, as long as its position is counted in 32 bits.
-/

namespace Dialogue.Diagnostic

open Json (Lexical IsText)

/-- **A diagnostic whose position, if it has one, is counted in 32 bits.** -/
def Fits (d : Diagnostic) : Prop := ∀ p ∈ d.position, p.Fits

/-! ## §1 — documents of a diagnostic -/

theorem lexical_json (d : Diagnostic) : Lexical d.json := by
  cases h : d.position <;> simp [json, h, positionJson]

theorem lexical_fullJson (d : Diagnostic) : Lexical d.fullJson := by
  cases h : d.position <;> simp [fullJson, h]

/-! ## §2 — reading a document -/

theorem coordinate?_of_range (z : Int) (range : 0 ≤ z ∧ z < UInt32.size) : coordinate? (.int z) = some z.toNat :=
  if_pos range

theorem coordinate?_int {n : Nat} (small : n < UInt32.size) : coordinate? (.int n) = some n := by
  have range : (0 : Int) ≤ n ∧ (n : Int) < UInt32.size := ⟨Int.natCast_nonneg n, Int.ofNat_lt.mpr small⟩
  rw [coordinate?_of_range n range, Int.toNat_natCast]

/-- Two fields that are coordinates make a position, in whatever order they stand. -/
theorem positionOf?_obj {j k : Json} {line column : Nat} (hj : coordinate? j = some line)
    (hk : coordinate? k = some column) :
    positionOf? (.obj [("line", j), ("column", k)]) = some (some ⟨line, column⟩) ∧
      positionOf? (.obj [("column", k), ("line", j)]) = some (some ⟨line, column⟩) := by
  constructor
  · simp [positionOf?, field?, single?, hj, hk]
  · simp [positionOf?, field?, single?, hj, hk]

theorem positionOf?_json {p : Position} (fits : p.Fits) : positionOf? (positionJson p) = some (some p) :=
  (positionOf?_obj (coordinate?_int fits.1) (coordinate?_int fits.2)).1

/-- A document with all five fields is read, in the order of the fields and in alphabetical order. -/
theorem ofJson?_fields (kind : Kind) (file raw error : String) {position : Option Position} {j : Json}
    (read : positionOf? j = some position) :
    ofJson? (.obj [("type", .str kind.name), ("filename", .str file), ("raw", .str raw), ("error", .str error),
        ("position", j)]) = some ⟨kind, file, raw, error, position⟩ ∧
      ofJson? (.obj [("error", .str error), ("filename", .str file), ("position", j), ("raw", .str raw),
        ("type", .str kind.name)]) = some ⟨kind, file, raw, error, position⟩ := by
  constructor
  · simp [ofJson?, single?, field?, kindOf?, textOf?, read, Kind.ofName?_name]
  · simp [ofJson?, single?, field?, kindOf?, textOf?, read, Kind.ofName?_name]

/-- **The form without absent fields** is read back. -/
theorem ofJson?_json {d : Diagnostic} (fits : d.Fits) : ofJson? d.json = some d := by
  obtain ⟨kind, file, raw, error, position⟩ := d
  cases position with
  | none => simp [ofJson?, json, single?, field?, kindOf?, textOf?, positionOf?, Kind.ofName?_name]
  | some p => exact (ofJson?_fields kind file raw error (positionOf?_json (fits p rfl))).1

/-- **The form with every field** is read back. -/
theorem ofJson?_fullJson {d : Diagnostic} (fits : d.Fits) : ofJson? d.fullJson = some d := by
  obtain ⟨kind, file, raw, error, position⟩ := d
  cases position with
  | none => exact (ofJson?_fields kind file raw error rfl).2
  | some p =>
    obtain ⟨line, column⟩ := fits p rfl
    have read := (positionOf?_obj (coordinate?_int line) (coordinate?_int column)).2
    exact (ofJson?_fields kind file raw error read).2

/-! ## §3 — reading a text -/

/-- Any text of either form is read back. -/
theorem parse?_of_isText {d : Diagnostic} (fits : d.Fits) {text : String}
    (h : IsText text d.json ∨ IsText text d.fullJson) : parse? text = some d := by
  unfold parse?
  rcases h with h | h
  · rw [Json.parse?_of_isText h]
    exact ofJson?_json fits
  · rw [Json.parse?_of_isText h]
    exact ofJson?_fullJson fits

/-- **Diagnostics are read back as they were written.** Whatever characters its texts hold, a diagnostic whose position
is counted in 32 bits, or missing, comes back from both of its forms, each of them written on one line or over several;
and so it does from any other text of these documents. -/
theorem parse?_written {d : Diagnostic} (fits : d.Fits) :
    parse? d.json.compactString = some d ∧ parse? d.fullJson.compactString = some d ∧
      parse? d.json.prettyString = some d ∧ parse? d.fullJson.prettyString = some d ∧
      ∀ text, IsText text d.json ∨ IsText text d.fullJson → parse? text = some d := by
  have short := d.lexical_json
  have full := d.lexical_fullJson
  refine ⟨?_, ?_, ?_, ?_, fun text => parse?_of_isText fits⟩
  · exact parse?_of_isText fits (.inl (Json.isText_compactString short))
  · exact parse?_of_isText fits (.inr (Json.isText_compactString full))
  · exact parse?_of_isText fits (.inl (Json.isText_prettyString short))
  · exact parse?_of_isText fits (.inr (Json.isText_prettyString full))

/-- Quotes, a control character and one beyond the basic plane, at the last place that 32 bits can count. -/
theorem parse?_written_hostile :
    let d : Diagnostic := ⟨.fileReference, "a\"\\\x01b.md", "@./😀", "\x7f\n", some ⟨4294967295, 4294967295⟩⟩
    d.Fits ∧ parse? d.json.compactString = some d ∧ parse? d.fullJson.compactString = some d := by
  intro d
  have fits : d.Fits := by
    intro p here
    obtain rfl := Option.some.inj here
    constructor <;> decide
  obtain ⟨short, full, -⟩ := parse?_written fits
  exact ⟨fits, short, full⟩

end Dialogue.Diagnostic
