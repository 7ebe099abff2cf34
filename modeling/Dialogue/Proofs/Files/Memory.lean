import Dialogue.Files.Memory
import Dialogue.Proofs.Path
import Dialogue.Proofs.Text.Utf8
/-!
# `Dialogue.Proofs.Files.Memory` — what files in memory answer.

Files are kept under the components of normal forms, so what a path finds depends on its normal form alone. Main
statement: after any insertions, a path finds the contents of the last one whose path has the same normal form, as bytes
and, where these are those of a text, as that text; with no such insertion nothing is found, and an insertion under
another normal form is not noticed.
-/

namespace Dialogue.Files.Memory

/-! ## §1 — keys -/

/-- A normal form is kept under the same key as the path. -/
theorem key_normalize (p : Path) : key p.normalize = key p :=
  Path.normalComponents_normalize p

/-- **Keys tell normal forms apart**, and nothing else. -/
theorem key_eq_iff {p q : Path} : key p = key q ↔ p.normalize = q.normalize := by
  constructor
  · exact congrArg Path.ofComponents
  · intro same
    rw [← key_normalize p, same, key_normalize]

/-- **What is found at a path** depends on its normal form alone. -/
theorem find?_of_same {p q : Path} (same : p.normalize = q.normalize) (m : Memory) : m.find? p = m.find? q := by
  rw [find?, key_eq_iff.mpr same, find?]

theorem find?_insert_of_same {p q : Path} (same : p.normalize = q.normalize) (m : Memory) (data : Bytes) :
    (m.insert p data).find? q = some data := by
  rw [find?_insert, if_pos (key_eq_iff.mpr same.symm)]

/-- **An insertion is not noticed** under another normal form. -/
theorem find?_insert_of_ne {p q : Path} (other : p.normalize ≠ q.normalize) (m : Memory) (data : Bytes) :
    (m.insert p data).find? q = m.find? q := by
  rw [find?_insert, if_neg fun same => other (key_eq_iff.mp same).symm]

/-! ## §2 — histories of insertions -/

/-- **What the last insertion put under a path**, in whatever spelling. -/
inductive Latest (q : Path) (data : Bytes) : List (Path × Bytes) → Prop
  | intro (before : List (Path × Bytes)) {p : Path} {after : List (Path × Bytes)} (same : p.normalize = q.normalize)
      (later : ∀ f ∈ after, f.1.normalize ≠ q.normalize) : Latest q data (before ++ (p, data) :: after)

/-- Insertions under other normal forms are not noticed. -/
theorem find?_foldl_of_ne {q : Path} {inserts : List (Path × Bytes)}
    (other : ∀ f ∈ inserts, f.1.normalize ≠ q.normalize) (m : Memory) :
    (inserts.foldl (fun m f => m.insert f.1 f.2) m).find? q = m.find? q := by
  induction inserts generalizing m with
  | nil => rfl
  | cons f inserts ih =>
    obtain ⟨first, later⟩ := List.forall_mem_cons.mp other
    rw [List.foldl_cons, ih later, find?_insert_of_ne first]

/-- **The last insertion is the one that is found.** -/
theorem Latest.find? {q : Path} {data : Bytes} {inserts : List (Path × Bytes)} (h : Latest q data inserts) :
    (ofList inserts).find? q = some data := by
  obtain ⟨before, same, later⟩ := h
  unfold ofList
  rw [List.foldl_append, List.foldl_cons, find?_foldl_of_ne later, find?_insert_of_same same]

theorem find?_ofList_of_ne {q : Path} {inserts : List (Path × Bytes)}
    (other : ∀ f ∈ inserts, f.1.normalize ≠ q.normalize) : (ofList inserts).find? q = none :=
  find?_foldl_of_ne other {}

/-- **There is a last insertion** under a path if there is any. -/
theorem exists_latest {q : Path} {inserts : List (Path × Bytes)} (some : ∃ f ∈ inserts, f.1.normalize = q.normalize) :
    ∃ data, Latest q data inserts := by
  induction inserts with
  | nil =>
    obtain ⟨f, mem, -⟩ := some
    cases mem
  | cons first rest ih =>
    -- the first insertion is the last one only if nothing after it has the same normal form
    by_cases later : ∃ f ∈ rest, f.1.normalize = q.normalize
    · obtain ⟨data, before, same, after⟩ := ih later
      exact ⟨data, .intro (first :: before) same after⟩
    · obtain ⟨f, mem, same⟩ := some
      rcases List.mem_cons.mp mem with rfl | mem
      · exact ⟨f.2, .intro [] same fun g there same => later ⟨g, there, same⟩⟩
      · exact absurd ⟨f, mem, same⟩ later

theorem find?_ofList_eq_some_iff {q : Path} {data : Bytes} {inserts : List (Path × Bytes)} :
    (ofList inserts).find? q = some data ↔ Latest q data inserts := by
  refine ⟨fun found => ?_, Latest.find?⟩
  by_cases there : ∃ f ∈ inserts, f.1.normalize = q.normalize
  · obtain ⟨last, latest⟩ := exists_latest there
    rw [latest.find?] at found
    exact Option.some.inj found ▸ latest
  · rw [find?_ofList_of_ne fun f mem same => there ⟨f, mem, same⟩] at found
    cases found

theorem isSome_find?_ofList {q : Path} {inserts : List (Path × Bytes)} :
    ((ofList inserts).find? q).isSome = true ↔ ∃ f ∈ inserts, f.1.normalize = q.normalize := by
  constructor
  · intro found
    obtain ⟨data, found⟩ := Option.isSome_iff_exists.mp found
    obtain ⟨before, same, -⟩ := find?_ofList_eq_some_iff.mp found
    exact ⟨_, List.mem_append_right _ List.mem_cons_self, same⟩
  · intro there
    obtain ⟨data, latest⟩ := exists_latest there
    rw [latest.find?]
    rfl

/-! ## §3 — answers -/

/-- The error that nothing is at a path. -/
def absent (q : Path) : ReadError := ⟨.notFound, s!"file not found in memory: {q.normalize}"⟩

theorem readBytes_of_find? {m : Memory} {q : Path} {data : Bytes} (found : m.find? q = some data) :
    m.readBytes q = .ok data := by
  rw [readBytes, found]

theorem readBytes_of_absent {m : Memory} {q : Path} (none : m.find? q = none) : m.readBytes q = .error (absent q) := by
  rw [readBytes, none]
  rfl

theorem readText_of_absent {m : Memory} {q : Path} (none : m.find? q = none) :
    m.provider.readText q = .error (absent q) := by
  show m.readBytes q >>= textOf = _
  rw [readBytes_of_absent none]
  rfl

theorem textOf_eq_ok_iff {data : Bytes} {s : String} : textOf data = .ok s ↔ Text.Utf8.encode s = data := by
  rw [← Text.Utf8.decode_eq_ok_iff, textOf]
  cases Text.Utf8.decode data <;> simp

/-- **Bytes that are no text** are refused as such. -/
theorem textOf_of_noText {data : Bytes} (noText : ∀ s, Text.Utf8.encode s ≠ data) :
    ∃ message, textOf data = .error ⟨.invalidData, message⟩ := by
  obtain ⟨fault, decoded⟩ := Text.Utf8.decode_eq_error_iff.mpr noText
  exact ⟨fault.message, by rw [textOf, decoded]⟩

/-- **What files answer at a path** depends on the contents found there alone. -/
theorem answers_of_find? {m m' : Memory} {q : Path} (same : m.find? q = m'.find? q) :
    m.provider.isReadable q = m'.provider.isReadable q ∧ m.provider.readBytes q = m'.provider.readBytes q ∧
      m.provider.readText q = m'.provider.readText q := by
  have bytes : m.readBytes q = m'.readBytes q := by rw [readBytes, same, readBytes]
  exact ⟨congrArg Option.isSome same, bytes, congrArg (· >>= textOf) bytes⟩

/-- **Files in memory are a map from normal forms to contents.** After any insertions, and for every path, something is
there just when some insertion had a path of the same normal form; then the bytes are those of the last such insertion,
and the text is the one with these bytes, if they are those of a text, and an error of invalid data otherwise. Where
there is nothing, both reads fail and say so. An insertion under another normal form changes none of the three
answers. -/
theorem provider_ofList (inserts : List (Path × Bytes)) (q : Path) :
    ((ofList inserts).provider.isReadable q = true ↔ ∃ f ∈ inserts, f.1.normalize = q.normalize) ∧
    ((ofList inserts).provider.isReadable q = true → ∃ data, Latest q data inserts ∧
      (ofList inserts).provider.readBytes q = .ok data ∧
      (∀ s, (ofList inserts).provider.readText q = .ok s ↔ Text.Utf8.encode s = data) ∧
      ((∀ s, Text.Utf8.encode s ≠ data) →
        ∃ message, (ofList inserts).provider.readText q = .error ⟨.invalidData, message⟩)) ∧
    ((ofList inserts).provider.isReadable q = false →
      (ofList inserts).provider.readBytes q = .error (absent q) ∧
      (ofList inserts).provider.readText q = .error (absent q)) ∧
    ∀ (m : Memory) (p : Path) (data : Bytes), p.normalize ≠ q.normalize →
      (m.insert p data).provider.isReadable q = m.provider.isReadable q ∧
      (m.insert p data).provider.readBytes q = m.provider.readBytes q ∧
      (m.insert p data).provider.readText q = m.provider.readText q := by
  refine ⟨isSome_find?_ofList, fun readable => ?_, fun unreadable => ?_, fun m p data other => ?_⟩
  · obtain ⟨data, latest⟩ := exists_latest (isSome_find?_ofList.mp readable)
    have text := readText_provider latest.find?
    refine ⟨data, latest, readBytes_of_find? latest.find?, fun s => ?_, fun noText => ?_⟩
    · rw [text, textOf_eq_ok_iff]
    · rw [text]
      exact textOf_of_noText noText
  · have none := Option.isNone_iff_eq_none.mp (Option.isSome_eq_false_iff.mp unreadable)
    exact ⟨readBytes_of_absent none, readText_of_absent none⟩
  · exact answers_of_find? (find?_insert_of_ne other m data)

/-- A file inserted under two spellings of its path and asked for under a third: the later contents are found, as text,
and an insertion elsewhere changes nothing. -/
theorem respelled_insert_found :
    let inserts : List (Path × Bytes) := [(.ofString "./docs//a.md", [104, 105]), (.ofString "/logo", [255]),
      (.ofString "docs/old/../a.md", [195, 169])]
    let q := Path.ofString "docs/./a.md/"
    (∃ f ∈ inserts, f.1.normalize = q.normalize) ∧ (ofList inserts).provider.readBytes q = .ok [195, 169] ∧
      (ofList inserts).provider.readText q = .ok "é" ∧
      (Path.ofString "../docs/a.md").normalize ≠ q.normalize ∧
      ((ofList inserts).insert (.ofString "../docs/a.md") []).provider.readText q = .ok "é" := by
  intro inserts q
  -- the last insertion stands for the first, and a trailing separator does not count
  have stored : (ofList inserts).find? q = some [195, 169] := by decide
  have bytes : (ofList inserts).provider.readBytes q = .ok [195, 169] := readBytes_of_find? stored
  have elsewhere : (Path.ofString "../docs/a.md").normalize ≠ q.normalize := by decide
  obtain ⟨readable, present, -, unnoticed⟩ := provider_ofList inserts q
  obtain ⟨data, -, found, text, -⟩ := present (by decide)
  obtain rfl := Except.ok.inj (found.symm.trans bytes)
  have decoded := (text "é").mpr (by decide)
  exact ⟨readable.mp (by decide), bytes, decoded, elsewhere,
    (unnoticed (ofList inserts) (.ofString "../docs/a.md") [] elsewhere).2.2.trans decoded⟩

end Dialogue.Files.Memory
