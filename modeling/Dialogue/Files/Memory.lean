import Dialogue.Files.Provider
/-!
# `Dialogue.Files.Memory` — files kept in memory.

A map from normal forms of paths to contents: every spelling of a path finds the same file, and a later
insertion replaces an earlier one.
-/

namespace Dialogue.Files

/-- **Files in memory**, the latest insertion first. Keys are component lists of normal forms. -/
structure Memory where
  /-- The files. -/
  entries : List (List Path.Component × Bytes) := []

namespace Memory

/-- The key of a path: the components of its normal form. -/
def key (p : Path) : List Path.Component :=
  Path.normalComponents p.components

/-- Add or replace a file. -/
def insert (m : Memory) (p : Path) (data : Bytes) : Memory :=
  ⟨(key p, data) :: m.entries.filter (·.1 ≠ key p)⟩

/-- The files of a list, later ones replacing earlier ones. -/
def ofList (files : List (Path × Bytes)) : Memory :=
  files.foldl (fun m f => m.insert f.1 f.2) {}

/-- **The contents at a path**, in whatever spelling. -/
def find? (m : Memory) (p : Path) : Option Bytes :=
  (m.entries.find? (·.1 = key p)).map (·.2)

/-- How many files there are. -/
def size (m : Memory) : Nat := m.entries.length

/-- The bytes at a path, or the error that nothing is there. -/
def readBytes (m : Memory) (p : Path) : Except ReadError Bytes :=
  match m.find? p with
  | some data => .ok data
  | none => .error ⟨.notFound, s!"file not found in memory: {p.normalize}"⟩

/-- **Bytes read as text**, or the error that says where they stop being text. -/
def textOf (data : Bytes) : Except ReadError String :=
  match Text.Utf8.decode data with
  | .ok s => .ok s
  | .error fault => .error ⟨.invalidData, fault.message⟩

/-- The files as a provider. -/
def provider (m : Memory) : Provider where
  isReadable p := (m.find? p).isSome
  readBytes := m.readBytes
  readText p := m.readBytes p >>= textOf
  capacity := m.size

theorem find?_insert (m : Memory) (p q : Path) (data : Bytes) :
    (m.insert p data).find? q = if key q = key p then some data else m.find? q := by
  by_cases h : key q = key p
  · simp [find?, insert, h]
  · have same : ∀ e : List Path.Component × Bytes,
        (e.1 ≠ key p ∧ e.1 = key q) ↔ e.1 = key q :=
      fun e => ⟨And.right, fun he => ⟨fun hp => h (he ▸ hp), he⟩⟩
    simp only [ne_eq] at same
    simp [find?, insert, Ne.symm h, h, List.find?_filter, same]

theorem isReadable_provider (m : Memory) (p : Path) : m.provider.isReadable p = (m.find? p).isSome := rfl

theorem readText_provider {m : Memory} {p : Path} {data : Bytes} (found : m.find? p = some data) :
    m.provider.readText p = textOf data := by
  show m.readBytes p >>= textOf = textOf data
  rw [readBytes, found]
  rfl

end Memory

end Dialogue.Files
