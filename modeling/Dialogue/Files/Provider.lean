import Dialogue.Clock
import Dialogue.Media.Detector
/-!
# `Dialogue.Files.Provider` — where file contents come from.

A provider answers three questions about a path. What was asked, in which order, is part of what a reader of
files does, so every question is logged: a computation that reads files yields its value together with the
questions it asked.
-/

namespace Dialogue

/-- **What kind of obstacle a read met.** -/
inductive ReadError.Kind
  /-- Nothing is there. -/
  | notFound
  /-- The contents are not text. -/
  | invalidData
  /-- A directory is there. -/
  | isADirectory
  /-- The path goes through a file. -/
  | notADirectory
  /-- The path itself cannot be used. -/
  | invalidInput
  /-- A name in the path is too long. -/
  | invalidFilename
  /-- Anything else. -/
  | other
  deriving DecidableEq, Repr

/-- **Why a file could not be read.** -/
structure ReadError where
  /-- The kind of obstacle. -/
  kind : ReadError.Kind
  /-- The wording. -/
  message : String
  deriving DecidableEq, Repr

/-- **A source of file contents.** -/
structure Provider where
  /-- Can the path be opened for reading? -/
  isReadable : Path → Bool
  /-- The bytes of the file at a path. -/
  readBytes : Path → Except ReadError Bytes
  /-- The text of the file at a path. -/
  readText : Path → Except ReadError String
  /-- How many files there are at most, however they are spelled. Includes recurse on a bound that is made of it, and
  nothing else is. -/
  capacity : Nat

/-- **The collaborators of everything that touches files**, and the clock that scripts read. -/
structure FileAccess where
  /-- Where contents come from. -/
  provider : Provider
  /-- Who knows media types. -/
  detector : Media.Detector
  /-- The directory that relative paths of documents are seen from. -/
  workingDirectory : Path := .rootDirectory
  /-- The readings that the clock will give. -/
  clock : Clock := .stopped

/-- **One question put to a provider.** -/
inductive Access
  | isReadable (path : Path)
  | readBytes (path : Path)
  | readText (path : Path)
  deriving DecidableEq, Repr

/-- **A value together with the questions asked on the way to it**, oldest first. -/
structure Logged (α : Type) where
  /-- The outcome. -/
  value : α
  /-- The questions. -/
  accesses : List Access := []

namespace Logged

instance : Monad Logged where
  pure a := ⟨a, []⟩
  bind m f :=
    let next := f m.value
    ⟨next.value, m.accesses ++ next.accesses⟩

/-- Ask one question. -/
def ask (access : Access) (answer : α) : Logged α := ⟨answer, [access]⟩

@[simp] theorem value_pure (a : α) : (pure a : Logged α).value = a := rfl

@[simp] theorem accesses_pure (a : α) : (pure a : Logged α).accesses = [] := rfl

@[simp] theorem value_bind (m : Logged α) (f : α → Logged β) :
    (m >>= f).value = (f m.value).value := rfl

@[simp] theorem accesses_bind (m : Logged α) (f : α → Logged β) :
    (m >>= f).accesses = m.accesses ++ (f m.value).accesses := rfl

/-- What was asked comes before what is asked after it. -/
theorem mk_bind (a : α) (asked : List Access) (f : α → Logged β) :
    ((⟨a, asked⟩ : Logged α) >>= f) = ⟨(f a).value, asked ++ (f a).accesses⟩ := rfl

end Logged

namespace FileAccess

/-- Ask whether a path is readable. -/
def isReadable (files : FileAccess) (p : Path) : Logged Bool :=
  .ask (.isReadable p) (files.provider.isReadable p)

/-- Ask for the bytes at a path. -/
def readBytes (files : FileAccess) (p : Path) : Logged (Except ReadError Bytes) :=
  .ask (.readBytes p) (files.provider.readBytes p)

/-- Ask for the text at a path. -/
def readText (files : FileAccess) (p : Path) : Logged (Except ReadError String) :=
  .ask (.readText p) (files.provider.readText p)

end FileAccess

end Dialogue
