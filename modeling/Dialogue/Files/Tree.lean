import Dialogue.Files.Memory
/-!
# `Dialogue.Files.Tree` — files in directories.

A tree of directories in which a path is walked step by step: each step must lead through a directory that is
there, a `..` goes back to the directory walked from, and a file ends the walk. Unlike in memory, a path through
a missing directory finds nothing even when a later `..` leaves that directory again.
-/

namespace Dialogue.Files

/-- The name of a file or directory. -/
abbrev Name := List Char

/-- **Directories and files**, each under its full path from the root. -/
structure Tree where
  /-- The directories; the root need not be listed. -/
  directories : List (List Name) := []
  /-- The files and their contents. -/
  files : List (List Name × Bytes) := []

/-- **What a walk ends at.** -/
inductive Node
  | directory
  | file (data : Bytes)

namespace Tree

/-- Every directory on the way to a path, and the path itself. -/
def onTheWay (path : List Name) : List (List Name) :=
  (List.range (path.length + 1)).map path.take

/-- Add a file with the directories that lead to it. -/
def addFile (t : Tree) (path : List Name) (data : Bytes) : Tree :=
  { directories := t.directories ++ onTheWay path.dropLast
    files := (path, data) :: t.files.filter (·.1 ≠ path) }

/-- Add a directory with those that lead to it. -/
def addDirectory (t : Tree) (path : List Name) : Tree :=
  { t with directories := t.directories ++ onTheWay path }

/-- The names that a path is spelled with. -/
def namesOf (p : Path) : List Name :=
  (Text.splitAt '/' p.text).filter fun piece => piece ≠ [] ∧ piece ≠ ['.']

/-- Add what a name stands for below a directory: a directory when it ends in a slash, else a file. -/
def add (t : Tree) (below : Path) (name : String) (data : Bytes) : Tree :=
  let path := namesOf below ++ namesOf (.ofString name)
  if name.toList.getLast? = some '/' then t.addDirectory path else t.addFile path data

/-- The tree of the given entries below a directory. -/
def ofEntries (below : Path) (entries : List (String × Bytes)) : Tree :=
  entries.foldl (fun t e => t.add below e.1 e.2) (({} : Tree).addDirectory (namesOf below))

/-- Is there a directory at a path? -/
def isDirectory (t : Tree) (path : List Name) : Bool :=
  path = [] || t.directories.contains path

/-- The contents of the file at a path. -/
def file? (t : Tree) (path : List Name) : Option Bytes :=
  (t.files.find? (·.1 = path)).map (·.2)

/-- Nothing is there. -/
def notFound : ReadError := ⟨.notFound, "No such file or directory (os error 2)"⟩

/-- The path goes through a file. -/
def notADirectory : ReadError := ⟨.notADirectory, "Not a directory (os error 20)"⟩

/-- A directory is there. -/
def isADirectory : ReadError := ⟨.isADirectory, "Is a directory (os error 21)"⟩

/-- A name, or the whole path, has too many bytes. -/
def nameTooLong : ReadError := ⟨.invalidFilename, "File name too long (os error 36)"⟩

/-- The path holds a character that ends paths. -/
def nulInPath : ReadError := ⟨.invalidInput, "file name contained an unexpected NUL byte"⟩

/-- The longest name, in bytes. -/
def longestName : Nat := 255

/-- The longest path, in bytes. -/
def longestPath : Nat := 4095

/-- **Walk from a directory along the pieces of a path.** -/
def walk (t : Tree) : (dir pieces : List Name) → Except ReadError Node
  | _, [] => .ok .directory
  | dir, piece :: rest =>
    if piece = [] ∨ piece = ['.'] then t.walk dir rest
    else if piece = ['.', '.'] then t.walk dir.dropLast rest
    else if longestName < Text.Utf8.size piece then .error nameTooLong
    else if t.isDirectory (dir ++ [piece]) then t.walk (dir ++ [piece]) rest
    else match t.file? (dir ++ [piece]) with
      | some data => if rest = [] then .ok (.file data) else .error notADirectory
      | none => .error notFound

/-- **What a path leads to**, seen from the working directory. -/
def open? (t : Tree) (workingDirectory : Path) (p : Path) : Except ReadError Node :=
  if p.text.contains '\x00' then .error nulInPath
  else if p.text = [] then .error notFound
  else if longestPath < Text.Utf8.size p.text then .error nameTooLong
  else
    let dir := if p.isAbsolute then [] else namesOf workingDirectory
    t.walk dir (Text.splitAt '/' p.text)

/-- The bytes of the file that a path leads to. -/
def readBytes (t : Tree) (workingDirectory : Path) (p : Path) : Except ReadError Bytes :=
  match t.open? workingDirectory p with
  | .ok (.file data) => .ok data
  | .ok .directory => .error isADirectory
  | .error e => .error e

/-- The text of the file that a path leads to. -/
def readText (t : Tree) (workingDirectory : Path) (p : Path) : Except ReadError String :=
  match t.readBytes workingDirectory p with
  | .error e => .error e
  | .ok data =>
    match Text.Utf8.decode? data with
    | some text => .ok text
    | none => .error ⟨.invalidData, "stream did not contain valid UTF-8"⟩

/-- **The tree as a provider**, relative paths being seen from the working directory. -/
def provider (t : Tree) (workingDirectory : Path) : Provider where
  isReadable p := (t.readBytes workingDirectory p).isOk
  readBytes := t.readBytes workingDirectory
  readText := t.readText workingDirectory
  capacity := t.files.length

end Tree

end Dialogue.Files
