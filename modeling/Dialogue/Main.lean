import Dialogue.CommandLine
import Dialogue.Files.Tree
/-!
# `Dialogue.Main` — the tool on the files of the machine.

A run is a function of the files it can see. It is first made with none, and made again with those it asked for,
until it asks for no other; then its output is printed.
-/

namespace Dialogue.Main

/-- **What is known of the files of the machine**, by path. -/
abbrev Known := List (Path × Except ReadError Bytes)

/-- The bytes at a path, as far as they are known. -/
def Known.readBytes (k : Known) (p : Path) : Except ReadError Bytes :=
  ((k.find? (·.1 = p)).map (·.2)).getD (.error Files.Tree.notFound)

/-- The text at a path, as far as it is known. -/
def Known.readText (k : Known) (p : Path) : Except ReadError String := do
  let data ← k.readBytes p
  match Text.Utf8.decode? data with
  | some text => .ok text
  | none => .error ⟨.invalidData, "stream did not contain valid UTF-8"⟩

/-- The known files as a provider. -/
def Known.provider (k : Known) : Provider where
  isReadable p := (k.readBytes p).isOk
  readBytes := k.readBytes
  readText := k.readText
  capacity := k.length

/-- The path that a question is about. -/
def asked : Access → Path
  | .isReadable p | .readBytes p | .readText p => p

/-- The paths that were asked for and are not known. -/
def Known.missing (k : Known) (accesses : List Access) : List Path :=
  ((accesses.map asked).filter fun p => k.all (·.1 ≠ p)).eraseDups

/-- An error number, which some calls give negated. -/
def errorNumber (code : UInt32) : Nat := min code.toNat (0 - code).toNat

/-- The error of an error number. -/
def numbered (code : UInt32) (details : String) : ReadError :=
  match errorNumber code with
  | 2 => Files.Tree.notFound
  | 13 => ⟨.other, "Permission denied (os error 13)"⟩
  | 20 => Files.Tree.notADirectory
  | 21 => Files.Tree.isADirectory
  | 36 => Files.Tree.nameTooLong
  | n => ⟨.other, s!"{details} (os error {n})"⟩

/-- The error of a failed read. -/
def readError : IO.Error → ReadError
  | .noFileOrDirectory _ code details | .inappropriateType _ code details
  | .invalidArgument _ code details | .permissionDenied _ code details
  | .resourceExhausted _ code details | .otherError code details => numbered code details
  | e => ⟨.other, toString e⟩

/-- Read a file of the machine. -/
def readFile (p : Path) : IO (Except ReadError Bytes) := do
  try return .ok (← IO.FS.readBinFile p.toString).toList
  catch e => return .error (readError e)

/-- What a run sees of the machine. -/
def host (directory : Path) (k : Known) : CommandLine.Host where
  provider := k.provider
  workingDirectory := directory
  tool := ⟨"file", false, fun _ => .error "not run"⟩

/-- Make a run with ever more files, until it asks for no other. -/
partial def settle (directory : Path) (args : List String) (k : Known) : IO CommandLine.Outcome := do
  let out := CommandLine.run (host directory k) args
  match k.missing out.accesses with
  | [] => return out.value
  | paths => do
    let found ← paths.mapM fun p => return (p, ← readFile p)
    settle directory args (k ++ found)

end Dialogue.Main

/-- **The tool.** -/
def main (args : List String) : IO UInt32 := do
  let directory ← IO.currentDir
  let out ← Dialogue.Main.settle (.ofString directory.toString) args []
  (← IO.getStdout).putStr out.stdout
  (← IO.getStderr).putStr out.stderr
  return out.exit.toUInt32
