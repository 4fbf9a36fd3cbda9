import Rulebook.Text.Quoted

/-!
# Files

The files that commands read and write lie in one working directory without subdirectories.  A path
may name a file of it, the directory itself, or lead through directories that are not there.

## Main definitions

* `Path` — the steps of a path, and `Path.text`, its plain form.
* `FileFault` — why a file could not be used.
* `Files` — the files; `Files.read`, `Files.write`.
-/

namespace Rulebook

open Rulebook.Text

/-- The steps of a path; empty steps and single dots are left out. -/
structure Path where
  isAbsolute : Bool
  steps : List String
deriving Repr, DecidableEq

namespace Path

/-- The parts of a text between slashes. -/
def split : List Char → List Char → List (List Char)
  | [], done => [done.reverse]
  | '/' :: rest, done => done.reverse :: split rest []
  | c :: rest, done => split rest (c :: done)

/-- The path that a text writes. -/
def ofText (s : String) : Path where
  isAbsolute := s.toList.head? == some '/'
  steps := ((split s.toList []).map String.ofList).filter fun step => step != "" && step != "."

/-- The plain form of a path. -/
def text (p : Path) : String :=
  let joined := "/".intercalate p.steps
  if p.isAbsolute then "/" ++ joined else if p.steps.isEmpty then "." else joined

end Path

/-- Why a file could not be used. -/
inductive FileFault where
  | missing
  | notDirectory
  | isDirectory
deriving DecidableEq, Repr

/-- The words for a fault, with the path. -/
def FileFault.message (fault : FileFault) (path : Path) : String :=
  (match fault with
    | .missing => "[Errno 2] No such file or directory: "
    | .notDirectory => "[Errno 20] Not a directory: "
    | .isDirectory => "[Errno 21] Is a directory: ") ++ quoted path.text

/-- A file is named by how far above the working directory it lies, and its name. -/
abbrev FileName := Nat × String

/-- The files and their contents. -/
abbrev Files := List (FileName × String)

/-- What a path leads to. -/
inductive Location where
  | directory
  | file (name : FileName)
deriving DecidableEq, Repr

namespace Files

/-- Follows the steps of a path from a directory so far above the working directory. -/
def follow (files : Files) : Nat → List String → Except FileFault Location
  | _, [] => .ok .directory
  | up, ".." :: rest => follow files (up + 1) rest
  | up, [name] => .ok (.file (up, name))
  | up, name :: _ =>
    if (files.lookup (up, name)).isSome then .error .notDirectory else .error .missing

/-- What a path leads to; there are no absolute files. -/
def locate (files : Files) (p : Path) : Except FileFault Location :=
  if p.isAbsolute then (if p.steps.isEmpty then .ok .directory else .error .missing)
  else files.follow 0 p.steps

/-- Whether a path leads to a directory or a file that is there. -/
def has (files : Files) (p : Path) : Bool :=
  match files.locate p with
  | .ok .directory => true
  | .ok (.file name) => (files.lookup name).isSome
  | .error _ => false

/-- Line breaks of all kinds as plain ones. -/
def plainBreaks : List Char → List Char
  | '\r' :: '\n' :: rest => '\n' :: plainBreaks rest
  | '\r' :: rest => '\n' :: plainBreaks rest
  | c :: rest => c :: plainBreaks rest
  | [] => []

/-- The content of a file. -/
def read (files : Files) (p : Path) : Except FileFault String := do
  match ← files.locate p with
  | .directory => throw .isDirectory
  | .file name =>
    match files.lookup name with
    | some content => return String.ofList (plainBreaks content.toList)
    | none => throw .missing

/-- The files with another content of one. -/
def put (files : Files) (name : FileName) (content : String) : Files :=
  (name, content) :: files.filter fun entry => entry.1 != name

/-- The files after writing one. -/
def write (files : Files) (p : Path) (content : String) : Except FileFault Files := do
  match ← files.locate p with
  | .directory => throw .isDirectory
  | .file name => return files.put name content

end Files

end Rulebook
