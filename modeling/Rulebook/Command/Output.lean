import Rulebook.Command.Arguments
import Rulebook.Engine.Workspace

/-!
# Output of commands

Commands print lines, some of them in a color if colors are asked for, and read and write files.

## Main definitions

* `printLine` — prints a line.
* `Tint.paint` — a text in a color.
* `readFile`, `writeFile` — files, with the failure that a fault causes.
-/

namespace Rulebook

/-- Prints a text and ends the line unless the text does. -/
def printLine (s : String) : Operation Unit :=
  let line := if s.toList.getLast? = some '\n' then s else s ++ "\n"
  modify fun w => { w with printed := line :: w.printed }

/-- The color of a text: good news, a warning, or an error. -/
inductive Tint where
  | success
  | warning
  | error
deriving DecidableEq, Repr

namespace Tint

/-- The number of the color. -/
def number : Tint → String
  | .success => "32"
  | .warning => "33"
  | .error => "31"

/-- A text in bold and in a color, if colors are asked for. -/
def paint (t : Tint) (colored : Bool) (s : String) : String :=
  if colored then "\x1b[" ++ t.number ++ ";1m" ++ s ++ "\x1b[0m" else s

end Tint

/-- Whether colors are asked for. -/
def Arguments.isColored (a : Arguments) : Bool := a.has "force_color"

/-- The content of a file. -/
def readFile (p : Path) : Operation String := do
  match (← get).files.read p with
  | .ok content => return content
  | .error fault => throw (.file fault p)

/-- Writes a file. -/
def writeFile (p : Path) (content : String) : Operation Unit := do
  match (← get).files.write p content with
  | .ok files => modify fun w => { w with files }
  | .error fault => throw (.file fault p)

/-- Carries an operation out and, if a file could not be used, fails as a command with a prefix. -/
def orFileError {α : Type} (lead : String) (act : Operation α) : Operation α :=
  tryCatch act fun failure => match failure with
    | .file fault path => throw (.command (lead ++ ": " ++ fault.message path))
    | failure => throw failure

/-- The whole numbers that the values of an option write. -/
def Arguments.numbers (a : Arguments) (name : String) : List Int :=
  (a.values name).filterMap fun s => (Number.readInteger s.toList).toOption

/-- The user with an address. -/
def userWithEmail? (s : Store) (email : String) : Option (Id × User) :=
  s.users.rows.find? fun (_, u) => u.email = email

end Rulebook
