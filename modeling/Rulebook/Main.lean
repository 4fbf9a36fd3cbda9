import Rulebook.Command.Run

/-!
# The command line

Runs one command on a ledger that is empty at first.  The files of the working directory that the
words name are read before the command begins, and those that it wrote are written afterwards.

## Main definitions

* `main` — the first word names the command, the others are its arguments.
-/

namespace Rulebook

/-- The file with a name in the working directory, if it is there. -/
def loadFile (name : String) : IO (Option (FileName × String)) := do
  try return some ((0, name), ← IO.FS.readFile name)
  catch _ => return none

/-- Writes the files that differ from what they were. -/
def storeFiles (before after : Files) : IO Unit :=
  after.forM fun (name, content) => do
    if before.lookup name != some content then IO.FS.writeFile name.2 content

/-- Runs a command and prints what it printed, or why it was refused. -/
def runCommandLine (name : String) (words : List String) : IO UInt32 := do
  let files ← words.filterMapM loadFile
  let (result, w) := (runCommand name words).runOn { Workspace.initial with files }
  IO.print w.output
  storeFiles files w.files
  match result with
  | .ok () => return 0
  | .error failure =>
    IO.eprintln failure.message
    return 1

end Rulebook

/-- The first word names the command, the others are its arguments. -/
def main (words : List String) : IO UInt32 :=
  match words with
  | name :: rest => Rulebook.runCommandLine name rest
  | [] => do
    IO.eprintln "apply_rules, test_rule or import_rules"
    return 1
