import Rulebook.Command.Output
import Rulebook.Exchange.Import
import Rulebook.Exchange.Samples

/-!
# The command that imports and exports rules

Imports the rules of a file for a user, or writes the user's rules or sample rules to the file.

## Main definitions

* `exchangeSpec` — its arguments.
* `exchangeCommand` — the command.
-/

namespace Rulebook

variable [Host]

/-- The arguments. -/
def exchangeSpec : ArgumentSpec where
  positionals := ["user_email", "file_path"]
  options :=
    [{ name := "create_user", words := ["--create-user"], arity := .switch },
      { name := "generate_sample", words := ["--generate-sample"], arity := .switch },
      { name := "export", words := ["--export"], arity := .switch }]
  exclusive := ["generate_sample", "export"]

/-- Prints the name of a sample rule. -/
def printSample (rule : Json) : Operation Unit :=
  printLine ("  - " ++ (rule.member "name").display ++ " (" ++ (rule.member "trigger_type").display
    ++ ")")

/-- Writes the sample rules to a file. -/
def writeSamples (colored : Bool) (email file : String) : Operation Unit := do
  orFileError "Error creating sample file" (writeFile (.ofText file) (sampleFile email).pretty)
  printLine (Tint.success.paint colored ("Sample rules file created at: " ++ file))
  printLine "\nSample contains:"
  sampleRules.forM printSample

/-- The user with an address, added if that is asked for. -/
def findOrAddUser (colored create : Bool) (email : String) : Operation (Id × User) := do
  match userWithEmail? (← get).store email with
  | some found => return found
  | none =>
    if create then
      let name := String.ofList (email.toList.takeWhile (· != '@'))
      let u : User := ⟨name, email, true⟩
      let id ← writeResult fun s => s.addUser u
      printLine (Tint.success.paint colored ("Created user: " ++ email))
      return (id, u)
    else throw (.command ("User '" ++ email ++ "' not found"))

/-- Writes a user's rules to a file. -/
def writeExport (colored : Bool) (user : Id) (file : String) : Operation Unit := do
  let text ← exportRules user
  orFileError "Error writing file" (writeFile (.ofText file) text)
  printLine (Tint.success.paint colored ("Rules exported to: " ++ file))

/-- Prints what an import did, and what the user has now. -/
def printImport (colored : Bool) (user : Id) (u : User) (imported : Nat) (errors : List String) :
    Operation Unit := do
  printLine (Tint.success.paint colored ("Successfully imported " ++ toString imported ++ " rules"))
  if !errors.isEmpty then
    printLine (Tint.warning.paint colored "\nErrors encountered:")
    errors.forM fun error => printLine ("  - " ++ error)
  let mine := (← get).store.rules.filter fun _ r => r.user = user
  let active := mine.filter fun (_, r) => r.isActive
  printLine ("\nUser '" ++ u.email ++ "' now has:")
  printLine ("  Total rules: " ++ toString mine.length)
  printLine ("  Active rules: " ++ toString active.length)

/-- Imports the rules of a file. -/
def readImport (colored : Bool) (user : Id) (u : User) (file : String) : Operation Unit := do
  let path := Path.ofText file
  if !(← get).files.has path then throw (.command ("File not found: " ++ file))
  let text ← orFileError "Error reading file" (readFile path)
  printLine ("Importing rules for user: " ++ u.email)
  match ← importRules user text with
  | .unreadable reason => throw (.command reason)
  | .finished imported errors => printImport colored user u imported errors

/-- Imports rules from a file, or exports rules or samples to one. -/
def exchangeCommand (a : Arguments) : Operation Unit := do
  let email := a.positional "user_email"
  let file := a.positional "file_path"
  let colored := a.isColored
  if a.has "generate_sample" then writeSamples colored email file
  else
    let (user, u) ← findOrAddUser colored (a.has "create_user") email
    if a.has "export" then writeExport colored user file else readImport colored user u file

end Rulebook
