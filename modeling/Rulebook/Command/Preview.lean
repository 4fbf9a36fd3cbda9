import Rulebook.Command.Output
import Rulebook.Exchange.Payload
import Rulebook.Json.Reader
import Rulebook.Service.Running

/-!
# The command that previews a rule

Shows a stored rule, or a definition from a file, and what it would do with some transactions: the
chosen ones, or the latest ones of the user.

## Main definitions

* `previewSpec` — its arguments.
* `previewCommand` — the command.
-/

namespace Rulebook

open Rulebook.Calendar

variable [Host]

/-- The arguments. -/
def previewSpec : ArgumentSpec where
  positionals := ["user_email"]
  options :=
    [{ name := "rule_id", words := ["--rule-id"], arity := .one, accepts := isWholeNumber },
      { name := "definition", words := ["--definition"], arity := .one },
      { name := "transaction_ids", words := ["--transaction-ids"], arity := .several
        accepts := isWholeNumber },
      { name := "sample_size", words := ["--sample-size"], arity := .one
        accepts := isWholeNumber }]
  exclusive := ["rule_id", "definition"]
  needsExclusive := true

/-- The definition that a file holds. -/
def definitionFile (a : Arguments) : Operation Json := do
  match a.value? "definition" with
  | none => throw .wrongKind
  | some s =>
    let path := Path.ofText s
    if !(← get).files.has path then throw (.command ("File not found: " ++ path.text))
    let text ← readFile path
    match Json.read (Host.room .file) text with
    | .ok definition => return definition
    | .error (.longInteger digits) => throw (.longNumeral digits)
    | .error .tooDeep => throw .tooDeep
    | .error .loneHalf => throw .unencodable
    | .error fault => throw (.command ("Invalid JSON: " ++ fault.message text))

/-- The definition to preview; the rule of number nought is none. -/
def chosenDefinition (a : Arguments) (user : Id) (u : User) : Operation Json := do
  match (a.numbers "rule_id").filter (· != 0) with
  | [] => definitionFile a
  | rule :: _ =>
    let s := (← get).store
    match (s.rules.find? rule).filter fun r => r.user = user with
    | some r => return s.payloadOf rule r
    | none =>
      throw (.command ("Rule " ++ toString rule ++ " not found for user '" ++ u.email ++ "'"))

/-- How many transactions are looked at when none are chosen; a default in words has to be a
number. -/
def sampleSize (a : Arguments) (standard : Json) : Except Failure Json :=
  match a.numbers "sample_size", standard with
  | n :: _, _ => .ok (.int n)
  | [], .text s => match Number.readInteger s.toList with
    | .ok n => .ok (.int n)
    | .error _ => .error .usage
  | [], standard => .ok standard

/-- The numbers of the latest transactions of a user. -/
def latestTransactions (s : Store) (user : Id) (limit : Option Nat) : List Id :=
  takeLimit limit ((s.transactionsInOrder user fun _ _ => true).reverse.map (·.1))

/-- The numbers of the transactions to look at. -/
def previewedTransactions (a : Arguments) (user : Id) (size : Json) : Operation (List Id) := do
  match a.numbers "transaction_ids" with
  | [] => return latestTransactions (← get).store user (← .ofExcept (readLimit size))
  | ids => return ids

/-- A line of sixty dashes. -/
def ruler : String := String.ofList (List.replicate 60 '-')

/-- Prints what would become of a transaction. -/
def printPreview (colored : Bool) (t : TransactionSummary) : Operation Unit := do
  let name := "\nTransaction " ++ (Json.ofId? t.transaction).display
  if t.isFailed then
    printLine (Tint.error.paint colored (name ++ ": ERROR - " ++ t.error.getD ""))
  else match t.rules.head?.filter (·.matched) with
    | none => printLine (name ++ ": No match")
    | some outcome =>
      printLine (Tint.success.paint colored (name ++ ": MATCHED"))
      outcome.actions.forM fun action =>
        printLine ("  " ++ action.description
          ++ (if action.succeeded then " (would apply)" else " (would fail)"))

/-- Runs a preview; a definition that is refused fails as a command. -/
def runPreview (user : Id) (transactions : List Id) (definition : Json) : Operation RunSummary :=
  tryCatch (previewDefinition user (.list (transactions.map .int)) definition) fun failure =>
    match failure with
    | .definition message _ => throw (.command message)
    | failure => throw failure

/-- Prints a definition under its name, if both can be shown. -/
def printDefinition (definition : Json) : Operation Unit := do
  let name ← .ofExcept (do (← definition.require "name").plain .message)
  printLine ("\nTesting rule: " ++ name)
  printLine "\nRule definition:"
  match definition.hidden? .layout with
  | none => printLine definition.pretty
  | some failure => throw failure

/-- Previews a rule for a user. -/
def previewCommand (size : Json) (a : Arguments) : Operation Unit := do
  let email := a.positional "user_email"
  match userWithEmail? (← get).store email with
  | none => throw (.command ("User '" ++ email ++ "' not found"))
  | some (user, u) =>
    let definition ← chosenDefinition a user u
    let transactions ← previewedTransactions a user size
    printDefinition definition
    let s ← runPreview user transactions definition
    let colored := a.isColored
    printLine ("\nTesting against " ++ toString s.totalProcessed ++ " transaction(s):")
    printLine ruler
    s.transactions.forM (printPreview colored)
    printLine ruler
    printLine (Tint.success.paint colored ("\nMatches: " ++ toString s.totalMatched ++ "/"
      ++ toString s.totalProcessed))
    printLine "\n(Preview - no changes saved)"

end Rulebook
