import Rulebook.Command.Output
import Rulebook.Service.Running

/-!
# The command that applies rules

Runs a user's rules on chosen transactions and prints which rules matched and what their actions
did.

## Main definitions

* `applySpec` — its arguments.
* `applyCommand` — the command.
-/

namespace Rulebook

open Rulebook.Calendar

variable [Host]

/-- The arguments. -/
def applySpec : ArgumentSpec where
  positionals := ["user_email"]
  options :=
    [{ name := "transaction_ids", words := ["--transaction-ids"], arity := .several
       accepts := isWholeNumber },
      { name := "rule_ids", words := ["--rule-ids"], arity := .several, accepts := isWholeNumber },
      { name := "start", words := ["--start"], arity := .one },
      { name := "end", words := ["--end"], arity := .one },
      { name := "all", words := ["--all"], arity := .switch },
      { name := "trigger", words := ["--trigger"], arity := .one
        accepts := (Vocabulary.codes Trigger).contains },
      { name := "dry_run", words := ["--dry-run"], arity := .switch }]

/-- The date that an option gives; an empty text gives none. -/
def dateArgument (a : Arguments) (name : String) : Except Failure (Option Date) :=
  match a.value? name with
  | none => .ok none
  | some s =>
    if s = "" then .ok none
    else match readDate s with
      | .value date => .ok (some date)
      | _ => .error (.command ("--" ++ name ++ " must be a date in YYYY-MM-DD format, got '" ++ s
          ++ "'"))

/-- Prints the rules that matched a transaction, with their actions. -/
def printMatches (t : TransactionSummary) : Operation Unit := do
  let outcomes := t.rules.filter (·.matched)
  if !outcomes.isEmpty then
    printLine ("  Transaction " ++ (Json.ofId? t.transaction).display ++ ":")
    outcomes.forM fun outcome => do
      printLine ("    Rule '" ++ outcome.name.display ++ "' matched")
      outcome.actions.forM fun action =>
        printLine ("      " ++ action.description
          ++ (if action.succeeded then " [ok]" else " [failed]"))

/-- Prints what became of a transaction. -/
def printTransaction (colored : Bool) (t : TransactionSummary) : Operation Unit :=
  if t.isFailed then
    printLine (Tint.error.paint colored ("  Transaction " ++ (Json.ofId? t.transaction).display
      ++ ": ERROR - " ++ t.error.getD ""))
  else printMatches t

/-- Prints what a run did. -/
def printRun (colored dryRun : Bool) (s : RunSummary) : Operation Unit := do
  s.transactions.forM (printTransaction colored)
  printLine (Tint.success.paint colored ("Matched " ++ toString s.totalMatched ++ "/"
    ++ toString s.totalProcessed ++ " transactions"))
  if !s.failed.isEmpty then
    printLine (Tint.warning.paint colored (toString s.failed.length ++ " transaction(s) failed"))
  printLine "Completed in 0.00 seconds"
  if dryRun then printLine "\n(Dry run - no changes saved)"

/-- The numbers of a user's transactions, or of the chosen ones. -/
def chosenTransactions (a : Arguments) (user : Id) : Operation (List Id) := do
  if a.has "all" then return ((← get).store.transactionsOf user).map (·.1)
  else return a.numbers "transaction_ids"

/-- Runs the rules that the arguments choose. -/
def applyChosen (a : Arguments) (user : Id) (u : User) (transactions : List Id)
    (start finish : Option Date) : Operation Unit := do
  let rules := a.numbers "rule_ids"
  if transactions.isEmpty && start.isNone && rules.isEmpty then
    throw (.command "Please specify --transaction-ids, --start/--end, --rule-ids, or --all")
  printLine ("Applying rules for user: " ++ u.email)
  let dryRun := a.has "dry_run"
  let trigger := (a.value? "trigger").getD (Vocabulary.code Trigger.manual)
  let ids (numbers : List Id) : Json := .list (numbers.map .int)
  let summary ← applyRules user (ids transactions) (ids rules) start finish (.text trigger) dryRun
  printRun a.isColored dryRun summary

/-- Applies a user's rules to transactions. -/
def applyCommand (a : Arguments) : Operation Unit := do
  let email := a.positional "user_email"
  match userWithEmail? (← get).store email with
  | none => throw (.command ("User '" ++ email ++ "' not found or inactive"))
  | some (user, u) =>
    if !u.isActive then throw (.command ("User '" ++ email ++ "' not found or inactive"))
    let start ← .ofExcept (dateArgument a "start")
    let finish ← .ofExcept (dateArgument a "end")
    if start.isSome != finish.isSome then
      throw (.command "--start and --end must be given together")
    let transactions ← chosenTransactions a user
    if a.has "all" && transactions.isEmpty then printLine "No transactions found"
    else applyChosen a user u transactions start finish

end Rulebook
