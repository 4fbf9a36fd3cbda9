import Rulebook.Engine.Effect
import Rulebook.Engine.Saving
import Rulebook.Engine.Selection
import Rulebook.Engine.Settings

/-!
# Runs

A run takes a batch of transactions and a list of rules.  For each transaction the rules are
evaluated in order; a rule that matches has its actions applied, and one that matches and stops
processing ends the evaluation for that transaction.  Every evaluation is logged.

All that is written for a transaction is one change: if anything fails, nothing of it remains, the
transaction in memory is read again from its row, and the run goes on with the next one.

## Main definitions

* `Engine` — whose rules are run, and who is told.
* `Engine.processOne` — one transaction of a run.
* `Engine.process` — a run.
* `Engine.processForTrigger`, `Engine.processForRules`, `Engine.processRange`, `Engine.preview` —
  the ways to start one.
-/

namespace Rulebook

open Rulebook.Calendar

variable [Host]

/-- Whose rules are run, whether evaluations are logged, and who is told about each transaction. -/
structure Engine where
  user : Id
  isLogging : Bool
  /-- The number of the log entry whose writing fails, if any. -/
  failingLog : Option Int := none
  /-- Told about each transaction of a live run, as part of its change. -/
  observer : Option (Handle → TransactionSummary → Operation Unit) := none

/-- The transactions of a run, read when it starts. -/
abbrev Batch := Operation (List Handle)

namespace Engine

/-- An observer that only records the transactions it is told about, and perhaps fails. -/
def recorder (fails : Bool) (_ : Handle) (summary : TransactionSummary) : Operation Unit := do
  modify fun w => { w with observed := summary.transaction :: w.observed }
  if fails then throw .hookFailed

/-! ## One transaction -/

/-- Writes an execution log. -/
def writeLog (e : Engine) (log : Log) : Operation Unit := do
  modify fun w => { w with logWrites := w.logWrites + 1 }
  let count : Int := (← get).logWrites
  if e.failingLog = some count then throw .logWriteFailed
  let _ ← insertRow Store.logs (fun s t => { s with logs := t }) log

/-- The execution log of an outcome. -/
def logOf (rule transaction : Id) (outcome : RuleOutcome) (trigger : Trigger) (dryRun : Bool)
    (now : Instant) : Log where
  rule := rule
  transaction := transaction
  matched := outcome.matched
  actions := .list (outcome.actions.map ActionOutcome.toJson)
  context := .object
    [("trigger_type", .text (Vocabulary.code trigger)), ("dry_run", .bool dryRun),
      ("stopped_processing", outcome.stopped)]
  createdAt := now

/-- Logs an outcome, if both the rule and the transaction have rows. -/
def logOutcome (e : Engine) (h : Handle) (outcome : RuleOutcome) (trigger : Trigger)
    (dryRun : Bool) : Operation Unit := do
  match outcome.rule, (← transaction h).id with
  | .int rule, some id =>
    if e.isLogging then e.writeLog (logOf rule id outcome trigger dryRun (← get).now)
  | _, _ => return ()

/-- Runs the actions of a rule in order; one that fails may end them. -/
def runActions (h : Handle) (r : RuleDefinition) (dryRun : Bool) :
    List Action → Operation (List ActionOutcome)
  | [] => return []
  | a :: rest => do
    let outcome ← runAction a h dryRun
    if !outcome.succeeded && a.stopProcessing.isTruthy then
      report (.actionsSkipped r.id (← transaction h).id outcome.kind)
      return [outcome]
    else return outcome :: (← runActions h r dryRun rest)

/-- Evaluates a rule and applies its actions if it matches. -/
def runRule (h : Handle) (r : RuleDefinition) (dryRun : Bool) : Operation RuleOutcome := do
  if ← ruleMatches h r then
    let actions ← runActions h r dryRun r.actions
    if !dryRun && actions.any (·.succeeded) then invalidate h
    return { rule := r.id, name := r.name, matched := true, actions, stopped := r.stopProcessing }
  else return { rule := r.id, name := r.name, matched := false }

/-- Runs rules in order up to the first that matches and stops processing. -/
def runRules (e : Engine) (h : Handle) (trigger : Trigger) (dryRun log : Bool) :
    List RuleDefinition → Operation (List RuleOutcome)
  | [] => return []
  | r :: rest => do
    let outcome ← runRule h r dryRun
    if log then e.logOutcome h outcome trigger dryRun
    if outcome.matched && r.stopProcessing.isTruthy then return [outcome]
    else return outcome :: (← e.runRules h trigger dryRun log rest)

/-- Tells the observer of a live run about a transaction. -/
def tellObserver (e : Engine) (h : Handle) (summary : TransactionSummary) (dryRun : Bool) :
    Operation Unit :=
  match e.observer with
  | some observer => if dryRun then return () else observer h summary
  | none => return ()

/-- Runs the rules on a transaction of the user and tells the observer. -/
def runTransaction (e : Engine) (h : Handle) (rules : List RuleDefinition) (trigger : Trigger)
    (dryRun log : Bool) : Operation TransactionSummary := do
  let id := (← transaction h).id
  if (← ownerOf h) ≠ some e.user then throw (.foreignTransaction id e.user)
  let outcomes ← e.runRules h trigger dryRun log rules
  let summary : TransactionSummary :=
    { transaction := id, rules := outcomes
      changes := outcomes.foldl (fun done outcome => mergeChanges done outcome.changes) [] }
  e.tellObserver h summary dryRun
  return summary

/-- Drops what was changed in memory for a transaction whose change was taken back. -/
def discard (h : Handle) : Operation Unit := do
  modify fun w => { w with labels := [] }
  invalidate h
  refresh h

/-- Runs the rules on a transaction as one change.  A failure becomes an entry of the summary. -/
def processOne (e : Engine) (rules : List RuleDefinition) (trigger : Trigger) (dryRun log : Bool)
    (h : Handle) : Operation TransactionSummary := do
  let id := (← transaction h).id
  tryCatch (atomically (e.runTransaction h rules trigger dryRun log)) fun failure => do
    discard h
    report (.transactionFailed e.user (rules.map (·.id)) id dryRun)
    return { transaction := id, error := some failure.message }

/-! ## Runs -/

/-- Runs rules on a batch of transactions. -/
def process (e : Engine) (batch : Batch) (rules : List RuleDefinition) (trigger : Trigger)
    (dryRun : Bool) (log : Bool := true) : Operation RunSummary := do
  clearFields
  modify fun w => { w with labels := [] }
  let transactions ← (← batch).mapM (e.processOne rules trigger dryRun log)
  let summary : RunSummary := ⟨dryRun, Vocabulary.code trigger, transactions⟩
  report (.runCompleted e.user summary.trigger dryRun summary.totalProcessed summary.totalMatched
    summary.failed.length)
  return summary

/-- The rules that a trigger starts. -/
def rulesForTrigger (e : Engine) (trigger : Json) : Operation (List RuleDefinition) := do
  return (← get).store.rulesForTrigger e.user (← .ofExcept (Vocabulary.require trigger))

/-- The rules with the numbers that a value lists. -/
def rulesWithIds (e : Engine) (ids : Json) : Operation (List RuleDefinition) := do
  let ids ← .ofExcept (Column.references "id" ids)
  return (← get).store.rulesWithIds e.user (← .ofExcept (Column.allFit ids))

/-- Runs the rules that a trigger starts. -/
def processForTrigger (e : Engine) (batch : Batch) (trigger : Json) (dryRun : Bool) :
    Operation RunSummary := do
  let known ← .ofExcept (Vocabulary.require trigger)
  e.process batch (← e.rulesForTrigger trigger) known dryRun

/-- Runs the rules with the numbers that a value lists. -/
def processForRules (e : Engine) (batch : Batch) (ids : Json) (dryRun : Bool) :
    Operation RunSummary := do
  e.process batch (← e.rulesWithIds ids) .manual dryRun

/-- Holds transactions in memory, with the rows that they reference. -/
def holdRows (rows : List (Id × Transaction)) : Operation (List Handle) := do
  let s := (← get).store
  rows.mapM fun (id, t) => hold (.ofRowWithReferences s id t)

/-- The user's transactions that satisfy a test, by date. -/
def transactionsWhere (e : Engine) (test : Id → Transaction → Bool) : Batch := do
  holdRows ((← get).store.transactionsInOrder e.user test)

/-- Refuses a number of transactions to read at a time that is not positive. -/
def checkBatchSize (size : Json) : Except Failure Unit :=
  match size with
  | .null => .ok ()
  | .int n => if n ≤ 0 then .error .emptyBatches else .ok ()
  | .bool b => if b then .ok () else .error .emptyBatches
  | .real x => if x.le (.ofInt 0) then .error .emptyBatches else .error .wrongKind
  | _ => .error .wrongKind

/-- Runs rules on the user's transactions between two dates, both included. -/
def processRange (e : Engine) (start finish : Date) (ids : Option Json) (dryRun : Bool) :
    Operation RunSummary := do
  let rules ← match ids with
    | some ids => e.rulesWithIds ids
    | none => e.rulesForTrigger (.text (Vocabulary.code Trigger.manual))
  .ofExcept (checkBatchSize (← setting .batchSize))
  e.process (e.transactionsWhere fun _ t => start.le t.bookedDate && t.bookedDate.le finish) rules
    .manual dryRun

/-- Previews a rule that may not be stored.  Nothing is logged. -/
def preview (e : Engine) (batch : Batch) (definition : RuleDefinition) : Operation RunSummary :=
  e.process batch [definition] .manual true false

end Engine

end Rulebook
