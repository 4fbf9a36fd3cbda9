import Rulebook.Definition.Validity
import Rulebook.Engine.Run

/-!
# Runs on behalf of a user

The engine changes transactions in memory only.  These operations choose the transactions that a run
covers, and save the fields that it changed as part of each transaction's change.

## Main definitions

* `persistChanges` — saves what a run changed on a transaction.
* `applyRules` — runs rules on chosen transactions.
* `processCreated`, `processUpdated` — runs the rules for a transaction that is new or was changed.
* `previewDefinition` — previews a definition on some of the user's transactions.
-/

namespace Rulebook

open Rulebook.Calendar

variable [Host]

/-- Saves the fields that a run changed on a transaction. -/
def persistChanges (h : Handle) (summary : TransactionSummary) : Operation Unit :=
  if summary.changes.isEmpty then return () else saveFields h summary.changes

/-- The engine for a user that saves what it changes. -/
def persistingEngine (user : Id) : Operation Engine := do
  return {
    user
    isLogging := (← setting .executionLogging).isTruthy
    observer := some persistChanges }

/-- The transactions of the engine's user with the given numbers, by date. -/
def Engine.transactionsWithIds (e : Engine) (ids : List Id) : Batch := do
  let ids ← .ofExcept (Column.allFit ids)
  e.transactionsWhere fun id _ => ids.contains id

/-- The entries of a value that may be left out. -/
def entriesIfSet (j : Json) : Except Failure (List Json) := if j.isTruthy then j.entries else .ok []

/-- Runs rules on transactions of a user.  The transactions are those with the given numbers, else
those between two dates, else all if rules are given; the rules are those with the given numbers,
else those of the trigger.  With neither transactions nor rules nothing is run. -/
def applyRules (user : Id) (transactions rules : Json) (start finish : Option Date)
    (trigger : Json) (dryRun : Bool) : Operation RunSummary := withFreshCaches do
  let e ← persistingEngine user
  let ruleEntries ← .ofExcept (entriesIfSet rules)
  let count := (← .ofExcept (entriesIfSet transactions)).length
  report (.runStarted user ruleEntries start finish count dryRun)
  if transactions.isTruthy then
    let batch := e.transactionsWithIds (← .ofExcept (Column.references "id" transactions))
    if rules.isTruthy then e.processForRules batch rules dryRun
    else e.processForTrigger batch trigger dryRun
  else
    match start, finish with
    | some start, some finish =>
      e.processRange start finish (if rules.isTruthy then some rules else none) dryRun
    | _, _ =>
      if rules.isTruthy then e.processForRules (e.transactionsWhere fun _ _ => true) rules dryRun
      else
        let known : Trigger ← .ofExcept (Vocabulary.require trigger)
        return ⟨dryRun, Vocabulary.code known, []⟩

/-- The user who owns a transaction, who has to be there. -/
def requireOwner (h : Handle) : Operation Id := do
  match ← accountOf h with
  | none => throw .unsetReference
  | some account =>
    let user := account.account.user
    if !account.ownerSeen then
      let _ ← row .user Store.users user
      change h fun t =>
        { t with account := ⟨t.account.id, some { account with ownerSeen := true }⟩ }
    return user

/-- Runs the rules of a trigger on a single transaction. -/
def processSingle (h : Handle) (trigger : Trigger) : Operation RunSummary := withFreshCaches do
  let e ← persistingEngine (← requireOwner h)
  e.processForTrigger (return [h]) (.text (Vocabulary.code trigger)) false

/-- Runs the rules for a new transaction. -/
def processCreated (h : Handle) : Operation RunSummary := processSingle h .transactionCreated

/-- Runs the rules for a changed transaction. -/
def processUpdated (h : Handle) : Operation RunSummary := processSingle h .transactionUpdated

/-- How many rows a limit lets through; null lets all through. -/
def readLimit (limit : Json) : Except Failure (Option Nat) :=
  let natural (n : Int) : Except Failure (Option Nat) :=
    if n < 0 then .error .negativeLimit else .ok (some n.toNat)
  match limit with
  | .null => .ok none
  | .bool b => natural (if b then 1 else 0)
  | .int n => natural n
  | .real x =>
    if x.lt (.ofInt 0) then .error .negativeLimit
    else match x with
      | .nan => .error .notWhole
      | .infinite _ => .error (.tooLarge .infinity)
      | x => .ok ((x.truncate?).map Int.toNat)
  | _ => .error .wrongKind

/-- The first entries of a list, as many as a limit lets through. -/
def takeLimit {α : Type} (limit : Option Nat) (entries : List α) : List α :=
  match limit with
  | some n => entries.take n
  | none => entries

/-- The user's transactions with the given numbers, by date, as many as a limit lets through.  A
limit of nought does not look at the numbers. -/
def Engine.limitedTransactions (e : Engine) (ids : List Id) (limit : Option Nat) :
    Operation (List Handle) := do
  if limit = some 0 then return []
  else
    let ids ← .ofExcept (Column.allFit ids)
    let rows := (← get).store.transactionsInOrder e.user fun id _ => ids.contains id
    Engine.holdRows (takeLimit limit rows)

/-- Previews a definition on some of the user's transactions. -/
def previewDefinition (user : Id) (transactions definition : Json) : Operation RunSummary :=
  withFreshCaches do
    .ofExcept (checkDefinition definition)
    let limit ← setting .previewLimit
    let ids ← .ofExcept (Column.references "id" transactions)
    let limit ← .ofExcept (readLimit limit)
    let e ← persistingEngine user
    let batch ← e.limitedTransactions ids limit
    e.preview (return batch) (← .ofExcept (RuleDefinition.ofPayload definition))

end Rulebook
