import Rulebook.Engine.Live
import Rulebook.Json.Access

/-!
# Summaries

What a run reports: for each transaction the rules that were evaluated, for each rule whether it
matched and what became of its actions, and which fields were changed.

## Main definitions

* `ActionOutcome`, `RuleOutcome`, `TransactionSummary`, `RunSummary` — the four levels.
* `RunSummary.toJson`, `TransactionSummary.toJson` — the report.
-/

namespace Rulebook

/-- What became of an action. -/
structure ActionOutcome where
  kind : String
  succeeded : Bool
  description : String
  changes : List TransactionField := []
deriving Repr

/-- What became of a rule.  The number, name and switch are those of the definition. -/
structure RuleOutcome where
  rule : Json
  name : Json
  matched : Bool
  actions : List ActionOutcome := []
  stopped : Json := .bool false
deriving Repr

/-- What became of a transaction. -/
structure TransactionSummary where
  transaction : Option Id
  rules : List RuleOutcome := []
  changes : List TransactionField := []
  error : Option String := none
deriving Repr

/-- What a run did. -/
structure RunSummary where
  isDryRun : Bool
  trigger : String
  transactions : List TransactionSummary := []
deriving Repr

/-- The fields of two lists, each once, in the order of their first mention. -/
def mergeChanges (changes new : List TransactionField) : List TransactionField :=
  new.foldl (fun done field => if done.contains field then done else done ++ [field]) changes

namespace ActionOutcome

/-- An outcome as JSON. -/
def toJson (a : ActionOutcome) : Json :=
  .object
    [("action_type", .text a.kind), ("success", .bool a.succeeded),
      ("description", .text a.description)]

end ActionOutcome

namespace RuleOutcome

/-- The fields that the actions changed. -/
def changes (r : RuleOutcome) : List TransactionField := r.actions.flatMap (·.changes)

/-- An outcome as JSON. -/
def toJson (r : RuleOutcome) : Json :=
  .object
    [("rule_id", r.rule), ("rule_name", r.name), ("matched", .bool r.matched),
      ("actions", .list (r.actions.map ActionOutcome.toJson)), ("stopped_processing", r.stopped)]

end RuleOutcome

namespace TransactionSummary

/-- The rules that matched. -/
def matchedRules (t : TransactionSummary) : List Json :=
  (t.rules.filter (·.matched)).map (·.rule)

/-- Whether a rule matched. -/
def isMatched (t : TransactionSummary) : Bool := t.rules.any (·.matched)

/-- Whether the transaction failed; an error without words does not count. -/
def isFailed (t : TransactionSummary) : Bool := t.error.any (· != "")

/-- A summary as JSON. -/
def toJson (t : TransactionSummary) : Json :=
  .object
    ([("transaction_id", .ofOption .int t.transaction),
        ("rules", .list (t.rules.map RuleOutcome.toJson))]
      ++ (if t.isFailed then [("error", .ofText? t.error)] else []))

/-- The further details of a summary as JSON. -/
def detailsJson (t : TransactionSummary) : Json :=
  .object
    [("transaction_id", .ofOption .int t.transaction),
      ("changed_fields", .list (t.changes.map fun field => .text field.code)),
      ("matched_rule_ids", .list t.matchedRules), ("error", .ofText? t.error)]

end TransactionSummary

namespace RunSummary

/-- How many transactions there were. -/
def totalProcessed (s : RunSummary) : Nat := s.transactions.length

/-- How many transactions some rule matched. -/
def totalMatched (s : RunSummary) : Nat := (s.transactions.filter (·.isMatched)).length

/-- The transactions that failed. -/
def failed (s : RunSummary) : List TransactionSummary := s.transactions.filter (·.isFailed)

/-- The first entry for a transaction. -/
def find? (s : RunSummary) (transaction : Json) : Option TransactionSummary :=
  s.transactions.find? fun t => (Json.ofOption .int t.transaction).sameScalar transaction

/-- A summary as JSON. -/
def toJson (s : RunSummary) : Json :=
  .object
    [("dry_run", .bool s.isDryRun), ("trigger_type", .text s.trigger),
      ("total_processed", .int s.totalProcessed), ("total_matched", .int s.totalMatched),
      ("transactions", .list (s.transactions.map TransactionSummary.toJson))]

/-- A summary with its details as JSON. -/
def reportJson (s : RunSummary) : List (String × Json) :=
  [("summary", s.toJson),
    ("details", .list (s.transactions.map TransactionSummary.detailsJson)),
    ("failed", .list (s.failed.map fun t => .ofOption .int t.transaction))]

end RunSummary

/-- Merging keeps the fields that are there. -/
theorem subset_mergeChanges (changes new : List TransactionField) :
    changes ⊆ mergeChanges changes new := by
  unfold mergeChanges
  induction new generalizing changes with
  | nil => simp
  | cons field rest ih =>
    rw [List.foldl_cons]
    refine fun x hx => ih _ ?_
    split
    · exact hx
    · exact List.mem_append_left _ hx

end Rulebook
