import Rulebook.Action.Vocabulary
import Rulebook.Calendar.Date
import Rulebook.Ledger.Store

/-!
# The journal

What the engine reports while it works: malformed conditions, failed actions, rows it created,
notifications it sent, and the beginning and end of runs.  An event is a fact; `Event.record` is the
entry that is kept of it.

## Main definitions

* `Event` — what is reported.
* `Record` — an entry: who reports, how serious it is, a sentence and named details.
* `Event.record` — the entry for an event.
-/

namespace Rulebook

/-- How serious an entry is. -/
inductive Severity where
  | info
  | warning
  | error
deriving DecidableEq, Repr

/-- The word for a severity. -/
def Severity.word : Severity → String
  | .info => "INFO"
  | .warning => "WARNING"
  | .error => "ERROR"

/-- The part of the program that reports. -/
inductive Reporter where
  | conditions
  | actions
  | notifications
  | engine
deriving DecidableEq, Repr

/-- The name of a reporter. -/
def Reporter.name : Reporter → String
  | .conditions => "rules.conditions"
  | .actions => "rules.actions"
  | .notifications => "rules.notifications"
  | .engine => "rules.engine"

/-- Something that is reported. -/
inductive Event where
  | conditionMalformed (condition transaction : Option Id)
  | unknownAction (kind : Json) (transaction : Option Id)
  | actionFailed (kind : ActionKind) (value : Json) (rule transaction : Option Id)
  | labelCreated (kind : LabelKind) (id : Id) (name : String) (user : Id)
  | notified (rule transaction : Option Id) (message : String)
  | receiverFailed
  | actionsSkipped (rule : Json) (transaction : Option Id) (kind : String)
  | transactionFailed (user : Id) (rules : List Json) (transaction : Option Id) (dryRun : Bool)
  | runStarted (user : Id) (rules : List Json) (start finish : Option Calendar.Date)
      (transactions : Nat) (dryRun : Bool)
  | runCompleted (user : Id) (trigger : String) (dryRun : Bool) (processed matched failed : Nat)
deriving Repr

/-- An entry of the journal. -/
structure Record where
  reporter : Reporter
  severity : Severity
  text : String
  details : List (String × Json)
deriving Repr

/-- A number of a row, or null. -/
def Json.ofId? (id : Option Id) : Json := .ofOption .int id

namespace Event

/-- The word for the kind of event. -/
def word : Event → String
  | .conditionMalformed .. => "condition_malformed"
  | .unknownAction .. => "unknown_action_type"
  | .actionFailed .. => "action_failed"
  | .labelCreated .. => "entity_created"
  | .notified .. => "rule_notification"
  | .receiverFailed => "notification_receiver_failed"
  | .actionsSkipped .. => "action_chain_stopped"
  | .transactionFailed .. => "transaction_processing_failed"
  | .runStarted .. => "rule_processing_started"
  | .runCompleted .. => "rule_run_completed"

/-- Who reports an event. -/
def reporter : Event → Reporter
  | .conditionMalformed .. => .conditions
  | .unknownAction .. | .actionFailed .. | .labelCreated .. => .actions
  | .notified .. | .receiverFailed => .notifications
  | _ => .engine

/-- How serious an event is. -/
def severity : Event → Severity
  | .conditionMalformed .. | .unknownAction .. | .receiverFailed => .warning
  | .actionFailed .. | .transactionFailed .. => .error
  | _ => .info

/-- The sentence for an event. -/
def text : Event → String
  | .conditionMalformed .. => "Condition could not be evaluated"
  | .unknownAction .. => "Unknown rule action type"
  | .actionFailed .. => "Rule action execution failed"
  | .labelCreated kind .. => "Rule engine created " ++ kind.word
  | .notified .. => "Rule triggered notification"
  | .receiverFailed => "Notification receiver failed"
  | .actionsSkipped .. => "Action failed with stop processing set, skipping remaining actions"
  | .transactionFailed .. => "Rule processing failed for transaction"
  | .runStarted .. => "Starting rule processing"
  | .runCompleted .. => "Rule processing run completed"

/-- What is told about an event beside its kind. -/
def details : Event → List (String × Json)
  | .conditionMalformed condition transaction =>
    [("condition_id", .ofId? condition), ("transaction_id", .ofId? transaction)]
  | .unknownAction kind transaction =>
    [("action_type", kind), ("transaction_id", .ofId? transaction)]
  | .actionFailed kind value rule transaction =>
    [("action_type", .text (Vocabulary.code kind)), ("action_value", value),
      ("rule_id", .ofId? rule), ("transaction_id", .ofId? transaction)]
  | .labelCreated _ id name user =>
    [("entity_id", .int id), ("entity_name", .text name), ("user_id", .int user)]
  | .notified rule transaction message =>
    [("rule_id", .ofId? rule), ("transaction_id", .ofId? transaction),
      ("notification_message", .text message)]
  | .receiverFailed => []
  | .actionsSkipped rule transaction kind =>
    [("rule_id", rule), ("transaction_id", .ofId? transaction), ("action_type", .text kind)]
  | .transactionFailed user rules transaction dryRun =>
    [("user_id", .int user), ("rule_ids", .list rules), ("transaction_id", .ofId? transaction),
      ("dry_run", .bool dryRun)]
  | .runStarted user rules start finish transactions dryRun =>
    [("user_id", .int user), ("rule_ids", .list rules),
      ("start_date", .ofText? (start.map Calendar.Date.text)),
      ("end_date", .ofText? (finish.map Calendar.Date.text)),
      ("transaction_count", .int transactions), ("dry_run", .bool dryRun)]
  | .runCompleted user trigger dryRun processed matched failed =>
    [("user_id", .int user), ("trigger_type", .text trigger), ("dry_run", .bool dryRun),
      ("total_processed", .int processed), ("total_matched", .int matched),
      ("total_failed", .int failed)]

/-- The entry for an event. -/
def record (e : Event) : Record where
  reporter := e.reporter
  severity := e.severity
  text := e.text
  details := ("event_type", .text e.word) :: e.details

end Event

end Rulebook
