import Rulebook.Engine.Workspace
import Rulebook.Json.Access

/-!
# Settings

The switches of the engine, with the values that hold where nothing else is set.

## Main definitions

* `Setting` — the switches.
* `setting` — the value that is set.
* `Workspace.initial` — the workspace at first.
-/

namespace Rulebook

/-- A switch of the engine. -/
inductive Setting where
  /-- Whether runs write execution logs. -/
  | executionLogging
  /-- How many transactions a run over a range reads at a time. -/
  | batchSize
  /-- How many transactions a preview looks at. -/
  | previewLimit
  /-- How many days statistics look back. -/
  | statisticsDays
deriving DecidableEq, Repr

namespace Setting

/-- The name of a switch. -/
def name : Setting → String
  | .executionLogging => "EXECUTION_LOGGING"
  | .batchSize => "BATCH_SIZE"
  | .previewLimit => "TEST_RULE_MAX_TRANSACTIONS"
  | .statisticsDays => "STATISTICS_DAYS"

/-- The value of a switch that is not set. -/
def standard : Setting → Json
  | .executionLogging => .bool true
  | .batchSize => .int 100
  | .previewLimit => .int 10
  | .statisticsDays => .int 30

end Setting

/-- All switches as they stand at first. -/
def standardSettings : Json :=
  .object ([.executionLogging, .batchSize, .previewLimit, .statisticsDays].map fun (s : Setting) =>
    (s.name, s.standard))

/-- The instant at which time starts. -/
def startInstant : Calendar.Instant := .ofDate ⟨2024, 6, 1⟩ 12 0 0

/-- The workspace at first: nothing stored, and the switches as they stand. -/
def Workspace.initial : Workspace := { now := startInstant, settings := standardSettings }

/-- The value of a switch. -/
def setting (s : Setting) : Operation Json := do
  .ofExcept ((← get).settings.findOr s.name s.standard)

end Rulebook
