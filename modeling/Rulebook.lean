import Rulebook.Engine.View
import Rulebook.Exchange.Samples
import Rulebook.Main
import Rulebook.Service.Rows
import Rulebook.Proofs.Program
import Rulebook.Proofs.Ledger.Table
import Rulebook.Proofs.Ledger.Footprint
import Rulebook.Proofs.Engine.Looking
import Rulebook.Proofs.Engine.Working
import Rulebook.Proofs.Engine.EntryPoint
import Rulebook.Proofs.Engine.AuditTrail
import Rulebook.Proofs.Engine.Alike
import Rulebook.Proofs.Engine.Parallel
import Rulebook.Proofs.Engine.Isolation
import Rulebook.Proofs.Engine.DryRun
import Rulebook.Proofs.Engine.Direct
import Rulebook.Proofs.Engine.CacheFree
import Rulebook.Proofs.Engine.Shown
import Rulebook.Proofs.Engine.Shadowing
import Rulebook.Proofs.Engine.Caching
import Rulebook.Proofs.Engine.Attempts
import Rulebook.Proofs.Engine.Edits
import Rulebook.Proofs.Engine.Turns
import Rulebook.Proofs.Service.Saving
import Rulebook.Proofs.Engine.Account
import Rulebook.Proofs.Engine.FullAccount
import Rulebook.Proofs.Engine.Sight
import Rulebook.Proofs.Definition.Reading
import Rulebook.Proofs.Engine.Rehearsal
import Rulebook.Proofs.Exchange.Export
import Rulebook.Proofs.Service.Creation
import Rulebook.Proofs.Service.Preview
import Rulebook.Proofs.Engine.Rereading
import Rulebook.Proofs.Json.Reader
import Rulebook.Proofs.Definition.Settling
import Rulebook.Proofs.Engine.Boundary
import Rulebook.Proofs.Engine.Discretion
import Rulebook.Proofs.Service.Scope
import Rulebook.Proofs.Service.Persisting
import Rulebook.Proofs.Service.DateRange
import Rulebook.Proofs.Engine.Verdict
import Rulebook.Proofs.Engine.Foresight
import Rulebook.Proofs.Exchange.Recheck
import Rulebook.Proofs.Ledger.Closure
import Rulebook.Proofs.Service.Storing
import Rulebook.Proofs.Engine.Renumbering
import Rulebook.Proofs.Engine.Abreast
import Rulebook.Proofs.Engine.AbreastTurns
import Rulebook.Proofs.Engine.Order
import Rulebook.Proofs.Ledger.RuleTree
import Rulebook.Proofs.Service.Blueprint
import Rulebook.Proofs.Exchange.Importing
import Rulebook.Proofs.Exchange.Replacement
import Rulebook.Proofs.Exchange.Interruption
import Rulebook.Proofs.Json.RoundTrip
import Rulebook.Proofs.Exchange.Description
import Rulebook.Proofs.Exchange.Transfer
import Rulebook.Proofs.Engine.Evaluating
import Rulebook.Proofs.Ledger.Cascade
import Rulebook.Proofs.Ledger.Change
import Rulebook.Proofs.Engine.Committing
import Rulebook.Proofs.Service.Committing
import Rulebook.Proofs.Service.Consistency
import Rulebook.Proofs.Exchange.Retention
import Rulebook.Proofs.Exchange.Repetition
import Rulebook.Proofs.Pattern.Glob
import Rulebook.Proofs.Pattern.Delimited
import Rulebook.Proofs.Text.Plain
import Rulebook.Proofs.Number.Decimal
import Rulebook.Proofs.Calendar.Reading
import Rulebook.Proofs.Condition.Membership
import Rulebook.Proofs.Condition.CaseRules
import Rulebook.Proofs.Condition.Ordering
import Rulebook.Proofs.Condition.IgnoringCase
import Rulebook.Proofs.Definition.Grammar
import Rulebook.Proofs.Definition.Overlooking
import Rulebook.Proofs.Definition.Encoding
import Rulebook.Proofs.Definition.Precheck
import Rulebook.Proofs.Engine.Standalone
import Rulebook.Proofs.Engine.Assigning
import Rulebook.Proofs.Engine.Offering
import Rulebook.Proofs.Engine.Carrying
import Rulebook.Proofs.Engine.Repeating
import Rulebook.Proofs.Engine.Formula
import Rulebook.Proofs.Service.Revising
import Rulebook.Proofs.Service.Copying
import Rulebook.Proofs.Exchange.Listing
import Rulebook.Proofs.Service.Reordering
import Rulebook.Proofs.Engine.Receiving
import Rulebook.Proofs.Engine.Notifying
import Rulebook.Proofs.Service.Trial
import Rulebook.Proofs.Command.Previewing
import Rulebook.Proofs.Command.Sampling
import Rulebook.Proofs.Command.Refusing
