import Rulebook.Action.Value
import Rulebook.Condition.Evaluation
import Rulebook.Json.Access

/-!
# Definitions of rules

A rule as the engine runs it: groups of conditions, and actions.  It comes from a stored rule or
from a payload that describes a rule which is not stored, so that previews and runs follow the same
path.

## Main definitions

* `ConditionGroup`, `RuleDefinition` — the rule.
* `RuleDefinition.ofPayload` — the rule that a payload describes.
-/

namespace Rulebook

/-- Conditions that are combined by one connective. -/
structure ConditionGroup where
  connective : Json
  conditions : List Condition
deriving Repr

namespace ConditionGroup

/-- Whether all conditions must match; any other word than that of "all" asks for one of them. -/
def wantsAll (g : ConditionGroup) : Bool :=
  match g.connective with
  | .text s => s == Vocabulary.code Connective.all
  | _ => false

end ConditionGroup

/-- A rule as the engine runs it.  For a stored rule the number is that of its row. -/
structure RuleDefinition where
  id : Json
  name : Json
  trigger : Json
  stopProcessing : Json
  groups : List ConditionGroup
  actions : List Action
deriving Repr

variable [Host]

/-- The condition that a payload describes. -/
def Condition.ofPayload (place : Nat) (payload : Json) : Except Failure Condition := do
  let field ← payload.require "field"
  let operator ← payload.require "operator"
  let value ← expectedText (← payload.findOr "value" .null)
  let isCaseSensitive ← payload.findOr "is_case_sensitive" (.bool false)
  let isNegated ← payload.findOr "is_negated" (.bool false)
  return { id := none, field, operator, value := .text value, isCaseSensitive, isNegated,
           order := .int place }

/-- The results for each entry with its place, in order. -/
def mapPlaces {α β : Type} (f : Nat → α → Except Failure β) :
    Nat → List α → Except Failure (List β)
  | _, [] => .ok []
  | n, a :: rest => do return (← f n a) :: (← mapPlaces f (n + 1) rest)

/-- The group that a payload describes. -/
def ConditionGroup.ofPayload (payload : Json) : Except Failure ConditionGroup := do
  let conditions ← (← payload.findOr "conditions" (.list [])).entries
  let conditions ← mapPlaces Condition.ofPayload 0 conditions
  let connective ← payload.findOr "logic_operator" (.text (Vocabulary.code Connective.all))
  return { connective, conditions }

/-- The action that a payload describes. -/
def Action.ofPayload (place : Nat) (payload : Json) : Except Failure Action := do
  let kind ← payload.require "action_type"
  let stopProcessing ← payload.findOr "stop_processing" (.bool false)
  let action : Action :=
    { id := none, rule := none, kind, value := .null, order := .int place, stopProcessing }
  action.setValue (← payload.findOr "value" .null)

/-- The rule that a payload describes.  Groups are taken in the order of their numbers. -/
def RuleDefinition.ofPayload (payload : Json) : Except Failure RuleDefinition := do
  let groups ← (← payload.findOr "condition_groups" (.list [])).entries
  let keyed ← groups.mapM fun group => return (← group.findOr "order" (.int 0), group)
  let groups ← (← Json.sortByKey keyed).mapM ConditionGroup.ofPayload
  let actions ← (← payload.findOr "actions" (.list [])).entries
  let actions ← mapPlaces Action.ofPayload 0 actions
  return {
    id := ← payload.findOr "id" .null
    name := ← payload.findOr "name" (.text "Test Rule")
    trigger := ← payload.findOr "trigger_type" (.text (Vocabulary.code Trigger.manual))
    stopProcessing := ← payload.findOr "stop_processing" (.bool false)
    groups, actions }

/-! ## As JSON -/

/-- The value of an action as JSON. -/
def ActionValue.toJson (v : ActionValue) : Json :=
  .object [("kind", .text v.kind), ("value", .text v.encode)]

/-- A condition as JSON. -/
def Condition.toJson (c : Condition) : Json :=
  .object
    [("field", c.field), ("operator", c.operator), ("value", c.value),
      ("is_case_sensitive", c.isCaseSensitive), ("is_negated", c.isNegated), ("order", c.order)]

/-- An action as JSON. -/
def Action.toJson (a : Action) : Except Failure Json := do
  let typed ← a.typedValue
  return .object
    [("action_type", a.kind), ("value", a.value), ("typed", .ofOption ActionValue.toJson typed),
      ("order", a.order), ("stop_processing", a.stopProcessing)]

/-- A group as JSON. -/
def ConditionGroup.toJson (g : ConditionGroup) : Json :=
  .object
    [("logic_operator", g.connective), ("is_and_logic", .bool g.wantsAll),
      ("conditions", .list (g.conditions.map Condition.toJson))]

/-- A rule as JSON. -/
def RuleDefinition.toJson (r : RuleDefinition) : Except Failure Json := do
  let actions ← r.actions.mapM Action.toJson
  return .object
    [("id", r.id), ("name", r.name), ("trigger_type", r.trigger),
      ("stop_processing", r.stopProcessing),
      ("condition_groups", .list (r.groups.map ConditionGroup.toJson)), ("actions", .list actions)]

end Rulebook
