import Rulebook.Calendar.Span
import Rulebook.Definition.Validity
import Rulebook.Engine.Selection
import Rulebook.Engine.Settings
import Rulebook.Ledger.Deletion

/-!
# Managing rules

Creating, replacing, copying and ordering stored rules.  A definition is checked before anything is
written, and whatever a single call writes is one change.

Values are converted before empty or oversized columns are refused, column by column.

## Main definitions

* `addRuleGroup`, `setGroupActive` — groups of rules.
* `createRule`, `updateRule`, `duplicateRule` — rules with all their parts.
* `reorderRules` — the order of rules.
* `ruleStatistics` — what the execution logs say about a rule.
-/

namespace Rulebook

open Rulebook.Calendar

variable [Host]

/-! ## Rows -/

/-- Adds a group of rules. -/
def addGroup (g : Group) : Operation Id :=
  insertRow Store.groups (fun s t => { s with groups := t }) g

/-- A group of rules from the values of its columns. -/
def groupFromColumns (user : Id) (name description order isActive : Json) (now : Instant) :
    Except Failure Group := do
  let name ← Column.text name
  let description ← Column.text description
  let order ← Column.whole "order" order
  let isActive ← Column.truth isActive
  let order ← order.mapM Column.checkFits
  return {
    user
    name := ← Column.required name
    description := ← Column.required description
    order := ← Column.required order
    isActive := ← Column.required isActive
    updatedAt := now }

/-- Adds a group of rules for a user. -/
def addRuleGroup (user : Id) (name description order isActive : Json) : Operation Id := do
  addGroup (← .ofExcept (groupFromColumns user name description order isActive (← get).now))

/-- Switches a group of rules on or off. -/
def setGroupActive (group : Id) (isActive : Json) : Operation Unit := do
  let _ ← row .group Store.groups group
  let now := (← get).now
  let isActive ← .ofExcept (do Column.required (← Column.truth isActive))
  write fun s =>
    { s with groups := s.groups.update group fun g => { g with isActive, updatedAt := now } }

/-- Deletes rows with all that belongs to them. -/
def deleteRows (chosen : Doomed) : Operation Unit := write (·.delete chosen)

/-! ## The parts of a rule -/

/-- A group of conditions from the values of its columns. -/
def addConditionGroup (rule : Id) (connective order : Json) : Operation Id := do
  let g : ConditionGroupRow ← .ofExcept do
    let connective ← Column.text connective
    let order ← Column.whole "order" order
    let order ← order.mapM Column.checkFits
    return {
      rule
      connective := ← Column.required connective
      order := ← Column.required order }
  insertRow Store.conditionGroups (fun s t => { s with conditionGroups := t }) g

/-- Adds a condition. -/
def addCondition (group : Id) (c : Condition) : Operation Id := do
  let c : ConditionRow ← .ofExcept do
    let field ← Column.text c.field
    let operator ← Column.text c.operator
    let value ← Column.text c.value
    let isCaseSensitive ← Column.truth c.isCaseSensitive
    let isNegated ← Column.truth c.isNegated
    let order ← Column.whole "order" c.order
    let order ← order.mapM Column.checkFits
    return {
      group
      field := ← Column.required field
      operator := ← Column.required operator
      value := ← Column.required value
      isCaseSensitive := ← Column.required isCaseSensitive
      isNegated := ← Column.required isNegated
      order := ← Column.required order }
  insertRow Store.conditions (fun s t => { s with conditions := t }) c

/-- Adds an action, whose value is written anew. -/
def addAction (rule : Id) (a : Action) : Operation Id := do
  let a ← .ofExcept (a.setValue a.value)
  let a : ActionRow ← .ofExcept do
    let kind ← Column.text a.kind
    let value ← Column.text a.value
    let order ← Column.whole "order" a.order
    let stopProcessing ← Column.truth a.stopProcessing
    let order ← order.mapM Column.checkFits
    return {
      rule
      kind := ← Column.required kind
      value
      order := ← Column.required order
      stopProcessing := ← Column.required stopProcessing }
  insertRow Store.actions (fun s t => { s with actions := t }) a

/-- Carries an operation out for each entry with its place, in order. -/
def forPlaces {α : Type} (f : Nat → α → Operation Unit) : Nat → List α → Operation Unit
  | _, [] => return ()
  | n, a :: rest => do
    f n a
    forPlaces f (n + 1) rest

/-- Adds the group of conditions that a payload describes. -/
def writeConditionGroup (rule : Id) (place : Nat) (payload : Json) : Operation Unit := do
  let connective ←
    .ofExcept (payload.findOr "logic_operator" (.text (Vocabulary.code Connective.all)))
  let order ← .ofExcept (payload.findOr "order" (.int place))
  let group ← addConditionGroup rule connective order
  let conditions ← .ofExcept (do (← payload.findOr "conditions" (.list [])).entries)
  forPlaces (fun n payload => do
    let _ ← addCondition group (← .ofExcept (Condition.ofPayload n payload))) 0 conditions

/-- Adds the groups, conditions and actions that a definition describes. -/
def writeParts (rule : Id) (definition : Json) : Operation Unit := do
  let groups ← .ofExcept (do (← definition.findOr "condition_groups" (.list [])).entries)
  forPlaces (writeConditionGroup rule) 0 groups
  let actions ← .ofExcept (do (← definition.findOr "actions" (.list [])).entries)
  forPlaces (fun n payload => do
    let _ ← addAction rule (← .ofExcept (Action.ofPayload n payload))) 0 actions

/-! ## Rules -/

/-- The settings of a rule from the values of its columns. -/
def ruleFromColumns (user group : Id) (name description trigger order isActive stopProcessing : Json)
    (createdAt updatedAt : Instant) : Except Failure Rule := do
  let name ← Column.text name
  let description ← Column.text description
  let trigger ← Column.text trigger
  let order ← Column.whole "order" order
  let isActive ← Column.truth isActive
  let stopProcessing ← Column.truth stopProcessing
  let order ← order.mapM Column.checkFits
  return {
    user, group
    name := ← Column.required name
    description := ← Column.required description
    trigger := ← Column.required trigger
    order := ← Column.required order
    isActive := ← Column.required isActive
    stopProcessing := ← Column.required stopProcessing
    createdAt, updatedAt }

/-- Adds a rule. -/
def addRule (r : Rule) : Operation Id :=
  insertRow Store.rules (fun s t => { s with rules := t }) r

/-- The settings of a new rule that a definition describes. -/
def ruleOfDefinition (user group : Id) (definition : Json) (now : Instant) :
    Except Failure Rule := do
  ruleFromColumns user group (← definition.require "name")
    (← definition.findOr "description" (.text ""))
    (← definition.findOr "trigger_type" (.text (Vocabulary.code Trigger.transactionCreated)))
    (← definition.findOr "order" (.int 0)) (← definition.findOr "is_active" (.bool true))
    (← definition.findOr "stop_processing" (.bool false)) now now

/-- The settings of a rule with those that a definition gives. -/
def ruleWithDefinition (r : Rule) (definition : Json) (now : Instant) : Except Failure Rule := do
  ruleFromColumns r.user r.group (← definition.require "name")
    (← definition.findOr "description" (.text r.description))
    (← definition.findOr "trigger_type" (.text r.trigger))
    (← definition.findOr "order" (.int r.order)) (← definition.findOr "is_active" (.bool r.isActive))
    (← definition.findOr "stop_processing" (.bool r.stopProcessing)) r.createdAt now

/-- The name of the group for rules that name none. -/
def defaultGroupName : String := "Default"

/-- The group of a user with a name, of which there may be at most one; added if there is none. -/
def findOrAddGroup (user : Id) (name : Json) (new : Instant → Except Failure Group) :
    Operation Id := do
  let wanted ← .ofExcept (Column.text name)
  let same := (← get).store.groups.filter fun _ g => g.user = user && some g.name = wanted
  match same with
  | [(id, _)] => return id
  | [] => addGroup (← .ofExcept (new (← get).now))
  | several => throw (.severalRows .group several.length)

/-- The failure for a group that a definition names but its user does not have. -/
def groupNotFound (reference : Json) : Failure :=
  .showing reference .message
    (.definition ("Rule group " ++ reference.display ++ " not found") ["rule_group_id"])

/-- The group that a definition names, or the default group of its user. -/
def resolveGroup (user : Id) (reference : Json) : Operation Id := do
  if reference.isNull then
    findOrAddGroup user (.text defaultGroupName) fun now =>
      groupFromColumns user (.text defaultGroupName) (.text "") (.int 0) (.bool true) now
  else
    match ← .ofExcept (Column.reference "id" reference) with
    | none => throw (groupNotFound reference)
    | some id =>
      match (← get).store.groups.find? id with
      | some g => if g.user = user then return id else throw (groupNotFound reference)
      | none => throw (groupNotFound reference)

/-- Deletes the rules of a user in a group that have a name. -/
def deleteNamedRules (user group : Id) (name : String) : Operation Unit := do
  let same := (← get).store.rules.filter fun _ r =>
    r.user = user && r.group = group && r.name = name
  deleteRows { rules := same.map (·.1) }

/-- Creates the rule that a definition describes, in a given group or in the one that the definition
names, perhaps in place of the rules of the same name. -/
def createRule (user : Id) (definition : Json) (group : Option Id) (replace : Bool) :
    Operation Id := atomically do
  .ofExcept (checkDefinition definition)
  let group ← match group with
    | some group => pure group
    | none => resolveGroup user (← .ofExcept (definition.findOr "rule_group_id" .null))
  if replace then
    deleteNamedRules user group (← .ofExcept (do (← definition.require "name").plain .message))
  let rule ← addRule (← .ofExcept (ruleOfDefinition user group definition (← get).now))
  writeParts rule definition
  return rule

/-- The parts of a rule. -/
def Store.partsOf (s : Store) (rule : Id) : Doomed where
  conditionGroups := (s.conditionGroups.filter fun _ g => g.rule = rule).map (·.1)
  actions := (s.actions.filter fun _ a => a.rule = rule).map (·.1)

/-- Gives a rule the settings and parts that a definition describes; settings that the definition
does not give stay. -/
def updateRule (rule : Id) (definition : Json) : Operation Unit := do
  let stored ← row .rule Store.rules rule
  atomically do
    .ofExcept (checkDefinition definition)
    let changed ← .ofExcept (ruleWithDefinition stored definition (← get).now)
    write fun s => { s with rules := s.rules.update rule fun _ => changed }
    deleteRows ((← get).store.partsOf rule)
    writeParts rule definition

/-- Copies the conditions of a group. -/
def copyConditions (group : Id) (conditions : List (Id × ConditionRow)) : Operation Unit :=
  conditions.forM fun (id, c) => do
    let _ ← addCondition group (.ofRow id c)

/-- The name of a copy: the given one, or that of the rule with a mark. -/
def Rule.copyName (r : Rule) (name : Json) : Except Failure String :=
  if name.isTruthy then name.plain .message else .ok (r.name ++ " (Copy)")

/-- Copies a rule with all its parts into its group. -/
def duplicateRule (rule : Id) (name : Json) : Operation Id := do
  let r ← row .rule Store.rules rule
  atomically do
    let s := (← get).store
    let now := (← get).now
    let name ← .ofExcept (r.copyName name)
    let copy ← addRule { r with name, createdAt := now, updatedAt := now }
    (s.groupsOf rule).forM fun (id, g) => do
      let group ← addConditionGroup copy (.text g.connective) (.int g.order)
      copyConditions group (s.conditionsOf id)
    (s.actionsOf rule).forM fun (id, a) => do
      let _ ← addAction copy (.ofRow id a)
    return copy

/-- Gives each rule its place in a list of numbers as its order. -/
def reorderRules (ids : Json) : Operation Unit := atomically do
  let ids ← .ofExcept ids.entries
  forPlaces (fun place entry => do
    match ← .ofExcept (Column.reference "id" entry) with
    | some id =>
      write fun s => { s with rules := s.rules.update id fun r => { r with order := place } }
    | none => return ()) 0 ids

/-! ## Statistics -/

/-- What the execution logs say about a rule. -/
structure RuleStatistics where
  executions : Nat
  matched : Nat
  lastMatched : Option Instant
  lastExecuted : Option Instant
deriving Repr

namespace RuleStatistics

/-- The latest time of some logs. -/
def latest (logs : List Log) : Option Instant :=
  logs.foldl (fun best l => match best with
    | some t => if t.le l.createdAt then some l.createdAt else some t
    | none => some l.createdAt) none

/-- The statistics of some logs. -/
def ofLogs (logs : List Log) : RuleStatistics :=
  let matching := logs.filter (·.matched)
  { executions := logs.length
    matched := matching.length
    lastMatched := latest matching
    lastExecuted := latest logs }

/-- The share of matches in percent, to two places; nought without logs. -/
def rateText (s : RuleStatistics) : String :=
  if s.executions = 0 then "0"
  else
    let share := Number.Binary64.ofRatio false s.matched s.executions
    ((share.mul (.ofInt 100)).roundPlaces 2).text

/-- Statistics as JSON. -/
def toJson (s : RuleStatistics) : Json :=
  .object
    [("total_executions", .int s.executions), ("total_matches", .int s.matched),
      ("match_rate", .text s.rateText),
      ("last_matched", .ofOption (fun t => .text t.text) s.lastMatched),
      ("last_executed", .ofOption (fun t => .text t.text) s.lastExecuted)]

end RuleStatistics

/-- What the execution logs of the last days say about a rule. -/
def ruleStatistics (rule : Id) (days : Json) : Operation RuleStatistics := do
  let _ ← row .rule Store.rules rule
  let days ← if days.isNull then setting .statisticsDays else pure days
  let span ← .ofExcept (spanOf dayMicroseconds days)
  let since ← .ofExcept ((← get).now.after (-span))
  let logs := (← get).store.logs.filter fun _ l => l.rule = rule && since.le l.createdAt
  return .ofLogs (logs.map (·.2))

end Rulebook
