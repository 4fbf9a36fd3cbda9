import Rulebook.Definition.Rule
import Rulebook.Ledger.Column
import Rulebook.Ledger.Store

/-!
# Stored rules

The rule that the rows of the store describe, and which rules of a user take part in a run.

Only active rules of active groups take part.  They are run in the order of their groups, and within
a group in their own order; where two numbers agree, the older row comes first.

## Main definitions

* `Store.groupsOf`, `Store.conditionsOf`, `Store.actionsOf` — the parts of a rule in order.
* `RuleDefinition.ofRow` — the rule that the rows describe.
* `Store.candidates` — the rules of a user that take part in runs.
-/

namespace Rulebook

/-- Rows in the order of a key; rows with the same key stay in their order. -/
def inOrder {α : Type} (key : Id × α → List Int) (rows : List (Id × α)) : List (Id × α) :=
  rows.mergeSort fun a b => !(key b).lex (key a)

namespace Store

/-- The groups of conditions of a rule, in order. -/
def groupsOf (s : Store) (rule : Id) : List (Id × ConditionGroupRow) :=
  inOrder (fun (id, g) => [g.order, id]) (s.conditionGroups.filter fun _ g => g.rule = rule)

/-- The conditions of a group, in order. -/
def conditionsOf (s : Store) (group : Id) : List (Id × ConditionRow) :=
  inOrder (fun (id, c) => [c.order, id]) (s.conditions.filter fun _ c => c.group = group)

/-- The actions of a rule, in order. -/
def actionsOf (s : Store) (rule : Id) : List (Id × ActionRow) :=
  inOrder (fun (id, a) => [a.order, id]) (s.actions.filter fun _ a => a.rule = rule)

/-- The rules of a group, in order. -/
def rulesIn (s : Store) (group : Id) : List (Id × Rule) :=
  inOrder (fun (id, r) => [r.order, id]) (s.rules.filter fun _ r => r.group = group)

/-- The groups of rules of a user, in order. -/
def ruleGroupsOf (s : Store) (user : Id) : List (Id × Group) :=
  inOrder (fun (id, g) => [g.order, id]) (s.groups.filter fun _ g => g.user = user)

/-- Whether a rule takes part in the runs of a user. -/
def takesPart (s : Store) (user : Id) (r : Rule) : Bool :=
  r.user = user && r.isActive && (s.groups.find? r.group).any (·.isActive)

/-- The rules that take part in the runs of a user, in order. -/
def candidates (s : Store) (user : Id) : List (Id × Rule) :=
  let groupOrder (r : Rule) : Int := ((s.groups.find? r.group).map (·.order)).getD 0
  inOrder (fun (id, r) => [groupOrder r, r.group, r.order, id])
    (s.rules.filter fun _ r => s.takesPart user r)

end Store

/-- The condition that a row describes. -/
def Condition.ofRow (id : Id) (c : ConditionRow) : Condition where
  id := some id
  field := .text c.field
  operator := .text c.operator
  value := .text c.value
  isCaseSensitive := .bool c.isCaseSensitive
  isNegated := .bool c.isNegated
  order := .int c.order

/-- The action that a row describes. -/
def Action.ofRow (id : Id) (a : ActionRow) : Action where
  id := some id
  rule := some a.rule
  kind := .text a.kind
  value := .ofText? a.value
  order := .int a.order
  stopProcessing := .bool a.stopProcessing

/-- The group that the rows describe. -/
def ConditionGroup.ofRow (s : Store) (id : Id) (g : ConditionGroupRow) : ConditionGroup where
  connective := .text g.connective
  conditions := (s.conditionsOf id).map fun (id, c) => .ofRow id c

/-- The rule that the rows describe. -/
def RuleDefinition.ofRow (s : Store) (id : Id) (r : Rule) : RuleDefinition where
  id := .int id
  name := .text r.name
  trigger := .text r.trigger
  stopProcessing := .bool r.stopProcessing
  groups := (s.groupsOf id).map fun (id, g) => .ofRow s id g
  actions := (s.actionsOf id).map fun (id, a) => .ofRow id a

namespace Store

/-- The rules of a user that a trigger starts. -/
def rulesForTrigger (s : Store) (user : Id) (trigger : Trigger) : List RuleDefinition :=
  ((s.candidates user).filter fun (_, r) => r.trigger = Vocabulary.code trigger).map
    fun (id, r) => .ofRow s id r

/-- The rules of a user with the given numbers. -/
def rulesWithIds (s : Store) (user : Id) (ids : List Id) : List RuleDefinition :=
  ((s.candidates user).filter fun (id, _) => ids.contains id).map fun (id, r) => .ofRow s id r

/-- The transactions of a user that satisfy a test, by date. -/
def transactionsInOrder (s : Store) (user : Id) (test : Id → Transaction → Bool) :
    List (Id × Transaction) :=
  inOrder (fun (id, t) => [(t.bookedDate.key : Int), id])
    ((s.transactionsOf user).filter fun (id, t) => test id t)

end Store

end Rulebook
