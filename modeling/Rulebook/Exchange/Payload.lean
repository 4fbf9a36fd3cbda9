import Rulebook.Engine.Selection
import Rulebook.Engine.Workspace
import Rulebook.Json.Writer

/-!
# Rules as payloads

The payload of a stored rule describes it in the form in which definitions are given, so that it can
be checked, previewed and created again.  An export is the payloads of all rules of a user, group by
group, as a text.

## Main definitions

* `Store.payloadOf` — the payload of a stored rule.
* `Store.exportOf`, `exportRules` — the export of a user.
-/

namespace Rulebook

/-- The payload of a stored condition. -/
def ConditionRow.payload (c : ConditionRow) : Json :=
  .object
    [("field", .text c.field), ("operator", .text c.operator), ("value", .text c.value),
      ("is_case_sensitive", .bool c.isCaseSensitive), ("is_negated", .bool c.isNegated)]

/-- The payload of a stored action. -/
def ActionRow.payload (a : ActionRow) : Json :=
  .object
    [("action_type", .text a.kind), ("value", .ofText? a.value),
      ("stop_processing", .bool a.stopProcessing)]

namespace Store

/-- The payload of a stored group of conditions. -/
def groupPayload (s : Store) (id : Id) (g : ConditionGroupRow) : Json :=
  .object
    [("logic_operator", .text g.connective), ("order", .int g.order),
      ("conditions", .list ((s.conditionsOf id).map fun (_, c) => c.payload))]

/-- The payload of a stored rule. -/
def payloadOf (s : Store) (id : Id) (r : Rule) : Json :=
  .object
    [("name", .text r.name), ("description", .text r.description),
      ("trigger_type", .text r.trigger), ("order", .int r.order), ("is_active", .bool r.isActive),
      ("stop_processing", .bool r.stopProcessing),
      ("condition_groups", .list ((s.groupsOf id).map fun (id, g) => s.groupPayload id g)),
      ("actions", .list ((s.actionsOf id).map fun (_, a) => a.payload))]

/-- A group of rules with the payloads of its rules. -/
def exportGroup (s : Store) (id : Id) (g : Group) : Json :=
  .object
    [("name", .text g.name), ("description", .text g.description), ("order", .int g.order),
      ("is_active", .bool g.isActive),
      ("rules", .list ((s.rulesIn id).map fun (id, r) => s.payloadOf id r))]

/-- All groups of a user with the payloads of their rules. -/
def exportOf (s : Store) (user : Id) (u : User) : Json :=
  .object
    [("user_email", .text u.email),
      ("rule_groups", .list ((s.ruleGroupsOf user).map fun (id, g) => s.exportGroup id g))]

end Store

/-- The payload of a stored rule. -/
def rulePayload (rule : Id) : Operation Json := do
  let r ← row .rule Store.rules rule
  return (← get).store.payloadOf rule r

/-- The export of a user as a text. -/
def exportRules (user : Id) : Operation String := do
  let u ← row .user Store.users user
  return ((← get).store.exportOf user u).pretty

end Rulebook
