import Rulebook.Engine.Matching
import Rulebook.Engine.Selection

/-!
# Rows as JSON

How rows and transactions in memory are shown.  Showing a transaction looks up the rows that it
references, like any other use of them.

## Main definitions

* `userJson`, `accountJson`, `labelJson`, `groupJson`, `logJson` — rows without parts.
* `Store.ruleJson` — a rule with its groups, conditions and actions.
* `showTransaction` — a transaction in memory.
* `rowText` — a row as a short text.
-/

namespace Rulebook

open Rulebook.Calendar Rulebook.Number

variable [Host]

/-- An instant as JSON. -/
def Json.ofInstant (t : Instant) : Json := .text t.text

/-- A user as JSON. -/
def userJson (id : Id) (u : User) : Json :=
  .object
    [("id", .int id), ("name", .text u.name), ("email", .text u.email),
      ("is_active", .bool u.isActive)]

/-- An account as JSON; it has no description. -/
def accountJson (id : Id) (a : Account) : Json :=
  .object
    [("id", .int id), ("user", .int a.user), ("name", .text a.name), ("description", .null)]

/-- A label as JSON. -/
def labelJson (id : Id) (l : Label) : Json :=
  .object
    [("id", .int id), ("user", .int l.user), ("name", .text l.name),
      ("description", .text l.description)]

/-- A group of rules as JSON. -/
def groupJson (id : Id) (g : Group) : Json :=
  .object
    [("id", .int id), ("user", .int g.user), ("name", .text g.name),
      ("description", .text g.description), ("order", .int g.order),
      ("is_active", .bool g.isActive), ("updated_at", .ofInstant g.updatedAt)]

/-- An execution log as JSON. -/
def logJson (id : Id) (l : Log) : Json :=
  .object
    [("id", .int id), ("rule", .int l.rule), ("transaction", .int l.transaction),
      ("matched", .bool l.matched), ("actions_executed", l.actions),
      ("execution_context", l.context), ("created_at", .ofInstant l.createdAt)]

/-- A value with the number of its row in front. -/
def withId (id : Id) : Json → Json
  | .object members => .object (("id", .int id) :: members)
  | j => j

namespace Store

/-- A stored group of conditions as JSON. -/
def conditionGroupJson (s : Store) (id : Id) (g : ConditionGroupRow) : Json :=
  .object
    [("id", .int id), ("logic_operator", .text g.connective),
      ("is_and_logic", .bool (ConditionGroup.ofRow s id g).wantsAll), ("order", .int g.order),
      ("conditions",
        .list ((s.conditionsOf id).map fun (id, c) => withId id (Condition.ofRow id c).toJson))]

/-- A stored rule as JSON. -/
def ruleJson (s : Store) (id : Id) (r : Rule) : Except Failure Json := do
  let actions ← (s.actionsOf id).mapM fun (id, a) => return withId id (← (Action.ofRow id a).toJson)
  return .object
    [("id", .int id), ("user", .int r.user), ("group", .int r.group), ("name", .text r.name),
      ("description", .text r.description), ("trigger_type", .text r.trigger),
      ("order", .int r.order), ("is_active", .bool r.isActive),
      ("stop_processing", .bool r.stopProcessing), ("created_at", .ofInstant r.createdAt),
      ("updated_at", .ofInstant r.updatedAt),
      ("condition_groups",
        .list ((s.groupsOf id).map fun (id, g) => s.conditionGroupJson id g)),
      ("actions", .list actions)]

/-- The tags of a transaction as JSON. -/
def tagsJson (s : Store) (id : Option Id) : Json :=
  match id with
  | none => .list []
  | some id => .list ((s.tagsOf id).map fun (id, l) => .list [.int id, .text l.name])

end Store

/-- The number and the name of a label that a transaction references, or null. -/
def labelReference (role : LabelRole) (h : Handle) : Operation Json := do
  let reference := role.get (← transaction h)
  if reference.isSet then
    let name := ((← labelOf role h).map (·.name)).getD ""
    return .list [.ofId? reference.id, .text name]
  else return .null

/-- A transaction in memory as JSON. -/
def showTransaction (h : Handle) : Operation Json := do
  let owner ← ownerOf h
  let category ← labelReference .category h
  let merchant ← labelReference .merchant h
  let t ← transaction h
  return .object
    [("id", .ofId? t.id), ("account", .ofId? t.account.id), ("owner", .ofId? owner),
      ("amount", .text t.amount.text), ("currency", .text t.currency),
      ("booked_date", .text t.bookedDate.text), ("description", .ofText? t.description),
      ("partner", .ofText? t.partner), ("type", .ofText? t.type), ("note", .ofText? t.note),
      ("recipient_note", .ofText? t.recipientNote), ("place", .ofText? t.place),
      ("target_iban", .ofText? t.targetIban), ("source_iban", .ofText? t.sourceIban),
      ("category", category), ("merchant", merchant),
      ("tags", (← get).store.tagsJson t.id), ("is_reconciled", .bool t.isReconciled),
      ("reconciled_at", .ofOption .ofInstant t.reconciledAt),
      ("updated_at", .ofOption .ofInstant t.updatedAt)]

/-- All rows of a table as JSON, by number. -/
def tableJson {α : Type} (view : Id → α → Json) (t : Table α) : Json :=
  .list (t.rows.map fun (id, a) => view id a)

/-- All stored transactions as JSON, by number. -/
def transactionsJson : Operation Json := do
  let rows := (← get).store.transactions.rows
  return .list (← rows.mapM fun (id, t) => do showTransaction (← hold (.ofRow id t)))

/-- All stored rules as JSON, by number. -/
def rulesJson : Operation Json := do
  let s := (← get).store
  return .list (← s.rules.rows.mapM fun (id, r) => .ofExcept (s.ruleJson id r))

/-- The rows of a table with a name as JSON. -/
def dumpTable (name : String) : Operation Json := do
  let s := (← get).store
  match name with
  | "users" => return tableJson userJson s.users
  | "accounts" => return tableJson accountJson s.accounts
  | "categories" => return tableJson labelJson s.categories
  | "merchants" => return tableJson labelJson s.merchants
  | "tags" => return tableJson labelJson s.tags
  | "transactions" => transactionsJson
  | "groups" => return tableJson groupJson s.groups
  | "rules" => rulesJson
  | "logs" => return tableJson logJson s.logs
  | _ => throw (.missingMember name)

/-- A row as a short text. -/
def rowText (e : Entity) (id : Id) : Operation String := do
  match e with
  | .user => return (← row e Store.users id).name ++ " <" ++ (← row e Store.users id).email ++ ">"
  | .account => return (← row e Store.accounts id).name
  | .category => return (← row e Store.categories id).name
  | .merchant => return (← row e Store.merchants id).name
  | .tag => return (← row e Store.tags id).name
  | .transaction =>
    let t ← row e Store.transactions id
    return "Transaction " ++ toString id ++ " - " ++ amountText t.amount ++ " " ++ t.currency
  | .transactionTag =>
    let l ← row e Store.links id
    return "Tag " ++ toString l.tag ++ " on Transaction " ++ toString l.transaction
  | .group => return (← row e Store.groups id).name
  | .rule =>
    let r ← row e Store.rules id
    return r.name ++ " (" ++ r.trigger ++ ")"
  | .conditionGroup =>
    let g ← row e Store.conditionGroups id
    return "Condition group " ++ toString id ++ " (" ++ g.connective ++ ") of rule "
      ++ toString g.rule
  | .condition => return (Condition.ofRow id (← row e Store.conditions id)).text
  | .action => return (Action.ofRow id (← row e Store.actions id)).text
  | .log =>
    let l ← row e Store.logs id
    return "Rule " ++ toString l.rule ++ " on Transaction " ++ toString l.transaction ++ ": "
      ++ (if l.matched then "matched" else "not matched")

end Rulebook
