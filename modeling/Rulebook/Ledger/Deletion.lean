import Rulebook.Ledger.Store

/-!
# Deletion

Deleting a row deletes all rows that belong to it: what a user owns, the transactions of an account,
the tags and logs of a transaction, the rules of a group, and the conditions, actions and logs of a
rule.  A transaction only loses its reference to a deleted category or merchant, and a category its
reference to a deleted category above it.

What a row belongs to is in another table, and between tables belonging runs in one direction, so
the rows to delete are found table by table.  The one reference within a table, from a category to
the one above it, is lost and not followed.

## Main definitions

* `Doomed` — the rows to delete, table by table; `Store.doomed` finds them.
* `Store.delete` — the store without them, and how many rows of each kind are gone.
-/

namespace Rulebook

/-- The numbers of the rows to delete. -/
structure Doomed where
  users : List Id := []
  accounts : List Id := []
  categories : List Id := []
  merchants : List Id := []
  tags : List Id := []
  transactions : List Id := []
  links : List Id := []
  groups : List Id := []
  rules : List Id := []
  conditionGroups : List Id := []
  conditions : List Id := []
  actions : List Id := []
  logs : List Id := []
deriving Repr

namespace Doomed

/-- One row of a kind. -/
def row (e : Entity) (id : Id) : Doomed :=
  match e with
  | .user => { users := [id] }
  | .account => { accounts := [id] }
  | .category => { categories := [id] }
  | .merchant => { merchants := [id] }
  | .tag => { tags := [id] }
  | .transaction => { transactions := [id] }
  | .transactionTag => { links := [id] }
  | .group => { groups := [id] }
  | .rule => { rules := [id] }
  | .conditionGroup => { conditionGroups := [id] }
  | .condition => { conditions := [id] }
  | .action => { actions := [id] }
  | .log => { logs := [id] }

end Doomed

namespace Store

/-- The numbers of the rows that are chosen or belong to a chosen row. -/
def reach {α : Type} (t : Table α) (chosen : List Id) (belongs : α → Bool) : List Id :=
  (t.filter fun id a => chosen.contains id || belongs a).map (·.1)

/-- The rows to delete with the chosen ones. -/
def doomed (s : Store) (chosen : Doomed) : Doomed :=
  let users := reach s.users chosen.users fun _ => false
  let mine (l : Label) : Bool := users.contains l.user
  let accounts := reach s.accounts chosen.accounts fun a => users.contains a.user
  let tags := reach s.tags chosen.tags mine
  let transactions :=
    reach s.transactions chosen.transactions fun t => accounts.contains t.account
  let groups := reach s.groups chosen.groups fun g => users.contains g.user
  let rules := reach s.rules chosen.rules fun r => users.contains r.user || groups.contains r.group
  let conditionGroups := reach s.conditionGroups chosen.conditionGroups fun g =>
    rules.contains g.rule
  { users, accounts, tags, transactions, groups, rules, conditionGroups
    categories := reach s.categories chosen.categories mine
    merchants := reach s.merchants chosen.merchants mine
    links := reach s.links chosen.links fun l =>
      transactions.contains l.transaction || tags.contains l.tag
    conditions := reach s.conditions chosen.conditions fun c => conditionGroups.contains c.group
    actions := reach s.actions chosen.actions fun a => rules.contains a.rule
    logs := reach s.logs chosen.logs fun l =>
      rules.contains l.rule || transactions.contains l.transaction }

/-- A reference, unless it names a deleted row. -/
def keepReference (gone : List Id) (reference : Option Id) : Option Id :=
  reference.filter fun id => !gone.contains id

/-- A table without some rows. -/
def without {α : Type} (t : Table α) (gone : List Id) : Table α :=
  t.remove fun id _ => gone.contains id

/-- The store without the doomed rows. -/
def removeDoomed (s : Store) (d : Doomed) : Store where
  users := without s.users d.users
  accounts := without s.accounts d.accounts
  categories := (without s.categories d.categories).mapRows fun _ l =>
    { l with parent := keepReference d.categories l.parent }
  merchants := without s.merchants d.merchants
  tags := without s.tags d.tags
  transactions := (without s.transactions d.transactions).mapRows fun _ t =>
    { t with
      category := keepReference d.categories t.category
      merchant := keepReference d.merchants t.merchant }
  links := without s.links d.links
  groups := without s.groups d.groups
  rules := without s.rules d.rules
  conditionGroups := without s.conditionGroups d.conditionGroups
  conditions := without s.conditions d.conditions
  actions := without s.actions d.actions
  logs := without s.logs d.logs

/-- Deletes the chosen rows with all that belongs to them. -/
def delete (s : Store) (chosen : Doomed) : Store := s.removeDoomed (s.doomed chosen)

end Store

namespace Doomed

/-- How many rows of each kind are to be deleted, kinds without any left out. -/
def counts (d : Doomed) : List (Entity × Nat) :=
  [(Entity.user, d.users), (.account, d.accounts), (.category, d.categories),
    (.merchant, d.merchants), (.tag, d.tags), (.transaction, d.transactions),
    (.transactionTag, d.links), (.group, d.groups), (.rule, d.rules),
    (.conditionGroup, d.conditionGroups), (.condition, d.conditions), (.action, d.actions),
    (.log, d.logs)].filterMap fun (e, ids) => if ids.isEmpty then none else some (e, ids.length)

end Doomed

end Rulebook
