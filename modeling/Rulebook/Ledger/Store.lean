import Rulebook.Ledger.Row
import Rulebook.Failure

/-!
# The store

All tables of a ledger, and what must hold between them: every reference names a row, no two
categories, merchants or tags of a user have the same name, no tag is twice on a transaction, and
no two users have the same address.

Uniqueness is checked when a row is written.  References are checked when a change as a whole is
made final; until then a reference may name a row that is not there.

## Main definitions

* `Store` — the tables.
* `LabelKind` — categories, merchants and tags, and `Store.labels`, their tables.
* `Store.referencesHold` — whether every reference names a row.
* `Store.addLabel`, `Store.addLink`, … — adding rows that have to be unique.
-/

namespace Rulebook

/-- All tables. -/
structure Store where
  users : Table User := {}
  accounts : Table Account := {}
  categories : Table Label := {}
  merchants : Table Label := {}
  tags : Table Label := {}
  transactions : Table Transaction := {}
  links : Table TagLink := {}
  groups : Table Group := {}
  rules : Table Rule := {}
  conditionGroups : Table ConditionGroupRow := {}
  conditions : Table ConditionRow := {}
  actions : Table ActionRow := {}
  logs : Table Log := {}
deriving Repr, Inhabited

/-- The kinds of rows that have an owner, a name and a description; a category may also stand under
another one. -/
inductive LabelKind where
  | category
  | merchant
  | tag
deriving DecidableEq, Repr

namespace LabelKind

/-- All kinds. -/
def all : List LabelKind := [.category, .merchant, .tag]

/-- The kind of row. -/
def entity : LabelKind → Entity
  | .category => .category
  | .merchant => .merchant
  | .tag => .tag

/-- The word for the kind. -/
def word (k : LabelKind) : String := k.entity.code

/-- The title of the kind. -/
def title (k : LabelKind) : String := k.entity.title

end LabelKind

namespace Store

/-- The table of a kind of labels. -/
def labels (s : Store) : LabelKind → Table Label
  | .category => s.categories
  | .merchant => s.merchants
  | .tag => s.tags

/-- The store with another table of a kind of labels. -/
def setLabels (s : Store) (t : Table Label) : LabelKind → Store
  | .category => { s with categories := t }
  | .merchant => { s with merchants := t }
  | .tag => { s with tags := t }

@[simp] theorem labels_setLabels (s : Store) (t : Table Label) (k : LabelKind) :
    (s.setLabels t k).labels k = t := by
  cases k <;> rfl

theorem labels_setLabels_of_ne {k other : LabelKind} (h : other ≠ k) (s : Store) (t : Table Label) :
    (s.setLabels t k).labels other = s.labels other := by
  cases k <;> cases other <;> first | rfl | exact absurd rfl h

/-- Whether every row of a table satisfies a test. -/
def every {α : Type} (t : Table α) (test : α → Bool) : Bool := t.rows.all fun row => test row.2

/-- Whether every reference names a row. -/
def referencesHold (s : Store) : Bool :=
  every s.accounts (fun a => s.users.has a.user)
    && (LabelKind.all.all fun k => every (s.labels k) fun l => s.users.has l.user)
    && every s.categories (fun l => l.parent.all s.categories.has)
    && every s.transactions (fun t => s.accounts.has t.account
      && t.category.all s.categories.has && t.merchant.all s.merchants.has)
    && every s.links (fun l => s.transactions.has l.transaction && s.tags.has l.tag)
    && every s.groups (fun g => s.users.has g.user)
    && every s.rules (fun r => s.users.has r.user && s.groups.has r.group)
    && every s.conditionGroups (fun g => s.rules.has g.rule)
    && every s.conditions (fun c => s.conditionGroups.has c.group)
    && every s.actions (fun a => s.rules.has a.rule)
    && every s.logs (fun l => s.rules.has l.rule && s.transactions.has l.transaction)

/-- The label of a user with a name. -/
def labelNamed? (s : Store) (k : LabelKind) (user : Id) (name : String) : Option (Id × Label) :=
  (s.labels k).rows.find? fun (_, l) => l.user = user && l.name = name

/-- Adds a label, whose name its owner must not have used yet. -/
def addLabel (s : Store) (k : LabelKind) (l : Label) : Except Failure (Id × Store) :=
  if (s.labelNamed? k l.user l.name).isSome then .error .duplicateKey
  else .ok ((s.labels k).nextId, s.setLabels ((s.labels k).insert l) k)

/-- Adds a user, whose address nobody must have yet. -/
def addUser (s : Store) (u : User) : Except Failure (Id × Store) :=
  if s.users.rows.any fun (_, v) => v.email = u.email then .error .duplicateKey
  else .ok (s.users.nextId, { s with users := s.users.insert u })

/-- Whether a tag is on a transaction. -/
def hasLink (s : Store) (transaction tag : Id) : Bool :=
  s.links.rows.any fun (_, l) => l.transaction = transaction && l.tag = tag

/-- Puts a tag on a transaction; a tag that is there already stays as it is. -/
def addLink (s : Store) (transaction tag : Id) : Store :=
  if s.hasLink transaction tag then s
  else { s with links := s.links.insert ⟨transaction, tag⟩ }

/-- The tags of a transaction in the order of their names. -/
def tagsOf (s : Store) (transaction : Id) : List (Id × Label) :=
  let mine := s.tags.filter fun tag _ => s.hasLink transaction tag
  mine.mergeSort fun a b => decide (a.2.name ≤ b.2.name)

/-- The user who owns a transaction. -/
def ownerOf? (s : Store) (t : Transaction) : Option Id := (s.accounts.find? t.account).map (·.user)

/-- The transactions of a user, by number. -/
def transactionsOf (s : Store) (user : Id) : List (Id × Transaction) :=
  s.transactions.filter fun _ t => s.ownerOf? t = some user

end Store

end Rulebook
