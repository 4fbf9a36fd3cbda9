import Rulebook.Proofs.Ledger.RuleTree

/-!
# What a deletion takes along

`Store.doomed` finds the rows to delete table by table, in an order that suits the references between
the tables.  What it finds can be said without that order: a row falls if it is chosen, or if it
belongs to a row that falls (`Store.Falls`).  The two agree (`Store.mem_doomed_iff`), because a row
only belongs to rows of kinds that come earlier (`Store.depth_lt_of_mem_owners`).

For this the tables are seen as one table of rows of any kind.  Its rows have owners, whose deletion
takes them along, and perhaps labels, whose deletion does not: a transaction that stays only loses
the category or merchant that falls, and a category only the one above it.

## Main definitions

* `AnyRow`, `Store.row?` — the rows of all tables.
* `AnyRow.owners`, `AnyRow.labels` — what a row refers to.
* `Store.Falls` — what a deletion takes along.
* `AnyRow.Spared` — what becomes of a row that stays.

## Main statements

* `Store.mem_doomed_iff` — the rows that are found are those that fall.
* `Store.row?_delete_iff` — deleting leaves the other rows, and nothing else.
-/

namespace Rulebook

/-! ## Rows of any kind -/

/-- A row of any kind. -/
inductive AnyRow where
  | user (u : User)
  | account (a : Account)
  | category (l : Label)
  /-- A merchant or a tag. -/
  | label (l : Label)
  | transaction (t : Transaction)
  | link (l : TagLink)
  | group (g : Group)
  | rule (r : Rule)
  | conditionGroup (g : ConditionGroupRow)
  | condition (c : ConditionRow)
  | action (a : ActionRow)
  | log (l : Log)

namespace AnyRow

/-- The rows that a row belongs to; it does not outlive them. -/
def owners : AnyRow → List (Entity × Id)
  | user _ => []
  | account a => [(.user, a.user)]
  | category l | label l => [(.user, l.user)]
  | transaction t => [(.account, t.account)]
  | link l => [(.transaction, l.transaction), (.tag, l.tag)]
  | group g => [(.user, g.user)]
  | rule r => [(.user, r.user), (.group, r.group)]
  | conditionGroup g => [(.rule, g.rule)]
  | condition c => [(.conditionGroup, c.group)]
  | action a => [(.rule, a.rule)]
  | log l => [(.rule, l.rule), (.transaction, l.transaction)]

/-- The labels that a row names without belonging to them. -/
def labels : AnyRow → List (Entity × Id)
  | category l => l.parent.toList.map (Prod.mk .category)
  | transaction t =>
    t.category.toList.map (Prod.mk .category) ++ t.merchant.toList.map (Prod.mk .merchant)
  | _ => []

/-- All rows that a row refers to. -/
def references (r : AnyRow) : List (Entity × Id) := r.owners ++ r.labels

/-- The row without its references to rows that are gone. -/
def detach (gone : Doomed) : AnyRow → AnyRow
  | category l => category { l with parent := Store.keepReference gone.categories l.parent }
  | transaction t =>
    transaction { t with
      category := Store.keepReference gone.categories t.category
      merchant := Store.keepReference gone.merchants t.merchant }
  | r => r

end AnyRow

/-- How many kinds of rows a kind may belong to, one belonging to the next. -/
def Entity.depth : Entity → Nat
  | .user => 0
  | .account | .category | .merchant | .tag | .group => 1
  | .transaction | .rule => 2
  | .transactionTag | .conditionGroup | .action | .log => 3
  | .condition => 4

/-- The chosen or doomed rows of a kind. -/
def Doomed.ids (d : Doomed) : Entity → List Id
  | .user => d.users
  | .account => d.accounts
  | .category => d.categories
  | .merchant => d.merchants
  | .tag => d.tags
  | .transaction => d.transactions
  | .transactionTag => d.links
  | .group => d.groups
  | .rule => d.rules
  | .conditionGroup => d.conditionGroups
  | .condition => d.conditions
  | .action => d.actions
  | .log => d.logs

theorem Doomed.mem_ids_row {e f : Entity} {id n : Id} :
    n ∈ (Doomed.row e id).ids f ↔ f = e ∧ n = id := by
  cases e <;> cases f <;> simp [Doomed.row, Doomed.ids]

namespace Store

/-- The row of a kind with a number. -/
def row? (s : Store) (e : Entity) (id : Id) : Option AnyRow :=
  match e with
  | .user => (s.users.find? id).map .user
  | .account => (s.accounts.find? id).map .account
  | .category => (s.categories.find? id).map .category
  | .merchant => (s.merchants.find? id).map .label
  | .tag => (s.tags.find? id).map .label
  | .transaction => (s.transactions.find? id).map .transaction
  | .transactionTag => (s.links.find? id).map .link
  | .group => (s.groups.find? id).map .group
  | .rule => (s.rules.find? id).map .rule
  | .conditionGroup => (s.conditionGroups.find? id).map .conditionGroup
  | .condition => (s.conditions.find? id).map .condition
  | .action => (s.actions.find? id).map .action
  | .log => (s.logs.find? id).map .log

variable {s : Store} {e : Entity} {id : Id} {r : AnyRow} {chosen : Doomed}

/-- A row only belongs to rows of kinds that come earlier. -/
theorem depth_lt_of_mem_owners (h : s.row? e id = some r) {o : Entity × Id} (ho : o ∈ r.owners) :
    o.1.depth < e.depth := by
  cases e <;> obtain ⟨a, -, rfl⟩ := Option.map_eq_some_iff.1 h <;>
    simp only [AnyRow.owners, List.mem_cons, List.not_mem_nil, or_false] at ho
  case transactionTag | rule | log => rcases ho with rfl | rfl <;> simp [Entity.depth]
  all_goals
    subst ho
    simp [Entity.depth]

/-- In a closed store every row refers to rows that are there. -/
theorem IsClosed.has_references (hs : s.IsClosed) (h : s.row? e id = some r) :
    ∀ o ∈ r.references, ∃ a, s.row? o.1 o.2 = some a := by
  have hthere : ∀ {α : Type} {t : Table α} {n : Id} (f : α → AnyRow), t.has n = true →
      ∃ a, (t.find? n).map f = some a := by
    intro α t n f hhas
    obtain ⟨a, ha⟩ := Option.isSome_iff_exists.1 hhas
    exact ⟨f a, by rw [ha, Option.map_some]⟩
  intro o ho
  cases e <;> obtain ⟨a, hfind, rfl⟩ := Option.map_eq_some_iff.1 h <;>
    simp only [AnyRow.references, AnyRow.owners, AnyRow.labels, List.append_nil, List.mem_cons,
      List.not_mem_nil, or_false, List.mem_append, List.mem_map, Option.mem_toList] at ho
  case account => subst ho; exact hthere _ (hs.accounts id a hfind)
  case category =>
    rcases ho with rfl | ⟨n, hn, rfl⟩
    · exact hthere _ (hs.labels .category id a hfind)
    · exact hthere _ (hs.parents id a hfind n hn)
  case merchant => subst ho; exact hthere _ (hs.labels .merchant id a hfind)
  case tag => subst ho; exact hthere _ (hs.labels .tag id a hfind)
  case transaction =>
    rcases ho with rfl | ⟨n, hn, rfl⟩ | ⟨n, hn, rfl⟩
    · exact hthere _ (hs.transactions id a hfind)
    · exact hthere _ (hs.roles id a hfind .category n hn)
    · exact hthere _ (hs.roles id a hfind .merchant n hn)
  case transactionTag =>
    obtain ⟨htransaction, htag⟩ := hs.links id a hfind
    rcases ho with rfl | rfl
    · exact hthere _ htransaction
    · exact hthere _ htag
  case group => subst ho; exact hthere _ (hs.groups id a hfind)
  case rule =>
    obtain ⟨huser, hgroup⟩ := hs.rules id a hfind
    rcases ho with rfl | rfl
    · exact hthere _ huser
    · exact hthere _ hgroup
  case conditionGroup => subst ho; exact hthere _ (hs.conditionGroups id a hfind)
  case condition => subst ho; exact hthere _ (hs.conditions id a hfind)
  case action => subst ho; exact hthere _ (hs.actions id a hfind)
  case log =>
    obtain ⟨hrule, htransaction⟩ := hs.logs id a hfind
    rcases ho with rfl | rfl
    · exact hthere _ hrule
    · exact hthere _ htransaction

/-! ## Falling -/

/-- The row falls with the chosen ones: it is one of them, or it belongs to a row that falls. -/
inductive Falls (s : Store) (chosen : Doomed) : Entity → Id → Prop where
  | chosen {e : Entity} {id : Id} {r : AnyRow} (hrow : s.row? e id = some r)
      (hchosen : id ∈ chosen.ids e) : Falls s chosen e id
  | owned {e o : Entity} {id n : Id} {r : AnyRow} (hrow : s.row? e id = some r)
      (howner : (o, n) ∈ r.owners) (hfalls : Falls s chosen o n) : Falls s chosen e id

/-- A row is doomed if it is chosen or one of its owners is doomed. -/
theorem mem_doomed_step (s : Store) (chosen : Doomed) (e : Entity) (id : Id) :
    id ∈ (s.doomed chosen).ids e ↔
      ∃ r, s.row? e id = some r ∧
        (id ∈ chosen.ids e ∨ ∃ o ∈ r.owners, o.2 ∈ (s.doomed chosen).ids o.1) := by
  cases e <;> refine mem_reach_iff.trans ?_ <;>
    simp [row?, Doomed.ids, AnyRow.owners, doomed, or_and_right, exists_or]

/-- The doomed rows are those that fall. -/
theorem mem_doomed_iff : id ∈ (s.doomed chosen).ids e ↔ s.Falls chosen e id := by
  constructor
  · -- Whoever owns a row is of an earlier kind, so the induction is on how early a kind comes.
    intro hdoomed
    induction hdepth : e.depth using Nat.strongRecOn generalizing e id with
    | ind depth ih =>
        obtain ⟨r, hrow, hchosen | ⟨o, howner, hgone⟩⟩ := (mem_doomed_step s chosen e id).1 hdoomed
        · exact .chosen hrow hchosen
        · have hlt := depth_lt_of_mem_owners hrow howner
          rw [hdepth] at hlt
          exact .owned hrow howner (ih _ hlt hgone rfl)
  · intro hfalls
    induction hfalls with
    | chosen hrow hchosen => exact (mem_doomed_step s chosen _ _).2 ⟨_, hrow, .inl hchosen⟩
    | owned hrow howner _ ih =>
        exact (mem_doomed_step s chosen _ _).2 ⟨_, hrow, .inr ⟨_, howner, ih⟩⟩

end Store

/-- What becomes of a row that stays while others fall: a transaction loses the labels that fall, a
category the one above it if that falls, and everything else is as it was. -/
inductive AnyRow.Spared (falls : Entity → Id → Prop) : AnyRow → AnyRow → Prop where
  | transaction (t : Transaction) {category merchant : Option Id}
      (hcategory : ∀ n, category = some n ↔ t.category = some n ∧ ¬ falls .category n)
      (hmerchant : ∀ n, merchant = some n ↔ t.merchant = some n ∧ ¬ falls .merchant n) :
      Spared falls (.transaction t) (.transaction { t with category, merchant })
  | category (l : Label) {parent : Option Id}
      (hparent : ∀ n, parent = some n ↔ l.parent = some n ∧ ¬ falls .category n) :
      Spared falls (.category l) (.category { l with parent })
  | other {r : AnyRow} (htransaction : ∀ t, r ≠ .transaction t) (hcategory : ∀ l, r ≠ .category l) :
      Spared falls r r

/-- A category that stays stands under no other if the one above it falls. -/
theorem AnyRow.Spared.of_parent {falls : Entity → Id → Prop} {l : Label} {n : Id} {r : AnyRow}
    (h : Spared falls (.category l) r) (hparent : l.parent = some n) (hfalls : falls .category n) :
    r = .category { l with parent := none } := by
  cases h with
  | category _ hkept =>
      rename_i parent
      have hnone : parent = none := by
        rw [Option.eq_none_iff_forall_ne_some]
        intro m hm
        obtain ⟨hsame, hstays⟩ := (hkept m).1 hm
        cases hparent.symm.trans hsame
        exact hstays hfalls
      rw [hnone]
  | other _ hcategory => exact absurd rfl (hcategory l)

namespace Store

variable {s : Store} {e : Entity} {id : Id} {r old : AnyRow} {chosen : Doomed}

theorem keepReference_eq_some_iff {gone : List Id} {reference : Option Id} {n : Id} :
    keepReference gone reference = some n ↔ reference = some n ∧ n ∉ gone := by
  rw [keepReference, Option.filter_eq_some_iff]
  simp

theorem spared_detach {gone : Doomed} {falls : Entity → Id → Prop}
    (h : ∀ e id, id ∈ gone.ids e ↔ falls e id) (old : AnyRow) :
    AnyRow.Spared falls old (old.detach gone) := by
  have hkept : ∀ (e : Entity) (reference : Option Id) (n : Id),
      keepReference (gone.ids e) reference = some n ↔ reference = some n ∧ ¬ falls e n := by
    intro e reference n
    rw [keepReference_eq_some_iff, h]
  cases old with
  | transaction t =>
      exact @AnyRow.Spared.transaction falls t (keepReference gone.categories t.category)
        (keepReference gone.merchants t.merchant) (hkept .category t.category)
        (hkept .merchant t.merchant)
  | category l =>
      exact @AnyRow.Spared.category falls l (keepReference gone.categories l.parent)
        (hkept .category l.parent)
  | _ => exact .other (fun t h => by cases h) (fun l h => by cases h)

/-- The rows that are left are those that are not gone, without what they have lost. -/
theorem row?_removeDoomed_iff {gone : Doomed} :
    (s.removeDoomed gone).row? e id = some r ↔
      id ∉ gone.ids e ∧ ∃ old, s.row? e id = some old ∧ r = old.detach gone := by
  have hrows : ∀ {α : Type} (t : Table α) (numbers : List Id) (f : α → AnyRow),
      (∀ a, (f a).detach gone = f a) →
      (((without t numbers).find? id).map f = some r ↔
        id ∉ numbers ∧ ∃ old, (t.find? id).map f = some old ∧ r = old.detach gone) := by
    intro α t numbers f hf
    simp only [Option.map_eq_some_iff, find?_without]
    constructor
    · rintro ⟨a, ⟨hfind, hstays⟩, rfl⟩
      exact ⟨hstays, f a, ⟨a, hfind, rfl⟩, (hf a).symm⟩
    · rintro ⟨hstays, _, ⟨a, hfind, rfl⟩, rfl⟩
      exact ⟨a, ⟨hfind, hstays⟩, (hf a).symm⟩
  have hmapped : ∀ {α : Type} (t : Table α) (numbers : List Id) (f : α → AnyRow) (lose : α → α),
      (∀ a, (f a).detach gone = f (lose a)) →
      ((((without t numbers).mapRows fun _ a => lose a).find? id).map f = some r ↔
        id ∉ numbers ∧ ∃ old, (t.find? id).map f = some old ∧ r = old.detach gone) := by
    intro α t numbers f lose hf
    simp only [Table.find?_mapRows, Option.map_eq_some_iff, find?_without]
    constructor
    · rintro ⟨_, ⟨a, ⟨hfind, hstays⟩, rfl⟩, rfl⟩
      exact ⟨hstays, f a, ⟨a, hfind, rfl⟩, (hf a).symm⟩
    · rintro ⟨hstays, _, ⟨a, hfind, rfl⟩, rfl⟩
      exact ⟨lose a, ⟨a, ⟨hfind, hstays⟩, rfl⟩, (hf a).symm⟩
  cases e with
  | transaction | category => exact hmapped _ _ _ _ fun _ => rfl
  | _ => exact hrows _ _ _ fun _ => rfl

/-- Deleting rows leaves the rows that do not fall, and nothing else. -/
theorem row?_delete_iff :
    (s.delete chosen).row? e id = some r ↔
      ¬ s.Falls chosen e id ∧ ∃ old, s.row? e id = some old ∧
        r = old.detach (s.doomed chosen) := by
  rw [delete, row?_removeDoomed_iff, mem_doomed_iff]

end Store

end Rulebook
