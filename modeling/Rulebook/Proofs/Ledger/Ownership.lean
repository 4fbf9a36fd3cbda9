import Rulebook.Engine.Matching
import Rulebook.Proofs.Ledger.Footprint

/-!
# Who owns what is stored

Every row of a ledger belongs to a user.  Accounts, labels, groups and rules say so themselves, a
transaction belongs to whoever owns its account, and a tag on a transaction or a log belongs to
whoever owns the transaction.

`Store.KeepsTo` compares two stores and says that everything that is different between them belongs
to one user.  It says a little more than that no row of somebody else is touched: a row of the user
may have been changed to refer to something, and what it refers to must be the user's as well.

The relation is a preorder, because no change of this kind moves a transaction to another owner
(`KeepsTo.transactionOwner?_eq`).  Each single change to a store then has one lemma, and the lemma
asks for as little as the change needs.

Since references only come to name what the user owns, they go on to name rows
(`KeepsTo.isClosed`): if every reference of a store holds, every reference of the changed one does.

## Main definitions

* `Store.IsLabelOf`, `Store.IsRuleOf`, `Store.transactionOwner?` — who owns a row.
* `Transaction.KeepsTo` — a row was changed in what its owner may change.
* `Store.KeepsTo` — a store was changed in what belongs to a user.
* `Store.IsClosed` — every reference names a row.
-/

namespace Rulebook

/-- The number of the category or merchant in a row. -/
def LabelRole.inRow (role : LabelRole) (t : Transaction) : Option Id :=
  match role with
  | .category => t.category
  | .merchant => t.merchant

namespace Store

/-- The number is that of a label of the user. -/
def IsLabelOf (s : Store) (kind : LabelKind) (user id : Id) : Prop :=
  ∃ l, (s.labels kind).find? id = some l ∧ l.user = user

/-- The number is that of a rule of the user. -/
def IsRuleOf (s : Store) (user id : Id) : Prop := ∃ r, s.rules.find? id = some r ∧ r.user = user

/-- The user who owns the transaction with a number. -/
def transactionOwner? (s : Store) (id : Id) : Option Id := (s.transactions.find? id).bind s.ownerOf?

end Store

/-- The later row is the earlier one unless this is the user's.  Its account is the same, and a
category or merchant that is new is a label of the user in the given store. -/
structure Transaction.KeepsTo (user : Id) (s : Store) (isOwn : Prop) (before after : Transaction) :
    Prop where
  account : after.account = before.account
  foreign : ¬ isOwn → after = before
  roles : ∀ role : LabelRole, role.inRow after = role.inRow before ∨
    ∃ id, role.inRow after = some id ∧ s.IsLabelOf role.kind user id

namespace Store

/-- Whatever is different in the later store belongs to the user; a new label stands under no
other. -/
structure KeepsTo (user : Id) (s t : Store) : Prop where
  fixed : t.fixed = s.fixed
  labels : ∀ kind, (s.labels kind).Grows (t.labels kind)
  newLabels : ∀ kind id l, (t.labels kind).find? id = some l →
    (s.labels kind).find? id = some l ∨ l.user = user ∧ l.parent = none
  transactions : ∀ id, Option.Rel (Transaction.KeepsTo user t (s.transactionOwner? id = some user))
    (s.transactions.find? id) (t.transactions.find? id)
  links : ∀ id l, s.transactionOwner? l.transaction ≠ some user →
    (t.links.find? id = some l ↔ s.links.find? id = some l)
  newLinks : ∀ id l, t.links.find? id = some l →
    s.links.find? id = some l ∨ t.IsLabelOf .tag user l.tag
  logs : ∃ added, t.logs = s.logs.insertAll added ∧
    ∀ log ∈ added, s.IsRuleOf user log.rule ∧ s.transactionOwner? log.transaction = some user

/-! ## Owners stay -/

section Owners

variable {user id : Id} {kind : LabelKind} {s t u : Store}

/-- A label stays with its owner. -/
theorem IsLabelOf.grows (hs : s.IsLabelOf kind user id)
    (hlabels : (s.labels kind).Grows (t.labels kind)) : t.IsLabelOf kind user id := by
  obtain ⟨l, hfind, huser⟩ := hs
  exact ⟨l, hlabels.find? hfind, huser⟩

/-- The owner of a transaction depends on the accounts and on the account in its row. -/
theorem transactionOwner?_congr (haccounts : t.accounts = s.accounts)
    (hrows : Option.Rel (fun before after : Transaction => after.account = before.account)
      (s.transactions.find? id) (t.transactions.find? id)) :
    t.transactionOwner? id = s.transactionOwner? id := by
  rw [transactionOwner?, transactionOwner?]
  generalize s.transactions.find? id = before at hrows ⊢
  generalize t.transactions.find? id = after at hrows ⊢
  cases hrows with
  | none => rfl
  | some haccount =>
      simp only [Option.bind_some, ownerOf?]
      rw [haccounts, haccount]

theorem keepsTo_row (user : Id) (s : Store) (isOwn : Prop) (row : Transaction) :
    row.KeepsTo user s isOwn row := ⟨rfl, fun _ => rfl, fun _ => Or.inl rfl⟩

/-- Rows that are the same have been kept. -/
theorem keepsTo_rows {isOwn : Prop} (hrows : t.transactions.find? id = s.transactions.find? id) :
    Option.Rel (Transaction.KeepsTo user t isOwn) (s.transactions.find? id)
      (t.transactions.find? id) := by
  rw [hrows]
  cases s.transactions.find? id with
  | none => exact .none
  | some row => exact .some (keepsTo_row user t isOwn row)

namespace KeepsTo

theorem accounts (h : KeepsTo user s t) : t.accounts = s.accounts := by
  have haccounts := congrArg Store.accounts h.fixed
  exact haccounts

theorem rules (h : KeepsTo user s t) : t.rules = s.rules := by
  have hrules := congrArg Store.rules h.fixed
  exact hrules

theorem users (h : KeepsTo user s t) : t.users = s.users := by
  have husers := congrArg Store.users h.fixed
  exact husers

theorem transactionOwner?_eq (h : KeepsTo user s t) (id : Id) :
    t.transactionOwner? id = s.transactionOwner? id := by
  refine transactionOwner?_congr h.accounts ?_
  have hrows := h.transactions id
  generalize s.transactions.find? id = before at hrows ⊢
  generalize t.transactions.find? id = after at hrows ⊢
  cases hrows with
  | none => exact .none
  | some hrow => exact .some hrow.account

end KeepsTo

/-- A row that was changed twice in what its owner may change. -/
theorem keepsTo_row_trans {isOwn : Prop} {before between after : Transaction}
    (hbefore : before.KeepsTo user t isOwn between) (hafter : between.KeepsTo user u isOwn after)
    (hlabels : ∀ kind, (t.labels kind).Grows (u.labels kind)) :
    before.KeepsTo user u isOwn after where
  account := hafter.account.trans hbefore.account
  foreign hforeign := (hafter.foreign hforeign).trans (hbefore.foreign hforeign)
  roles role := by
    rcases hafter.roles role with hsame | hown
    · rw [hsame]
      refine (hbefore.roles role).imp_right ?_
      rintro ⟨id, hid, hlabel⟩
      exact ⟨id, hid, hlabel.grows (hlabels role.kind)⟩
    · exact Or.inr hown

instance (user : Id) : IsPreorder Store (KeepsTo user) where
  refl s :=
    { fixed := rfl
      labels := fun _ => Std.Refl.refl _
      newLabels := fun _ _ _ => Or.inl
      transactions := fun _ => keepsTo_rows rfl
      links := fun _ _ _ => Iff.rfl
      newLinks := fun _ _ => Or.inl
      logs := ⟨[], rfl, fun _ hlog => nomatch hlog⟩ }
  trans s t u hst htu :=
    { fixed := htu.fixed.trans hst.fixed
      labels := fun kind => IsTrans.trans _ _ _ (hst.labels kind) (htu.labels kind)
      newLabels := fun kind id l hfind => by
        rcases htu.newLabels kind id l hfind with hold | hown
        · exact hst.newLabels kind id l hold
        · exact Or.inr hown
      transactions := fun id => by
        have hfirst := hst.transactions id
        have hlater := htu.transactions id
        rw [hst.transactionOwner?_eq] at hlater
        generalize s.transactions.find? id = before at hfirst ⊢
        generalize t.transactions.find? id = between at hfirst hlater
        generalize u.transactions.find? id = after at hlater ⊢
        cases hfirst with
        | none =>
            cases hlater
            exact .none
        | some hbefore =>
            cases hlater with
            | some hafter => exact .some (keepsTo_row_trans hbefore hafter htu.labels)
      links := fun id l hforeign => by
        have hlater := htu.links id l
        rw [hst.transactionOwner?_eq] at hlater
        exact (hlater hforeign).trans (hst.links id l hforeign)
      newLinks := fun id l hfind => by
        rcases htu.newLinks id l hfind with hold | hown
        · exact (hst.newLinks id l hold).imp_right fun hlabel => hlabel.grows (htu.labels .tag)
        · exact Or.inr hown
      logs := by
        obtain ⟨first, hfirst, hown⟩ := hst.logs
        obtain ⟨later, hlater, hown'⟩ := htu.logs
        refine ⟨first ++ later, ?_, List.forall_mem_append.2 ⟨hown, fun log hlog => ?_⟩⟩
        · rw [hlater, hfirst, Table.insertAll_append]
        · have hboth := hown' log hlog
          rwa [hst.transactionOwner?_eq, IsRuleOf, hst.rules] at hboth }

end Owners

/-! ## Single changes -/

section Changes

variable {user n tag : Id} {s : Store}

/-- The user adds a label. -/
theorem keepsTo_addLabel (kind : LabelKind) {l : Label} (hl : l.user = user)
    (hparent : l.parent = none) :
    KeepsTo user s (s.setLabels ((s.labels kind).insert l) kind) := by
  have hrefl : KeepsTo user s s := Std.Refl.refl s
  have hlabels := fun other => labels_setLabels_insert s kind other l
  have hnew : ∀ other id found,
      ((s.setLabels ((s.labels kind).insert l) kind).labels other).find? id = some found →
      (s.labels other).find? id = some found ∨ found.user = user ∧ found.parent = none := by
    intro other id found hfind
    by_cases hkind : other = kind
    · subst hkind
      rw [labels_setLabels, Table.find?_insert] at hfind
      split at hfind
      · cases hfind
        exact Or.inr ⟨hl, hparent⟩
      · exact Or.inl hfind
    · rw [labels_setLabels_of_ne hkind] at hfind
      exact Or.inl hfind
  cases kind <;>
    exact { hrefl with
      labels := hlabels
      newLabels := hnew
      transactions := fun _ => keepsTo_rows rfl
      newLinks := fun _ _ => Or.inl }

/-- The user puts one of their tags on one of their transactions. -/
theorem keepsTo_addLink (hn : s.transactionOwner? n = some user) (htag : s.IsLabelOf .tag user tag) :
    KeepsTo user s (s.addLink n tag) := by
  rw [addLink]
  split
  · exact Std.Refl.refl s
  · have hrefl : KeepsTo user s s := Std.Refl.refl s
    refine { hrefl with
      transactions := fun _ => keepsTo_rows rfl
      links := fun id l hforeign => ?_
      newLinks := fun id l hfind => ?_ }
    · show (s.links.insert ⟨n, tag⟩).find? id = some l ↔ s.links.find? id = some l
      rw [Table.find?_insert]
      split
      · next hnew =>
        -- The new link is one of the user's, and nothing had its number before.
        subst hnew
        rw [Table.find?_nextId]
        constructor
        · rintro ⟨⟩
          exact absurd hn hforeign
        · rintro ⟨⟩
      · exact Iff.rfl
    · change (s.links.insert ⟨n, tag⟩).find? id = some l at hfind
      rw [Table.find?_insert] at hfind
      split at hfind
      · cases hfind
        exact Or.inr htag
      · exact Or.inl hfind

/-- The user takes tags off one of their transactions. -/
theorem keepsTo_removeLinks (hn : s.transactionOwner? n = some user) (test : Id → Bool) :
    KeepsTo user s
      { s with links := s.links.remove fun _ l => l.transaction = n && test l.tag } := by
  have hrefl : KeepsTo user s s := Std.Refl.refl s
  refine { hrefl with
    transactions := fun _ => keepsTo_rows rfl
    links := fun id l hforeign => ?_
    newLinks := fun id l hfind => ?_ }
  · rw [Table.find?_remove, Option.filter_eq_some_iff]
    have hother : l.transaction ≠ n := by
      rintro rfl
      exact hforeign hn
    simp [hother]
  · rw [Table.find?_remove, Option.filter_eq_some_iff] at hfind
    exact Or.inl hfind.1

/-- The user changes one of their transactions. -/
theorem keepsTo_updateTransaction (hn : s.transactionOwner? n = some user)
    {f : Transaction → Transaction}
    (hf : ∀ row, s.transactions.find? n = some row → row.KeepsTo user s True (f row)) :
    KeepsTo user s { s with transactions := s.transactions.update n f } := by
  have hrefl : KeepsTo user s s := Std.Refl.refl s
  refine { hrefl with transactions := fun id => ?_ }
  by_cases hid : id = n
  · subst hid
    dsimp only
    rw [Table.find?_update, if_pos rfl]
    cases hrow : s.transactions.find? id with
    | none => exact .none
    | some row =>
        obtain ⟨haccount, -, hroles⟩ := hf row hrow
        exact .some ⟨haccount, fun hforeign => absurd hn hforeign, hroles⟩
  · exact keepsTo_rows (Table.find?_update_of_ne hid f)

/-- A rule of the user is logged for one of their transactions. -/
theorem keepsTo_addLog {log : Log} (hrule : s.IsRuleOf user log.rule)
    (hn : s.transactionOwner? log.transaction = some user) :
    KeepsTo user s { s with logs := s.logs.insert log } := by
  have hrefl : KeepsTo user s s := Std.Refl.refl s
  refine { hrefl with
    transactions := fun _ => keepsTo_rows rfl
    logs := ⟨[log], rfl, fun l hl => ?_⟩ }
  rw [List.mem_singleton.1 hl]
  exact ⟨hrule, hn⟩

end Changes

/-! ## References -/

/-- A tag that the user puts on a transaction is there. -/
theorem KeepsTo.linksResolve {user : Id} {s t : Store} (h : KeepsTo user s t)
    (hs : s.LinksResolve) : t.LinksResolve := by
  intro n tag hlink
  obtain ⟨⟨id, l⟩, hrow, rfl, rfl⟩ := hasLink_iff.1 hlink
  rcases h.newLinks id l (Table.find?_eq_some_of_mem hrow) with hold | ⟨label, hfind, -⟩
  · refine (h.labels .tag).has (hs l.transaction l.tag (hasLink_iff.2 ⟨(id, l), ?_, rfl, rfl⟩))
    exact Table.mem_rows_of_find? hold
  · exact Table.has_of_find? hfind

/-- Every reference names a row. -/
structure IsClosed (s : Store) : Prop where
  accounts : ∀ id a, s.accounts.find? id = some a → s.users.has a.user = true
  labels : ∀ kind id l, (s.labels kind).find? id = some l → s.users.has l.user = true
  parents : ∀ id l, s.categories.find? id = some l → ∀ n, l.parent = some n →
    s.categories.has n = true
  transactions : ∀ id t, s.transactions.find? id = some t → s.accounts.has t.account = true
  roles : ∀ id t, s.transactions.find? id = some t → ∀ (role : LabelRole) n,
    role.inRow t = some n → (s.labels role.kind).has n = true
  links : ∀ id l, s.links.find? id = some l →
    s.transactions.has l.transaction = true ∧ s.tags.has l.tag = true
  groups : ∀ id g, s.groups.find? id = some g → s.users.has g.user = true
  rules : ∀ id r, s.rules.find? id = some r →
    s.users.has r.user = true ∧ s.groups.has r.group = true
  conditionGroups : ∀ id g, s.conditionGroups.find? id = some g → s.rules.has g.rule = true
  conditions : ∀ id c, s.conditions.find? id = some c → s.conditionGroups.has c.group = true
  actions : ∀ id a, s.actions.find? id = some a → s.rules.has a.rule = true
  logs : ∀ id l, s.logs.find? id = some l →
    s.rules.has l.rule = true ∧ s.transactions.has l.transaction = true

theorem every_iff {α : Type} {t : Table α} {test : α → Bool} :
    every t test = true ↔ ∀ id a, t.find? id = some a → test a = true := by
  rw [every, List.all_eq_true]
  constructor
  · intro hall id a hfind
    exact hall (id, a) (Table.mem_rows_of_find? hfind)
  · rintro hall ⟨id, a⟩ hrow
    exact hall id a (Table.find?_eq_some_of_mem hrow)

theorem isClosed_iff {s : Store} : s.IsClosed ↔ s.referencesHold = true := by
  simp only [referencesHold, LabelKind.all, List.all_cons, List.all_nil, Bool.and_true,
    Bool.and_eq_true, every_iff]
  constructor
  · intro hs
    refine ⟨⟨⟨⟨⟨⟨⟨⟨⟨⟨hs.accounts, hs.labels .category, hs.labels .merchant, hs.labels .tag⟩, ?_⟩,
      ?_⟩, hs.links⟩, hs.groups⟩, hs.rules⟩, hs.conditionGroups⟩, hs.conditions⟩, hs.actions⟩,
      hs.logs⟩
    · intro id l hfind
      rw [Option.all_eq_true]
      exact hs.parents id l hfind
    · intro id t hfind
      have hrole : ∀ role : LabelRole, (role.inRow t).all (s.labels role.kind).has = true := by
        intro role
        rw [Option.all_eq_true]
        exact hs.roles id t hfind role
      exact ⟨⟨hs.transactions id t hfind, hrole .category⟩, hrole .merchant⟩
  · rintro ⟨⟨⟨⟨⟨⟨⟨⟨⟨⟨haccounts, hcategories, hmerchants, htags⟩, hparents⟩, htransactions⟩, hlinks⟩,
      hgroups⟩, hrules⟩, hconditionGroups⟩, hconditions⟩, hactions⟩, hlogs⟩
    refine ⟨haccounts, fun kind => ?_,
      fun id l hfind => (Option.all_eq_true _ _).1 (hparents id l hfind),
      fun id t hfind => (htransactions id t hfind).1.1, fun id t hfind role => ?_, hlinks, hgroups,
      hrules, hconditionGroups, hconditions, hactions, hlogs⟩
    · cases kind with
      | category => exact hcategories
      | merchant => exact hmerchants
      | tag => exact htags
    · cases role with
      | category => exact (Option.all_eq_true _ _).1 (htransactions id t hfind).1.2
      | merchant => exact (Option.all_eq_true _ _).1 (htransactions id t hfind).2

theorem has_of_transactionOwner? {s : Store} {id user : Id}
    (howner : s.transactionOwner? id = some user) : s.transactions.has id = true := by
  obtain ⟨t, hfind, -⟩ := Option.bind_eq_some_iff.1 howner
  exact Table.has_of_find? hfind

/-- What a user who exists changes lets no reference dangle. -/
theorem KeepsTo.isClosed {user : Id} {s t : Store} (h : KeepsTo user s t) (hs : s.IsClosed)
    (huser : s.users.has user = true) : t.IsClosed := by
  have hfixed := h.fixed
  simp only [Store.fixed, Store.mk.injEq, true_and, and_true] at hfixed
  obtain ⟨husers, haccounts, hgroups, hrules, hconditionGroups, hconditions, hactions⟩ := hfixed
  have hrows : ∀ id, (s.transactions.find? id).isSome = (t.transactions.find? id).isSome := by
    intro id
    have hrow := h.transactions id
    generalize s.transactions.find? id = before at hrow ⊢
    generalize t.transactions.find? id = after at hrow ⊢
    cases hrow with
    | none => rfl
    | some _ => rfl
  have hhas : ∀ id, s.transactions.has id = true → t.transactions.has id = true := by
    intro id hid
    rwa [Table.has, ← hrows id]
  have hlabel : ∀ {kind id}, t.IsLabelOf kind user id → (t.labels kind).has id = true := by
    rintro kind id ⟨l, hfind, -⟩
    exact Table.has_of_find? hfind
  refine ⟨?_, ?_, ?_, ?_, ?_, ?_, ?_, ?_, ?_, ?_, ?_, ?_⟩
  · rw [haccounts, husers]
    exact hs.accounts
  · intro kind id l hfind
    rw [husers]
    rcases h.newLabels kind id l hfind with hold | ⟨rfl, -⟩
    · exact hs.labels kind id l hold
    · exact huser
  · intro id l hfind n hn
    rcases h.newLabels .category id l hfind with hold | ⟨-, hnone⟩
    · exact (h.labels .category).has (hs.parents id l hold n hn)
    · cases hnone.symm.trans hn
  · intro id row hfind
    have hrow := h.transactions id
    rw [hfind] at hrow
    generalize hbefore : s.transactions.find? id = before at hrow
    cases hrow with
    | @some old _ hkept =>
        rw [haccounts, hkept.account]
        exact hs.transactions id old hbefore
  · intro id row hfind role n hn
    have hrow := h.transactions id
    rw [hfind] at hrow
    generalize hbefore : s.transactions.find? id = before at hrow
    cases hrow with
    | @some old _ hkept =>
        rcases hkept.roles role with hsame | ⟨m, hm, hown⟩
        · exact (h.labels role.kind).has (hs.roles id old hbefore role n (hsame.symm.trans hn))
        · cases hn.symm.trans hm
          exact hlabel hown
  · intro id l hfind
    -- A new link is on one of the user's transactions, and its tag is the user's.
    refine ⟨hhas _ ?_, ?_⟩
    · by_cases howner : s.transactionOwner? l.transaction = some user
      · exact has_of_transactionOwner? howner
      · exact (hs.links id l ((h.links id l howner).1 hfind)).1
    · rcases h.newLinks id l hfind with hold | hown
      · exact (h.labels .tag).has (hs.links id l hold).2
      · exact hlabel hown
  · rw [hgroups, husers]
    exact hs.groups
  · rw [hrules, husers, hgroups]
    exact hs.rules
  · rw [hconditionGroups, hrules]
    exact hs.conditionGroups
  · rw [hconditions, hconditionGroups]
    exact hs.conditions
  · rw [hactions, hrules]
    exact hs.actions
  · obtain ⟨added, hlogs, hown⟩ := h.logs
    intro id l hfind
    rw [hrules]
    rcases Table.mem_of_find?_insertAll (hlogs ▸ hfind) with hold | hnew
    · exact (hs.logs id l hold).imp_right (hhas _)
    · obtain ⟨⟨r, hr, -⟩, howner⟩ := hown l hnew
      exact ⟨Table.has_of_find? hr, hhas _ (has_of_transactionOwner? howner)⟩

end Store

end Rulebook
