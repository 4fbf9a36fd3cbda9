import Rulebook.Engine.Live
import Rulebook.Engine.Selection
import Rulebook.Proofs.Ledger.Ownership

/-!
# A user's share of a store

What belongs to a user is a store in its own right: the rows of the user, under the numbers that
they have anyway, and with the same next numbers (`Store.share`).  Two stores have the same share
for a user exactly when they differ in nothing but the rows of other users.

Whatever a run looks up for a user is then the same in the share as in the whole store, and each
such query has a lemma here.  Queries that go through a reference need the share to be closed: a tag
of somebody else on a transaction of the user shows in the whole store and not in the share.  That
the references of the share hold says exactly that no row of the user refers to a row of somebody
else.

In the same way each change that a user may make happens to the share when it happens to the store.

## Main definitions

* `Table.only` — the rows of a table that pass a test.
* `Store.share` — what belongs to a user.
-/

namespace Rulebook

namespace Table

variable {α : Type} {t : Table α} {test : Id → α → Bool} {id : Id}

/-- The rows that pass a test. -/
def only (t : Table α) (test : Id → α → Bool) : Table α := t.remove fun id a => !test id a

theorem rows_only (t : Table α) (test : Id → α → Bool) :
    (t.only test).rows = t.rows.filter fun row => test row.1 row.2 := by
  simp [only, remove]

theorem find?_only (t : Table α) (test : Id → α → Bool) (id : Id) :
    (t.only test).find? id = (t.find? id).filter (test id) := by
  rw [only, find?_remove]
  simp

theorem find?_only_eq_some {a : α} :
    (t.only test).find? id = some a ↔ t.find? id = some a ∧ test id a = true := by
  rw [find?_only, Option.filter_eq_some_iff]

/-- A query for rows that pass the test anyway. -/
theorem filter_only {p q : Id → α → Bool}
    (hpq : ∀ id a, t.find? id = some a → (p id a && test id a) = q id a) :
    (t.only test).filter p = t.filter q := by
  rw [filter, filter, rows_only, List.filter_filter]
  exact List.filter_congr fun row hrow => hpq row.1 row.2 (find?_eq_some_of_mem hrow)

/-- Which rows are kept depends on how the test turns out for those that are there. -/
theorem only_insert {a : α} (h : test t.nextId a = true) :
    (t.insert a).only test = (t.only test).insert a := by
  have hrows : (t.insert a).rows = t.rows ++ [(t.nextId, a)] := rfl
  have hrows' : ((t.only test).insert a).rows = (t.only test).rows ++ [(t.nextId, a)] := rfl
  have hnew : [(t.nextId, a)].filter (fun row => test row.1 row.2) = [(t.nextId, a)] :=
    List.filter_cons_of_pos h
  refine Table.ext ?_ rfl
  rw [hrows', rows_only, rows_only, hrows, List.filter_append, hnew]

theorem only_update {f : α → α}
    (h : ∀ a, t.find? id = some a → test id (f a) = test id a) :
    (t.update id f).only test = (t.only test).update id f := by
  refine Table.ext ?_ rfl
  rw [rows_only]
  simp only [update, mapRows, rows_only]
  rw [List.filter_map]
  refine congrArg (List.map _) (List.filter_congr fun row hrow => ?_)
  obtain ⟨n, a⟩ := row
  by_cases hn : n = id
  · subst hn
    simp [h a (find?_eq_some_of_mem hrow)]
  · simp [hn]

theorem only_remove (t : Table α) (test gone : Id → α → Bool) :
    (t.remove gone).only test = (t.only test).remove gone := by
  refine Table.ext ?_ rfl
  simp only [only, remove, List.filter_filter, Bool.not_not]
  exact List.filter_congr fun row _ => Bool.and_comm _ _

end Table

namespace Store

/-- Whether the transaction with a number is the user's. -/
def ownsTransaction (s : Store) (user id : Id) : Bool := s.transactionOwner? id = some user

/-- Whether the rule with a number is the user's. -/
def ownsRule (s : Store) (user id : Id) : Bool := (s.rules.find? id).any (·.user = user)

/-- Whether the group of conditions with a number is part of a rule of the user. -/
def ownsConditionGroup (s : Store) (user id : Id) : Bool :=
  (s.conditionGroups.find? id).any fun g => s.ownsRule user g.rule

/-- What belongs to a user.  A log belongs to the user if both its rule and its transaction do. -/
def share (s : Store) (user : Id) : Store where
  users := s.users.only fun id _ => id = user
  accounts := s.accounts.only fun _ a => a.user = user
  categories := s.categories.only fun _ l => l.user = user
  merchants := s.merchants.only fun _ l => l.user = user
  tags := s.tags.only fun _ l => l.user = user
  transactions := s.transactions.only fun _ t => s.ownerOf? t = some user
  links := s.links.only fun _ l => s.ownsTransaction user l.transaction
  groups := s.groups.only fun _ g => g.user = user
  rules := s.rules.only fun _ r => r.user = user
  conditionGroups := s.conditionGroups.only fun _ g => s.ownsRule user g.rule
  conditions := s.conditions.only fun _ c => s.ownsConditionGroup user c.group
  actions := s.actions.only fun _ a => s.ownsRule user a.rule
  logs := s.logs.only fun _ l => s.ownsRule user l.rule && s.ownsTransaction user l.transaction

/-! ## Looking something up -/

section Queries

variable {s : Store} {user id : Id}

theorem labels_share (s : Store) (user : Id) (kind : LabelKind) :
    (s.share user).labels kind = (s.labels kind).only fun _ l => l.user = user := by
  cases kind <;> rfl

theorem find?_labels_share {kind : LabelKind} {l : Label} :
    ((s.share user).labels kind).find? id = some l ↔
      (s.labels kind).find? id = some l ∧ l.user = user := by
  rw [labels_share, Table.find?_only_eq_some, decide_eq_true_eq]

theorem has_users_share (s : Store) (user : Id) :
    (s.share user).users.has user = s.users.has user := by
  have hfind : (s.share user).users.find? user = s.users.find? user := by
    rw [share, Table.find?_only]
    cases s.users.find? user <;> simp
  rw [Table.has, hfind, Table.has]

theorem find?_accounts_share {a : Account} :
    (s.share user).accounts.find? id = some a ↔ s.accounts.find? id = some a ∧ a.user = user := by
  rw [share, Table.find?_only_eq_some, decide_eq_true_eq]

theorem find?_transactions_share {t : Transaction} :
    (s.share user).transactions.find? id = some t ↔
      s.transactions.find? id = some t ∧ s.ownerOf? t = some user := by
  rw [share, Table.find?_only_eq_some, decide_eq_true_eq]

theorem find?_rules_share {r : Rule} :
    (s.share user).rules.find? id = some r ↔ s.rules.find? id = some r ∧ r.user = user := by
  rw [share, Table.find?_only_eq_some, decide_eq_true_eq]

/-- A row is the user's in the share exactly when it is so in the store. -/
theorem ownerOf?_share {t : Transaction} :
    (s.share user).ownerOf? t = some user ↔ s.ownerOf? t = some user := by
  simp only [ownerOf?, Option.map_eq_some_iff, find?_accounts_share]
  constructor
  · rintro ⟨a, ⟨hfind, -⟩, huser⟩
    exact ⟨a, hfind, huser⟩
  · rintro ⟨a, hfind, huser⟩
    exact ⟨a, ⟨hfind, huser⟩, huser⟩

theorem transactionOwner?_share :
    (s.share user).transactionOwner? id = some user ↔ s.transactionOwner? id = some user := by
  simp only [transactionOwner?, Option.bind_eq_some_iff, find?_transactions_share, ownerOf?_share]
  constructor
  · rintro ⟨t, ⟨hfind, -⟩, howner⟩
    exact ⟨t, hfind, howner⟩
  · rintro ⟨t, hfind, howner⟩
    exact ⟨t, ⟨hfind, howner⟩, howner⟩

theorem isRuleOf_share : (s.share user).IsRuleOf user id ↔ s.IsRuleOf user id := by
  simp only [IsRuleOf, find?_rules_share, and_assoc, and_self]

/-- Names are looked up among the user's own labels. -/
theorem labelNamed?_share (s : Store) (user : Id) (kind : LabelKind) (name : String) :
    (s.share user).labelNamed? kind user name = s.labelNamed? kind user name := by
  rw [labelNamed?, labelNamed?, labels_share, Table.rows_only, List.find?_filter]
  congr 1
  funext row
  by_cases huser : row.2.user = user <;> simp [huser]

theorem hasLink_share (hid : s.ownsTransaction user id = true) (tag : Id) :
    (s.share user).hasLink id tag = s.hasLink id tag := by
  rw [hasLink, hasLink, share, Table.rows_only, List.any_filter]
  congr 1
  funext row
  by_cases htransaction : row.2.transaction = id
  · subst htransaction
    rw [hid, Bool.true_and]
  · simp [htransaction]

/-- The tags of a transaction of the user, if none of them is somebody else's. -/
theorem tagsOf_share (hid : s.ownsTransaction user id = true)
    (hlinks : (s.share user).LinksResolve) : (s.share user).tagsOf id = s.tagsOf id := by
  have hsame : (s.share user).hasLink id = s.hasLink id := funext (hasLink_share hid)
  have htags : (s.share user).tags.filter (fun tag _ => s.hasLink id tag) =
      s.tags.filter fun tag _ => s.hasLink id tag := by
    show (s.tags.only fun _ l => l.user = user).filter _ = _
    refine Table.filter_only fun tag l hfind => ?_
    cases hlink : s.hasLink id tag with
    | false => rfl
    | true =>
        -- The tag is in the share, and it is the one that was found.
        rw [← hsame] at hlink
        obtain ⟨l', hl'⟩ := Option.isSome_iff_exists.1 (hlinks id tag hlink)
        have hstored : (s.labels .tag).find? tag = some l' ∧ l'.user = user :=
          find?_labels_share.1 hl'
        obtain ⟨hfind', huser⟩ := hstored
        cases hfind.symm.trans hfind'
        simp [huser]
  rw [tagsOf, tagsOf, hsame]
  exact congrArg (List.mergeSort · _) htags

theorem transactionsInOrder_share (s : Store) (user : Id) (test : Id → Transaction → Bool) :
    (s.share user).transactionsInOrder user test = s.transactionsInOrder user test := by
  have hmine : (s.share user).transactionsOf user = s.transactionsOf user := by
    show (s.transactions.only fun _ t => s.ownerOf? t = some user).filter _ = _
    refine Table.filter_only fun id t _ => ?_
    rw [Bool.eq_iff_iff]
    simp [ownerOf?_share]
  rw [transactionsInOrder, transactionsInOrder, hmine]

/-! ## Rules -/

theorem ownsRule_of_find? {r : Rule} (hfind : s.rules.find? id = some r) (huser : r.user = user) :
    s.ownsRule user id = true := by
  simp [ownsRule, hfind, huser]

/-- Rows keep their order if they have the same keys. -/
theorem inOrder_congr {α : Type} {key key' : Id × α → List Int} {rows : List (Id × α)}
    (h : ∀ row ∈ rows, key row = key' row) : inOrder key rows = inOrder key' rows := by
  have hmap := List.map_mergeSort (f := id) (l := rows)
    (r := fun a b => !(key b).lex (key a)) (s := fun a b => !(key' b).lex (key' a))
    fun a ha b hb => by rw [h a ha, h b hb, id, id]
  rwa [List.map_id, List.map_id] at hmap

/-- The rules that take part in the runs of the user, if none is in a group of somebody else. -/
theorem candidates_share (hs : (s.share user).IsClosed) :
    (s.share user).candidates user = s.candidates user := by
  -- The group of a rule of the user is in the share.
  have hgroup : ∀ {id r}, s.rules.find? id = some r → r.user = user →
      (s.share user).groups.find? r.group = s.groups.find? r.group := by
    intro id r hfind huser
    have hmine := find?_rules_share.2 ⟨hfind, huser⟩
    obtain ⟨g, hg⟩ := Option.isSome_iff_exists.1 (hs.rules id r hmine).2
    rw [hg]
    exact (Table.find?_only_eq_some.1 hg).1.symm
  have hrows : (s.share user).rules.filter (fun _ r => (s.share user).takesPart user r) =
      s.rules.filter fun _ r => s.takesPart user r := by
    show (s.rules.only fun _ r => r.user = user).filter _ = _
    refine Table.filter_only fun id r hfind => ?_
    by_cases huser : r.user = user
    · simp [takesPart, huser, hgroup hfind huser]
    · simp [takesPart, huser]
  rw [candidates, candidates, hrows]
  refine inOrder_congr fun row hrow => ?_
  obtain ⟨hmem, hpart⟩ := List.mem_filter.1 hrow
  simp only [takesPart, Bool.and_eq_true, decide_eq_true_eq] at hpart
  dsimp only
  rw [hgroup (Table.find?_eq_some_of_mem hmem) hpart.1.1]

/-- A rule of the user has all its parts in the share. -/
theorem ofRow_share {r : Rule} (hrule : s.ownsRule user id = true) :
    RuleDefinition.ofRow (s.share user) id r = .ofRow s id r := by
  have hgroups : (s.share user).groupsOf id = s.groupsOf id := by
    refine congrArg (inOrder _) ?_
    show (s.conditionGroups.only fun _ g => s.ownsRule user g.rule).filter _ = _
    refine Table.filter_only fun _ g _ => ?_
    by_cases hg : g.rule = id <;> simp [hg, hrule]
  have hactions : (s.share user).actionsOf id = s.actionsOf id := by
    refine congrArg (inOrder _) ?_
    show (s.actions.only fun _ a => s.ownsRule user a.rule).filter _ = _
    refine Table.filter_only fun _ a _ => ?_
    by_cases ha : a.rule = id <;> simp [ha, hrule]
  have hconditions : ∀ {n g}, (n, g) ∈ s.groupsOf id →
      (s.share user).conditionsOf n = s.conditionsOf n := by
    intro n g hmem
    obtain ⟨hrow, hg⟩ := List.mem_filter.1 (List.mem_mergeSort.1 hmem)
    have howns : s.ownsConditionGroup user n = true := by
      rw [ownsConditionGroup, Table.find?_eq_some_of_mem hrow, Option.any_some,
        of_decide_eq_true hg]
      exact hrule
    refine congrArg (inOrder _) ?_
    show (s.conditions.only fun _ c => s.ownsConditionGroup user c.group).filter _ = _
    refine Table.filter_only fun _ c _ => ?_
    by_cases hc : c.group = n <;> simp [hc, howns]
  rw [RuleDefinition.ofRow, RuleDefinition.ofRow, hgroups, hactions]
  congr 1
  refine List.map_congr_left fun row hrow => ?_
  show ConditionGroup.ofRow _ row.1 row.2 = ConditionGroup.ofRow _ row.1 row.2
  rw [ConditionGroup.ofRow, ConditionGroup.ofRow, hconditions hrow]

/-- Rules that are picked from those that take part. -/
theorem map_ofRow_share (hs : (s.share user).IsClosed) (test : Id × Rule → Bool) :
    (((s.share user).candidates user).filter test).map
        (fun (id, r) => RuleDefinition.ofRow (s.share user) id r) =
      ((s.candidates user).filter test).map fun (id, r) => .ofRow s id r := by
  rw [candidates_share hs]
  refine List.map_congr_left fun row hrow => ?_
  obtain ⟨hmem, hpart⟩ :=
    List.mem_filter.1 (List.mem_mergeSort.1 (List.mem_filter.1 hrow).1)
  simp only [takesPart, Bool.and_eq_true, decide_eq_true_eq] at hpart
  exact ofRow_share (ownsRule_of_find? (Table.find?_eq_some_of_mem hmem) hpart.1.1)

theorem rulesForTrigger_share (hs : (s.share user).IsClosed) (trigger : Trigger) :
    (s.share user).rulesForTrigger user trigger = s.rulesForTrigger user trigger :=
  map_ofRow_share hs _

theorem rulesWithIds_share (hs : (s.share user).IsClosed) (ids : List Id) :
    (s.share user).rulesWithIds user ids = s.rulesWithIds user ids := map_ofRow_share hs _

/-- A transaction of the user is loaded with the same rows. -/
theorem ofRowWithReferences_share (hs : (s.share user).IsClosed) {t : Transaction}
    (hfind : s.transactions.find? id = some t) (howner : s.ownerOf? t = some user) :
    LiveTransaction.ofRowWithReferences (s.share user) id t = .ofRowWithReferences s id t := by
  have hmine := find?_transactions_share.2 ⟨hfind, howner⟩
  have haccount : (s.share user).accounts.find? t.account = s.accounts.find? t.account := by
    obtain ⟨a, ha⟩ := Option.isSome_iff_exists.1 (hs.transactions id t hmine)
    rw [ha]
    exact (find?_accounts_share.1 ha).1.symm
  have hlabel : ∀ role : LabelRole,
      (role.inRow t).bind ((s.share user).labels role.kind).find? =
        (role.inRow t).bind (s.labels role.kind).find? := by
    intro role
    cases hn : role.inRow t with
    | none => rfl
    | some n =>
        obtain ⟨l, hl⟩ := Option.isSome_iff_exists.1 (hs.roles id t hmine role n hn)
        rw [Option.bind_some, Option.bind_some, hl]
        exact (find?_labels_share.1 hl).1.symm
  have hcategory := hlabel .category
  have hmerchant := hlabel .merchant
  simp only [LabelRole.inRow, LabelRole.kind, labels] at hcategory hmerchant
  rw [LiveTransaction.ofRowWithReferences, LiveTransaction.ofRowWithReferences, haccount, hcategory,
    hmerchant]

end Queries

/-! ## Changing something -/

section Changes

variable {s : Store} {user n tag : Id}

theorem share_addLabel (kind : LabelKind) {l : Label} (hl : l.user = user) :
    (s.setLabels ((s.labels kind).insert l) kind).share user =
      (s.share user).setLabels (((s.share user).labels kind).insert l) kind := by
  have hinsert : ((s.labels kind).insert l).only (fun _ l => l.user = user) =
      ((s.share user).labels kind).insert l := by
    rw [labels_share]
    exact Table.only_insert (decide_eq_true hl)
  rw [← hinsert]
  cases kind <;> rfl

theorem share_addLink (hn : s.ownsTransaction user n = true) :
    (s.addLink n tag).share user = (s.share user).addLink n tag := by
  rw [addLink, addLink, hasLink_share hn]
  split
  · rfl
  · have hinsert : (s.links.insert ⟨n, tag⟩).only
        (fun _ l => s.ownsTransaction user l.transaction) =
        (s.share user).links.insert ⟨n, tag⟩ := Table.only_insert hn
    rw [← hinsert]
    rfl

theorem share_removeLinks (gone : Id → TagLink → Bool) :
    Store.share { s with links := s.links.remove gone } user =
      { s.share user with links := (s.share user).links.remove gone } := by
  have hremove : (s.links.remove gone).only (fun _ l => s.ownsTransaction user l.transaction) =
      (s.share user).links.remove gone := Table.only_remove _ _ _
  rw [← hremove]
  rfl

theorem share_updateTransaction {f : Transaction → Transaction}
    (hf : ∀ t, s.transactions.find? n = some t → (f t).account = t.account) :
    Store.share { s with transactions := s.transactions.update n f } user =
      { s.share user with transactions := (s.share user).transactions.update n f } := by
  -- Nobody's transactions become somebody else's.
  have howns : Store.ownsTransaction { s with transactions := s.transactions.update n f } =
      s.ownsTransaction := by
    funext user id
    have howner : Store.transactionOwner? { s with transactions := s.transactions.update n f } id =
        s.transactionOwner? id := by
      refine transactionOwner?_congr rfl ?_
      dsimp only
      rw [Table.find?_update]
      cases hfind : s.transactions.find? id with
      | none => split <;> exact .none
      | some t =>
          split
          · next hid =>
            subst hid
            exact .some (hf t hfind)
          · exact .some rfl
    rw [ownsTransaction, howner, ownsTransaction]
  have hupdate : (s.transactions.update n f).only (fun _ t => s.ownerOf? t = some user) =
      (s.share user).transactions.update n f := by
    refine Table.only_update fun t hfind => ?_
    rw [ownerOf?, ownerOf?, hf t hfind]
  rw [← hupdate, share, howns]
  rfl

end Changes

end Store

end Rulebook
