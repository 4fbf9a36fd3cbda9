import Rulebook.Ledger.Deletion
import Rulebook.Proofs.Ledger.Ownership
import Rulebook.Proofs.Ledger.Parts

/-!
# References that go on holding

A store is closed if every reference names a row (`Store.IsClosed`).  Only the outermost change to a
store checks this, so whoever composes changes has to know which of them keep a store closed.

Adding a row does if the row refers to what is there.  Deleting does because it takes everything
along that refers to a deleted row: a row that stays can only refer to rows that stay
(`IsClosed.delete`).

## Main statements

* `IsClosed.delete` — deleting keeps a store closed.
* `IsClosed.withParts` — so does adding the parts of a rule that is there.
* `IsClosed.insertLabel_iff`, `IsClosed.addLink_iff` — when adding a label, or a tag to a transaction,
  does.
-/

namespace Rulebook.Store

variable {α β : Type} {s : Store}

/-! ## Deleting -/

@[simp] theorem without_nil (t : Table α) : without t [] = t := by
  refine Table.ext ?_ rfl
  simp [without, Table.remove]

@[simp] theorem keepReference_nil (reference : Option Id) :
    keepReference [] reference = reference := by
  cases reference <;> rfl

theorem mapRows_id (t : Table α) : (t.mapRows fun _ a => a) = t := by
  refine Table.ext ?_ rfl
  simp [Table.mapRows]

theorem find?_without {t : Table α} {gone : List Id} {id : Id} {a : α} :
    (without t gone).find? id = some a ↔ t.find? id = some a ∧ id ∉ gone := by
  rw [without, Table.find?_remove, Option.filter_eq_some_iff]
  simp

theorem has_without {t : Table α} {gone : List Id} {id : Id} :
    (without t gone).has id = true ↔ t.has id = true ∧ id ∉ gone := by
  simp only [Table.has, Option.isSome_iff_exists, find?_without, exists_and_right]

/-- Whatever belongs to a chosen row is reached. -/
theorem mem_reach {t : Table α} {id : Id} {a : α} (h : t.find? id = some a) {belongs : α → Bool}
    (hbelongs : belongs a = true) (chosen : List Id) : id ∈ reach t chosen belongs := by
  refine List.mem_map.2 ⟨(id, a), List.mem_filter.2 ⟨Table.mem_rows_of_find? h, ?_⟩, rfl⟩
  simp [hbelongs]

/-- A row that stays refers to a row that stays, if deleting that one takes the first along. -/
theorem has_of_stays {t : Table α} {u : Table β} {goneRows goneNamed : List Id} {named : α → Id}
    (hclosed : ∀ id a, t.find? id = some a → u.has (named a) = true)
    (halong : ∀ id a, t.find? id = some a → named a ∈ goneNamed → id ∈ goneRows) :
    ∀ id a, (without t goneRows).find? id = some a →
      (without u goneNamed).has (named a) = true := by
  intro id a hfind
  obtain ⟨hfind, hstays⟩ := find?_without.1 hfind
  exact has_without.2 ⟨hclosed id a hfind, fun hgone => hstays (halong id a hfind hgone)⟩

/-- The rows of transactions that stay have lost their references to deleted labels. -/
theorem find?_delete_transactions {chosen : Doomed} {id : Id} {t : Transaction}
    (h : (s.delete chosen).transactions.find? id = some t) :
    ∃ old, (without s.transactions (s.doomed chosen).transactions).find? id = some old ∧
      t = { old with
        category := keepReference (s.doomed chosen).categories old.category
        merchant := keepReference (s.doomed chosen).merchants old.merchant } := by
  have hmapped : (s.delete chosen).transactions.find? id = _ := Table.find?_mapRows _ id _
  rw [hmapped] at h
  obtain ⟨old, hold, rfl⟩ := Option.map_eq_some_iff.1 h
  exact ⟨old, hold, rfl⟩

/-- The categories that stay have lost their references to deleted ones. -/
theorem find?_delete_categories {chosen : Doomed} {id : Id} {l : Label}
    (h : (s.delete chosen).categories.find? id = some l) :
    ∃ old, (without s.categories (s.doomed chosen).categories).find? id = some old ∧
      l = { old with parent := keepReference (s.doomed chosen).categories old.parent } := by
  have hmapped : (s.delete chosen).categories.find? id = _ := Table.find?_mapRows _ id _
  rw [hmapped] at h
  obtain ⟨old, hold, rfl⟩ := Option.map_eq_some_iff.1 h
  exact ⟨old, hold, rfl⟩

/-- A reference that is kept names a row that stays. -/
theorem has_of_keepReference {t : Table α} {gone : List Id} {reference : Option Id} {n : Id}
    (h : keepReference gone reference = some n) (hhas : ∀ m, reference = some m → t.has m = true) :
    (without t gone).has n = true := by
  obtain ⟨hreference, hstays⟩ := Option.filter_eq_some_iff.1 h
  exact has_without.2 ⟨hhas n hreference, by simpa using hstays⟩

/-- Deleting rows with all that belongs to them leaves no reference to a deleted row. -/
theorem IsClosed.delete (h : s.IsClosed) (chosen : Doomed) : (s.delete chosen).IsClosed := by
  have hin : ∀ {gone : List Id} {id : Id}, id ∈ gone → gone.contains id = true :=
    List.contains_iff_mem.2
  have hleft : ∀ {gone gone' : List Id} {id id' : Id}, id ∈ gone →
      (gone.contains id || gone'.contains id') = true := fun hgone =>
    Bool.or_eq_true_iff.2 (.inl (hin hgone))
  have hright : ∀ {gone gone' : List Id} {id id' : Id}, id' ∈ gone' →
      (gone.contains id || gone'.contains id') = true := fun hgone =>
    Bool.or_eq_true_iff.2 (.inr (hin hgone))
  have hids : ∀ id, (s.delete chosen).transactions.has id =
      (without s.transactions (s.doomed chosen).transactions).has id :=
    Table.has_congr (Table.ids_mapRows _ _)
  have hcategories : ∀ id, (s.delete chosen).categories.has id =
      (without s.categories (s.doomed chosen).categories).has id :=
    Table.has_congr (Table.ids_mapRows _ _)
  refine ⟨?_, fun kind => ?_, fun id l hfind n hn => (hcategories n).trans ?_,
    fun id t hfind => ?_, fun id t hfind role n hn => ?_,
    fun id l hfind => ⟨(hids _).trans ?_, ?_⟩, ?_, fun id r hfind => ⟨?_, ?_⟩, ?_, ?_, ?_,
    fun id l hfind => ⟨?_, (hids _).trans ?_⟩⟩
  · exact has_of_stays h.accounts fun id a hfind hgone => mem_reach hfind (hin hgone) _
  · cases kind with
    | category =>
        intro id l hfind
        obtain ⟨old, hold, rfl⟩ := find?_delete_categories hfind
        exact has_of_stays (h.labels .category)
          (fun id l hfind hgone => mem_reach hfind (hin hgone) _)
          id old hold
    | merchant =>
        exact has_of_stays (h.labels .merchant) fun id l hfind hgone => mem_reach hfind (hin hgone) _
    | tag => exact has_of_stays (h.labels .tag) fun id l hfind hgone => mem_reach hfind (hin hgone) _
  · obtain ⟨old, hold, rfl⟩ := find?_delete_categories hfind
    exact has_of_keepReference hn (h.parents id old (find?_without.1 hold).1)
  · obtain ⟨old, hold, rfl⟩ := find?_delete_transactions hfind
    exact has_of_stays h.transactions (fun id t hfind hgone => mem_reach hfind (hin hgone) _)
      id old hold
  · obtain ⟨old, hold, rfl⟩ := find?_delete_transactions hfind
    have hnamed := h.roles id old (find?_without.1 hold).1
    cases role with
    | category => exact (hcategories n).trans (has_of_keepReference hn (hnamed .category))
    | merchant => exact has_of_keepReference hn (hnamed .merchant)
  · exact has_of_stays (fun id l hfind => (h.links id l hfind).1)
      (fun id l hfind hgone => mem_reach hfind (hleft hgone) _) id l hfind
  · exact has_of_stays (fun id l hfind => (h.links id l hfind).2)
      (fun id l hfind hgone => mem_reach hfind (hright hgone) _) id l hfind
  · exact has_of_stays h.groups fun id g hfind hgone => mem_reach hfind (hin hgone) _
  · exact has_of_stays (fun id r hfind => (h.rules id r hfind).1)
      (fun id r hfind hgone => mem_reach hfind (hleft hgone) _) id r hfind
  · exact has_of_stays (fun id r hfind => (h.rules id r hfind).2)
      (fun id r hfind hgone => mem_reach hfind (hright hgone) _) id r hfind
  · exact has_of_stays h.conditionGroups fun id g hfind hgone => mem_reach hfind (hin hgone) _
  · exact has_of_stays h.conditions fun id c hfind hgone => mem_reach hfind (hin hgone) _
  · exact has_of_stays h.actions fun id a hfind hgone => mem_reach hfind (hin hgone) _
  · exact has_of_stays (fun id l hfind => (h.logs id l hfind).1)
      (fun id l hfind hgone => mem_reach hfind (hleft hgone) _) id l hfind
  · exact has_of_stays (fun id l hfind => (h.logs id l hfind).2)
      (fun id l hfind hgone => mem_reach hfind (hright hgone) _) id l hfind

/-! ## Adding -/

/-- A property of all rows is one of all rows with a new one. -/
theorem forall_find?_insert {t : Table α} {p : α → Prop} (h : ∀ id a, t.find? id = some a → p a)
    {b : α} (hb : p b) : ∀ id a, (t.insert b).find? id = some a → p a := by
  intro id a hfind
  rw [Table.find?_insert] at hfind
  split at hfind
  · cases hfind
    exact hb
  · exact h id a hfind

theorem forall_find?_insertAll {t : Table α} {p : α → Prop}
    (h : ∀ id a, t.find? id = some a → p a) {rows : List α} (hrows : ∀ a ∈ rows, p a) :
    ∀ id a, (t.insertAll rows).find? id = some a → p a := fun id a hfind =>
  (Table.mem_of_find?_insertAll hfind).elim (h id a) (hrows a)

theorem IsClosed.insertGroup (h : s.IsClosed) {g : Group} (huser : s.users.has g.user = true) :
    { s with groups := s.groups.insert g }.IsClosed :=
  { h with
    labels := h.labels
    roles := h.roles
    groups := forall_find?_insert h.groups huser
    rules := fun id r hfind =>
      (h.rules id r hfind).imp_right (Table.grows_insert s.groups g).has }

theorem IsClosed.insertRule (h : s.IsClosed) {r : Rule} (huser : s.users.has r.user = true)
    (hgroup : s.groups.has r.group = true) : { s with rules := s.rules.insert r }.IsClosed :=
  have hgrows := Table.grows_insert s.rules r
  { h with
    labels := h.labels
    roles := h.roles
    rules := forall_find?_insert h.rules ⟨huser, hgroup⟩
    conditionGroups := fun id g hfind => hgrows.has (h.conditionGroups id g hfind)
    actions := fun id a hfind => hgrows.has (h.actions id a hfind)
    logs := fun id l hfind => (h.logs id l hfind).imp_left hgrows.has }

theorem IsClosed.withGroup (h : s.IsClosed) {g : ConditionGroupRow}
    (hrule : s.rules.has g.rule = true) (conditions : List ConditionRow) :
    (s.withGroup g conditions).IsClosed :=
  have hgrows := Table.grows_insert s.conditionGroups g
  { h with
    labels := h.labels
    roles := h.roles
    conditionGroups := forall_find?_insert h.conditionGroups hrule
    conditions := by
      refine forall_find?_insertAll (fun id c hfind => hgrows.has (h.conditions id c hfind)) ?_
      intro c hc
      obtain ⟨_, -, rfl⟩ := List.mem_map.1 hc
      refine Table.has_of_find? (a := g) ?_
      rw [Table.find?_insert, if_pos rfl] }

theorem IsClosed.withGroups {rule : Id} (h : s.IsClosed) (hrule : s.rules.has rule = true)
    (groups : List (GroupDraft × Int)) : (s.withGroups rule groups).IsClosed := by
  induction groups generalizing s with
  | nil => exact h
  | cons g rest ih => exact ih (h.withGroup (g := ⟨rule, _, _⟩) hrule _) hrule

/-- The parts of a rule that is there refer to what is there. -/
theorem IsClosed.withParts {rule : Id} (h : s.IsClosed) (hrule : s.rules.has rule = true)
    (groups : List (GroupDraft × Int)) (actions : List ActionRow) :
    (s.withParts rule groups actions).IsClosed := by
  have hgroups := h.withGroups hrule groups
  obtain ⟨conditionGroups, conditions, hsame⟩ := s.withGroups_eq rule groups
  rw [Store.withParts]
  rw [hsame] at hgroups ⊢
  refine { hgroups with
    labels := hgroups.labels
    roles := hgroups.roles
    actions := forall_find?_insertAll hgroups.actions fun a ha => ?_ }
  obtain ⟨_, -, rfl⟩ := List.mem_map.1 ha
  exact hrule

/-! ## Labels and tags of transactions -/

/-- With a new label that belongs to somebody, all labels still do. -/
theorem IsClosed.labels_insert (h : s.IsClosed) (kind : LabelKind) {l : Label}
    (huser : s.users.has l.user = true) (other : LabelKind) (id : Id) (row : Label) :
    ((s.setLabels ((s.labels kind).insert l) kind).labels other).find? id = some row →
      s.users.has row.user = true := by
  by_cases hother : other = kind
  · subst hother
    rw [labels_setLabels]
    exact forall_find?_insert (h.labels other) huser id row
  · -- The tables of the other kinds are as they were.
    rw [labels_setLabels_of_ne hother]
    exact h.labels other id row

/-- A closed store stays closed with a new label that stands under no other exactly if the label
belongs to somebody. -/
theorem IsClosed.insertLabel_iff (h : s.IsClosed) (kind : LabelKind) {l : Label}
    (hparent : l.parent = none) :
    (s.setLabels ((s.labels kind).insert l) kind).IsClosed ↔ s.users.has l.user = true := by
  constructor
  · intro hafter
    have husers : (s.setLabels ((s.labels kind).insert l) kind).users = s.users := by
      cases kind <;> rfl
    rw [← husers]
    refine hafter.labels kind (s.labels kind).nextId l ?_
    rw [labels_setLabels, Table.find?_insert, if_pos rfl]
  · intro huser
    have hgrows := Table.grows_insert (s.labels kind) l
    have hlabels := h.labels_insert kind huser
    cases kind with
    | category =>
      have hparents := forall_find?_insert
        (p := fun row => ∀ n, row.parent = some n → (s.categories.insert l).has n = true)
        (fun id row hfind n hn => hgrows.has (h.parents id row hfind n hn))
        (fun n hn => nomatch hparent.symm.trans hn)
      refine { h with
        labels := hlabels
        parents := hparents
        roles := fun id t hfind role n hn => ?_ }
      cases role with
      | category => exact hgrows.has (h.roles id t hfind .category n hn)
      | merchant => exact h.roles id t hfind .merchant n hn
    | merchant =>
      refine { h with labels := hlabels, roles := fun id t hfind role n hn => ?_ }
      cases role with
      | category => exact h.roles id t hfind .category n hn
      | merchant => exact hgrows.has (h.roles id t hfind .merchant n hn)
    | tag =>
      refine { h with labels := hlabels, roles := fun id t hfind role n hn => ?_, links := ?_ }
      · cases role with
        | category => exact h.roles id t hfind .category n hn
        | merchant => exact h.roles id t hfind .merchant n hn
      · exact fun id l hfind => (h.links id l hfind).imp_right hgrows.has

/-- A closed store stays closed with a tag on a transaction exactly if both are there. -/
theorem IsClosed.addLink_iff (h : s.IsClosed) (transaction tag : Id) :
    (s.addLink transaction tag).IsClosed ↔
      s.transactions.has transaction = true ∧ s.tags.has tag = true := by
  rw [addLink]
  split
  · next hthere =>
    obtain ⟨row, hrow, rfl, rfl⟩ := hasLink_iff.1 hthere
    exact iff_of_true h (h.links row.1 row.2 (Table.find?_eq_some_of_mem hrow))
  · constructor
    · intro hafter
      refine hafter.links s.links.nextId ⟨transaction, tag⟩ ?_
      rw [Table.find?_insert, if_pos rfl]
    · intro hboth
      exact { h with
        labels := h.labels
        roles := h.roles
        links := forall_find?_insert h.links hboth }

/-- Taking tags off transactions leaves no reference to anything that is gone. -/
theorem IsClosed.removeLinks (h : s.IsClosed) (test : Id → TagLink → Bool) :
    { s with links := s.links.remove test }.IsClosed :=
  { h with
    labels := h.labels
    roles := h.roles
    links := fun id l hfind => by
      rw [Table.find?_remove, Option.filter_eq_some_iff] at hfind
      exact h.links id l hfind.1 }

end Rulebook.Store
