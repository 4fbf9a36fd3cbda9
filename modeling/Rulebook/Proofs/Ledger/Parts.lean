import Mathlib.Data.List.Sort
import Rulebook.Proofs.Definition.Reading
import Rulebook.Proofs.Ledger.Table

/-!
# The parts of a rule in the store

A rule is spread over three tables: its groups of conditions, their conditions, and its actions.
What belongs together is found by number, and put in order by place.

New parts are found again without the rows that were there before, because these refer to numbers
that were given out before (`Store.PartsKnown`), and a new rule or group has a number that was not.

## Main definitions

* `Store.PartsKnown` — parts refer to numbers that were given out.
* `Store.withGroup`, `Store.withGroups` — adding groups together with their conditions.

## Main statements

* `eq_of_pairwise_lt` — rows that are strictly in order are determined by which rows they are.
* `inOrder_filter_insertAll` — new rows of a new owner are found in the order of their places.
* `Store.exists_rows_withGroups` — groups are found again with their conditions.
-/

namespace Rulebook

/-! ## Rows in order -/

/-- Keys of which neither comes before the other are the same. -/
theorem eq_of_lex_eq_false {k l : List Int} (h : k.lex l = false) (h' : l.lex k = false) : k = l :=
  List.le_antisymm (List.lex_eq_false_iff_ge.1 h') (List.lex_eq_false_iff_ge.1 h)

theorem lex_asymm {k l : List Int} (h : k.lex l = true) : l.lex k = false :=
  List.lex_eq_false_iff_ge.2 (List.le_of_lt (List.lex_eq_true_iff_lt.1 h))

section Rows

variable {α : Type}

/-- Rows in order are in the order of their keys. -/
theorem pairwise_inOrder (key : Id × α → List Int) (rows : List (Id × α)) :
    (inOrder key rows).Pairwise fun a b => (key b).lex (key a) = false := by
  refine (List.pairwise_mergeSort ?_ ?_ rows).imp fun h => Bool.not_eq_true' _ ▸ h
  · intro a b c hab hbc
    rw [Bool.not_eq_true', List.lex_eq_false_iff_ge] at hab hbc ⊢
    exact List.le_trans hab hbc
  · intro a b
    rw [Bool.or_eq_true, Bool.not_eq_true', Bool.not_eq_true', List.lex_eq_false_iff_ge,
      List.lex_eq_false_iff_ge]
    exact List.le_total _ _

/-- Rows with different keys are strictly in order. -/
theorem pairwise_lt_inOrder {key : Id × α → List Int} {rows : List (Id × α)}
    (h : rows.Pairwise fun a b => key a ≠ key b) :
    (inOrder key rows).Pairwise fun a b => (key a).lex (key b) = true := by
  have hdistinct : (inOrder key rows).Pairwise fun a b => key a ≠ key b :=
    (List.mergeSort_perm _ _).symm.pairwise h fun hne => Ne.symm hne
  refine ((pairwise_inOrder key rows).and hdistinct).imp fun {a b} ⟨hle, hne⟩ => ?_
  rw [← Bool.not_eq_false]
  exact fun hlt => hne (eq_of_lex_eq_false hlt hle)

/-- Rows that are strictly in order are determined by which rows they are. -/
theorem eq_of_pairwise_lt (key : Id × α → List Int) {rows rows' : List (Id × α)}
    (h : rows.Pairwise fun a b => (key a).lex (key b) = true)
    (h' : rows'.Pairwise fun a b => (key a).lex (key b) = true)
    (hsame : ∀ row, row ∈ rows ↔ row ∈ rows') : rows = rows' := by
  have hirrefl : Std.Irrefl fun a b : Id × α => (key a).lex (key b) = true :=
    ⟨fun _ hlt => Bool.false_ne_true ((lex_asymm hlt).symm.trans hlt)⟩
  have hantisymm : Std.Antisymm fun a b : Id × α => (key a).lex (key b) = true :=
    ⟨fun _ _ hlt hgt => absurd ((lex_asymm hlt).symm.trans hgt) Bool.false_ne_true⟩
  exact h.eq_of_mem_iff h' hsame

/-- The rows that are put in order are those that pass the test. -/
theorem mem_inOrder_filter {key : Id × α → List Int} {t : Table α} {test : Id → α → Bool} {id : Id}
    {a : α} : (id, a) ∈ inOrder key (t.filter test) ↔ t.find? id = some a ∧ test id a = true := by
  rw [inOrder, List.mem_mergeSort, Table.filter, List.mem_filter]
  exact and_congr_left fun _ => ⟨Table.find?_eq_some_of_mem, Table.mem_rows_of_find?⟩

/-- Of two rows the one with the smaller key stands before the other. -/
theorem pair_sublist_inOrder {key : Id × α → List Int} {rows : List (Id × α)} {a b : Id × α}
    (ha : a ∈ rows) (hb : b ∈ rows) (hlt : (key a).lex (key b) = true) :
    [a, b].Sublist (inOrder key rows) := by
  have hmem : a ∈ inOrder key rows := List.mem_mergeSort.2 ha
  have hlater : b ∈ inOrder key rows := List.mem_mergeSort.2 hb
  have hordered := pairwise_inOrder key rows
  obtain ⟨before, after, hsplit⟩ := List.append_of_mem hmem
  rw [hsplit] at hlater hordered ⊢
  rcases List.mem_append.1 hlater with hbefore | hafter
  · have hle := (List.pairwise_append.1 hordered).2.2 b hbefore a List.mem_cons_self
    cases hlt.symm.trans hle
  · rcases List.mem_cons.1 hafter with rfl | hafter
    · cases hlt.symm.trans (lex_asymm hlt)
    · have hpair : [a, b].Sublist (a :: after) := (List.singleton_sublist.2 hafter).cons_cons a
      exact hpair.trans (List.sublist_append_right before _)

/-- Rows whose keys already ascend stay as they are. -/
theorem inOrder_of_ascending {key : Id × α → List Int} {rows : List (Id × α)}
    (h : rows.Pairwise fun a b => (key b).lex (key a) = false) : inOrder key rows = rows := by
  refine List.mergeSort_of_pairwise (h.imp fun hlex => ?_)
  rw [hlex]
  rfl

/-- The added rows stand behind the others. -/
theorem Table.exists_rows_insertAll (t : Table α) (rows : List α) :
    ∃ added, (t.insertAll rows).rows = t.rows ++ added ∧ added.map (·.2) = rows := by
  induction rows generalizing t with
  | nil => exact ⟨[], (List.append_nil _).symm, rfl⟩
  | cons a rest ih =>
      obtain ⟨added, hrows, hadded⟩ := ih (t.insert a)
      refine ⟨(t.nextId, a) :: added, ?_, congrArg (a :: ·) hadded⟩
      rw [insertAll_cons, hrows, insert, List.append_assoc]
      rfl

/-- Whoever owns none of the first rows and all of the others owns exactly these. -/
theorem filter_append_of_owner (owner : α → Id) {id : Id} {old added : List (Id × α)}
    (hold : ∀ row ∈ old, owner row.2 ≠ id) (hnew : ∀ row ∈ added, owner row.2 = id) :
    ((old ++ added).filter fun row => decide (owner row.2 = id)) = added := by
  have hnone : (old.filter fun row => decide (owner row.2 = id)) = [] :=
    List.filter_eq_nil_iff.2 fun row hrow => by simpa using hold row hrow
  have hall : (added.filter fun row => decide (owner row.2 = id)) = added :=
    List.filter_eq_self.2 fun row hrow => by simpa using hnew row hrow
  rw [List.filter_append, hnone, hall, List.nil_append]

/-- Rows in the order of their places and numbers are in the order of their places. -/
theorem pairwise_place_inOrder (place : α → Int) (rows : List (Id × α)) :
    (inOrder (fun row => [place row.2, row.1]) rows).Pairwise
      fun a b => place a.2 ≤ place b.2 := by
  refine (pairwise_inOrder _ rows).imp fun {a b} hlex => ?_
  rw [List.lex_eq_false_iff_ge, List.cons_le_cons_iff] at hlex
  omega

/-- Rows with ascending numbers are in order if no later one has a smaller place. -/
theorem inOrder_of_places {place : α → Int} {rows : List (Id × α)}
    (hascending : rows.Pairwise fun a b => a.1 < b.1)
    (hplaces : rows.Pairwise fun a b => place a.2 ≤ place b.2) :
    inOrder (fun row => [place row.2, row.1]) rows = rows := by
  apply inOrder_of_ascending
  refine (hascending.and hplaces).imp fun {a b} ⟨hid, hplace⟩ => ?_
  rw [List.lex_eq_false_iff_ge, List.cons_le_cons_iff, List.cons_le_cons_iff]
  rcases Int.lt_or_eq_of_le hplace with hlt | heq
  · exact .inl hlt
  · exact .inr ⟨heq, .inl hid⟩

/-- Whoever owned nothing before owns exactly the added rows, in the order of their places. -/
theorem inOrder_filter_insertAll {t : Table α} {rows : List α} (owner : α → Id) (place : α → Int)
    {id : Id} (hold : ∀ row ∈ t.rows, owner row.2 ≠ id) (hnew : ∀ a ∈ rows, owner a = id)
    (hordered : rows.Pairwise fun a b => place a ≤ place b) :
    (inOrder (fun row => [place row.2, row.1])
      ((t.insertAll rows).filter fun _ a => owner a = id)).map (·.2) = rows := by
  obtain ⟨added, hrows, hadded⟩ := t.exists_rows_insertAll rows
  have hfilter : ((t.insertAll rows).filter fun _ a => owner a = id) = added := by
    rw [Table.filter, hrows]
    exact filter_append_of_owner owner hold fun row hrow =>
      hnew row.2 (hadded ▸ List.mem_map_of_mem hrow)
  have hascending := (t.insertAll rows).ascending
  rw [hrows] at hascending
  rw [← hadded, List.pairwise_map] at hordered
  rw [hfilter, inOrder_of_places (List.pairwise_append.1 hascending).2.1 hordered, hadded]

/-- Whoever owns none of the added rows owns what it owned before. -/
theorem filter_insertAll_of_ne {t : Table α} {rows : List α} (owner : α → Id) {id : Id}
    (hnew : ∀ a ∈ rows, owner a ≠ id) :
    ((t.insertAll rows).filter fun _ a => owner a = id) = t.filter fun _ a => owner a = id := by
  obtain ⟨added, hrows, hadded⟩ := t.exists_rows_insertAll rows
  have hnone : (added.filter fun row => decide (owner row.2 = id)) = [] :=
    List.filter_eq_nil_iff.2 fun row hrow => by
      simpa using hnew row.2 (hadded ▸ List.mem_map_of_mem hrow)
  rw [Table.filter, hrows, List.filter_append, hnone, List.append_nil]
  rfl

end Rows

namespace Store

/-! ## Groups with their conditions -/

/-- Every part refers to a rule or a group whose number was given out. -/
structure PartsKnown (s : Store) : Prop where
  groups : ∀ row ∈ s.conditionGroups.rows, row.2.rule ≤ s.rules.lastId
  conditions : ∀ row ∈ s.conditions.rows, row.2.group ≤ s.conditionGroups.lastId
  actions : ∀ row ∈ s.actions.rows, row.2.rule ≤ s.rules.lastId

/-- Where every reference names a row, every number that is referred to was given out. -/
theorem partsKnown_of_referencesHold {s : Store} (h : s.referencesHold = true) : s.PartsKnown := by
  have hle : ∀ {α : Type} {t : Table α} {id : Id}, t.has id = true → id ≤ t.lastId := by
    intro α t id hhas
    obtain ⟨a, ha⟩ := Option.isSome_iff_exists.1 hhas
    exact Table.le_lastId_of_find? ha
  simp only [referencesHold, every, Bool.and_eq_true, List.all_eq_true] at h
  obtain ⟨⟨⟨⟨-, hgroups⟩, hconditions⟩, hactions⟩, -⟩ := h
  exact ⟨fun row hrow => hle (hgroups row hrow), fun row hrow => hle (hconditions row hrow),
    fun row hrow => hle (hactions row hrow)⟩

/-- The store with a new group and its conditions. -/
def withGroup (s : Store) (g : ConditionGroupRow) (conditions : List ConditionRow) : Store :=
  { s with
    conditionGroups := s.conditionGroups.insert g
    conditions := s.conditions.insertAll
      (conditions.map ({ · with group := s.conditionGroups.nextId })) }

/-- The store with new groups of a rule, each with a place. -/
def withGroups (rule : Id) (groups : List (GroupDraft × Int)) (s : Store) : Store :=
  groups.foldl (fun s g => s.withGroup ⟨rule, g.1.connective, g.2⟩ g.1.conditions) s

variable {s : Store} {rule : Id}

/-- Groups that were there before keep their conditions. -/
theorem conditionsOf_withGroup {id : Id} (hid : id ≤ s.conditionGroups.lastId)
    (g : ConditionGroupRow) (conditions : List ConditionRow) :
    (s.withGroup g conditions).conditionsOf id = s.conditionsOf id := by
  rw [conditionsOf, conditionsOf]
  congr 1
  refine filter_insertAll_of_ne ConditionRow.group fun c hc => ?_
  obtain ⟨_, -, rfl⟩ := List.mem_map.1 hc
  exact Int.ne_of_gt (Int.lt_add_one_of_le hid)

theorem conditionsOf_withGroups {id : Id} (hid : id ≤ s.conditionGroups.lastId)
    (groups : List (GroupDraft × Int)) :
    (s.withGroups rule groups).conditionsOf id = s.conditionsOf id := by
  induction groups generalizing s with
  | nil => rfl
  | cons g rest ih =>
      refine (ih ?_).trans (conditionsOf_withGroup hid _ _)
      exact Int.le_trans hid (Int.le_of_lt (Int.lt_succ _))

theorem known_withGroup (hknown : ∀ row ∈ s.conditions.rows, row.2.group ≤ s.conditionGroups.lastId)
    (g : ConditionGroupRow) (conditions : List ConditionRow) :
    ∀ row ∈ (s.withGroup g conditions).conditions.rows,
      row.2.group ≤ (s.withGroup g conditions).conditionGroups.lastId := by
  intro row hrow
  obtain ⟨added, hrows, hadded⟩ := s.conditions.exists_rows_insertAll
    (conditions.map ({ · with group := s.conditionGroups.nextId }))
  rw [withGroup, hrows] at hrow
  rcases List.mem_append.1 hrow with hold | hnew
  · exact Int.le_trans (hknown row hold) (Int.le_of_lt (Int.lt_succ _))
  · have hmem : row.2 ∈ conditions.map ({ · with group := s.conditionGroups.nextId }) :=
      hadded ▸ List.mem_map_of_mem hnew
    obtain ⟨c, -, hc⟩ := List.mem_map.1 hmem
    rw [← hc]
    exact Int.le_refl _

/-- What is evaluated of a condition is in its row. -/
theorem map_core_conditions (rows : List (Id × ConditionRow)) :
    (rows.map fun (id, c) => Condition.ofRow id c).map Condition.core =
      (rows.map (·.2)).map (·.draft.core) := by
  rw [List.map_map, List.map_map]
  rfl

/-- A new group has the conditions that it came with. -/
theorem ofRow_withGroup (hknown : ∀ row ∈ s.conditions.rows, row.2.group ≤ s.conditionGroups.lastId)
    {g : GroupDraft} (hordered : g.conditions.Pairwise fun a b => a.order < b.order) (n : Int) :
    (ConditionGroup.ofRow (s.withGroup ⟨rule, g.connective, n⟩ g.conditions)
      s.conditionGroups.nextId ⟨rule, g.connective, n⟩).core = g.group.core := by
  have hold : ∀ row ∈ s.conditions.rows, row.2.group ≠ s.conditionGroups.nextId :=
    fun row hrow => Int.ne_of_lt (Int.lt_add_one_of_le (hknown row hrow))
  have hnew : ∀ c ∈ g.conditions.map ({ · with group := s.conditionGroups.nextId }),
      c.group = s.conditionGroups.nextId := by
    intro c hc
    obtain ⟨_, -, rfl⟩ := List.mem_map.1 hc
    rfl
  have hfound : ((s.withGroup ⟨rule, g.connective, n⟩ g.conditions).conditionsOf
      s.conditionGroups.nextId).map (·.2) =
      g.conditions.map ({ · with group := s.conditionGroups.nextId }) :=
    inOrder_filter_insertAll ConditionRow.group ConditionRow.order hold hnew
      (List.pairwise_map.2 (hordered.imp Int.le_of_lt))
  rw [ConditionGroup.core, ConditionGroup.ofRow, map_core_conditions, hfound, GroupDraft.group,
    ConditionGroup.core, List.map_map, List.map_map]
  rfl

/-- New groups are found again, each with the conditions that it came with. -/
theorem exists_rows_withGroups
    (hknown : ∀ row ∈ s.conditions.rows, row.2.group ≤ s.conditionGroups.lastId)
    {groups : List (GroupDraft × Int)}
    (hordered : ∀ g ∈ groups, g.1.conditions.Pairwise fun a b => a.order < b.order) :
    ∃ added, (s.withGroups rule groups).conditionGroups.rows = s.conditionGroups.rows ++ added ∧
      (∀ row ∈ added, row.2.rule = rule) ∧
      added.map (fun row => (ConditionGroup.ofRow (s.withGroups rule groups) row.1 row.2).core) =
        groups.map (·.1.group.core) := by
  induction groups generalizing s with
  | nil => exact ⟨[], (List.append_nil _).symm, nofun, rfl⟩
  | cons g rest ih =>
      obtain ⟨hfirst, hrest⟩ := List.forall_mem_cons.1 hordered
      obtain ⟨t, ht⟩ : ∃ t, t = s.withGroup ⟨rule, g.1.connective, g.2⟩ g.1.conditions := ⟨_, rfl⟩
      have hstep : s.withGroups rule (g :: rest) = t.withGroups rule rest := by
        rw [ht]
        rfl
      have hlast : t.conditionGroups.lastId = s.conditionGroups.nextId := by
        rw [ht]
        rfl
      obtain ⟨added, hrows, hrules, hcores⟩ := ih (ht ▸ known_withGroup hknown _ _) hrest
      refine ⟨(s.conditionGroups.nextId, ⟨rule, g.1.connective, g.2⟩) :: added, ?_,
        List.forall_mem_cons.2 ⟨rfl, hrules⟩, ?_⟩
      · rw [hstep, hrows, ht]
        simp [withGroup, Table.insert]
      · rw [hstep, List.map_cons, List.map_cons, hcores, ← ofRow_withGroup hknown hfirst g.2, ← ht,
          ConditionGroup.ofRow, conditionsOf_withGroups (Int.le_of_eq hlast.symm)]
        rfl

theorem withGroups_eq (s : Store) (rule : Id) (groups : List (GroupDraft × Int)) :
    ∃ conditionGroups conditions,
      s.withGroups rule groups = { s with conditionGroups, conditions } := by
  induction groups generalizing s with
  | nil => exact ⟨_, _, rfl⟩
  | cons g rest ih =>
      obtain ⟨conditionGroups, conditions, h⟩ :=
        ih (s.withGroup ⟨rule, g.1.connective, g.2⟩ g.1.conditions)
      exact ⟨conditionGroups, conditions, h⟩

/-- The store with new groups and new actions of a rule. -/
def withParts (rule : Id) (groups : List (GroupDraft × Int)) (actions : List ActionRow)
    (s : Store) : Store :=
  let t := s.withGroups rule groups
  { t with actions := t.actions.insertAll (actions.map ({ · with rule })) }

/-- New parts change the tables of parts and no other. -/
theorem withParts_eq (s : Store) (rule : Id) (groups : List (GroupDraft × Int))
    (added : List ActionRow) : ∃ conditionGroups conditions actions,
      s.withParts rule groups added = { s with conditionGroups, conditions, actions } := by
  obtain ⟨conditionGroups, conditions, hsame⟩ := s.withGroups_eq rule groups
  rw [withParts, hsame]
  exact ⟨_, _, _, rfl⟩

/-- What is carried out of an action is in its row. -/
theorem map_core_actions (rows : List (Id × ActionRow)) :
    (rows.map fun (id, a) => Action.ofRow id a).map Action.core =
      (rows.map (·.2)).map (·.draft.core) := by
  rw [List.map_map, List.map_map]
  rfl

/-- A rule that had no parts has those that were added.  Its groups are put in the order of their
places, which may be another one than that in which they were added. -/
theorem ofRow_withParts (hgroups : ∀ row ∈ s.conditionGroups.rows, row.2.rule ≠ rule)
    (hactions : ∀ row ∈ s.actions.rows, row.2.rule ≠ rule)
    (hknown : ∀ row ∈ s.conditions.rows, row.2.group ≤ s.conditionGroups.lastId)
    {groups : List (GroupDraft × Int)} {actions : List ActionRow}
    (hconditionsOrdered : ∀ g ∈ groups, g.1.conditions.Pairwise fun a b => a.order < b.order)
    (hactionsOrdered : actions.Pairwise fun a b => a.order < b.order) (r : Rule) :
    (((RuleDefinition.ofRow (s.withParts rule groups actions) rule r).groups.map
      ConditionGroup.core).Perm (groups.map (·.1.group.core))) ∧
      (RuleDefinition.ofRow (s.withParts rule groups actions) rule r).actions.map Action.core =
        actions.map (·.draft.core) := by
  constructor
  · obtain ⟨added, hrows, hrules, hcores⟩ := exists_rows_withGroups hknown hconditionsOrdered
    have hfilter : ((s.withGroups rule groups).conditionGroups.filter fun _ g => g.rule = rule) =
        added := by
      rw [Table.filter, hrows]
      exact filter_append_of_owner ConditionGroupRow.rule hgroups hrules
    have hperm : ((s.withParts rule groups actions).groupsOf rule).Perm added := by
      rw [groupsOf, inOrder]
      exact (List.mergeSort_perm _ _).trans (List.Perm.of_eq hfilter)
    rw [← hcores, RuleDefinition.ofRow, List.map_map]
    exact hperm.map _
  · obtain ⟨conditionGroups, conditions, hsame⟩ := s.withGroups_eq rule groups
    have hold : ∀ row ∈ (s.withGroups rule groups).actions.rows, row.2.rule ≠ rule := by
      rw [hsame]
      exact hactions
    have hnew : ∀ a ∈ actions.map ({ · with rule }), a.rule = rule := by
      intro a ha
      obtain ⟨_, -, rfl⟩ := List.mem_map.1 ha
      rfl
    have hfound : ((s.withParts rule groups actions).actionsOf rule).map (·.2) =
        actions.map ({ · with rule }) :=
      inOrder_filter_insertAll ActionRow.rule ActionRow.order hold hnew
        (List.pairwise_map.2 (hactionsOrdered.imp Int.le_of_lt))
    rw [RuleDefinition.ofRow, map_core_actions, hfound, List.map_map]
    rfl

end Store

end Rulebook
