import Rulebook.Exchange.Payload
import Rulebook.Proofs.Ledger.Closure

/-!
# A rule with all that belongs to it

The rows of a rule lie in four tables.  What they say together, without the numbers by which they
find each other and without the times, is the tree of the rule.  Two rules in two stores are the
same rule, written down twice, if they have the same tree; in particular they have the same payload.

A tree is put into a store by inserting its rows one after the other, and then it is read back from
them, with its groups in the order of their places (`Store.treeOf_withTree`).  Groups with the same
place stay in the order in which they were inserted, because later rows have higher numbers.

Most changes to a store concern one rule and leave all others alone, with their parts and their logs
(`Store.KeepsRule`).  Inserting a rule does because the rows of its parts refer to a number that no
row has referred to before, and deleting rules does because what is deleted along belongs to one of
them.

## Main definitions

* `RuleTree` — a rule with its parts; `Store.treeOf` reads it from the rows.
* `Store.withTree` — the store with a new rule.
* `Store.KeepsRule` — a rule, its parts and its logs are the same in another store.

## Main statements

* `Store.treeOf_withTree` — a rule that was inserted is read back.
* `Store.keepsRule_withTree`, `Store.keepsRule_delete` — inserting and deleting rules leaves other
  rules alone.
-/

namespace Rulebook

/-! ## Trees -/

/-- The condition without the number of its group. -/
def ConditionRow.detached (c : ConditionRow) : ConditionRow := { c with group := 0 }

/-- The action without the number of its rule. -/
def ActionRow.detached (a : ActionRow) : ActionRow := { a with rule := 0 }

/-- A rule with its parts, without the numbers of rows and without times.  Each group has a
place. -/
structure RuleTree where
  name : String
  description : String
  trigger : String
  order : Int
  isActive : Bool
  stopProcessing : Bool
  groups : List (GroupDraft × Int)
  actions : List ActionRow

namespace RuleTree

/-- The row of the rule itself. -/
def row (t : RuleTree) (user group : Id) (now : Calendar.Instant) : Rule where
  user
  group
  name := t.name
  description := t.description
  trigger := t.trigger
  order := t.order
  isActive := t.isActive
  stopProcessing := t.stopProcessing
  createdAt := now
  updatedAt := now

/-- One group comes before another, or has the same place. -/
def placeLE (a b : GroupDraft × Int) : Bool := a.2 ≤ b.2

/-- The tree with its groups in the order of their places. -/
def sorted (t : RuleTree) : RuleTree := { t with groups := t.groups.mergeSort placeLE }

/-- A tree whose groups are in the order of their places stays as it is. -/
theorem sorted_of_pairwise {t : RuleTree} (h : t.groups.Pairwise fun a b => a.2 ≤ b.2) :
    t.sorted = t := by
  have hsame : t.groups.mergeSort placeLE = t.groups :=
    List.mergeSort_of_pairwise (h.imp fun hle => decide_eq_true hle)
  rw [sorted, hsame]

/-- The parts of the tree are in order and have no numbers of other rows. -/
structure IsDraft (t : RuleTree) : Prop where
  conditionsOrdered : ∀ g ∈ t.groups, g.1.conditions.Pairwise fun a b => a.order < b.order
  conditionsDetached : ∀ g ∈ t.groups, ∀ c ∈ g.1.conditions, c.detached = c
  actionsOrdered : t.actions.Pairwise fun a b => a.order < b.order
  actionsDetached : ∀ a ∈ t.actions, a.detached = a

/-- The parts of the tree are in order, though several may have the same place, and have no numbers
of other rows. -/
structure IsOrdered (t : RuleTree) : Prop where
  conditions : ∀ g ∈ t.groups, g.1.conditions.Pairwise fun a b => a.order ≤ b.order
  conditionsDetached : ∀ g ∈ t.groups, ∀ c ∈ g.1.conditions, c.detached = c
  actions : t.actions.Pairwise fun a b => a.order ≤ b.order
  actionsDetached : ∀ a ∈ t.actions, a.detached = a

theorem IsDraft.isOrdered {t : RuleTree} (h : t.IsDraft) : t.IsOrdered where
  conditions g hg := (h.conditionsOrdered g hg).imp Int.le_of_lt
  conditionsDetached := h.conditionsDetached
  actions := h.actionsOrdered.imp Int.le_of_lt
  actionsDetached := h.actionsDetached

/-- The payload of a group of conditions. -/
def groupPayload (g : GroupDraft × Int) : Json :=
  .object
    [("logic_operator", .text g.1.connective), ("order", .int g.2),
      ("conditions", .list (g.1.conditions.map ConditionRow.payload))]

/-- The payload of the rule. -/
def payload (t : RuleTree) : Json :=
  .object
    [("name", .text t.name), ("description", .text t.description),
      ("trigger_type", .text t.trigger), ("order", .int t.order), ("is_active", .bool t.isActive),
      ("stop_processing", .bool t.stopProcessing),
      ("condition_groups", .list (t.groups.map groupPayload)),
      ("actions", .list (t.actions.map ActionRow.payload))]

end RuleTree

namespace Store

/-- A group of conditions with its place. -/
def groupTree (s : Store) (id : Id) (g : ConditionGroupRow) : GroupDraft × Int :=
  (⟨g.connective, (s.conditionsOf id).map fun (_, c) => c.detached⟩, g.order)

/-- The tree of a stored rule. -/
def treeOf (s : Store) (id : Id) (r : Rule) : RuleTree where
  name := r.name
  description := r.description
  trigger := r.trigger
  order := r.order
  isActive := r.isActive
  stopProcessing := r.stopProcessing
  groups := (s.groupsOf id).map fun (id, g) => s.groupTree id g
  actions := (s.actionsOf id).map fun (_, a) => a.detached

/-- The payload of a rule is that of its tree. -/
theorem payloadOf_eq (s : Store) (id : Id) (r : Rule) :
    s.payloadOf id r = (s.treeOf id r).payload := by
  have hgroup : ∀ row : Id × ConditionGroupRow,
      s.groupPayload row.1 row.2 = RuleTree.groupPayload (s.groupTree row.1 row.2) := by
    intro row
    rw [groupPayload, RuleTree.groupPayload, groupTree, List.map_map]
    rfl
  rw [payloadOf, RuleTree.payload, treeOf, List.map_map, List.map_map,
    List.map_congr_left fun row _ => hgroup row]
  rfl

/-- The groups of a stored tree are in the order of their places. -/
theorem pairwise_groups_treeOf (s : Store) (id : Id) (r : Rule) :
    (s.treeOf id r).groups.Pairwise fun a b => a.2 ≤ b.2 :=
  List.pairwise_map.2 (pairwise_place_inOrder ConditionGroupRow.order _)

/-- The parts of a stored tree are in order. -/
theorem isOrdered_treeOf (s : Store) (id : Id) (r : Rule) : (s.treeOf id r).IsOrdered where
  conditions g hg := by
    obtain ⟨row, -, rfl⟩ := List.mem_map.1 hg
    exact List.pairwise_map.2 (pairwise_place_inOrder ConditionRow.order _)
  conditionsDetached g hg c hc := by
    obtain ⟨row, -, rfl⟩ := List.mem_map.1 hg
    obtain ⟨_, -, rfl⟩ := List.mem_map.1 hc
    rfl
  actions := List.pairwise_map.2 (pairwise_place_inOrder ActionRow.order _)
  actionsDetached a ha := by
    obtain ⟨_, -, rfl⟩ := List.mem_map.1 ha
    rfl

/-- The store with a new rule. -/
def withTree (user group : Id) (now : Calendar.Instant) (t : RuleTree) (s : Store) : Store :=
  { s with rules := s.rules.insert (t.row user group now) }.withParts s.rules.nextId t.groups
    t.actions

end Store

/-! ## Rows with the same place -/

section Sorting

variable {α : Type} {rows : List (Id × α)}

/-- Where numbers ascend, a row comes before another exactly if its number is not higher. -/
theorem index_le_iff (hascending : rows.Pairwise fun a b => a.1 < b.1) {a b : Id × α} {i j : Nat}
    (ha : rows[i]? = some a) (hb : rows[j]? = some b) : i ≤ j ↔ a.1 ≤ b.1 := by
  obtain ⟨hi, rfl⟩ := List.getElem?_eq_some_iff.1 ha
  obtain ⟨hj, rfl⟩ := List.getElem?_eq_some_iff.1 hb
  have hlt := List.pairwise_iff_getElem.1 hascending
  constructor
  · intro hle
    rcases Nat.lt_or_eq_of_le hle with hij | rfl
    · exact Int.le_of_lt (hlt i j hi hj hij)
    · exact Int.le_refl _
  · intro hle
    by_contra hji
    exact Int.not_le.2 (hlt j i hj hi (Nat.lt_of_not_le hji)) hle

/-- Between equal keys the number behind them decides. -/
theorem lex_append_eq_false_iff {k l : List Int} (hlength : k.length = l.length) (m n : Int) :
    (l ++ [n]).lex (k ++ [m]) = false ↔ k.lex l = true ∨ k = l ∧ m ≤ n := by
  induction k generalizing l with
  | nil =>
      obtain rfl := List.length_eq_zero_iff.1 hlength.symm
      simp
  | cons a k ih =>
      cases l with
      | nil => cases hlength
      | cons b l =>
          have hrest := ih (Nat.succ.inj hlength)
          rw [List.cons_append, List.cons_append, List.cons_lex_cons, List.cons_lex_cons,
            List.cons.injEq]
          rcases Int.lt_trichotomy a b with hlt | rfl | hgt
          · simp [hlt, Int.not_lt.2 (Int.le_of_lt hlt), Int.ne_of_gt hlt]
          · simpa using hrest
          · simp [hgt, Int.not_lt.2 (Int.le_of_lt hgt), Int.ne_of_gt hgt]

/-- Putting rows in order by a key and their number is putting them in order by the key alone, as
long as the numbers ascend to begin with. -/
theorem inOrder_append_eq_mergeSort (key : α → List Int)
    (hlength : ∀ a b, (key a).length = (key b).length)
    (hascending : rows.Pairwise fun a b => a.1 < b.1) :
    inOrder (fun row => key row.2 ++ [row.1]) rows =
      rows.mergeSort fun a b => !(key b.2).lex (key a.2) := by
  have hindexed : (rows.zipIdx.mergeSort (List.zipIdxLE fun a b : Id × α =>
      !(key b.2).lex (key a.2))).map (·.1) = rows.mergeSort fun a b => !(key b.2).lex (key a.2) :=
    List.mergeSort_zipIdx
  rw [← hindexed, inOrder]
  conv_lhs => rw [← List.zipIdx_map_fst 0 rows]
  refine (List.map_mergeSort fun a ha b hb => ?_).symm
  have hindex := index_le_iff hascending (List.mem_zipIdx_iff_getElem?.1 ha)
    (List.mem_zipIdx_iff_getElem?.1 hb)
  rw [Bool.eq_iff_iff, Bool.not_eq_true', lex_append_eq_false_iff (hlength _ _), ← hindex,
    List.zipIdxLE]
  generalize hba : (key b.1.2).lex (key a.1.2) = later
  generalize hab : (key a.1.2).lex (key b.1.2) = earlier
  cases later with
  | false =>
      cases earlier with
      | false => simp [eq_of_lex_eq_false hab hba]
      | true => simp
  | true =>
      have hne : key a.1.2 ≠ key b.1.2 := by
        intro hsame
        rw [hsame] at hba
        cases hba.symm.trans (lex_asymm hba)
      obtain rfl : earlier = false := hab.symm.trans (lex_asymm hba)
      simp [hne]

/-- Putting rows in order by place and number is putting them in order by place alone. -/
theorem inOrder_eq_mergeSort (place : α → Int)
    (hascending : rows.Pairwise fun a b => a.1 < b.1) :
    inOrder (fun row => [place row.2, row.1]) rows =
      rows.mergeSort fun a b => decide (place a.2 ≤ place b.2) := by
  refine (inOrder_append_eq_mergeSort (fun a => [place a]) (fun _ _ => rfl) hascending).trans ?_
  congr 1
  funext a b
  rw [List.cons_lex_cons]
  rcases Int.lt_or_le (place b.2) (place a.2) with hlt | hle
  · simp [hlt, Int.not_le.2 hlt]
  · simp [hle, Int.not_lt.2 hle]

end Sorting

/-! ## Reading a new rule back -/

namespace Store

variable {s : Store} {rule : Id}

/-- A new group is read back as it was given. -/
theorem groupTree_withGroup (rule : Id)
    (hknown : ∀ row ∈ s.conditions.rows, row.2.group ≤ s.conditionGroups.lastId)
    {g : GroupDraft × Int} (hordered : g.1.conditions.Pairwise fun a b => a.order ≤ b.order)
    (hdetached : ∀ c ∈ g.1.conditions, c.detached = c) :
    (s.withGroup ⟨rule, g.1.connective, g.2⟩ g.1.conditions).groupTree s.conditionGroups.nextId
      ⟨rule, g.1.connective, g.2⟩ = g := by
  have hold : ∀ row ∈ s.conditions.rows, row.2.group ≠ s.conditionGroups.nextId :=
    fun row hrow => Int.ne_of_lt (Int.lt_add_one_of_le (hknown row hrow))
  have hnew : ∀ c ∈ g.1.conditions.map ({ · with group := s.conditionGroups.nextId }),
      c.group = s.conditionGroups.nextId := by
    intro c hc
    obtain ⟨_, -, rfl⟩ := List.mem_map.1 hc
    rfl
  have hfound : ((s.withGroup ⟨rule, g.1.connective, g.2⟩ g.1.conditions).conditionsOf
      s.conditionGroups.nextId).map (·.2) =
      g.1.conditions.map ({ · with group := s.conditionGroups.nextId }) :=
    inOrder_filter_insertAll ConditionRow.group ConditionRow.order hold hnew
      (List.pairwise_map.2 hordered)
  have hconditions : ((s.withGroup ⟨rule, g.1.connective, g.2⟩ g.1.conditions).conditionsOf
      s.conditionGroups.nextId).map (fun row => row.2.detached) = g.1.conditions :=
    calc _ = (((s.withGroup ⟨rule, g.1.connective, g.2⟩ g.1.conditions).conditionsOf
            s.conditionGroups.nextId).map (·.2)).map ConditionRow.detached := by
          rw [List.map_map]
          rfl
      _ = g.1.conditions.map ConditionRow.detached := by
          rw [hfound, List.map_map]
          rfl
      _ = g.1.conditions := (List.map_congr_left hdetached).trans (List.map_id _)
  rw [groupTree, hconditions]

/-- New groups are read back in the order in which they were given. -/
theorem exists_groupTrees_withGroups (rule : Id)
    (hknown : ∀ row ∈ s.conditions.rows, row.2.group ≤ s.conditionGroups.lastId)
    {groups : List (GroupDraft × Int)}
    (hordered : ∀ g ∈ groups, g.1.conditions.Pairwise fun a b => a.order ≤ b.order)
    (hdetached : ∀ g ∈ groups, ∀ c ∈ g.1.conditions, c.detached = c) :
    ∃ added, (s.withGroups rule groups).conditionGroups.rows = s.conditionGroups.rows ++ added ∧
      (∀ row ∈ added, row.2.rule = rule) ∧
      added.map (fun row => (s.withGroups rule groups).groupTree row.1 row.2) = groups := by
  induction groups generalizing s with
  | nil => exact ⟨[], (List.append_nil _).symm, nofun, rfl⟩
  | cons g rest ih =>
      obtain ⟨hfirst, hrest⟩ := List.forall_mem_cons.1 hordered
      obtain ⟨hfirstDetached, hrestDetached⟩ := List.forall_mem_cons.1 hdetached
      obtain ⟨t, ht⟩ : ∃ t, t = s.withGroup ⟨rule, g.1.connective, g.2⟩ g.1.conditions := ⟨_, rfl⟩
      have hstep : s.withGroups rule (g :: rest) = t.withGroups rule rest := by
        rw [ht]
        rfl
      have hlast : t.conditionGroups.lastId = s.conditionGroups.nextId := by
        rw [ht]
        rfl
      obtain ⟨added, hrows, hrules, htrees⟩ :=
        ih (ht ▸ known_withGroup hknown _ _) hrest hrestDetached
      refine ⟨(s.conditionGroups.nextId, ⟨rule, g.1.connective, g.2⟩) :: added, ?_,
        List.forall_mem_cons.2 ⟨rfl, hrules⟩, ?_⟩
      · rw [hstep, hrows, ht]
        simp [withGroup, Table.insert]
      · have hsame := groupTree_withGroup rule hknown hfirst hfirstDetached
        rw [← ht] at hsame
        rw [hstep, List.map_cons, htrees, groupTree,
          conditionsOf_withGroups (Int.le_of_eq hlast.symm)]
        exact congrArg (· :: rest) hsame

/-- A new rule changes the tables of rules and of their parts, and no other. -/
theorem withTree_eq (user group : Id) (now : Calendar.Instant) (t : RuleTree) (s : Store) :
    ∃ conditionGroups conditions, s.withTree user group now t =
      { s with
        rules := s.rules.insert (t.row user group now)
        actions := s.actions.insertAll (t.actions.map ({ · with rule := s.rules.nextId }))
        conditionGroups, conditions } := by
  obtain ⟨conditionGroups, conditions, hsame⟩ :=
    { s with rules := s.rules.insert (t.row user group now) }.withGroups_eq s.rules.nextId t.groups
  refine ⟨conditionGroups, conditions, ?_⟩
  rw [withTree, withParts, hsame]

theorem rules_withTree (user group : Id) (now : Calendar.Instant) (t : RuleTree) (s : Store) :
    (s.withTree user group now t).rules = s.rules.insert (t.row user group now) := by
  obtain ⟨conditionGroups, conditions, hsame⟩ := s.withTree_eq user group now t
  rw [hsame]

/-- A rule that was inserted is found under the next number. -/
theorem find?_withTree (user group : Id) (now : Calendar.Instant) (t : RuleTree) (s : Store)
    (id : Id) : (s.withTree user group now t).rules.find? id =
      if id = s.rules.nextId then some (t.row user group now) else s.rules.find? id := by
  rw [rules_withTree]
  exact Table.find?_insert _ _ id

/-- The rule has no parts, and conditions refer to numbers that were given out. -/
structure IsBare (s : Store) (rule : Id) : Prop where
  groups : ∀ row ∈ s.conditionGroups.rows, row.2.rule ≠ rule
  actions : ∀ row ∈ s.actions.rows, row.2.rule ≠ rule
  conditions : ∀ row ∈ s.conditions.rows, row.2.group ≤ s.conditionGroups.lastId

/-- A rule that is not there yet has no parts. -/
theorem PartsKnown.isBare_insert (h : s.PartsKnown) (r : Rule) :
    IsBare { s with rules := s.rules.insert r } s.rules.nextId where
  groups row hrow := Int.ne_of_lt (Int.lt_add_one_of_le (h.groups row hrow))
  actions row hrow := Int.ne_of_lt (Int.lt_add_one_of_le (h.actions row hrow))
  conditions := h.conditions

/-- The groups that were added to a rule without parts. -/
theorem groupTrees_withParts (hbare : s.IsBare rule) {t : RuleTree} (ht : t.IsOrdered) :
    ((s.withParts rule t.groups t.actions).groupsOf rule).map
      (fun row => (s.withParts rule t.groups t.actions).groupTree row.1 row.2) =
        t.sorted.groups := by
  obtain ⟨added, hrows, hrules, htrees⟩ := exists_groupTrees_withGroups (s := s) rule
    hbare.conditions ht.conditions ht.conditionsDetached
  have hmine : ((s.withParts rule t.groups t.actions).conditionGroups.filter fun _ g =>
      g.rule = rule) = added := by
    have hfilter := filter_append_of_owner ConditionGroupRow.rule hbare.groups hrules
    rw [Table.filter]
    exact (congrArg (List.filter _) hrows).trans hfilter
  have hascending : added.Pairwise fun a b => a.1 < b.1 := by
    have hall := (s.withGroups rule t.groups).conditionGroups.ascending
    rw [hrows] at hall
    exact (List.pairwise_append.1 hall).2.1
  have hsorted : (added.mergeSort fun a b => decide (a.2.order ≤ b.2.order)).map
      (fun row => (s.withGroups rule t.groups).groupTree row.1 row.2) =
        (added.map fun row => (s.withGroups rule t.groups).groupTree row.1 row.2).mergeSort
          RuleTree.placeLE := List.map_mergeSort fun a _ b _ => rfl
  rw [htrees] at hsorted
  rw [groupsOf, hmine, inOrder_eq_mergeSort ConditionGroupRow.order hascending]
  exact hsorted

/-- The actions that were added to a rule without parts. -/
theorem actions_withParts (hbare : s.IsBare rule) {t : RuleTree} (ht : t.IsOrdered) :
    ((s.withParts rule t.groups t.actions).actionsOf rule).map (fun row => row.2.detached) =
      t.actions := by
  obtain ⟨conditionGroups, conditions, hsame⟩ := s.withGroups_eq rule t.groups
  have hnew : ∀ a ∈ t.actions.map ({ · with rule }), a.rule = rule := by
    intro a ha
    obtain ⟨_, -, rfl⟩ := List.mem_map.1 ha
    rfl
  have hfound : ((s.withParts rule t.groups t.actions).actionsOf rule).map (·.2) =
      t.actions.map ({ · with rule }) := by
    rw [withParts, hsame]
    exact inOrder_filter_insertAll ActionRow.rule ActionRow.order hbare.actions hnew
      (List.pairwise_map.2 ht.actions)
  calc _ = (((s.withParts rule t.groups t.actions).actionsOf rule).map (·.2)).map
          ActionRow.detached := by
        rw [List.map_map]
        rfl
    _ = t.actions.map ActionRow.detached := by
        rw [hfound, List.map_map]
        rfl
    _ = t.actions := (List.map_congr_left ht.actionsDetached).trans (List.map_id _)

/-- A rule that was inserted is read back, with its groups in the order of their places. -/
theorem treeOf_withTree (hknown : s.PartsKnown) {t : RuleTree} (ht : t.IsOrdered) (user group : Id)
    (now : Calendar.Instant) :
    (s.withTree user group now t).treeOf s.rules.nextId (t.row user group now) = t.sorted := by
  have hbare := hknown.isBare_insert (t.row user group now)
  have hgroups := groupTrees_withParts hbare ht
  have hactions := actions_withParts hbare ht
  rw [treeOf, withTree, hgroups, hactions]
  rfl

/-! ## Rules that are left alone -/

/-- The rule with this number, its parts and its logs are the same in both stores. -/
structure KeepsRule (s t : Store) (id : Id) : Prop where
  row : t.rules.find? id = s.rules.find? id
  groups : t.groupsOf id = s.groupsOf id
  conditions : ∀ row ∈ s.groupsOf id, t.conditionsOf row.1 = s.conditionsOf row.1
  actions : t.actionsOf id = s.actionsOf id
  logs : (t.logs.filter fun _ l => l.rule = id) = s.logs.filter fun _ l => l.rule = id

namespace KeepsRule

variable {t u : Store} {id : Id}

theorem refl (s : Store) (id : Id) : s.KeepsRule s id := ⟨rfl, rfl, fun _ _ => rfl, rfl, rfl⟩

theorem trans (h : s.KeepsRule t id) (k : t.KeepsRule u id) : s.KeepsRule u id where
  row := k.row.trans h.row
  groups := k.groups.trans h.groups
  conditions row hrow :=
    (k.conditions row (h.groups ▸ hrow)).trans (h.conditions row hrow)
  actions := k.actions.trans h.actions
  logs := k.logs.trans h.logs

/-- A rule that is left alone has the same tree. -/
theorem treeOf_eq (h : s.KeepsRule t id) (r : Rule) : t.treeOf id r = s.treeOf id r := by
  have hgroups : (t.groupsOf id).map (fun row => t.groupTree row.1 row.2) =
      (s.groupsOf id).map fun row => s.groupTree row.1 row.2 := by
    rw [h.groups]
    refine List.map_congr_left fun row hrow => ?_
    rw [groupTree, groupTree, h.conditions row hrow]
  rw [treeOf, treeOf, hgroups, h.actions]

end KeepsRule

theorem conditionGroups_withGroups (s : Store) (rule : Id) (groups : List (GroupDraft × Int)) :
    (s.withGroups rule groups).conditionGroups =
      s.conditionGroups.insertAll (groups.map fun g => ⟨rule, g.1.connective, g.2⟩) := by
  induction groups generalizing s with
  | nil => rfl
  | cons g rest ih => exact ih _

/-- New groups bring new conditions, and nothing happens to the old ones. -/
theorem conditions_withGroups (s : Store) (rule : Id) (groups : List (GroupDraft × Int)) :
    ∃ rows, (s.withGroups rule groups).conditions = s.conditions.insertAll rows := by
  induction groups generalizing s with
  | nil => exact ⟨[], rfl⟩
  | cons g rest ih =>
      obtain ⟨rows, hrows⟩ := ih (s.withGroup ⟨rule, g.1.connective, g.2⟩ g.1.conditions)
      exact ⟨_, hrows.trans (Table.insertAll_append _ _ rows).symm⟩

/-- Adding parts to a rule leaves all other rules alone. -/
theorem keepsRule_withParts {id : Id} (hne : id ≠ rule) (groups : List (GroupDraft × Int))
    (actions : List ActionRow) : s.KeepsRule (s.withParts rule groups actions) id := by
  obtain ⟨conditionGroups, conditions, hsame⟩ := s.withGroups_eq rule groups
  refine ⟨?_, ?_, fun row hrow => ?_, ?_, ?_⟩
  · rw [withParts, hsame]
  · have hgroups : (s.withParts rule groups actions).conditionGroups = s.conditionGroups.insertAll
        (groups.map fun g => ⟨rule, g.1.connective, g.2⟩) :=
      s.conditionGroups_withGroups rule groups
    rw [groupsOf, hgroups, filter_insertAll_of_ne ConditionGroupRow.rule]
    · rfl
    · intro g hg
      obtain ⟨_, -, rfl⟩ := List.mem_map.1 hg
      exact hne.symm
  · have hmem := (List.mem_filter.1 (List.mem_mergeSort.1 hrow)).1
    exact conditionsOf_withGroups (s.conditionGroups.le_lastId row hmem) groups
  · rw [actionsOf, withParts, hsame]
    dsimp only
    rw [filter_insertAll_of_ne ActionRow.rule]
    · rfl
    · intro a ha
      obtain ⟨_, -, rfl⟩ := List.mem_map.1 ha
      exact hne.symm
  · rw [withParts, hsame]

/-- Inserting a rule leaves all other rules alone. -/
theorem keepsRule_withTree {id : Id} (hne : id ≠ s.rules.nextId) (user group : Id)
    (now : Calendar.Instant) (t : RuleTree) : s.KeepsRule (s.withTree user group now t) id := by
  have hrow : s.KeepsRule { s with rules := s.rules.insert (t.row user group now) } id :=
    ⟨by rw [Table.find?_insert, if_neg hne], rfl, fun _ _ => rfl, rfl, rfl⟩
  exact hrow.trans (keepsRule_withParts hne t.groups t.actions)

/-! ## Deleting rules -/

theorem reach_nil {α : Type} (t : Table α) {belongs : α → Bool} (h : ∀ a, belongs a = false) :
    reach t [] belongs = [] := by
  simp [reach, Table.filter, h]

/-- Deleting rules takes their parts and logs along and nothing else. -/
theorem doomed_rules (s : Store) (gone : List Id) :
    s.doomed { rules := gone } =
      let rules := reach s.rules gone fun _ => false
      let conditionGroups := reach s.conditionGroups [] fun g => rules.contains g.rule
      { rules, conditionGroups
        conditions := reach s.conditions [] fun c => conditionGroups.contains c.group
        actions := reach s.actions [] fun a => rules.contains a.rule
        logs := reach s.logs [] fun l => rules.contains l.rule } := by
  simp [doomed, reach_nil]

theorem mem_reach_iff {α : Type} {t : Table α} {chosen : List Id} {belongs : α → Bool} {id : Id} :
    id ∈ reach t chosen belongs ↔
      ∃ a, t.find? id = some a ∧ (id ∈ chosen ∨ belongs a = true) := by
  rw [reach, Table.filter, List.mem_map]
  constructor
  · rintro ⟨⟨n, a⟩, hmem, rfl⟩
    obtain ⟨hrow, htest⟩ := List.mem_filter.1 hmem
    exact ⟨a, Table.find?_eq_some_of_mem hrow, by simpa using htest⟩
  · rintro ⟨a, hrow, htest⟩
    refine ⟨(id, a), List.mem_filter.2 ⟨Table.mem_rows_of_find? hrow, ?_⟩, rfl⟩
    simpa using htest

/-- Rows that pass a test are all still there if none of those that are gone passes it. -/
theorem filter_without {α : Type} {t : Table α} {gone : List Id} {test : α → Bool}
    (h : ∀ id a, t.find? id = some a → test a = true → id ∉ gone) :
    (without t gone).filter (fun _ a => test a) = t.filter fun _ a => test a :=
  Table.filter_remove fun id a hfind htest => by simpa using h id a hfind htest

/-- Deleting rules leaves all others alone. -/
theorem keepsRule_delete {gone : List Id} {id : Id} (hid : id ∉ gone) :
    s.KeepsRule (s.delete { rules := gone }) id := by
  have hstays : id ∉ reach s.rules gone fun _ => false := by
    rw [mem_reach_iff]
    rintro ⟨_, -, hgone | hfalse⟩
    · exact hid hgone
    · cases hfalse
  have hmine : ∀ {α : Type} {t : Table α} (owner : α → Id) (n : Id) (a : α),
      t.find? n = some a → decide (owner a = id) = true →
        n ∉ reach t [] fun a => (reach s.rules gone fun _ => false).contains (owner a) := by
    intro α t owner n a hfind hown hgone
    obtain ⟨b, hb, hnone | hgone⟩ := mem_reach_iff.1 hgone
    · cases hnone
    · obtain rfl : a = b := Option.some.inj (hfind.symm.trans hb)
      rw [of_decide_eq_true hown] at hgone
      exact hstays (List.contains_iff_mem.1 hgone)
  have hdelete : s.delete { rules := gone } = s.removeDoomed (s.doomed { rules := gone }) := rfl
  rw [hdelete, doomed_rules]
  refine ⟨?_, ?_, fun row hrow => ?_, ?_, ?_⟩
  · have hrules : (without s.rules (reach s.rules gone fun _ => false)).find? id =
        s.rules.find? id := by
      ext r
      rw [find?_without]
      exact and_iff_left hstays
    exact hrules
  · exact congrArg (inOrder _) (filter_without fun n g => hmine ConditionGroupRow.rule n g)
  · refine congrArg (inOrder _) (filter_without fun n c hfind hown hgone => ?_)
    obtain ⟨hmem, howner⟩ := List.mem_filter.1 (List.mem_mergeSort.1 hrow)
    obtain ⟨b, hb, hnone | hgone⟩ := mem_reach_iff.1 hgone
    · cases hnone
    · obtain rfl : c = b := Option.some.inj (hfind.symm.trans hb)
      rw [of_decide_eq_true hown] at hgone
      exact hmine ConditionGroupRow.rule row.1 row.2 (Table.find?_eq_some_of_mem hmem) howner
        (List.contains_iff_mem.1 hgone)
  · exact congrArg (inOrder _) (filter_without fun n a => hmine ActionRow.rule n a)
  · exact filter_without fun n l => hmine Log.rule n l

end Store

end Rulebook
