import Rulebook.Proofs.Exchange.Description
import Rulebook.Proofs.Exchange.Replacement
import Rulebook.Proofs.Json.RoundTrip

/-!
# Exports are imported in full

What a user exports another one can import, and then has the same groups with the same rules, run in
the same order: an export of theirs shows the same.  Nothing is refused on the way, because the
payload of a rule describes the rule, and nothing is put in place of something else, as long as no
two groups and no two rules of a group have the same name.  Names are all an import has to tell them
apart, and where they do not, rules get lost (`twins_are_lost`).

The importing user has no groups to begin with, so every entry adds a group behind the others and
its rules behind one another.  They are exported in the order in which they are run, and this is the
order in which they are added; hence the new numbers ascend with the old places, and putting the
rows in order again changes nothing.

## Main definitions

* `Shelf` — a group with its rules; `Store.shelves` are those of a user.
* `Shelf.IsPortable`, `Store.HasNames` — what it takes for an export to be imported in full.
* `Store.treesIn`, `Store.holdings` — rules and groups in the order in which they were added.

## Main statements

* `Store.read_exportOf` — the text of an export is read back.
* `Store.importPlan_entries` — shelves are added one behind the other.
* `export_then_import` — exports are imported in full.
-/

namespace Rulebook

open Program

section

/-! ## Rows in order -/

section Rows

variable {α : Type} {rows : List (Id × α)}

theorem Table.ascending_filter (t : Table α) (test : Id → α → Bool) :
    (t.filter test).Pairwise fun a b => a.1 < b.1 :=
  t.ascending.filter _

end Rows

/-! ## Shelves -/

/-- A group of rules with its rules. -/
structure Shelf where
  group : Group
  rules : List RuleTree

variable [Host]

namespace Shelf

/-- The shelf in an export. -/
def entry (x : Shelf) : Json :=
  .object
    [("name", .text x.group.name), ("description", .text x.group.description),
      ("order", .int x.group.order), ("is_active", .bool x.group.isActive),
      ("rules", .list (x.rules.map RuleTree.payload))]

/-- The shelf can be set up elsewhere: its number fits into a column, and each of its rules can be
read as the rule. -/
structure IsPortable (x : Shelf) : Prop where
  order : Column.fits x.group.order = true
  rules : ∀ t ∈ x.rules, t.IsPortable

/-- No two rules have the same name. -/
def HasNames (x : Shelf) : Prop := (x.rules.map RuleTree.name).Nodup

/-- The shelf as a user has it who imported it. -/
def held (user : Id) (now : Calendar.Instant) (x : Shelf) : Group × List (Id × RuleTree) :=
  ({ x.group with user, updatedAt := now }, x.rules.map fun t => (user, t.renumbered))

/-- The rules are in order, and so are the groups of conditions of each. -/
structure IsInOrder (x : Shelf) : Prop where
  rules : x.rules.Pairwise fun a b => a.order ≤ b.order
  groups : ∀ t ∈ x.rules, t.groups.Pairwise fun a b => a.2 ≤ b.2

end Shelf

namespace Store

variable {s : Store} {user : Id}

/-- The shelf of a group: its rules in the order in which they are run. -/
def shelfOf (s : Store) (id : Id) (g : Group) : Shelf :=
  ⟨g, (s.rulesIn id).map fun (id, r) => s.treeOf id r⟩

/-- The shelves of a user, in the order in which their groups are run. -/
def shelves (s : Store) (user : Id) : List Shelf :=
  (s.ruleGroupsOf user).map fun (id, g) => s.shelfOf id g

omit [Host] in
theorem exportGroup_eq (s : Store) (id : Id) (g : Group) :
    s.exportGroup id g = (s.shelfOf id g).entry := by
  unfold exportGroup Shelf.entry shelfOf
  simp only [payloadOf_eq, List.map_map]
  rfl

omit [Host] in
theorem map_exportGroup (s : Store) (user : Id) :
    ((s.ruleGroupsOf user).map fun (id, g) => s.exportGroup id g) =
      (s.shelves user).map Shelf.entry := by
  unfold shelves
  rw [List.map_map]
  exact List.map_congr_left fun row _ => s.exportGroup_eq row.1 row.2

omit [Host] in
theorem isInOrder_shelfOf (s : Store) (id : Id) (g : Group) : (s.shelfOf id g).IsInOrder where
  rules := List.pairwise_map.2 (pairwise_place_inOrder Rule.order _)
  groups t ht := by
    obtain ⟨row, -, rfl⟩ := List.mem_map.1 ht
    exact s.pairwise_groups_treeOf row.1 row.2

omit [Host] in
theorem isInOrder_of_mem_shelves {x : Shelf} (hx : x ∈ s.shelves user) : x.IsInOrder := by
  obtain ⟨row, -, rfl⟩ := List.mem_map.1 hx
  exact s.isInOrder_shelfOf row.1 row.2

omit [Host] in
theorem pairwise_shelves (s : Store) (user : Id) :
    (s.shelves user).Pairwise fun a b => a.group.order ≤ b.group.order :=
  List.pairwise_map.2 (pairwise_place_inOrder Group.order _)

end Store

/-! ## The text of an export -/

omit [Host] in
/-- A number that fits into a column can be read. -/
theorem isReadable_of_fits {n : Int} (h : Column.fits n = true) : Number.IsReadable n := by
  have hbound : n.natAbs < 10 ^ 19 := by
    unfold Column.fits Column.bound at h
    simp only [Bool.and_eq_true, decide_eq_true_eq] at h
    omega
  exact Nat.lt_of_lt_of_le hbound (Nat.pow_le_pow_right (by decide) (by decide))

omit [Host] in
theorem ConditionRow.isPlain_payload (c : ConditionRow) (d : Nat) : c.payload.IsPlain (d + 1) := by
  refine .object ?_ (by simp)
  simp only [List.forall_mem_cons]
  exact ⟨.text d _, .text d _, .text d _, .bool d _, .bool d _, nofun⟩

omit [Host] in
theorem ActionRow.isPlain_payload (a : ActionRow) (d : Nat) : a.payload.IsPlain (d + 1) := by
  have hvalue : (Json.ofText? a.value).IsPlain d := by
    cases a.value with
    | none => exact .null d
    | some s => exact .text d s
  refine .object ?_ (by simp)
  simp only [List.forall_mem_cons]
  exact ⟨.text d _, hvalue, .bool d _, nofun⟩

omit [Host] in
theorem RuleTree.isPlain_groupPayload {g : GroupDraft × Int} (h : Column.fits g.2 = true)
    (d : Nat) : (groupPayload g).IsPlain (d + 3) := by
  have hconditions : (Json.list (g.1.conditions.map ConditionRow.payload)).IsPlain (d + 2) :=
    .list (List.forall_mem_map.2 fun c _ => c.isPlain_payload d)
  refine .object ?_ (by simp)
  simp only [List.forall_mem_cons]
  exact ⟨.text _ _, .int _ (isReadable_of_fits h), hconditions, nofun⟩

theorem RuleTree.isPlain_payload {t : RuleTree} (h : t.IsPortable) : t.payload.IsPlain 5 := by
  have hgroups : (Json.list (t.groups.map groupPayload)).IsPlain 4 :=
    .list (List.forall_mem_map.2 fun g hg => isPlain_groupPayload (h.groups g hg).1 0)
  have hactions : (Json.list (t.actions.map ActionRow.payload)).IsPlain 4 :=
    .list (List.forall_mem_map.2 fun a _ => a.isPlain_payload 2)
  refine .object ?_ (by simp)
  simp only [List.forall_mem_cons]
  exact ⟨.text _ _, .text _ _, .text _ _, .int _ (isReadable_of_fits h.order), .bool _ _,
    .bool _ _, hgroups, hactions, nofun⟩

theorem Shelf.isPlain_entry {x : Shelf} (h : x.IsPortable) : x.entry.IsPlain 7 := by
  have hrules : (Json.list (x.rules.map RuleTree.payload)).IsPlain 6 :=
    .list (List.forall_mem_map.2 fun t ht => RuleTree.isPlain_payload (h.rules t ht))
  refine .object ?_ (by simp)
  simp only [List.forall_mem_cons]
  exact ⟨.text _ _, .text _ _, .int _ (isReadable_of_fits h.order), .bool _ _, hrules, nofun⟩

/-- The text of an export is read back. -/
theorem Store.read_exportOf {s : Store} {user : Id} (u : User)
    (h : ∀ x ∈ s.shelves user, x.IsPortable) :
    Json.read (Host.room .file) (s.exportOf user u).pretty = .ok (s.exportOf user u) := by
  have hgroups : (Json.list ((s.shelves user).map Shelf.entry)).IsPlain 8 :=
    .list (List.forall_mem_map.2 fun x hx => Shelf.isPlain_entry (h x hx))
  rw [← map_exportGroup] at hgroups
  refine Json.read_pretty (d := 9) (.object ?_ (by simp))
    (Nat.le_trans (by decide) (Host.enough .file))
  simp only [List.forall_mem_cons]
  exact ⟨.text _ _, hgroups, nofun⟩

/-! ## Rules in a group -/

/-- The attempt at the payload of a rule, which is taken. -/
def ImportAttempt.taking (group : Id) (t : RuleTree) : ImportAttempt :=
  ⟨group, t.payload, .ok t.renumbered⟩

theorem importVerdict_payload {t : RuleTree} (h : t.IsPortable) :
    importVerdict t.payload = .ok (.ok t.renumbered) := by
  rw [importVerdict, RuleTree.ofDefinition_payload h]

theorem importAttempts_payloads {trees : List RuleTree} (h : ∀ t ∈ trees, t.IsPortable)
    (group : Id) :
    importAttempts group (trees.map RuleTree.payload) =
      .ok (trees.map (ImportAttempt.taking group)) := by
  induction trees with
  | nil => rfl
  | cons t rest ih =>
      obtain ⟨hfirst, hrest⟩ := List.forall_mem_cons.1 h
      rw [List.map_cons, importAttempts, List.mapM_cons, ← importAttempts, ih hrest,
        importVerdict_payload hfirst]
      rfl

namespace Store

variable {s t : Store} {user group : Id} {now : Calendar.Instant}

/-- The rules of a group with their owners, in the order in which they were added. -/
def treesIn (s : Store) (group : Id) : List (Id × RuleTree) :=
  (s.rules.filter fun _ r => r.group = group).map fun (id, r) => (r.user, s.treeOf id r)

omit [Host] in
/-- A rule with a new name is added behind the others. -/
theorem treesIn_replacing (now : Calendar.Instant) (hknown : s.PartsKnown) {tree : RuleTree}
    (htree : tree.IsDraft) (hnew : s.rulesNamed user group tree.name = []) (g : Id) :
    (s.replacing user group now tree).treesIn g =
      s.treesIn g ++ if group = g then [(user, tree.sorted)] else [] := by
  have hrules : (s.replacing user group now tree).rules =
      s.rules.insert (tree.row user group now) := by
    have hnone : (s.delete { rules := [] }).rules = s.rules := by
      have hdelete : (s.delete { rules := [] }).rules =
          without s.rules (s.doomed { rules := [] }).rules := rfl
      rw [hdelete, doomed_rules, reach_nil s.rules fun _ => rfl, without_nil]
    rw [replacing, hnew, List.map_nil, rules_withTree, hnone]
  have hold : ∀ row ∈ s.rules.filter fun _ r => r.group = g,
      (s.replacing user group now tree).treeOf row.1 row.2 = s.treeOf row.1 row.2 := by
    rintro ⟨id, r⟩ hmem
    have hrow := Table.find?_eq_some_of_mem (List.mem_filter.1 hmem).1
    refine (keepsRule_replacing hrow tree fun hnamed => ?_).treeOf_eq r
    have hfound : (id, r) ∈ s.rulesNamed user group tree.name := mem_rulesNamed.2 ⟨hrow, hnamed⟩
    rw [hnew] at hfound
    cases hfound
  have hnewTree := treeOf_replacing hknown htree user group now
  unfold treesIn
  rw [hrules]
  simp only [Table.filter, Table.insert, List.filter_append, List.map_append]
  congr 1
  · exact List.map_congr_left fun row hrow => congrArg (row.2.user, ·) (hold row hrow)
  · by_cases hgroup : group = g
    · have hmine : ([(s.rules.nextId, tree.row user group now)].filter fun row =>
          decide (row.2.group = g)) = [(s.rules.nextId, tree.row user group now)] :=
        List.filter_eq_self.2 (List.forall_mem_singleton.2 (decide_eq_true hgroup))
      rw [if_pos hgroup, hmine]
      exact congrArg (fun tree => [(user, tree)]) hnewTree
    · have hnone : ([(s.rules.nextId, tree.row user group now)].filter fun row =>
          decide (row.2.group = g)) = [] :=
        List.filter_eq_nil_iff.2 (List.forall_mem_singleton.2 (mt of_decide_eq_true hgroup))
      rw [if_neg hgroup, hnone]
      rfl

/-- Rules with new and different names are added one behind the other. -/
theorem treesIn_afterAttempts (now : Calendar.Instant) (hs : s.Hosts user)
    (hgroup : s.groups.has group = true) {trees : List RuleTree}
    (hportable : ∀ t ∈ trees, t.IsPortable)
    (hordered : ∀ t ∈ trees, t.groups.Pairwise fun a b => a.2 ≤ b.2)
    (hnames : (trees.map RuleTree.name).Nodup)
    (hnew : ∀ t ∈ trees, s.rulesNamed user group t.name = []) (g : Id) :
    (s.afterAttempts user now (trees.map (ImportAttempt.taking group))).treesIn g =
      s.treesIn g ++ if group = g then trees.map fun t => (user, t.renumbered) else [] := by
  induction trees generalizing s with
  | nil => simp [afterAttempts]
  | cons t rest ih =>
      obtain ⟨hfirst, hportable⟩ := List.forall_mem_cons.1 hportable
      obtain ⟨hsorted, hordered⟩ := List.forall_mem_cons.1 hordered
      obtain ⟨hnewFirst, hnew⟩ := List.forall_mem_cons.1 hnew
      obtain ⟨hother, hnames⟩ := List.nodup_cons.1 hnames
      have hknown := partsKnown_of_referencesHold (isClosed_iff.1 hs.closed)
      have hstep : s.afterAttempt user now (.taking group t) =
          s.replacing user group now t.renumbered := rfl
      have hlater : ∀ t' ∈ rest,
          (s.afterAttempt user now (.taking group t)).rulesNamed user group t'.name = [] := by
        intro t' ht'
        rw [hstep, rulesNamed_replacing_of_ne, hnew t' ht']
        rintro ⟨-, hname⟩
        exact hother (hname ▸ List.mem_map_of_mem (f := RuleTree.name) ht')
      have hrest := ih (hs.afterAttempt hgroup)
        ((s.afterAttempt_keeps user now (.taking group t)).2.symm ▸ hgroup) hportable hordered
        hnames hlater
      have hadded := treesIn_replacing now hknown
        (isDraft_of_importVerdict (importVerdict_payload hfirst)) hnewFirst g
      rw [RuleTree.sorted_renumbered hsorted] at hadded
      have hall : s.afterAttempts user now ((t :: rest).map (.taking group)) =
          (s.afterAttempt user now (.taking group t)).afterAttempts user now
            (rest.map (.taking group)) := rfl
      rw [hall, hrest, hstep, hadded, List.append_assoc]
      split <;> rfl

/-! ## Shelves that are added -/

omit [Host] in
/-- A new group has no rules. -/
theorem treesIn_nextId (h : s.IsClosed) : s.treesIn s.groups.nextId = [] := by
  have hnone : (s.rules.filter fun _ r => r.group = s.groups.nextId) = [] := by
    apply List.filter_eq_nil_iff.2
    intro row hrow hgroup
    have hthere := (h.rules row.1 row.2 (Table.find?_eq_some_of_mem hrow)).2
    rw [of_decide_eq_true hgroup] at hthere
    obtain ⟨g, hg⟩ := Option.isSome_iff_exists.1 hthere
    rw [Table.find?_nextId] at hg
    cases hg
  rw [treesIn, hnone]
  rfl

/-- The groups of a user with their rules, in the order in which they were added. -/
def holdings (s : Store) (user : Id) : List (Group × List (Id × RuleTree)) :=
  (s.groups.filter fun _ g => g.user = user).map fun (id, g) => (g, s.treesIn id)

omit [Host] in
/-- A new group has no rules of any name. -/
theorem rulesNamed_nextId (h : s.IsClosed) (user : Id) (name : String) :
    s.rulesNamed user s.groups.nextId name = [] := by
  apply List.eq_nil_iff_forall_not_mem.2
  rintro ⟨id, r⟩ hmem
  obtain ⟨hfind, -, hgroup, -⟩ := mem_rulesNamed.1 hmem
  have hfound : (r.user, s.treeOf id r) ∈ s.treesIn s.groups.nextId :=
    List.mem_map_of_mem (f := fun row : Id × Rule => (row.2.user, s.treeOf row.1 row.2))
      (List.mem_filter.2 ⟨Table.mem_rows_of_find? hfind, decide_eq_true hgroup⟩)
  rw [treesIn_nextId h] at hfound
  cases hfound

omit [Host] in
/-- A new group comes behind the others, with the rules that were added to it. -/
theorem holdings_insert (h : s.IsClosed) {g : Group} (hmine : g.user = user)
    (hgroups : t.groups = s.groups.insert g) {added : List (Id × RuleTree)}
    (htrees : ∀ id, t.treesIn id = s.treesIn id ++ if s.groups.nextId = id then added else []) :
    t.holdings user = s.holdings user ++ [(g, added)] := by
  unfold holdings
  rw [hgroups]
  simp only [Table.filter, Table.insert, List.filter_append, List.map_append, htrees]
  congr 1
  · apply List.map_congr_left
    intro row hrow
    have hne : s.groups.nextId ≠ row.1 :=
      Int.ne_of_gt (Int.lt_add_one_of_le (s.groups.le_lastId row (List.mem_filter.1 hrow).1))
    rw [if_neg hne, List.append_nil]
  · have hnew : ([(s.groups.nextId, g)].filter fun row => decide (row.2.user = user)) =
        [(s.groups.nextId, g)] :=
      List.filter_eq_self.2 (List.forall_mem_singleton.2 (decide_eq_true hmine))
    rw [hnew, List.map_singleton, if_pos rfl, treesIn_nextId h]
    rfl

theorem importTarget_entry {x : Shelf} (hx : x.IsPortable)
    (hnew : s.groupsNamed user x.group.name = []) :
    s.importTarget user now x.entry = .ok (s.groups.nextId,
      { s with groups := s.groups.insert { x.group with user, updatedAt := now } }) := by
  have hname : x.entry.findOr "name" (.text "Imported rules") = .ok (.text x.group.name) := rfl
  have hdescription : x.entry.findOr "description" (.text "") =
      .ok (.text x.group.description) := rfl
  have horder : x.entry.findOr "order" (.int 0) = .ok (.int x.group.order) := rfl
  have hactive : x.entry.findOr "is_active" (.bool true) = .ok (.bool x.group.isActive) := rfl
  have hcalled : s.groupsCalled user (some x.group.name) = [] :=
    (groupsCalled_some s user x.group.name).trans hnew
  have hcolumns : groupFromColumns user (.text x.group.name) (.text x.group.description)
      (.int x.group.order) (.bool x.group.isActive) now =
        .ok { x.group with user, updatedAt := now } := by
    have hwhole : Column.whole "order" (.int x.group.order) = .ok (some x.group.order) := rfl
    have htruth : Column.truth (.bool x.group.isActive) = .ok (some x.group.isActive) := rfl
    rw [groupFromColumns, Column.text_bind rfl, Column.text_bind rfl, bind_of_eq_ok hwhole,
      bind_of_eq_ok htruth, bind_of_eq_ok (mapM_checkFits_of_fits hx.order)]
    rfl
  unfold importTarget
  rw [bind_of_eq_ok hname, bind_of_eq_ok hdescription, bind_of_eq_ok horder,
    bind_of_eq_ok hactive, Column.text_bind rfl, hcalled]
  dsimp only
  rw [bind_of_eq_ok hcolumns]
  rfl

/-- A shelf with a new name is added behind the others. -/
theorem importStep_entry (now : Calendar.Instant) (hs : s.Hosts user) {x : Shelf}
    (hx : x.IsPortable) (hnames : x.HasNames) (hordered : x.IsInOrder)
    (hnew : s.groupsNamed user x.group.name = []) :
    ∃ t, s.importStep user now x.entry =
        .ok (x.rules.map (ImportAttempt.taking s.groups.nextId), t) ∧
      t.groups = s.groups.insert { x.group with user, updatedAt := now } ∧
      t.holdings user = s.holdings user ++ [x.held user now] := by
  obtain ⟨u, hu⟩ : ∃ u : Store, u =
      { s with groups := s.groups.insert { x.group with user, updatedAt := now } } := ⟨_, rfl⟩
  have htarget : s.importTarget user now x.entry = .ok (s.groups.nextId, u) :=
    hu ▸ importTarget_entry hx hnew
  obtain ⟨hhosts, hthere⟩ := hs.importTarget htarget
  have htrees : ∀ id, u.treesIn id = s.treesIn id := by
    intro id
    rw [hu]
    rfl
  have hnone : ∀ t ∈ x.rules, u.rulesNamed user s.groups.nextId t.name = [] := by
    intro t _
    rw [hu]
    exact rulesNamed_nextId hs.closed user t.name
  have hgroups : (u.afterAttempts user now (x.rules.map (.taking s.groups.nextId))).groups =
      s.groups.insert { x.group with user, updatedAt := now } := by
    rw [(u.afterAttempts_keeps user now _).2, hu]
  refine ⟨u.afterAttempts user now (x.rules.map (.taking s.groups.nextId)), ?_, hgroups, ?_⟩
  · have hrules : x.entry.findOr "rules" (.list []) =
        .ok (.list (x.rules.map RuleTree.payload)) := rfl
    rw [importStep, bind_of_eq_ok htarget, bind_of_eq_ok hrules, Json.entries, bind_of_eq_ok rfl,
      bind_of_eq_ok (importAttempts_payloads hx.rules _)]
    rfl
  · refine holdings_insert hs.closed rfl hgroups fun id => ?_
    rw [treesIn_afterAttempts now hhosts hthere hx.rules hordered.groups hnames hnone, htrees]

/-- The shelves of a file are added one behind the other, and all their rules are taken. -/
theorem importPlan_entries (now : Calendar.Instant) (hs : s.Hosts user) {shelves : List Shelf}
    (hportable : ∀ x ∈ shelves, x.IsPortable) (hrules : ∀ x ∈ shelves, x.HasNames)
    (hordered : ∀ x ∈ shelves, x.IsInOrder) (hnames : (shelves.map fun x => x.group.name).Nodup)
    (hnew : ∀ x ∈ shelves, s.groupsNamed user x.group.name = []) :
    ∃ attempts t, s.importPlan user now (shelves.map Shelf.entry) = .ok (attempts, t) ∧
      (∀ a ∈ attempts, a.refusal = none) ∧
      attempts.length = (shelves.flatMap Shelf.rules).length ∧
      t.holdings user = s.holdings user ++ shelves.map (Shelf.held user now) := by
  induction shelves generalizing s with
  | nil => exact ⟨[], s, rfl, nofun, rfl, (List.append_nil _).symm⟩
  | cons x rest ih =>
      obtain ⟨hx, hportable⟩ := List.forall_mem_cons.1 hportable
      obtain ⟨hfirstNames, hrules⟩ := List.forall_mem_cons.1 hrules
      obtain ⟨hfirstOrdered, hordered⟩ := List.forall_mem_cons.1 hordered
      obtain ⟨hfirstNew, hnew⟩ := List.forall_mem_cons.1 hnew
      obtain ⟨hother, hnames⟩ := List.nodup_cons.1 hnames
      obtain ⟨u, hstep, hgroups, hfirst⟩ := importStep_entry now hs hx hfirstNames
        hfirstOrdered hfirstNew
      have hlater : ∀ y ∈ rest, u.groupsNamed user y.group.name = [] := by
        intro y hy
        have hne : x.group.name ≠ y.group.name := fun hname =>
          hother (List.mem_map.2 ⟨y, hy, hname.symm⟩)
        have hinsert := groupsNamed_insert s
          (g := { x.group with user, updatedAt := now }) rfl y.group.name
        rw [if_neg hne, hnew y hy] at hinsert
        unfold groupsNamed at hinsert ⊢
        rw [hgroups]
        exact hinsert
      obtain ⟨attempts, t, hplan, htaken, hlength, hall⟩ :=
        ih (hs.importStep hstep) hportable hrules hordered hnames hlater
      refine ⟨x.rules.map (.taking s.groups.nextId) ++ attempts, t, ?_, ?_, ?_, ?_⟩
      · rw [List.map_cons, importPlan, bind_of_eq_ok hstep, bind_of_eq_ok hplan]
        rfl
      · intro a ha
        rcases List.mem_append.1 ha with hmem | hmem
        · obtain ⟨t, -, rfl⟩ := List.mem_map.1 hmem
          rfl
        · exact htaken a hmem
      · rw [List.length_append, List.length_map, hlength, List.flatMap_cons, List.length_append]
      · rw [hall, hfirst, List.append_assoc]
        rfl

/-! ## Shelves that are exported again -/

section Holdings

variable {shelves : List Shelf} (h : s.holdings user = shelves.map (Shelf.held user now))

include h

omit [Host] in
/-- Groups that were added in the order in which they are run stand in this order. -/
theorem ruleGroupsOf_of_holdings
    (hordered : shelves.Pairwise fun a b => a.group.order ≤ b.group.order) :
    s.ruleGroupsOf user = s.groups.filter fun _ g => g.user = user := by
  refine inOrder_of_places (s.groups.ascending_filter _) ?_
  have horders : (shelves.map (Shelf.held user now)).Pairwise fun a b => a.1.order ≤ b.1.order :=
    List.pairwise_map.2 hordered
  rw [← h, holdings, List.pairwise_map] at horders
  exact horders

omit [Host] in
theorem exists_held_of_holdings {row : Id × Group}
    (hrow : row ∈ s.groups.filter fun _ g => g.user = user) :
    ∃ x ∈ shelves, x.held user now = (row.2, s.treesIn row.1) := by
  have hmem : (row.2, s.treesIn row.1) ∈ s.holdings user :=
    List.mem_map_of_mem (f := fun row : Id × Group => (row.2, s.treesIn row.1)) hrow
  rw [h] at hmem
  exact List.mem_map.1 hmem

omit [Host] in
/-- And so do the rules of each. -/
theorem rulesIn_of_holdings (hshelves : ∀ x ∈ shelves, x.IsInOrder) {row : Id × Group}
    (hrow : row ∈ s.groups.filter fun _ g => g.user = user) :
    s.rulesIn row.1 = s.rules.filter fun _ r => r.group = row.1 := by
  obtain ⟨x, hx, heq⟩ := exists_held_of_holdings h hrow
  refine inOrder_of_places (s.rules.ascending_filter _) ?_
  have horders : (x.held user now).2.Pairwise fun a b => a.2.order ≤ b.2.order :=
    List.pairwise_map.2 (hshelves x hx).rules
  rw [heq, treesIn, List.pairwise_map] at horders
  exact horders

omit [Host] in
/-- All rules of the shelves are those of the user. -/
theorem user_of_holdings {row : Id × Group}
    (hrow : row ∈ s.groups.filter fun _ g => g.user = user) {r : Id × Rule}
    (hr : r ∈ s.rules.filter fun _ r => r.group = row.1) : r.2.user = user := by
  obtain ⟨x, -, heq⟩ := exists_held_of_holdings h hrow
  have hmem : (r.2.user, s.treeOf r.1 r.2) ∈ s.treesIn row.1 :=
    List.mem_map_of_mem (f := fun row : Id × Rule => (row.2.user, s.treeOf row.1 row.2)) hr
  have hsame : x.rules.map (fun t => (user, t.renumbered)) = s.treesIn row.1 :=
    congrArg Prod.snd heq
  rw [← hsame] at hmem
  obtain ⟨t, -, hpair⟩ := List.mem_map.1 hmem
  exact (congrArg Prod.fst hpair).symm

omit [Host] in
/-- Shelves that were added in the order in which they are run are exported as they were before. -/
theorem exports_of_holdings
    (hordered : shelves.Pairwise fun a b => a.group.order ≤ b.group.order)
    (hshelves : ∀ x ∈ shelves, x.IsInOrder) :
    ((s.ruleGroupsOf user).map fun (id, g) => s.exportGroup id g) = shelves.map Shelf.entry ∧
      ∀ row ∈ s.ruleGroupsOf user, ∀ r ∈ s.rulesIn row.1, r.2.user = user := by
  rw [ruleGroupsOf_of_holdings h hordered]
  constructor
  · -- An export shows of a shelf what is held of it.
    let shown (g : Group × List (Id × RuleTree)) : Json :=
      (⟨g.1, g.2.map (·.2)⟩ : Shelf).entry
    have hrows : ∀ row ∈ s.groups.filter fun _ g => g.user = user,
        s.exportGroup row.1 row.2 = shown (row.2, s.treesIn row.1) := by
      intro row hrow
      have htrees : (s.treesIn row.1).map (·.2) =
          (s.rules.filter fun _ r => r.group = row.1).map fun row => s.treeOf row.1 row.2 := by
        rw [treesIn, List.map_map]
        rfl
      dsimp only [shown]
      rw [exportGroup_eq, shelfOf, rulesIn_of_holdings h hshelves hrow, htrees]
    have hentries : ∀ x ∈ shelves, shown (x.held user now) = x.entry := by
      intro x _
      simp [shown, Shelf.entry, Shelf.held, Function.comp_def]
    calc ((s.groups.filter fun _ g => g.user = user).map fun (id, g) => s.exportGroup id g)
        = (s.groups.filter fun _ g => g.user = user).map fun row =>
            shown (row.2, s.treesIn row.1) :=
          List.map_congr_left hrows
      _ = (s.holdings user).map shown := by
          rw [holdings, List.map_map]
          rfl
      _ = shelves.map Shelf.entry := by
          rw [h, List.map_map]
          exact List.map_congr_left hentries
  · intro row hrow r hr
    rw [rulesIn_of_holdings h hshelves hrow] at hr
    exact user_of_holdings h hrow hr

end Holdings

omit [Host] in
/-- A user without a group to run has none at all. -/
theorem no_groups_of_ruleGroupsOf (h : s.ruleGroupsOf user = []) :
    (s.groups.filter fun _ g => g.user = user) = [] := by
  have hlength := congrArg List.length h
  rw [ruleGroupsOf, inOrder, List.length_mergeSort] at hlength
  exact List.eq_nil_of_length_eq_zero hlength

omit [Host] in
theorem groupsNamed_of_no_groups (h : s.ruleGroupsOf user = []) (name : String) :
    s.groupsNamed user name = [] := by
  apply List.eq_nil_iff_forall_not_mem.2
  intro row hmem
  obtain ⟨hthere, htest⟩ := List.mem_filter.1 hmem
  have hmine : row ∈ s.groups.filter fun _ g => g.user = user :=
    List.mem_filter.2 ⟨hthere, (Bool.and_eq_true_iff.1 htest).1⟩
  rw [no_groups_of_ruleGroupsOf h] at hmine
  cases hmine

/-- No two groups of the user have the same name, and no two rules of a group. -/
structure HasNames (user : Id) (s : Store) : Prop where
  groups : ((s.shelves user).map fun x => x.group.name).Nodup
  rules : ∀ x ∈ s.shelves user, x.HasNames

end Store

/-- An export is imported in full. -/
theorem export_then_import {w : Workspace} {user other : Id} {u : User}
    (hholds : w.store.referencesHold = true) (hrow : w.store.users.find? user = some u)
    (hother : w.store.users.has other = true) (hnone : w.store.ruleGroupsOf other = [])
    (hportable : ∀ x ∈ w.store.shelves user, x.IsPortable) (hnames : w.store.HasNames user) :
    ∃ text v, (exportRules user).runOn w = (.ok text, w) ∧
      (importRules other text).runOn w =
        (.ok (.finished ((w.store.shelves user).flatMap Shelf.rules).length []), v) ∧
      ((v.store.ruleGroupsOf other).map fun (id, g) => v.store.exportGroup id g) =
        ((w.store.ruleGroupsOf user).map fun (id, g) => w.store.exportGroup id g) ∧
      ∀ row ∈ v.store.ruleGroupsOf other, ∀ r ∈ v.store.rulesIn row.1, r.2.user = other := by
  have hexport : (exportRules user).runOn w = (.ok (w.store.exportOf user u).pretty, w) := by
    rw [exportRules, runOn_bind, runOn_row, hrow]
    rfl
  have hread := Store.read_exportOf u hportable
  have hentries : (w.store.exportOf user u).findOr "rule_groups" .null =
      .ok (.list ((w.store.shelves user).map Shelf.entry)) := by
    rw [← Store.map_exportGroup]
    rfl
  have hnew : ∀ x ∈ w.store.shelves user, w.store.groupsNamed other x.group.name = [] :=
    fun x _ => Store.groupsNamed_of_no_groups hnone x.group.name
  have hw : w.store.Hosts other := ⟨Store.isClosed_iff.2 hholds, hother⟩
  obtain ⟨attempts, t, hplan, htaken, hlength, hholdings⟩ := Store.importPlan_entries w.now
    hw hportable hnames.rules (fun x => Store.isInOrder_of_mem_shelves) hnames.groups hnew
  have hfollows := follows_importData hw hentries
  rw [hplan] at hfollows
  have hrun : (importData other (w.store.exportOf user u)).runOn w =
      (.ok (ImportOutcome.countAll (.finished 0 []) attempts), { w with store := t }) := hfollows
  have hcounted : attempts.countP (·.refusal.isNone) = attempts.length :=
    List.countP_eq_length.2 fun a ha => by rw [htaken a ha]; rfl
  have hnoErrors : attempts.filterMap ImportAttempt.refusal = [] :=
    List.filterMap_eq_nil_iff.2 htaken
  rw [ImportOutcome.countAll_finished, hcounted, hnoErrors, hlength, Nat.zero_add] at hrun
  have hheld : t.holdings other = (w.store.shelves user).map (Shelf.held other w.now) := by
    rw [hholdings, Store.holdings, Store.no_groups_of_ruleGroupsOf hnone]
    rfl
  obtain ⟨hexports, howners⟩ := Store.exports_of_holdings hheld
    (w.store.pairwise_shelves user) (fun x => Store.isInOrder_of_mem_shelves)
  refine ⟨_, { w with store := t }, hexport, ?_, ?_, howners⟩
  · rw [importRules_of_read hread]
    exact hrun
  · rw [hexports, Store.map_exportGroup]

end

namespace SmallLedger

/-- Two users, of whom the first has a group of two rules and an empty group. -/
def neighbours (group name : String) : Workspace where
  store :=
    { users := (Table.insert {} ⟨"Ada", "ada@example.org", true⟩).insert
        ⟨"Ben", "ben@example.org", true⟩
      groups := (Table.insert {} ⟨1, "Shops", "", 0, true, startInstant⟩).insert
        ⟨1, group, "", 1, true, startInstant⟩
      rules := (Table.insert {} { rule with name := "Twin" }).insert { rule with name, order := 2 }
      actions := (Table.insert {} ⟨1, "set_note", some "first", 0, false⟩).insert
        ⟨2, "set_note", some "second", 0, false⟩ }
  live := {}
  now := startInstant
  settings := standardSettings

/-- A rule that sets a note. -/
def noteRule (name : String) (order : Int) (note : String) : RuleTree :=
  ⟨name, "", "manual", order, true, true, [], [⟨0, "set_note", some note, 0, false⟩]⟩

/-- The groups of the first user with their rules. -/
def shops (group name : String) : List Shelf :=
  [⟨⟨1, "Shops", "", 0, true, startInstant⟩,
      [noteRule "Twin" 1 "first", noteRule name 2 "second"]⟩,
    ⟨⟨1, group, "", 1, true, startInstant⟩, []⟩]

theorem shelves_neighbours (group name : String) :
    (neighbours group name).store.shelves 1 = shops group name := by
  let g : Group := ⟨1, "Shops", "", 0, true, startInstant⟩
  let h : Group := ⟨1, group, "", 1, true, startInstant⟩
  let first : Rule := { rule with name := "Twin" }
  let second : Rule := { rule with name, order := 2 }
  have hgroups : (neighbours group name).store.ruleGroupsOf 1 = [(1, g), (2, h)] := by
    have hids : [((1 : Id), g), ((2 : Id), h)].Pairwise fun a b => a.1 < b.1 := by simp
    have hplaces : [((1 : Id), g), ((2 : Id), h)].Pairwise fun a b => a.2.order ≤ b.2.order := by
      simp [g, h]
    exact inOrder_of_places hids hplaces
  have hrules : (neighbours group name).store.rulesIn 1 = [(1, first), (2, second)] := by
    have hids : [((1 : Id), first), ((2 : Id), second)].Pairwise fun a b => a.1 < b.1 := by simp
    have hplaces : [((1 : Id), first), ((2 : Id), second)].Pairwise fun a b =>
        a.2.order ≤ b.2.order := by
      simp [first, second, rule]
    exact inOrder_of_places hids hplaces
  have hempty : (neighbours group name).store.rulesIn 2 = [] := List.mergeSort_nil
  have hfirst : (neighbours group name).store.actionsOf 1 =
      [(1, ⟨1, "set_note", some "first", 0, false⟩)] :=
    List.mergeSort_singleton _
  have hsecond : (neighbours group name).store.actionsOf 2 =
      [(2, ⟨2, "set_note", some "second", 0, false⟩)] :=
    List.mergeSort_singleton _
  have hnone : ∀ id, (neighbours group name).store.groupsOf id = [] := fun _ => List.mergeSort_nil
  unfold Store.shelves
  rw [hgroups, List.map_cons, List.map_singleton]
  dsimp only
  unfold Store.shelfOf
  rw [hrules, hempty, List.map_cons, List.map_singleton, List.map_nil]
  dsimp only
  unfold Store.treeOf
  rw [hfirst, hsecond, hnone, hnone]
  rfl

theorem isPortable_noteRule {name : String} {order : Int} {note : String}
    (hpasses : checkDefinition (noteRule name order note).payload = .ok ())
    (hsettled : (Action.ofRow 0 ⟨0, "set_note", some note, 0, false⟩).IsSettled)
    (horder : Column.fits order = true) : (noteRule name order note).IsPortable where
  passes := hpasses
  settled := List.forall_mem_singleton.2 hsettled
  order := horder
  groups := nofun
  actions := Int.le_of_lt (by decide : (1 : Int) < Column.bound)

theorem isPortable_shops {name : String}
    (hpasses : checkDefinition (noteRule name 2 "second").payload = .ok ()) (group : String) :
    ∀ x ∈ shops group name, x.IsPortable := by
  have hfirst : (noteRule "Twin" 1 "first").IsPortable :=
    isPortable_noteRule rfl rfl (by decide)
  have hsecond : (noteRule name 2 "second").IsPortable :=
    isPortable_noteRule hpasses rfl (by decide)
  have hzero : Column.fits 0 = true := by decide
  have hone : Column.fits 1 = true := by decide
  refine List.forall_mem_cons.2 ⟨⟨hzero, ?_⟩, List.forall_mem_singleton.2 ⟨hone, nofun⟩⟩
  exact List.forall_mem_cons.2 ⟨hfirst, List.forall_mem_singleton.2 hsecond⟩

/-- What the first user exports. -/
def exported (group name : String) : Json :=
  .object
    [("user_email", .text "ada@example.org"),
      ("rule_groups", .list ((shops group name).map Shelf.entry))]

/-- How the export of the first user is imported by the second. -/
theorem import_exported {group name : String} {outcome : ImportOutcome}
    (hpasses : checkDefinition (noteRule name 2 "second").payload = .ok ())
    (h : ((importData 2 (exported group name)).runOn (neighbours group name)).1.toOption =
      some outcome) :
    ∃ text, (exportRules 1).runOn (neighbours group name) = (.ok text, neighbours group name) ∧
      (importRules 2 text).runOn (neighbours group name) =
        (.ok outcome, ((importData 2 (exported group name)).runOn (neighbours group name)).2) := by
  let ada : User := ⟨"Ada", "ada@example.org", true⟩
  have hexported : (neighbours group name).store.exportOf 1 ada = exported group name := by
    unfold Store.exportOf exported
    rw [Store.map_exportGroup, shelves_neighbours]
  have hread := Store.read_exportOf ada
    ((shelves_neighbours group name).symm ▸ isPortable_shops hpasses group)
  refine ⟨((neighbours group name).store.exportOf 1 ada).pretty, ?_, ?_⟩
  · rw [exportRules, runOn_bind, runOn_row]
    rfl
  · rw [importRules_of_read hread, hexported]
    exact runOn_of_toOption h

end SmallLedger

open SmallLedger in
/-- Two groups, of which the first has two rules, are imported by a user without groups. -/
theorem import_of_neighbours :
    ∃ text v, (exportRules 1).runOn (neighbours "Annex" "Other") =
        (.ok text, neighbours "Annex" "Other") ∧
      (importRules 2 text).runOn (neighbours "Annex" "Other") = (.ok (.finished 2 []), v) ∧
      ((v.store.ruleGroupsOf 2).map fun (id, g) => v.store.exportGroup id g) =
        (shops "Annex" "Other").map Shelf.entry := by
  have hnames : (neighbours "Annex" "Other").store.HasNames 1 := by
    constructor
    · rw [shelves_neighbours]
      decide
    · rw [shelves_neighbours]
      exact List.forall_mem_cons.2 ⟨by unfold Shelf.HasNames; decide,
        List.forall_mem_singleton.2 List.nodup_nil⟩
  have hrow : (neighbours "Annex" "Other").store.users.find? 1 =
      some ⟨"Ada", "ada@example.org", true⟩ := rfl
  have hother : (neighbours "Annex" "Other").store.users.has 2 = true := by decide +kernel
  have hshown : (((neighbours "Annex" "Other").store.ruleGroupsOf 1).map fun (id, g) =>
      (neighbours "Annex" "Other").store.exportGroup id g) =
        (shops "Annex" "Other").map Shelf.entry := by
    rw [Store.map_exportGroup, shelves_neighbours]
  obtain ⟨text, v, hexport, himport, hsame, -⟩ := export_then_import (by decide +kernel) hrow
    hother List.mergeSort_nil
    ((shelves_neighbours "Annex" "Other").symm ▸ isPortable_shops rfl "Annex") hnames
  rw [shelves_neighbours] at himport
  exact ⟨text, v, hexport, himport, hsame.trans hshown⟩

open SmallLedger in
/-- Of two rules of the same name in a group only the second is left, and two groups of the same
name become one, although nothing is reported. -/
theorem twins_are_lost :
    (∀ group name, (neighbours group name).store.shelves 1 = shops group name ∧
      (neighbours group name).store.ruleGroupsOf 2 = []) ∧
    (∀ x ∈ shops "Annex" "Twin" ++ shops "Shops" "Other", x.IsPortable) ∧
    (∃ text v,
      (exportRules 1).runOn (neighbours "Annex" "Twin") =
        (.ok text, neighbours "Annex" "Twin") ∧
      (importRules 2 text).runOn (neighbours "Annex" "Twin") = (.ok (.finished 2 []), v) ∧
      (v.store.rules.filter fun _ r => r.user = 2).map (·.2.order) = [2]) ∧
    ∃ text v,
      (exportRules 1).runOn (neighbours "Shops" "Other") =
        (.ok text, neighbours "Shops" "Other") ∧
      (importRules 2 text).runOn (neighbours "Shops" "Other") = (.ok (.finished 2 []), v) ∧
      (v.store.groups.filter fun _ g => g.user = 2).map (·.2.order) = [0] := by
  have hrules : ((importData 2 (exported "Annex" "Twin")).runOn
      (neighbours "Annex" "Twin")).1.toOption = some (.finished 2 []) := by
    decide +kernel
  have hgroups : ((importData 2 (exported "Shops" "Other")).runOn
      (neighbours "Shops" "Other")).1.toOption = some (.finished 2 []) := by
    decide +kernel
  obtain ⟨text, hexport, himport⟩ := import_exported rfl hrules
  obtain ⟨text', hexport', himport'⟩ := import_exported rfl hgroups
  refine ⟨fun group name => ⟨shelves_neighbours group name, List.mergeSort_nil⟩, ?_,
    ⟨text, _, hexport, himport, by decide +kernel⟩, text', _, hexport', himport',
    by decide +kernel⟩
  exact List.forall_mem_append.2 ⟨isPortable_shops rfl "Annex", isPortable_shops rfl "Shops"⟩

end Rulebook
