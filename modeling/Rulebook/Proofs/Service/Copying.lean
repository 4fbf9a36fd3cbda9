import Rulebook.Proofs.Service.Revising
import Rulebook.Proofs.Service.Scope

/-!
# Copying a rule

A rule is copied row by row.  Its own row is added once more under another name, then each group
with its conditions, and last the actions, all with the places that they have.  Every row is checked
on the way as if it had just been written by hand, so a copy can fail: the value of an action is
coerced again and may be refused, or become another one.  So can a name that is no text and cannot
be written as one.

What is read is the rule as it was before the first row was added.  So the rows to be added are
known from the start, and the copy is the tree of the rule, inserted under another name.  That it is
a tree again and nothing else, that its parts are its own, and that no other rule notices, is then
what is known of any tree that is inserted.

## Main definitions

* `Store.copying` — the store with a copy of a rule.
* `Store.IsCopy` — a rule is in one store what another one was in an earlier store, with new parts.

## Main statements

* `enacts_copy` — the rows that are added for a copy are those of the tree of the rule.
* `duplicateRule_copies` — a rule with settled actions is copied, and the copy is listed behind it.
-/

namespace Rulebook

open Program Calendar

section

/-! ## Adding the rows -/

/-- A pass that adds something for each entry adds it for all of them. -/
theorem enacts_forM {α : Type} {add : α → Store → Store} {f : α → Operation Unit} {items : List α}
    (hf : ∀ a ∈ items, Enacts (.ok fun s => ((), add a s)) (f a)) :
    Enacts (.ok fun s => ((), items.foldl (fun s a => add a s) s)) (items.forM f) := by
  induction items with
  | nil => exact enacts_pure ()
  | cons a rest ih =>
      obtain ⟨hfirst, hrest⟩ := List.forall_mem_cons.1 hf
      exact hfirst.andThen fun _ => ih hrest

variable [Host]

theorem enacts_copyConditions (group : Id) {rows : List (Id × ConditionRow)}
    (hfits : ∀ row ∈ rows, Column.fits row.2.order = true) :
    Enacts (.ok fun s => ((), { s with
        conditions := s.conditions.insertAll
          ((rows.map fun (_, c) => c.detached).map ({ · with group })) }))
      (copyConditions group rows) := by
  have hadd : ∀ row ∈ rows, Enacts (.ok fun s => ((), { s with
      conditions := s.conditions.insert { row.2.detached with group } }))
        (do let _ ← addCondition group (.ofRow row.1 row.2)) := by
    intro row hrow
    have hunit := (enacts_addCondition group (.ofRow row.1 row.2)).map_unit
    have hread : ConditionRow.ofCondition (.ofRow row.1 row.2) = .ok row.2.detached :=
      ConditionRow.ofCondition_draft (hfits row hrow)
    rwa [hread] at hunit
  have hall := enacts_forM hadd
  simp only [← foldl_insert_conditions, List.foldl_map]
  exact hall

theorem enacts_copyActions (rule : Id) {rows : List (Id × ActionRow)}
    (hfits : ∀ row ∈ rows, Column.fits row.2.order = true)
    (hsettled : ∀ row ∈ rows, (Action.ofRow row.1 row.2).IsSettled) :
    Enacts (.ok fun s => ((), { s with
        actions := s.actions.insertAll
          ((rows.map fun (_, a) => a.detached).map ({ · with rule })) }))
      (rows.forM fun (id, a) => do let _ ← addAction rule (.ofRow id a)) := by
  have hadd : ∀ row ∈ rows, Enacts (.ok fun s => ((), { s with
      actions := s.actions.insert { row.2.detached with rule } }))
        (do let _ ← addAction rule (.ofRow row.1 row.2)) := by
    intro row hrow
    have hunit := (enacts_addAction rule (.ofRow row.1 row.2)).map_unit
    have hread : ActionRow.ofWritten (.ofRow row.1 row.2) = .ok row.2.detached :=
      ActionRow.ofWritten_draft (hfits row hrow)
    rwa [ActionRow.ofAction_of_isSettled (hsettled row hrow), hread] at hunit
  have hall := enacts_forM hadd
  simp only [← foldl_insert_actions, List.foldl_map]
  exact hall

/-- A group is copied with the conditions that it had before the copying began. -/
theorem enacts_copyGroup (s₀ : Store) (copy id : Id) {g : ConditionGroupRow}
    (horder : Column.fits g.order = true)
    (hconditions : ∀ c ∈ s₀.conditionsOf id, Column.fits c.2.order = true) :
    Enacts (.ok fun s => ((), s.withGroup ⟨copy, (s₀.groupTree id g).1.connective,
        (s₀.groupTree id g).2⟩ (s₀.groupTree id g).1.conditions))
      (do
        let group ← addConditionGroup copy (.text g.connective) (.int g.order)
        copyConditions group (s₀.conditionsOf id)) := by
  have hgroup := enacts_addConditionGroup copy (.text g.connective) (.int g.order)
  rw [readGroupColumns_of_fits _ horder] at hgroup
  exact hgroup.andThen fun group => enacts_copyConditions group hconditions

omit [Host] in
/-- If the places in a stored tree fit, then so do those in its rows. -/
theorem RuleTree.PlacesFit.rows {s : Store} {rule : Id} {r : Rule}
    (h : (s.treeOf rule r).PlacesFit) :
    (∀ row ∈ s.groupsOf rule, Column.fits row.2.order = true ∧
      ∀ c ∈ s.conditionsOf row.1, Column.fits c.2.order = true) ∧
    ∀ row ∈ s.actionsOf rule, Column.fits row.2.order = true := by
  refine ⟨fun row hrow => ?_, fun row hrow => ?_⟩
  · have hgroup : s.groupTree row.1 row.2 ∈ (s.treeOf rule r).groups :=
      List.mem_map.2 ⟨row, hrow, rfl⟩
    exact ⟨h.groups _ hgroup, fun c hc =>
      h.conditions _ hgroup c.2.detached (List.mem_map.2 ⟨c, hc, rfl⟩)⟩
  · exact h.actions row.2.detached (List.mem_map.2 ⟨row, hrow, rfl⟩)

/-- The store with a copy of a rule. -/
def Store.copying (rule : Id) (r : Rule) (name : String) (now : Instant) (s : Store) : Store :=
  s.withTree r.user r.group now (s.treeOf rule { r with name })

/-- A copy gets its name if it is given as a text or not at all. -/
theorem Rule.exists_copyName (r : Rule) (name : Option String) :
    ∃ called, r.copyName (.ofText? name) = .ok called := by
  unfold copyName
  split
  · cases name with
    | none => exact ⟨_, Json.plain_of_hidden?_eq_none Json.hidden?_null⟩
    | some s => exact ⟨s, Json.plain_text s⟩
  · exact ⟨_, rfl⟩

section Copying

variable {s₀ : Store} {w : Workspace} {rule : Id} {r : Rule}

/-- The rows that are added for a copy are those of the tree of the rule, under another name. -/
theorem enacts_copy (hfits : (s₀.treeOf rule r).PlacesFit)
    (hsettled : ∀ row ∈ s₀.actionsOf rule, (Action.ofRow row.1 row.2).IsSettled) (name : String)
    (now : Instant) :
    Enacts (.ok fun s => (s.rules.nextId,
        s.withTree r.user r.group now (s₀.treeOf rule { r with name })))
      (do
        let copy ← addRule { r with name, createdAt := now, updatedAt := now }
        (s₀.groupsOf rule).forM fun (id, g) => do
          let group ← addConditionGroup copy (.text g.connective) (.int g.order)
          copyConditions group (s₀.conditionsOf id)
        (s₀.actionsOf rule).forM fun (id, a) => do
          let _ ← addAction copy (.ofRow id a)
        return copy) := by
  obtain ⟨hgroupsFit, hactionsFit⟩ := hfits.rows
  -- The parts are said for any number, since the number of the copy is known only when it is added.
  have hgroups : ∀ copy : Id, Enacts
      (.ok fun s => ((), s.withGroups copy (s₀.treeOf rule r).groups))
      ((s₀.groupsOf rule).forM fun (id, g) => do
        let group ← addConditionGroup copy (.text g.connective) (.int g.order)
        copyConditions group (s₀.conditionsOf id)) := by
    intro copy
    have hall := enacts_forM fun row hrow =>
      enacts_copyGroup s₀ copy row.1 (hgroupsFit row hrow).1 (hgroupsFit row hrow).2
    simp only [Store.withGroups, Store.treeOf, List.foldl_map]
    exact hall
  have hactions := fun copy => enacts_copyActions copy hactionsFit hsettled
  have hrow := enacts_insertChecked Store.rules (fun s t => { s with rules := t })
    (.ok { r with name, createdAt := now, updatedAt := now })
  exact Enacts.andThen hrow fun copy => (hgroups copy).andThen fun _ =>
    (hactions copy).andThen fun _ => enacts_pure copy

/-- Copying a rule with settled actions: its tree is inserted under another name. -/
theorem runOn_duplicateRule (hrow : w.store.rules.find? rule = some r)
    (hfits : (w.store.treeOf rule r).PlacesFit)
    (hsettled : ∀ row ∈ w.store.actionsOf rule, (Action.ofRow row.1 row.2).IsSettled)
    {name : Json} {called : String} (hname : r.copyName name = .ok called) :
    (duplicateRule rule name).runOn w =
      let s := w.store.copying rule r called w.now
      if w.isChanging || s.referencesHold then (.ok w.store.rules.nextId, { w with store := s })
      else (.error .brokenReference, w) := by
  rw [duplicateRule, runOn_bind, runOn_row, hrow]
  refine runOn_atomically_of_ok ?_
  rw [runOn_bind, runOn_get]
  dsimp only
  rw [runOn_bind, runOn_get]
  dsimp only
  rw [hname]
  exact enacts_copy hfits hsettled called w.now { w with isChanging := true } rfl

/-- A copy that fails leaves nothing behind, whatever the rule is like. -/
theorem store_duplicateRule_of_error {v : Workspace} {failure : Failure} {name : Json}
    (h : (duplicateRule rule name).runOn w = (.error failure, v)) : v.store = w.store := by
  rw [duplicateRule, runOn_bind, runOn_row] at h
  cases hrow : w.store.rules.find? rule with
  | none =>
      rw [hrow] at h
      cases h
      rfl
  | some r =>
      rw [hrow] at h
      have hback := store_atomically_of_error (congrArg Prod.fst h)
      rwa [congrArg Prod.snd h] at hback

end Copying

/-! ## The copy -/

namespace Store

variable {s : Store}

/-- A rule of a later store is a copy of a rule, under another name.  It belongs to the same user
and stands in the same group, it has the same payload and all parts at the same places, and neither
it nor any of its parts was there before. -/
structure IsCopy (s t : Store) (rule : Id) (r : Rule) (name : String) (copy : Id) (r' : Rule) :
    Prop where
  stored : t.rules.find? copy = some r'
  user : r'.user = r.user
  group : r'.group = r.group
  payload : t.payloadOf copy r' = s.payloadOf rule { r with name }
  tree : t.treeOf copy r' = s.treeOf rule { r with name }
  fresh : s.rules.lastId < copy
  freshGroups : ∀ row ∈ t.groupsOf copy, s.conditionGroups.lastId < row.1
  freshConditions : ∀ row ∈ t.groupsOf copy, ∀ c ∈ t.conditionsOf row.1,
    s.conditions.lastId < c.1
  freshActions : ∀ row ∈ t.actionsOf copy, s.actions.lastId < row.1

omit [Host] in
/-- The parts of a rule that was not there before are new rows. -/
theorem PartsKnown.fresh_withTree (h : s.PartsKnown) (user group : Id) (now : Instant)
    (t : RuleTree) :
    (∀ row ∈ (s.withTree user group now t).groupsOf s.rules.nextId,
      s.conditionGroups.lastId < row.1 ∧
        ∀ c ∈ (s.withTree user group now t).conditionsOf row.1, s.conditions.lastId < c.1) ∧
      ∀ row ∈ (s.withTree user group now t).actionsOf s.rules.nextId, s.actions.lastId < row.1 := by
  have hunknown : ∀ {n m : Id}, n ≤ m → n ≠ m + 1 :=
    fun hle => Int.ne_of_lt (Int.lt_add_one_of_le hle)
  have hgroups : (s.withTree user group now t).conditionGroups = s.conditionGroups.insertAll _ :=
    conditionGroups_withGroups _ s.rules.nextId t.groups
  obtain ⟨added, hconditions⟩ := conditions_withGroups
    { s with rules := s.rules.insert (t.row user group now) } s.rules.nextId t.groups
  obtain ⟨_, _, hsame⟩ := s.withTree_eq user group now t
  refine ⟨fun row hrow => ?_, fun row hrow => ?_⟩
  · obtain ⟨hmem, howner⟩ := List.mem_filter.1 (List.mem_mergeSort.1 hrow)
    have hfind := Table.find?_eq_some_of_mem hmem
    rw [hgroups] at hfind
    have hnew : s.conditionGroups.lastId < row.1 := by
      refine Table.lastId_lt_of_find?_insertAll hfind fun hold => ?_
      exact hunknown (h.groups row (Table.mem_rows_of_find? hold)) (of_decide_eq_true howner)
    -- An old condition would refer to a group that was known, and this one was not.
    refine ⟨hnew, fun c hc => ?_⟩
    obtain ⟨hmem, howner⟩ := List.mem_filter.1 (List.mem_mergeSort.1 hc)
    have hfind : (s.conditions.insertAll added).find? c.1 = some c.2 :=
      hconditions ▸ Table.find?_eq_some_of_mem hmem
    refine Table.lastId_lt_of_find?_insertAll hfind fun hold => ?_
    have hle := h.conditions c (Table.mem_rows_of_find? hold)
    rw [of_decide_eq_true howner] at hle
    exact Int.not_le.2 hnew hle
  · obtain ⟨hmem, howner⟩ := List.mem_filter.1 (List.mem_mergeSort.1 hrow)
    have hfind := Table.find?_eq_some_of_mem hmem
    rw [hsame] at hfind
    refine Table.lastId_lt_of_find?_insertAll hfind fun hold => ?_
    exact hunknown (h.actions row (Table.mem_rows_of_find? hold)) (of_decide_eq_true howner)

omit [Host] in
/-- What was inserted for a copy is one. -/
theorem isCopy_copying (hknown : s.PartsKnown) (rule : Id) (r : Rule) (name : String)
    (now : Instant) :
    s.IsCopy (s.copying rule r name now) rule r name s.rules.nextId
      { r with name, createdAt := now, updatedAt := now } := by
  have htree : (s.copying rule r name now).treeOf s.rules.nextId
      { r with name, createdAt := now, updatedAt := now } = s.treeOf rule { r with name } :=
    (treeOf_withTree hknown (s.isOrdered_treeOf rule _) r.user r.group now).trans
      (RuleTree.sorted_of_pairwise (s.pairwise_groups_treeOf rule _))
  obtain ⟨hgroups, hactions⟩ :=
    hknown.fresh_withTree r.user r.group now (s.treeOf rule { r with name })
  exact
    { stored := by
        rw [copying, find?_withTree, if_pos rfl]
        rfl
      user := rfl
      group := rfl
      payload := by rw [payloadOf_eq, payloadOf_eq, htree]
      tree := htree
      fresh := Int.lt_succ _
      freshGroups := fun row hrow => (hgroups row hrow).1
      freshConditions := fun row hrow => (hgroups row hrow).2
      freshActions := hactions }

omit [Host] in
/-- A copy changes the tables of rules and of their parts, and no other. -/
theorem copying_eq (rule : Id) (r : Rule) (name : String) (now : Instant) (s : Store) :
    ∃ rules conditionGroups conditions actions, s.copying rule r name now =
      { s with rules, conditionGroups, conditions, actions } := by
  obtain ⟨conditionGroups, conditions, hsame⟩ :=
    s.withTree_eq r.user r.group now (s.treeOf rule { r with name })
  exact ⟨_, _, _, _, hsame⟩

omit [Host] in
theorem IsClosed.copying {rule : Id} {r : Rule} (h : s.IsClosed)
    (hrow : s.rules.find? rule = some r) (name : String) (now : Instant) :
    (s.copying rule r name now).IsClosed := by
  obtain ⟨huser, hgroup⟩ := h.rules rule r hrow
  exact h.withTree huser hgroup now _

omit [Host] in
/-- Of two rules that take part, at the same place in the same group, the older one is listed
first. -/
theorem sublist_rulesWithIds {user a b : Id} {r r' : Rule} {ids : List Id}
    (ha : (a, r) ∈ s.candidates user) (hb : (b, r') ∈ s.candidates user)
    (hgroup : r'.group = r.group) (horder : r'.order = r.order) (hlt : a < b) (hida : a ∈ ids)
    (hidb : b ∈ ids) :
    [RuleDefinition.ofRow s a r, .ofRow s b r'].Sublist (s.rulesWithIds user ids) := by
  have hpair : [(a, r), (b, r')].Sublist (s.candidates user) := by
    refine pair_sublist_inOrder (List.mem_mergeSort.1 ha) (List.mem_mergeSort.1 hb) ?_
    simp [hgroup, horder, hlt]
  have hlisted := (hpair.filter fun row => ids.contains row.1).map
    fun row => RuleDefinition.ofRow s row.1 row.2
  have hboth : [(a, r), (b, r')].filter (fun row => ids.contains row.1) = [(a, r), (b, r')] := by
    simp [hida, hidb]
  rw [hboth] at hlisted
  exact hlisted

omit [Host] in
/-- A copy is listed behind its original. -/
theorem IsCopy.sublist_rulesWithIds {t : Store} {rule copy : Id} {r r' : Rule} {name : String}
    (h : s.IsCopy t rule r name copy r') (hrow : s.rules.find? rule = some r)
    (hkept : t.rules.find? rule = some r) (hactive : r.isActive = true) {group : Group}
    (hgroup : t.groups.find? r.group = some group) (hopen : group.isActive = true) {ids : List Id}
    (hrule : rule ∈ ids) (hcopied : copy ∈ ids) :
    [RuleDefinition.ofRow t rule r, .ofRow t copy r'].Sublist (t.rulesWithIds r.user ids) := by
  have horder : r'.order = r.order := congrArg RuleTree.order h.tree
  have hsame : r'.isActive = r.isActive := congrArg RuleTree.isActive h.tree
  refine Store.sublist_rulesWithIds (mem_candidates.2 ⟨hkept, rfl, hactive, group, hgroup, hopen⟩)
    (mem_candidates.2 ⟨h.stored, h.user, hsame.trans hactive, group, ?_, hopen⟩) h.group horder
    (Int.lt_of_le_of_lt (Table.le_lastId_of_find? hrow) h.fresh) hrule hcopied
  rw [h.group]
  exact hgroup

end Store

/-- The places of a rule that was created from a definition fit, and then those of its copies do. -/
theorem placesFit_createRule {w v : Workspace} {user rule : Id} {d : Json} {group : Option Id}
    {replace : Bool} (h : (createRule user d group replace).runOn w = (.ok rule, v))
    (hknown : w.store.PartsKnown) :
    ∃ r, v.store.rules.find? rule = some r ∧ (v.store.treeOf rule r).PlacesFit ∧
      ∀ t name copy r', v.store.IsCopy t rule r name copy r' → (t.treeOf copy r').PlacesFit := by
  obtain ⟨tree, r, htree, hrow, hstored⟩ := treeOf_createRule h hknown
  obtain ⟨_, -, hread⟩ := eq_ok_of_bind htree
  have hplaces := RuleTree.placesFit_of_read hread
  have hfits : (v.store.treeOf rule r).PlacesFit := by
    rw [hstored]
    exact ⟨fun g hg => hplaces.groups g (List.mem_mergeSort.1 hg),
      fun g hg => hplaces.conditions g (List.mem_mergeSort.1 hg), hplaces.actions⟩
  refine ⟨r, hrow, hfits, fun t name copy r' hcopy => ?_⟩
  rw [hcopy.tree]
  exact ⟨hfits.groups, hfits.conditions, hfits.actions⟩

/-- Copying a rule.  If it fails, nothing is changed.  A copy can be called what it is to be called
if that is given as a text or not at all.  A rule whose actions are settled is then copied, as its
places are such as columns hold: there is a new rule of the same user in the same group, with the
same payload but for the name, whose parts are new rows at the same places.  Every other rule, the
copied one among them, keeps its row, its parts and its logs, and no other table is changed.  If the
rule is active and in an active group, and numbers of rules are given among which are those of both,
the engine of its user lists the copy behind it. -/
theorem duplicateRule_copies {w : Workspace} {rule : Id} (name : Json) :
    (∀ failure v, (duplicateRule rule name).runOn w = (.error failure, v) → v.store = w.store) ∧
    (∀ (r : Rule) given, name = .ofText? given → ∃ called, r.copyName name = .ok called) ∧
    ∀ r, w.store.rules.find? rule = some r → w.store.PartsKnown →
      (w.store.treeOf rule r).PlacesFit →
      (∀ row ∈ w.store.actionsOf rule, (Action.ofRow row.1 row.2).IsSettled) →
      w.isChanging = true ∨ w.store.referencesHold = true →
      ∀ called, r.copyName name = .ok called →
      ∃ copy v r', (duplicateRule rule name).runOn w = (.ok copy, v) ∧
        w.store.IsCopy v.store rule r called copy r' ∧
        (∀ id, id ≠ copy → w.store.KeepsRule v.store id) ∧
        (∃ rules conditionGroups conditions actions,
          v.store = { w.store with rules, conditionGroups, conditions, actions }) ∧
        ∀ (e : Engine) numbers ids group, e.user = r.user → numbers.Lists ids → rule ∈ ids →
          copy ∈ ids → r.isActive = true → w.store.groups.find? r.group = some group →
          group.isActive = true →
          ∃ rules, (e.rulesWithIds numbers).runOn v = (.ok rules, v) ∧
            [RuleDefinition.ofRow v.store rule r, .ofRow v.store copy r'].Sublist rules := by
  refine ⟨fun failure v h => store_duplicateRule_of_error h, ?_, ?_⟩
  · rintro r given rfl
    exact r.exists_copyName given
  intro r hrow hknown hfits hsettled hfinal called hname
  have hrun := runOn_duplicateRule hrow hfits hsettled hname
  have hcopy := Store.isCopy_copying hknown rule r called w.now
  have hkeeps : ∀ id, id ≠ w.store.rules.nextId →
      w.store.KeepsRule (w.store.copying rule r called w.now) id :=
    fun id hne => Store.keepsRule_withTree hne r.user r.group w.now _
  have htables := w.store.copying_eq rule r called w.now
  have hallowed : (w.isChanging ||
      (w.store.copying rule r called w.now).referencesHold) = true := by
    rcases hfinal with hchanging | hholds
    · rw [hchanging, Bool.true_or]
    · have hclosed := (Store.isClosed_iff.2 hholds).copying hrow called w.now
      rw [Store.isClosed_iff.1 hclosed, Bool.or_true]
  -- From here on it does not matter how the store was made.
  generalize w.store.copying rule r called w.now = s
    at hrun hcopy hkeeps htables hallowed
  refine ⟨w.store.rules.nextId, { w with store := s }, _, hrun.trans (if_pos hallowed), hcopy,
    hkeeps, htables, ?_⟩
  intro e numbers ids group huser hnumbers hrule hcopied hactive hgroup hopen
  have hne : rule ≠ w.store.rules.nextId :=
    Int.ne_of_lt (Int.lt_add_one_of_le (Table.le_lastId_of_find? hrow))
  have hsame : s.groups = w.store.groups := by
    obtain ⟨_, _, _, _, rfl⟩ := htables
    rfl
  refine ⟨s.rulesWithIds r.user ids, ?_, ?_⟩
  · rw [EntryPoint.runOn_rulesWithIds_of_lists hnumbers, huser]
  · exact hcopy.sublist_rulesWithIds hrow ((hkeeps rule hne).row.trans hrow) hactive
      (hsame ▸ hgroup) hopen hrule hcopied

end

namespace SmallLedger

theorem placesFit_rule : (store.treeOf 1 rule).PlacesFit := by
  rw [treeOf_rule]
  refine ⟨nofun, nofun, fun a ha => ?_⟩
  obtain rfl := List.mem_singleton.1 ha
  decide

/-- The copy of the rule of the ledger gets the number two and is listed behind it, even if it is
named first. -/
theorem copy_rule :
    store.PartsKnown ∧ (store.treeOf 1 rule).PlacesFit ∧
    ∃ v r', (duplicateRule 1 .null).runOn workspace = (.ok 2, v) ∧
      store.IsCopy v.store 1 rule "Food (Copy)" 2 r' ∧
      ∃ rules, (({ user := 1, isLogging := true } : Engine).rulesWithIds
          (.list [.int 2, .int 1])).runOn v = (.ok rules, v) ∧
        [RuleDefinition.ofRow v.store 1 rule, .ofRow v.store 2 r'].Sublist rules := by
  have hlists : Json.Lists (.list [.int 2, .int 1]) [2, 1] := ⟨rfl, by decide⟩
  have hholds : workspace.store.referencesHold = true := by decide +kernel
  have hknown : workspace.store.PartsKnown := Store.partsKnown_of_referencesHold hholds
  obtain ⟨copy, v, r', hrun, hcopy, -, -, hlisted⟩ :=
    (duplicateRule_copies (w := workspace) .null).2.2 rule rfl hknown placesFit_rule
      (fun row hrow => by
        obtain rfl := List.mem_singleton.1 (actionsOf_rule ▸ hrow)
        rfl)
      (.inr hholds) _ rfl
  obtain rfl : copy = 2 := by
    have hnumber : ((duplicateRule 1 .null).runOn workspace).1.toOption = some 2 := by
      decide +kernel
    rw [hrun] at hnumber
    exact Option.some.inj hnumber
  exact ⟨hknown, placesFit_rule, v, r', hrun, hcopy,
    hlisted { user := 1, isLogging := true } _ _ _ rfl hlists (by decide) (by decide) rfl rfl rfl⟩

end SmallLedger

end Rulebook
