import Rulebook.Proofs.Exchange.Replacement

/-!
# Importing a file twice

The second import of a file runs against another store than the first.  It deletes the rules that
the first one stored and stores them again under higher numbers, and numbers decide between rules
with the same place.  So it is not enough that the same rules are there in the end: they have to
come in the same order.

Without numbers and times, the rules of a store are a list in the order of their numbers
(`Store.filed`).  A rule that is taken is filed at the end of it, and those under its label are
struck out (`FiledRule.fileInto`).  Filing a batch of rules a second time gives back the same list,
whatever was on the list at first and however often a label is used in the batch: what the first pass
left of the list has none of the labels, and what the batch leaves of itself does not depend on the
list (`FiledRule.foldl_fileInto_twice`).

That the second import files the same batch is because verdicts depend on definitions alone, and the
groups that the first import added are found by the second (`Store.importPlan_again`).  Which rules a
trigger starts, and in which order, can be read off the list and the groups
(`Store.unnumbered_rulesForTrigger`).

## Main definitions

* `FiledRule`, `Store.filed` — the rules of a store without numbers and times.
* `RuleDefinition.unnumbered` — a rule that takes part in a run, without numbers.
* `Store.SameRules` — the same groups and rules, which triggers start in the same order.

## Main statements

* `Store.filed_importPlan` — what an import does to the list.
* `import_is_repeatable` — a second import has the same result and leaves the same rules.
-/

namespace Rulebook

open Program

section

/-! ## Lists of rules -/

/-- A rule with its parts, and where it is filed. -/
structure FiledRule where
  user : Id
  group : Id
  tree : RuleTree

namespace FiledRule

/-- Rules of one label replace each other. -/
def label (f : FiledRule) : Id × Id × String := (f.user, f.group, f.tree.name)

/-- The list with a rule at its end in place of those of the same label. -/
def fileInto (filed : List FiledRule) (f : FiledRule) : List FiledRule :=
  (filed.filter fun g => g.label ≠ f.label) ++ [f]

/-- A batch leaves the rules on the list whose labels it does not use, followed by what it leaves of
itself. -/
theorem foldl_fileInto (batch filed : List FiledRule) :
    batch.foldl fileInto filed =
      (filed.filter fun f => batch.all fun g => f.label ≠ g.label) ++ batch.foldl fileInto [] := by
  induction batch generalizing filed with
  | nil => simp
  | cons g rest ih =>
      rw [List.foldl_cons, List.foldl_cons, ih (fileInto filed g), ih (fileInto [] g)]
      simp only [fileInto, List.filter_append, List.filter_filter, List.filter_nil, List.nil_append,
        List.append_assoc, List.all_cons, Bool.and_comm]

theorem mem_foldl_fileInto {batch filed : List FiledRule} {f : FiledRule}
    (h : f ∈ batch.foldl fileInto filed) : f ∈ filed ∨ f ∈ batch := by
  induction batch generalizing filed with
  | nil => exact .inl h
  | cons g rest ih =>
      rcases ih h with hmem | hmem
      · rcases List.mem_append.1 hmem with hold | hnew
        · exact .inl (List.mem_filter.1 hold).1
        · exact .inr (List.mem_cons.2 (.inl (List.mem_singleton.1 hnew)))
      · exact .inr (List.mem_cons_of_mem g hmem)

/-- Filing a batch a second time changes nothing. -/
theorem foldl_fileInto_twice (batch filed : List FiledRule) :
    batch.foldl fileInto (batch.foldl fileInto filed) = batch.foldl fileInto filed := by
  -- What the batch leaves of itself has labels that the batch uses.
  have hused : ((batch.foldl fileInto []).filter fun f =>
      batch.all fun g => f.label ≠ g.label) = [] := by
    refine List.filter_eq_nil_iff.2 fun f hf hall => ?_
    have hmem : f ∈ batch := (mem_foldl_fileInto hf).resolve_left List.not_mem_nil
    exact of_decide_eq_true (List.all_eq_true.1 hall f hmem) rfl
  calc _ = ((batch.foldl fileInto filed).filter fun f => batch.all fun g => f.label ≠ g.label) ++
          batch.foldl fileInto [] := foldl_fileInto batch _
    _ = (filed.filter fun f => batch.all fun g => f.label ≠ g.label) ++ batch.foldl fileInto [] := by
        rw [foldl_fileInto batch filed, List.filter_append, hused, List.append_nil,
          List.filter_filter]
        simp only [Bool.and_self]
    _ = batch.foldl fileInto filed := (foldl_fileInto batch filed).symm

end FiledRule

/-- The rule that an attempt files, if it is taken. -/
def ImportAttempt.filing (user : Id) (a : ImportAttempt) : Option FiledRule :=
  match a.verdict with
  | .ok tree => some ⟨user, a.group, tree.sorted⟩
  | .error _ => none

variable [Host]

namespace Store

variable {s t u : Store} {user group : Id} {now now' : Calendar.Instant}

/-! ## What an import files -/

/-- A rule of the store with its parts, without numbers and times. -/
def file (s : Store) (row : Id × Rule) : FiledRule where
  user := row.2.user
  group := row.2.group
  tree := s.treeOf row.1 row.2

/-- The rules of the store without numbers and times, in the order of their numbers. -/
def filed (s : Store) : List FiledRule := s.rules.rows.map s.file

omit [Host] in
theorem label_file_eq_iff {row : Id × Rule} {name : String} :
    (s.file row).label = (user, group, name) ↔
      row.2.user = user ∧ row.2.group = group ∧ row.2.name = name := by
  rw [FiledRule.label, Prod.mk.injEq, Prod.mk.injEq]
  exact Iff.rfl

omit [Host] in
/-- The rules that are left when others make room. -/
theorem rows_delete_named (s : Store) (user group : Id) (name : String) :
    (s.delete { rules := (s.rulesNamed user group name).map (·.1) }).rules.rows =
      s.rules.rows.filter fun row => (s.file row).label ≠ (user, group, name) := by
  let gone := (s.rulesNamed user group name).map (·.1)
  have hdelete : (s.delete { rules := gone }).rules =
      without s.rules (s.doomed { rules := gone }).rules := rfl
  rw [hdelete, doomed_rules]
  refine List.filter_congr fun row hrow => ?_
  have hfind : s.rules.find? row.1 = some row.2 := Table.find?_eq_some_of_mem hrow
  have hgone : row.1 ∈ reach s.rules gone (fun _ => false) ↔
      (s.file row).label = (user, group, name) := by
    rw [mem_reach_iff, label_file_eq_iff]
    constructor
    · rintro ⟨_, -, hgone | hfalse⟩
      · by_contra hother
        exact not_mem_gone hfind hother hgone
      · cases hfalse
    · intro hnamed
      exact ⟨row.2, hfind, .inl (List.mem_map_of_mem (mem_rulesNamed.2 ⟨hfind, hnamed⟩))⟩
  simp [hgone]

omit [Host] in
/-- A rule in place of others is filed. -/
theorem filed_replacing (hknown : s.PartsKnown) {tree : RuleTree} (htree : tree.IsDraft)
    (user group : Id) (now : Calendar.Instant) :
    (s.replacing user group now tree).filed =
      FiledRule.fileInto s.filed ⟨user, group, tree.sorted⟩ := by
  let stays (row : Id × Rule) : Bool := (s.file row).label ≠ (user, group, tree.name)
  have hrows : (s.replacing user group now tree).rules.rows =
      s.rules.rows.filter stays ++ [(s.rules.nextId, tree.row user group now)] := by
    rw [replacing, rules_withTree]
    exact congrArg (· ++ [(s.rules.nextId, tree.row user group now)])
      (rows_delete_named s user group tree.name)
  have hkept : ∀ row ∈ s.rules.rows.filter stays,
      (s.replacing user group now tree).file row = s.file row := by
    intro row hrow
    obtain ⟨hmem, hstays⟩ := List.mem_filter.1 hrow
    have hother := label_file_eq_iff.not.1 (of_decide_eq_true hstays)
    have hleft : s.KeepsRule (s.replacing user group now tree) row.1 :=
      keepsRule_replacing (Table.find?_eq_some_of_mem hmem) tree hother
    rw [file, file, hleft.treeOf_eq]
  have hnew : (s.replacing user group now tree).file
      (s.rules.nextId, tree.row user group now) = ⟨user, group, tree.sorted⟩ := by
    rw [file, treeOf_replacing hknown htree]
    rfl
  calc (s.replacing user group now tree).filed
      = (s.rules.rows.filter stays).map s.file ++ [⟨user, group, tree.sorted⟩] := by
        rw [filed, hrows, List.map_append, List.map_congr_left hkept, List.map_singleton, hnew]
    _ = FiledRule.fileInto s.filed ⟨user, group, tree.sorted⟩ := by
        rw [FiledRule.fileInto, filed, List.filter_map]
        rfl

/-- An attempt files its rule if it is taken. -/
theorem filed_afterAttempts (h : s.Hosts user) {attempts : List ImportAttempt}
    (hgroups : ∀ a ∈ attempts, s.groups.has a.group = true)
    (hverdicts : ∀ a ∈ attempts, importVerdict a.definition = .ok a.verdict) :
    (s.afterAttempts user now attempts).filed =
      (attempts.filterMap (·.filing user)).foldl FiledRule.fileInto s.filed := by
  induction attempts generalizing s with
  | nil => rfl
  | cons a rest ih =>
      obtain ⟨hgroup, hgroups⟩ := List.forall_mem_cons.1 hgroups
      obtain ⟨hverdict, hverdicts⟩ := List.forall_mem_cons.1 hverdicts
      have hrest := @ih (s.afterAttempt user now a) (h.afterAttempt hgroup)
        (fun b hb => (s.afterAttempt_keeps user now a).2.symm ▸ hgroups b hb) hverdicts
      refine hrest.trans ?_
      rcases htaken : a.verdict with reason | tree
      · have hsame : s.afterAttempt user now a = s := by rw [afterAttempt, htaken]
        have hnothing : a.filing user = none := by rw [ImportAttempt.filing, htaken]
        rw [hsame, List.filterMap_cons_none hnothing]
      · have hnext : s.afterAttempt user now a = s.replacing user a.group now tree := by
          rw [afterAttempt, htaken]
        have hfiling : a.filing user = some ⟨user, a.group, tree.sorted⟩ := by
          rw [ImportAttempt.filing, htaken]
        have hknown := partsKnown_of_referencesHold (isClosed_iff.1 h.closed)
        rw [hnext, List.filterMap_cons_some hfiling, List.foldl_cons,
          filed_replacing hknown (isDraft_of_importVerdict (htaken ▸ hverdict))]

/-- A group that is added changes nothing about the rules. -/
theorem filed_importTarget {entry : Json}
    (htarget : s.importTarget user now entry = .ok (group, t)) : t.filed = s.filed := by
  obtain ⟨_, _, -, -, ⟨_, -, rfl⟩ | ⟨-, -, g, -, -, rfl⟩⟩ := importTarget_eq_ok htarget
  · rfl
  · rfl

/-- An entry files the rules that are taken. -/
theorem filed_importStep (h : s.Hosts user) {entry : Json} {attempts : List ImportAttempt}
    (hstep : s.importStep user now entry = .ok (attempts, t)) :
    t.filed = (attempts.filterMap (·.filing user)).foldl FiledRule.fileInto s.filed := by
  obtain ⟨group, u, _, definitions, htarget, -, -, hattempts, rfl⟩ := importStep_eq_ok hstep
  obtain ⟨hu, hgroup⟩ := h.importTarget htarget
  rw [← filed_importTarget htarget]
  exact filed_afterAttempts hu
    (fun a ha => (group_of_importAttempts hattempts a ha).symm ▸ hgroup)
    (importAttempts_eq_ok hattempts).2

/-- An import files the rules that are taken. -/
theorem filed_importPlan (h : s.Hosts user) {entries : List Json} {attempts : List ImportAttempt}
    (hplan : s.importPlan user now entries = .ok (attempts, t)) :
    t.filed = (attempts.filterMap (·.filing user)).foldl FiledRule.fileInto s.filed := by
  induction entries generalizing s attempts with
  | nil =>
      cases hplan
      rfl
  | cons entry rest ih =>
      obtain ⟨first, u, later, hfirst, hlater, rfl⟩ := importPlan_cons_eq_ok hplan
      rw [ih (h.importStep hfirst) hlater, filed_importStep h hfirst, List.filterMap_append,
        List.foldl_append]

/-! ## The second import -/

/-- A group that is there under the name of an entry is found. -/
theorem importTarget_of_called {entry name : Json} {wanted : Option String} {g : Group}
    (htarget : s.importTarget user now entry = .ok (group, t))
    (hname : entry.findOr "name" (.text "Imported rules") = .ok name)
    (hwanted : Column.text name = .ok wanted)
    (hcalled : u.groupsCalled user wanted = [(group, g)]) (now' : Calendar.Instant) :
    u.importTarget user now' entry = .ok (group, u) := by
  obtain ⟨_, -, htarget⟩ := eq_ok_of_bind htarget
  obtain ⟨_, hdescription, htarget⟩ := eq_ok_of_bind htarget
  obtain ⟨_, horder, htarget⟩ := eq_ok_of_bind htarget
  obtain ⟨_, hactive, -⟩ := eq_ok_of_bind htarget
  rw [importTarget, bind_of_eq_ok hname, bind_of_eq_ok hdescription, bind_of_eq_ok horder,
    bind_of_eq_ok hactive, bind_of_eq_ok hwanted, hcalled]
  rfl

/-- An entry whose group is there leads to the same attempts. -/
theorem importStep_again {entry : Json} {attempts : List ImportAttempt}
    (hstep : s.importStep user now entry = .ok (attempts, t)) :
    ∃ name row, t.groupsCalled user name = [row] ∧
      ∀ u : Store, u.groupsCalled user name = [row] → ∀ now',
        u.importStep user now' entry = .ok (attempts, u.afterAttempts user now' attempts) := by
  obtain ⟨group, v, rules, definitions, htarget, hrules, hdefinitions, hattempts, rfl⟩ :=
    importStep_eq_ok hstep
  obtain ⟨name, wanted, g, hname, hwanted, hcalled⟩ := groupsCalled_importTarget htarget
  refine ⟨wanted, (group, g), ?_, fun u hu now' => ?_⟩
  · unfold groupsCalled
    rw [(v.afterAttempts_keeps user now attempts).2]
    exact hcalled
  · rw [importStep, bind_of_eq_ok (importTarget_of_called htarget hname hwanted hu now'),
      bind_of_eq_ok hrules, bind_of_eq_ok hdefinitions, bind_of_eq_ok hattempts]
    rfl

/-- Where all groups of an import are there, the import makes the same attempts. -/
theorem importPlan_again {entries : List Json} {attempts : List ImportAttempt}
    (hplan : s.importPlan user now entries = .ok (attempts, t)) (hgroups : u.groups = t.groups)
    (now' : Calendar.Instant) :
    u.importPlan user now' entries = .ok (attempts, u.afterAttempts user now' attempts) := by
  induction entries generalizing s u attempts with
  | nil =>
      cases hplan
      rfl
  | cons entry rest ih =>
      obtain ⟨first, v, later, hfirst, hlater, rfl⟩ := importPlan_cons_eq_ok hplan
      obtain ⟨name, row, hcalled, hagain⟩ := importStep_again hfirst
      -- The group of the first entry is still the only one of its name at the end of the file.
      have hthere : u.groupsCalled user name = [row] := by
        unfold groupsCalled
        rw [hgroups]
        exact groupsCalled_plan hcalled hlater
      have hnext : (u.afterAttempts user now' first).groups = t.groups :=
        (u.afterAttempts_keeps user now' first).2.trans hgroups
      rw [importPlan, bind_of_eq_ok (hagain u hthere now'), bind_of_eq_ok (ih hlater hnext)]
      simp only [afterAttempts, List.foldl_append]
      rfl

end Store

/-! ## Rules without numbers -/

/-- The rule without the numbers of its rows. -/
def RuleDefinition.unnumbered (r : RuleDefinition) : RuleDefinition :=
  { r with
    id := .null
    groups := r.groups.map fun g =>
      { g with conditions := g.conditions.map fun c => { c with id := none } }
    actions := r.actions.map fun a => { a with id := none, rule := none } }

/-- The rule as it takes part in runs, without numbers. -/
def RuleTree.definition (t : RuleTree) : RuleDefinition where
  id := .null
  name := .text t.name
  trigger := .text t.trigger
  stopProcessing := .bool t.stopProcessing
  groups := t.groups.map (·.1.group)
  actions := t.actions.map ActionRow.draft

namespace FiledRule

/-- Whether the rule takes part in the runs of a user. -/
def takesPart (groups : Table Group) (user : Id) (f : FiledRule) : Bool :=
  f.user = user && f.tree.isActive && (groups.find? f.group).any (·.isActive)

/-- What decides which rule comes first, before the numbers do. -/
def rank (groups : Table Group) (f : FiledRule) : List Int :=
  [((groups.find? f.group).map (·.order)).getD 0, f.group, f.tree.order]

/-- The rules on a list that a trigger starts for a user, in order. -/
def started (groups : Table Group) (user : Id) (trigger : Trigger) (filed : List FiledRule) :
    List RuleDefinition :=
  let candidates := (filed.filter (takesPart groups user)).mergeSort fun a b =>
    !(b.rank groups).lex (a.rank groups)
  (candidates.filter fun f => f.tree.trigger = Vocabulary.code trigger).map (·.tree.definition)

end FiledRule

namespace Store

variable {s t : Store}

omit [Host] in
theorem unnumbered_ofRow (s : Store) (id : Id) (r : Rule) :
    (RuleDefinition.ofRow s id r).unnumbered = (s.treeOf id r).definition := by
  simp [RuleDefinition.unnumbered, RuleDefinition.ofRow, RuleTree.definition, treeOf, groupTree,
    GroupDraft.group, ConditionGroup.ofRow, ConditionRow.draft, ConditionRow.detached,
    ActionRow.draft, ActionRow.detached, Condition.ofRow, Action.ofRow, Function.comp_def]

omit [Host] in
/-- The rules that take part in runs are those on the list that do, in the order of their ranks. -/
theorem map_file_candidates (s : Store) (user : Id) :
    (s.candidates user).map s.file =
      (s.filed.filter (FiledRule.takesPart s.groups user)).mergeSort fun a b =>
        !(b.rank s.groups).lex (a.rank s.groups) := by
  -- Candidates are put in order by rank and number, and the list has the numbers in order.
  let rank (r : Rule) : List Int :=
    [((s.groups.find? r.group).map (·.order)).getD 0, r.group, r.order]
  have hascending : (s.rules.filter fun _ r => s.takesPart user r).Pairwise
      fun a b => a.1 < b.1 := s.rules.ascending.sublist List.filter_sublist
  have hsorted := inOrder_append_eq_mergeSort rank (fun _ _ => rfl) hascending
  have hcandidates : s.candidates user = _ := hsorted
  rw [hcandidates, filed, List.filter_map]
  exact List.map_mergeSort fun _ _ _ _ => rfl

omit [Host] in
/-- The rules that a trigger starts can be read off the list of all rules and the groups. -/
theorem unnumbered_rulesForTrigger (s : Store) (user : Id) (trigger : Trigger) :
    (s.rulesForTrigger user trigger).map RuleDefinition.unnumbered =
      FiledRule.started s.groups user trigger s.filed := by
  rw [rulesForTrigger, FiledRule.started, ← map_file_candidates, List.filter_map, List.map_map,
    List.map_map]
  exact List.map_congr_left fun row _ => s.unnumbered_ofRow row.1 row.2

/-- The later store has the same groups and the same rules with all their parts, in the same order,
and triggers start the same rules in the same order; only numbers and times of rules may differ. -/
structure SameRules (s t : Store) : Prop where
  groups : t.groups = s.groups
  filed : t.filed = s.filed
  started : ∀ user trigger, (t.rulesForTrigger user trigger).map RuleDefinition.unnumbered =
    (s.rulesForTrigger user trigger).map RuleDefinition.unnumbered

omit [Host] in
theorem sameRules_of_filed (hgroups : t.groups = s.groups) (hfiled : t.filed = s.filed) :
    s.SameRules t where
  groups := hgroups
  filed := hfiled
  started user trigger := by
    rw [unnumbered_rulesForTrigger, unnumbered_rulesForTrigger, hgroups, hfiled]

end Store

/-! ## Imports -/

/-- Importing a file again has the same result, and leaves the same groups and the same rules in the
same order. -/
theorem import_is_repeatable {w v : Workspace} {user : Id} {text : String} {imported : Nat}
    {errors : List String} (hholds : w.store.referencesHold = true)
    (huser : w.store.users.has user = true)
    (h : (importRules user text).runOn w = (.ok (.finished imported errors), v)) :
    ∀ u : Workspace, u.store = v.store →
      ∃ s, (importRules user text).runOn u =
          (.ok (.finished imported errors), { u with store := s }) ∧ v.store.SameRules s := by
  intro u hu
  have hw : w.store.Hosts user := ⟨Store.isClosed_iff.2 hholds, huser⟩
  obtain ⟨data, entries, attempts, hread, hentries, hplan, rfl, rfl⟩ :=
    importRules_eq_finished hw h
  have hu' : u.store.Hosts user := hu ▸ hw.importPlan hplan
  have hagain := Store.importPlan_again hplan (congrArg Store.groups hu) u.now
  let s := u.store.afterAttempts user u.now attempts
  have hgroups : s.groups = v.store.groups :=
    (u.store.afterAttempts_keeps user u.now attempts).2.trans (congrArg Store.groups hu)
  have hfiled : s.filed = v.store.filed := by
    rw [Store.filed_importPlan hu' hagain, hu, Store.filed_importPlan hw hplan]
    exact FiledRule.foldl_fileInto_twice _ _
  refine ⟨s, ?_, Store.sameRules_of_filed hgroups hfiled⟩
  have hfollows := follows_importData hu' hentries
  rw [hagain] at hfollows
  have hrun : (importData user data).runOn u =
      (.ok (ImportOutcome.countAll (.finished 0 []) attempts), { u with store := s }) := hfollows
  rw [importRules_of_read hread, hrun, ImportOutcome.countAll_finished, Nat.zero_add,
    List.nil_append]

end

namespace SmallLedger

/-- The file for the small ledger can be imported a second time. -/
theorem foodFile_is_repeatable :
    workspace.store.referencesHold = true ∧ workspace.store.users.has 1 = true ∧
    ∃ errors v, (importRules 1 foodFile).runOn workspace = (.ok (.finished 1 errors), v) ∧
      ∃ s, (importRules 1 foodFile).runOn v =
          (.ok (.finished 1 errors), { v with store := s }) ∧ v.store.SameRules s := by
  have hholds : workspace.store.referencesHold = true := by decide +kernel
  have huser : workspace.store.users.has 1 = true := by decide +kernel
  have hresult : ((importRules 1 foodFile).runOn workspace).1.toOption =
      some (.finished 1 [namelessReport]) := by
    decide +kernel
  have hrun := runOn_of_toOption hresult
  exact ⟨hholds, huser, _, _, hrun, import_is_repeatable hholds huser hrun _ rfl⟩

end SmallLedger

end Rulebook
