import Rulebook.Proofs.Exchange.Importing

/-!
# Imports replace what they accept

A rule that an import takes replaces the rules of its name in its group, and nothing else is
touched.  Later rules of the same name replace it in turn.  So of all attempts under a name the last
one that was taken counts, and rules under whose name none was taken keep their rows, their parts
and their logs, whatever was refused under their name in the meantime.

This is an invariant of the attempts made so far (`Store.Imports`).  It holds of no attempts, a
refusal keeps it since it changes nothing, and a rule that is taken keeps it since the store then is
the one with the rule in place of its namesakes.  An induction over the attempts, the entries and
the file gives it for a whole import.

## Main definitions

* `Store.Imports` — what attempts have made of a store.
* `Store.EntryNames` — the group and the definitions that an entry of a file names.
* `AlwaysStores` — the tree that creating a rule from a definition stores anywhere.

## Main statements

* `Store.Imports.accept`, `Store.Imports.refuse` — one attempt.
* `Store.Imports.plan` — a whole import.
* `import_replaces_what_it_accepts` — imports replace exactly what they accept.
-/

namespace Rulebook

open Program

section

variable [Host]

namespace Store

variable {s t u : Store} {user group : Id} {now : Calendar.Instant}

/-! ## One rule in place of others -/

omit [Host] in
theorem mem_rulesNamed {name : String} {id : Id} {r : Rule} :
    (id, r) ∈ s.rulesNamed user group name ↔
      s.rules.find? id = some r ∧ r.user = user ∧ r.group = group ∧ r.name = name := by
  rw [rulesNamed, Table.filter, List.mem_filter]
  constructor
  · rintro ⟨hmem, htest⟩
    refine ⟨Table.find?_eq_some_of_mem hmem, ?_⟩
    simpa [and_assoc] using htest
  · rintro ⟨hfind, htest⟩
    refine ⟨Table.mem_rows_of_find? hfind, ?_⟩
    simpa [and_assoc] using htest

omit [Host] in
/-- The rules that are left are those that were not chosen. -/
theorem find?_delete_rules {gone : List Id} {id : Id} {r : Rule} :
    (s.delete { rules := gone }).rules.find? id = some r ↔
      s.rules.find? id = some r ∧ id ∉ gone := by
  have hdelete : (s.delete { rules := gone }).rules =
      without s.rules (s.doomed { rules := gone }).rules := rfl
  rw [hdelete, find?_without, doomed_rules, mem_reach_iff]
  constructor
  · rintro ⟨hrow, hstays⟩
    exact ⟨hrow, fun hgone => hstays ⟨r, hrow, Or.inl hgone⟩⟩
  · rintro ⟨hrow, hstays⟩
    refine ⟨hrow, ?_⟩
    rintro ⟨_, -, hgone | hfalse⟩
    · exact hstays hgone
    · cases hfalse

omit [Host] in
/-- The rules that make room are those of the name. -/
theorem not_mem_gone {name : String} {id : Id} {r : Rule} (hrow : s.rules.find? id = some r)
    (hother : ¬(r.user = user ∧ r.group = group ∧ r.name = name)) :
    id ∉ (s.rulesNamed user group name).map (·.1) := by
  intro hgone
  obtain ⟨⟨_, other⟩, hmem, rfl⟩ := List.mem_map.1 hgone
  obtain ⟨hfind, hnamed⟩ := mem_rulesNamed.1 hmem
  obtain rfl : r = other := Option.some.inj (hrow.symm.trans hfind)
  exact hother hnamed

omit [Host] in
/-- A rule of another name, group or user is left alone. -/
theorem keepsRule_replacing {id : Id} {r : Rule} (hrow : s.rules.find? id = some r)
    (tree : RuleTree) (hother : ¬(r.user = user ∧ r.group = group ∧ r.name = tree.name)) :
    s.KeepsRule (s.replacing user group now tree) id := by
  let gone : Doomed := { rules := (s.rulesNamed user group tree.name).map (·.1) }
  have hne : id ≠ (s.delete gone).rules.nextId := by
    show id ≠ s.rules.nextId
    exact Int.ne_of_lt (Int.lt_add_one_of_le (Table.le_lastId_of_find? hrow))
  exact (keepsRule_delete (not_mem_gone hrow hother)).trans
    (keepsRule_withTree hne user group now tree)

omit [Host] in
/-- What is found afterwards is the new rule or an old one that was not in the way. -/
theorem find?_replacing {id : Id} {r : Rule} {tree : RuleTree}
    (h : (s.replacing user group now tree).rules.find? id = some r) :
    id = s.rules.nextId ∧ r = tree.row user group now ∨
      s.rules.find? id = some r ∧ ¬(r.user = user ∧ r.group = group ∧ r.name = tree.name) := by
  rw [replacing, find?_withTree] at h
  split at h
  · rename_i hnew
    exact Or.inl ⟨hnew, (Option.some.inj h).symm⟩
  · obtain ⟨hrow, hstays⟩ := find?_delete_rules.1 h
    refine Or.inr ⟨hrow, fun hnamed => hstays ?_⟩
    exact List.mem_map_of_mem (f := Prod.fst) (mem_rulesNamed.2 ⟨hrow, hnamed⟩)

omit [Host] in
/-- The rules of the store without those that made room. -/
theorem rulesNamed_delete (gone : List Id) {group' : Id} {name : String}
    (h : ∀ id r, (id, r) ∈ s.rulesNamed user group' name → id ∉ gone) :
    (s.delete { rules := gone }).rulesNamed user group' name = s.rulesNamed user group' name := by
  have hdelete : (s.delete { rules := gone }).rules =
      without s.rules (s.doomed { rules := gone }).rules := rfl
  unfold rulesNamed
  rw [hdelete, doomed_rules]
  refine filter_without fun id r hfind htest hgone => ?_
  obtain ⟨_, -, hchosen | hfalse⟩ := mem_reach_iff.1 hgone
  · exact h id r (List.mem_filter.2 ⟨Table.mem_rows_of_find? hfind, htest⟩) hchosen
  · cases hfalse

omit [Host] in
theorem rulesNamed_withTree (group' : Id) (name : String) (tree : RuleTree) :
    (s.withTree user group now tree).rulesNamed user group' name =
      s.rulesNamed user group' name ++
        if group = group' ∧ tree.name = name then [(s.rules.nextId, tree.row user group now)]
        else [] := by
  unfold rulesNamed
  rw [rules_withTree]
  simp only [Table.filter, Table.insert, List.filter_append, List.append_cancel_left_eq]
  split
  · rename_i hsame
    simp [RuleTree.row, hsame]
  · rename_i hother
    have hname : group = group' → tree.name ≠ name := fun hgroup hname => hother ⟨hgroup, hname⟩
    simpa [RuleTree.row] using hname

omit [Host] in
/-- The new rule is the only one of its name in its group. -/
theorem rulesNamed_replacing_self (s : Store) (user group : Id) (now : Calendar.Instant)
    (tree : RuleTree) : (s.replacing user group now tree).rulesNamed user group tree.name =
      [(s.rules.nextId, tree.row user group now)] := by
  have hnone : (s.delete { rules := (s.rulesNamed user group tree.name).map (·.1) }).rulesNamed user
      group tree.name = [] := by
    apply List.eq_nil_iff_forall_not_mem.2
    rintro ⟨id, r⟩ hmem
    obtain ⟨hfind, hnamed⟩ := mem_rulesNamed.1 hmem
    obtain ⟨hrow, hstays⟩ := find?_delete_rules.1 hfind
    apply hstays
    exact List.mem_map_of_mem (f := Prod.fst) (mem_rulesNamed.2 ⟨hrow, hnamed⟩)
  rw [replacing, rulesNamed_withTree, hnone, if_pos ⟨rfl, rfl⟩]
  rfl

omit [Host] in
/-- Rules of other names or groups are as they were. -/
theorem rulesNamed_replacing_of_ne {group' : Id} {name : String} {tree : RuleTree}
    (hother : ¬(group = group' ∧ tree.name = name)) :
    (s.replacing user group now tree).rulesNamed user group' name =
      s.rulesNamed user group' name := by
  rw [replacing, rulesNamed_withTree, if_neg hother, List.append_nil]
  refine rulesNamed_delete _ fun id r hmem => ?_
  obtain ⟨hrow, -, rfl, rfl⟩ := mem_rulesNamed.1 hmem
  exact not_mem_gone hrow fun hnamed => hother ⟨hnamed.2.1.symm, hnamed.2.2.symm⟩

omit [Host] in
/-- The new rule is read back. -/
theorem treeOf_replacing (hknown : s.PartsKnown) {tree : RuleTree} (htree : tree.IsDraft)
    (user group : Id) (now : Calendar.Instant) :
    (s.replacing user group now tree).treeOf s.rules.nextId (tree.row user group now) =
      tree.sorted :=
  treeOf_withTree (hknown.delete _) htree.isOrdered user group now

/-! ## Attempts -/

/-- What attempts have made of a store.  Each rule that was taken last under its name is the only
one of the name, and a new one.  Rules under whose name none was taken are as they were, and there
are no other rules. -/
structure Imports (user : Id) (attempts : List ImportAttempt) (s t : Store) : Prop where
  lastId : s.rules.lastId ≤ t.rules.lastId
  kept : ∀ id r, s.rules.find? id = some r →
    (∀ a ∈ attempts, ¬(r.user = user ∧ a.Takes r.group r.name)) → s.KeepsRule t id
  replaced : ∀ before a after tree, attempts = before ++ a :: after → a.verdict = .ok tree →
    (∀ b ∈ after, ¬b.Takes a.group tree.name) →
      ∃ id row, t.rulesNamed user a.group tree.name = [(id, row)] ∧ s.rules.lastId < id ∧
        t.treeOf id row = tree.sorted
  others : ∀ id r, t.rules.find? id = some r → s.rules.find? id = some r ∨
    ∃ a ∈ attempts, r.user = user ∧ a.Takes r.group r.name

namespace Imports

omit [Host] in
theorem refl (user : Id) (s : Store) : Imports user [] s s where
  lastId := Int.le_refl _
  kept id _ _ _ := .refl s id
  replaced before a after tree h := by simp at h
  others id r h := Or.inl h

/-- Finding or adding a group does not touch rules. -/
theorem target {attempts : List ImportAttempt} (h : Imports user attempts s t) {entry : Json}
    (htarget : t.importTarget user now entry = .ok (group, u)) : Imports user attempts s u := by
  obtain ⟨_, _, -, -, ⟨_, -, rfl⟩ | ⟨-, -, g, -, -, rfl⟩⟩ := importTarget_eq_ok htarget
  · exact h
  · refine ⟨h.lastId, fun id r hrow hother => ?_, h.replaced, h.others⟩
    have hkept := h.kept id r hrow hother
    exact ⟨hkept.row, hkept.groups, hkept.conditions, hkept.actions, hkept.logs⟩

omit [Host] in
/-- A refusal changes nothing. -/
theorem refuse {attempts : List ImportAttempt} (h : Imports user attempts s t) {a : ImportAttempt}
    {reason : String} (ha : a.verdict = .error reason) : Imports user (attempts ++ [a]) s t where
  lastId := h.lastId
  kept id r hrow hother := h.kept id r hrow fun b hb => hother b (List.mem_append_left _ hb)
  replaced before b after tree hsplit hb hlast := by
    rcases List.eq_nil_or_concat after with rfl | ⟨rest, c, rfl⟩
    · obtain ⟨-, hsame⟩ := List.append_inj' hsplit rfl
      cases hsame
      cases ha.symm.trans hb
    · have hsame : attempts ++ [a] = (before ++ b :: rest) ++ [c] := by
        rw [hsplit, List.concat_eq_append, List.append_assoc, List.cons_append]
      obtain ⟨rfl, -⟩ := List.append_inj' hsame rfl
      refine h.replaced before b rest tree rfl hb fun d hd => hlast d ?_
      rw [List.concat_eq_append]
      exact List.mem_append_left _ hd
  others id r hrow := (h.others id r hrow).imp_right fun ⟨b, hb, htakes⟩ =>
    ⟨b, List.mem_append_left _ hb, htakes⟩

omit [Host] in
/-- A rule that is taken replaces those of its name and nothing else. -/
theorem accept {attempts : List ImportAttempt} (h : Imports user attempts s t)
    (hknown : t.PartsKnown) {a : ImportAttempt} {tree : RuleTree} (ha : a.verdict = .ok tree)
    (htree : tree.IsDraft) :
    Imports user (attempts ++ [a]) s (t.replacing user a.group now tree) where
  lastId := by
    show s.rules.lastId ≤ (t.replacing user a.group now tree).rules.lastId
    rw [replacing, rules_withTree]
    exact Int.le_trans h.lastId (Int.le_of_lt (Int.lt_succ _))
  kept id r hrow hother := by
    have hkept := h.kept id r hrow fun b hb => hother b (List.mem_append_left _ hb)
    refine hkept.trans (keepsRule_replacing (hkept.row.trans hrow) tree ?_)
    rintro ⟨huser, hgroup, hname⟩
    exact hother a (List.mem_append_right _ (List.mem_singleton_self a))
      ⟨huser, hgroup.symm, tree, ha, hname.symm⟩
  replaced before b after tree' hsplit hb hlast := by
    rcases List.eq_nil_or_concat after with rfl | ⟨rest, c, rfl⟩
    · -- The new rule itself.
      obtain ⟨-, hsame⟩ := List.append_inj' hsplit rfl
      cases hsame
      cases ha.symm.trans hb
      exact ⟨_, _, rulesNamed_replacing_self t user a.group now tree,
        Int.lt_add_one_of_le h.lastId, treeOf_replacing hknown htree user a.group now⟩
    · -- An earlier rule, which has another name or another group.
      have hsame : attempts ++ [a] = (before ++ b :: rest) ++ [c] := by
        rw [hsplit, List.concat_eq_append, List.append_assoc, List.cons_append]
      obtain ⟨rfl, hlastOne⟩ := List.append_inj' hsame rfl
      cases hlastOne
      rw [List.concat_eq_append] at hlast
      obtain ⟨id, row, hnamed, hnew, htreeOf⟩ := h.replaced before b rest tree' rfl hb
        fun d hd => hlast d (List.mem_append_left _ hd)
      have hother : ¬(a.group = b.group ∧ tree.name = tree'.name) := by
        rintro ⟨hgroup, hname⟩
        exact hlast a (List.mem_append_right _ (List.mem_singleton_self a))
          ⟨hgroup, tree, ha, hname⟩
      have hmem : (id, row) ∈ t.rulesNamed user b.group tree'.name :=
        hnamed ▸ List.mem_singleton_self _
      obtain ⟨hrow, -, hgroup, hname⟩ := mem_rulesNamed.1 hmem
      have hkept : t.KeepsRule (t.replacing user a.group now tree) id :=
        keepsRule_replacing hrow tree fun hsame =>
          hother ⟨hsame.2.1.symm.trans hgroup, hsame.2.2.symm.trans hname⟩
      exact ⟨id, row, (rulesNamed_replacing_of_ne hother).trans hnamed, hnew,
        (hkept.treeOf_eq row).trans htreeOf⟩
  others id r hrow := by
    rcases find?_replacing hrow with ⟨-, rfl⟩ | ⟨hold, -⟩
    · exact Or.inr ⟨a, List.mem_append_right _ (List.mem_singleton_self a), rfl, rfl, tree, ha, rfl⟩
    · rcases h.others id r hold with hkept | ⟨b, hb, htakes⟩
      · exact Or.inl hkept
      · exact Or.inr ⟨b, List.mem_append_left _ hb, htakes⟩

/-- Attempts in a row. -/
theorem attempts {done : List ImportAttempt} (h : Imports user done s t) (ht : t.Hosts user)
    {attempts : List ImportAttempt} (hgroups : ∀ a ∈ attempts, t.groups.has a.group = true)
    (hverdicts : ∀ a ∈ attempts, importVerdict a.definition = .ok a.verdict) :
    Imports user (done ++ attempts) s (t.afterAttempts user now attempts) := by
  induction attempts generalizing done t with
  | nil => exact (List.append_nil done).symm ▸ h
  | cons a rest ih =>
      obtain ⟨hgroup, hgroups⟩ := List.forall_mem_cons.1 hgroups
      obtain ⟨hverdict, hverdicts⟩ := List.forall_mem_cons.1 hverdicts
      have hstep : Imports user (done ++ [a]) s (t.afterAttempt user now a) := by
        unfold afterAttempt
        split
        · rename_i tree htaken
          exact h.accept (partsKnown_of_referencesHold (isClosed_iff.1 ht.closed)) htaken
            (isDraft_of_importVerdict (htaken ▸ hverdict))
        · rename_i reason hrefused
          exact h.refuse hrefused
      have hrest := ih hstep (ht.afterAttempt hgroup)
        (fun b hb => (t.afterAttempt_keeps user now a).2.symm ▸ hgroups b hb) hverdicts
      rwa [List.append_assoc, List.singleton_append] at hrest

/-- An entry of a file: its group and its rules. -/
theorem step {done attempts : List ImportAttempt} (h : Imports user done s t) (ht : t.Hosts user)
    {entry : Json} (hstep : t.importStep user now entry = .ok (attempts, u)) :
    Imports user (done ++ attempts) s u := by
  obtain ⟨group, v, _, definitions, htarget, -, -, hattempts, rfl⟩ := importStep_eq_ok hstep
  obtain ⟨hv, hgroup⟩ := ht.importTarget htarget
  exact (h.target htarget).attempts hv
    (fun a ha => (group_of_importAttempts hattempts a ha).symm ▸ hgroup)
    (importAttempts_eq_ok hattempts).2

/-- A whole file. -/
theorem plan {done attempts : List ImportAttempt} (h : Imports user done s t) (ht : t.Hosts user)
    {entries : List Json} (hplan : t.importPlan user now entries = .ok (attempts, u)) :
    Imports user (done ++ attempts) s u := by
  induction entries generalizing done t attempts with
  | nil =>
      cases hplan
      exact (List.append_nil done).symm ▸ h
  | cons entry rest ih =>
      obtain ⟨first, v, later, hfirst, hlater, rfl⟩ := importPlan_cons_eq_ok hplan
      have hall := ih (h.step ht hfirst) (ht.importStep hfirst) hlater
      rwa [List.append_assoc] at hall

end Imports

/-! ## Groups -/

/-- The entry of a file names the group, which is the only one of the user with its name, and has
these definitions. -/
def EntryNames (user : Id) (s : Store) (entry : Json) (group : Id) (definitions : List Json) :
    Prop :=
  ∃ name wanted g rules, entry.findOr "name" (.text "Imported rules") = .ok name ∧
    Column.text name = .ok wanted ∧ s.groupsCalled user wanted = [(group, g)] ∧
    entry.findOr "rules" (.list []) = .ok rules ∧ rules.entries = .ok definitions

/-- A group that is the only one of its name stays the only one. -/
theorem groupsCalled_target {name : Option String} {row : Id × Group}
    (h : s.groupsCalled user name = [row]) {entry : Json}
    (htarget : s.importTarget user now entry = .ok (group, t)) :
    t.groupsCalled user name = [row] := by
  obtain ⟨_, other, -, -, ⟨_, -, rfl⟩ | ⟨hnone, -, g, hmine, hcalled, rfl⟩⟩ :=
    importTarget_eq_ok htarget
  · exact h
  · have hne : some g.name ≠ name := by
      intro hsame
      have hboth : s.groupsCalled user other = s.groupsCalled user name := by
        unfold groupsCalled
        rw [← hcalled, hsame]
      rw [hboth, h] at hnone
      cases hnone
    unfold groupsCalled at h ⊢
    simp only [Table.filter, Table.insert, List.filter_append] at h ⊢
    rw [h]
    simp [hne]

theorem groupsCalled_step {name : Option String} {row : Id × Group}
    (h : s.groupsCalled user name = [row]) {entry : Json} {attempts : List ImportAttempt}
    (hstep : s.importStep user now entry = .ok (attempts, t)) :
    t.groupsCalled user name = [row] := by
  obtain ⟨group, v, _, definitions, htarget, -, -, -, rfl⟩ := importStep_eq_ok hstep
  unfold groupsCalled
  rw [(v.afterAttempts_keeps user now attempts).2]
  exact groupsCalled_target h htarget

theorem groupsCalled_plan {name : Option String} {row : Id × Group}
    (h : s.groupsCalled user name = [row]) {entries : List Json} {attempts : List ImportAttempt}
    (hplan : s.importPlan user now entries = .ok (attempts, t)) :
    t.groupsCalled user name = [row] := by
  induction entries generalizing s attempts with
  | nil =>
      cases hplan
      exact h
  | cons other rest ih =>
      obtain ⟨first, u, later, hfirst, hlater, rfl⟩ := importPlan_cons_eq_ok hplan
      exact ih (groupsCalled_step h hfirst) hlater

/-- What an entry named goes on being what it names. -/
theorem EntryNames.plan {entry : Json} {definitions : List Json}
    (h : s.EntryNames user entry group definitions) {entries : List Json}
    {attempts : List ImportAttempt}
    (hplan : s.importPlan user now entries = .ok (attempts, t)) :
    t.EntryNames user entry group definitions := by
  obtain ⟨name, wanted, g, rules, hname, hwanted, hgroups, hrules⟩ := h
  exact ⟨name, wanted, g, rules, hname, hwanted, groupsCalled_plan hgroups hplan, hrules⟩

/-- The group of an entry is the only one of its name from then on. -/
theorem groupsCalled_importTarget {entry : Json}
    (htarget : s.importTarget user now entry = .ok (group, t)) :
    ∃ name wanted g, entry.findOr "name" (.text "Imported rules") = .ok name ∧
      Column.text name = .ok wanted ∧ t.groupsCalled user wanted = [(group, g)] := by
  obtain ⟨name, wanted, hname, hwanted, hcase⟩ := importTarget_eq_ok htarget
  obtain ⟨g, hgroups, rfl⟩ | ⟨hnone, rfl, g, hmine, hcalled, rfl⟩ := hcase
  · exact ⟨name, wanted, g, hname, hwanted, hgroups⟩
  · refine ⟨name, wanted, g, hname, hwanted, ?_⟩
    unfold groupsCalled at hnone ⊢
    simp only [Table.filter, Table.insert, List.filter_append] at hnone ⊢
    rw [hnone]
    simp [hmine, hcalled]

/-- An entry names a group, and its attempts are at its definitions in that group. -/
theorem importStep_names {entry : Json} {attempts : List ImportAttempt}
    (hstep : s.importStep user now entry = .ok (attempts, t)) :
    ∃ group definitions, t.EntryNames user entry group definitions ∧
      attempts.map (fun a => (a.group, a.definition)) = definitions.map (group, ·) ∧
      ∀ a ∈ attempts, importVerdict a.definition = .ok a.verdict := by
  obtain ⟨group, u, rules, definitions, htarget, hrules, hdefinitions, hattempts, rfl⟩ :=
    importStep_eq_ok hstep
  refine ⟨group, definitions, ?_, importAttempts_eq_ok hattempts⟩
  obtain ⟨name, wanted, g, hname, hwanted, hg⟩ := groupsCalled_importTarget htarget
  refine ⟨name, wanted, g, rules, hname, hwanted, ?_, hrules, hdefinitions⟩
  unfold groupsCalled
  rw [(u.afterAttempts_keeps user now attempts).2]
  exact hg

/-- The attempts of an import are at the definitions of the file, entry by entry, each in the group
that its entry names. -/
theorem importPlan_names {entries : List Json} {attempts : List ImportAttempt}
    (hplan : s.importPlan user now entries = .ok (attempts, t)) :
    ∃ blocks : List (Id × List Json),
      List.Forall₂ (fun entry b => t.EntryNames user entry b.1 b.2) entries blocks ∧
        attempts.map (fun a => (a.group, a.definition)) =
          blocks.flatMap (fun b => b.2.map (b.1, ·)) ∧
        ∀ a ∈ attempts, importVerdict a.definition = .ok a.verdict := by
  induction entries generalizing s attempts with
  | nil =>
      cases hplan
      exact ⟨[], .nil, rfl, nofun⟩
  | cons entry rest ih =>
      obtain ⟨first, u, later, hfirst, hlater, rfl⟩ := importPlan_cons_eq_ok hplan
      obtain ⟨group, definitions, hnames, hplaced, hverdicts⟩ := importStep_names hfirst
      obtain ⟨blocks, hblocks, hlaterPlaced, hlaterVerdicts⟩ := ih hlater
      refine ⟨(group, definitions) :: blocks, .cons (hnames.plan hlater) hblocks, ?_, ?_⟩
      · rw [List.map_append, hplaced, hlaterPlaced, List.flatMap_cons]
      · intro a ha
        exact (List.mem_append.1 ha).elim (hverdicts a) (hlaterVerdicts a)

end Store

/-! ## Imports -/

/-- How an import ends with a count: the text can be read and has a list of entries, and the import
went through its plan. -/
theorem importRules_eq_finished {w v : Workspace} {user : Id} {text : String} {imported : Nat}
    {errors : List String} (hw : w.store.Hosts user)
    (h : (importRules user text).runOn w = (.ok (.finished imported errors), v)) :
    ∃ data entries attempts, Json.read (Host.room .file) text = .ok data ∧
      data.findOr "rule_groups" .null = .ok (.list entries) ∧
      w.store.importPlan user w.now entries = .ok (attempts, v.store) ∧
      imported = attempts.countP (·.refusal.isNone) ∧
      errors = attempts.filterMap ImportAttempt.refusal := by
  unfold importRules at h
  rcases hread : Json.read (Host.room .file) text with fault | data
  · rw [hread] at h
    obtain ⟨_, _, -, h⟩ := runOn_bind_eq_ok h
    cases h
  · rw [hread] at h
    dsimp only at h
    rcases hfind : data.findOr "rule_groups" .null with failure | groups
    · rw [importData, hfind] at h
      cases h
    · cases groups with
      | list entries =>
          have hfollows := follows_importData hw hfind
          rcases hplan : w.store.importPlan user w.now entries with failure | ⟨attempts, s⟩
          · rw [hplan] at hfollows
            obtain ⟨_, hfails⟩ := hfollows
            cases h.symm.trans hfails
          · rw [hplan] at hfollows
            have hrun : (importData user data).runOn w =
                (.ok (ImportOutcome.countAll (.finished 0 []) attempts),
                  { w with store := s }) := hfollows
            rw [ImportOutcome.countAll_finished, Nat.zero_add, List.nil_append] at hrun
            cases h.symm.trans hrun
            exact ⟨data, entries, attempts, rfl, hfind, hplan, rfl, rfl⟩
      | _ =>
          rw [importData, hfind] at h
          cases h

/-- Whoever creates a rule from the definition, wherever the references hold, stores this tree. -/
def AlwaysStores (d : Json) (t : RuleTree) : Prop :=
  ∀ (w v : Workspace) (user rule : Id) (group : Option Id) (replace : Bool),
    w.store.referencesHold = true →
      (createRule user d group replace).runOn w = (.ok rule, v) →
        ∃ row, v.store.rules.find? rule = some row ∧ v.store.treeOf rule row = t

theorem alwaysStores_of_importVerdict {d : Json} {tree : RuleTree}
    (h : importVerdict d = .ok (.ok tree)) : AlwaysStores d tree.sorted := by
  intro w v user rule group replace hholds hcreate
  obtain ⟨t, row, ht, hrow, hstored⟩ :=
    treeOf_createRule hcreate (Store.partsKnown_of_referencesHold hholds)
  obtain rfl : tree = t :=
    Except.ok.inj ((ofDefinition_of_importVerdict h).symm.trans ht)
  exact ⟨row, hrow, hstored⟩

/-- Imports replace exactly what they accept. -/
theorem import_replaces_what_it_accepts {w v : Workspace} {user : Id} {text : String}
    {imported : Nat} {errors : List String} (hholds : w.store.referencesHold = true)
    (huser : w.store.users.has user = true)
    (h : (importRules user text).runOn w = (.ok (.finished imported errors), v)) :
    ∃ (data : Json) (entries : List Json) (blocks : List (Id × List Json))
      (attempts : List ImportAttempt),
      Json.read (Host.room .file) text = .ok data ∧
      data.findOr "rule_groups" .null = .ok (.list entries) ∧
      List.Forall₂ (fun entry b => v.store.EntryNames user entry b.1 b.2) entries blocks ∧
      attempts.map (fun a => (a.group, a.definition)) =
        blocks.flatMap (fun b => b.2.map (b.1, ·)) ∧
      (∀ a ∈ attempts, importVerdict a.definition = .ok a.verdict) ∧
      imported = attempts.countP (·.refusal.isNone) ∧
      errors = attempts.filterMap ImportAttempt.refusal ∧
      imported + errors.length = (blocks.flatMap (·.2)).length ∧
      w.store.Imports user attempts v.store ∧
      ∀ a ∈ attempts, ∀ tree, a.verdict = .ok tree → AlwaysStores a.definition tree.sorted := by
  have hw : w.store.Hosts user := ⟨Store.isClosed_iff.2 hholds, huser⟩
  obtain ⟨data, entries, attempts, hread, hentries, hplan, rfl, rfl⟩ :=
    importRules_eq_finished hw h
  obtain ⟨blocks, hblocks, hplaced, hverdicts⟩ := Store.importPlan_names hplan
  refine ⟨data, entries, blocks, attempts, hread, hentries, hblocks, hplaced, hverdicts, rfl, rfl,
    ?_, ?_, ?_⟩
  · have hlength := congrArg List.length hplaced
    simp only [List.length_map, List.length_flatMap] at hlength ⊢
    rw [ImportOutcome.countP_add_length_filterMap, hlength]
  · exact (Store.Imports.refl user w.store).plan hw hplan
  · intro a ha tree htaken
    exact alwaysStores_of_importVerdict (htaken ▸ hverdicts a ha)

end

namespace SmallLedger

/-- What is said about a rule without a name. -/
def namelessReport : String :=
  "Error importing rule '': Invalid rule definition: name: '' should be non-empty"

/-- A file with two rules for the group of the ledger, of which the second has no name. -/
def foodFile : String :=
  "\x7b\"rule_groups\": [\x7b\"name\": \"All\", \"rules\": " ++
    "[\x7b\"name\": \"Food\"\x7d, \x7b\"name\": \"\"\x7d]\x7d]\x7d"

end SmallLedger

deriving instance DecidableEq for ImportOutcome

open SmallLedger in
/-- The first rule replaces the one of the ledger, and the second is reported: there were two. -/
theorem import_into_smallLedger :
    ∃ errors v, (importRules 1 foodFile).runOn workspace = (.ok (.finished 1 errors), v) ∧
      ∃ (blocks : List (Id × List Json)) (attempts : List ImportAttempt),
        1 + errors.length = (blocks.flatMap (·.2)).length ∧
          workspace.store.Imports 1 attempts v.store := by
  have hresult : ((importRules 1 foodFile).runOn workspace).1.toOption =
      some (.finished 1 [namelessReport]) := by
    decide +kernel
  have hrun := runOn_of_toOption hresult
  obtain ⟨_, _, blocks, attempts, -, -, -, -, -, -, -, hcount, himports, -⟩ :=
    import_replaces_what_it_accepts (w := workspace) (by decide +kernel) (by decide +kernel) hrun
  exact ⟨_, _, hrun, blocks, attempts, hcount, himports⟩

end Rulebook
