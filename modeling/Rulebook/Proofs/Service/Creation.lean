import Rulebook.Proofs.Definition.Settling
import Rulebook.Proofs.Engine.Inversion
import Rulebook.Proofs.Ledger.Parts
import Rulebook.Service.Management

/-!
# What creating a rule stores

Creating a rule inserts rows one after the other, and each insertion fails unless all columns are in
order.  From the success of the whole it therefore follows what each of them inserted, and the new
store is the old one with exactly these rows (`writeParts_eq_ok`).

What is read back afterwards is the rule that the definition describes, up to the order of its
groups and to the values of its actions (`createRule_stores`).  No part that was there before refers
to the number of the new rule, not even after rules of the same name were deleted.  The values of
the actions are coerced a second time when they are stored, which changes nothing only if they are
settled (`createRule_agrees`).

## Main definitions

* `ActionRow.Rewritten` — what an action becomes when its value is written once more.
* `Workspace.StaysKnown` — parts refer to numbers that were given out, as they did before.

## Main statements

* `createRule_eq_ok` — how a rule is created.
* `createRule_stores` — what is read from the rows of a rule that was created.
* `createRule_agrees` — the rule that is stored is the one that is read from the definition.
-/

namespace Rulebook

open Program

variable {w v : Workspace}

/-! ## Single rows -/

theorem insertRow_eq_ok {β : Type} {table : Store → Table β} {setTable : Store → Table β → Store}
    {row : β} {id : Id} (h : (insertRow table setTable row).runOn w = (.ok id, v)) :
    id = (table w.store).nextId ∧
      v = { w with store := setTable w.store ((table w.store).insert row) } := by
  rw [insertRow, runOn_writeResult] at h
  dsimp only at h
  split at h
  · cases h
    exact ⟨rfl, rfl⟩
  · cases h

/-- A row that is inserted if its columns are in order. -/
theorem insertChecked_eq_ok {β : Type} {table : Store → Table β}
    {setTable : Store → Table β → Store} {row : Except Failure β} {id : Id}
    (h : (do insertRow table setTable (← .ofExcept row) : Operation Id).runOn w = (.ok id, v)) :
    ∃ b, row = .ok b ∧ id = (table w.store).nextId ∧
      v = { w with store := setTable w.store ((table w.store).insert b) } := by
  obtain ⟨b, u, hrow, h⟩ := runOn_bind_eq_ok h
  obtain ⟨hb, rfl⟩ := runOn_ofExcept_eq_ok hrow
  exact ⟨b, hb, insertRow_eq_ok h⟩

theorem mapM_checkFits_eq_ok {n : Int} {order : Option Int}
    (h : (some n).mapM Column.checkFits = .ok order) : order = some n := by
  obtain ⟨m, hm, h⟩ := eq_ok_of_bind h
  rw [Column.checkFits] at hm
  split at hm
  · cases hm
    cases h
    rfl
  · cases hm

variable [Host]

/-- A draft of a condition becomes a row of its group. -/
theorem addCondition_eq_ok {group id : Id} {c : ConditionRow}
    (h : (addCondition group c.draft).runOn w = (.ok id, v)) :
    v = { w with store := { w.store with
      conditions := w.store.conditions.insert { c with group } } } := by
  obtain ⟨row, hrow, -, rfl⟩ := insertChecked_eq_ok h
  rw [Column.text_bind (show c.draft.field = .text c.field from rfl),
    Column.text_bind (show c.draft.operator = .text c.operator from rfl),
    Column.text_bind (show c.draft.value = .text c.value from rfl)] at hrow
  obtain ⟨_, ⟨⟩, hrow⟩ := eq_ok_of_bind hrow
  obtain ⟨_, ⟨⟩, hrow⟩ := eq_ok_of_bind hrow
  obtain ⟨_, ⟨⟩, hrow⟩ := eq_ok_of_bind hrow
  obtain ⟨order, horder, hrow⟩ := eq_ok_of_bind hrow
  cases mapM_checkFits_eq_ok horder
  cases hrow
  rfl

/-- The second action is what the first becomes when its value is written once more. -/
def ActionRow.Rewritten (a b : ActionRow) : Prop := a.draft.setValue a.draft.value = .ok b.draft

theorem ActionRow.Rewritten.order_eq {a b : ActionRow} (h : a.Rewritten b) : b.order = a.order := by
  obtain ⟨kind, value, -, -, hb⟩ := Action.setValue_eq_ok h
  exact Json.int.inj (congrArg Action.order hb)

/-- Settled actions become what they are. -/
theorem ActionRow.map_draft_eq {actions written : List ActionRow}
    (h : List.Forall₂ ActionRow.Rewritten actions written)
    (hsettled : ∀ a ∈ actions, a.draft.setValue a.draft.value = .ok a.draft) :
    written.map ActionRow.draft = actions.map ActionRow.draft := by
  induction h with
  | nil => rfl
  | cons hab _ ih =>
      obtain ⟨hfirst, hrest⟩ := List.forall_mem_cons.1 hsettled
      rw [List.map_cons, List.map_cons, ih hrest, Except.ok.inj (hab.symm.trans hfirst)]

/-- A draft of an action becomes a row of its rule, with its value written once more. -/
theorem addAction_eq_ok {rule id : Id} {a : ActionRow}
    (h : (addAction rule a.draft).runOn w = (.ok id, v)) :
    ∃ b, a.Rewritten b ∧ v = { w with store := { w.store with
      actions := w.store.actions.insert { b with rule } } } := by
  obtain ⟨_, _, hvalue, h⟩ := runOn_bind_eq_ok h
  obtain ⟨hset, rfl⟩ := runOn_ofExcept_eq_ok hvalue
  obtain ⟨kind, value, -, -, rfl⟩ := Action.setValue_eq_ok hset
  obtain ⟨row, hrow, -, rfl⟩ := insertChecked_eq_ok h
  rw [Column.text_bind (show a.draft.kind = .text a.kind from rfl),
    bind_of_eq_ok (Column.text_ofText? (encodeValue value))] at hrow
  obtain ⟨_, ⟨⟩, hrow⟩ := eq_ok_of_bind hrow
  obtain ⟨_, ⟨⟩, hrow⟩ := eq_ok_of_bind hrow
  obtain ⟨order, horder, hrow⟩ := eq_ok_of_bind hrow
  cases mapM_checkFits_eq_ok horder
  cases hrow
  exact ⟨{ a with value := encodeValue value }, hset, rfl⟩

theorem addConditionGroup_eq_ok {rule id : Id} {connective : String} {order : Json}
    (h : (addConditionGroup rule (.text connective) order).runOn w = (.ok id, v)) :
    ∃ n, id = w.store.conditionGroups.nextId ∧ v = { w with store := { w.store with
      conditionGroups := w.store.conditionGroups.insert ⟨rule, connective, n⟩ } } := by
  obtain ⟨row, hrow, rfl, rfl⟩ := insertChecked_eq_ok h
  rw [Column.text_bind rfl] at hrow
  obtain ⟨_, -, hrow⟩ := eq_ok_of_bind hrow
  obtain ⟨_, -, hrow⟩ := eq_ok_of_bind hrow
  obtain ⟨_, ⟨⟩, hrow⟩ := eq_ok_of_bind hrow
  obtain ⟨n, -, hrow⟩ := eq_ok_of_bind hrow
  cases hrow
  exact ⟨n, rfl, rfl⟩

/-! ## The parts of a rule -/

omit [Host] in
/-- How a pass over entries succeeds. -/
theorem forPlaces_cons_eq_ok {α : Type} {f : Nat → α → Operation Unit} {n : Nat} {a : α}
    {rest : List α} (h : (forPlaces f n (a :: rest)).runOn w = (.ok (), v)) :
    ∃ u, (f n a).runOn w = (.ok (), u) ∧ (forPlaces f (n + 1) rest).runOn u = (.ok (), v) := by
  obtain ⟨⟨⟩, u, hfirst, hrest⟩ := runOn_bind_eq_ok h
  exact ⟨u, hfirst, hrest⟩

omit [Host] in
/-- In a pass that succeeds, every entry has its turn. -/
theorem exists_of_mem_forPlaces {α : Type} {f : Nat → α → Operation Unit} {n : Nat} {items : List α}
    (h : (forPlaces f n items).runOn w = (.ok (), v)) :
    ∀ a ∈ items, ∃ m u u', (f m a).runOn u = (.ok (), u') := by
  induction items generalizing n w with
  | nil => exact fun a ha => nomatch ha
  | cons a rest ih =>
      obtain ⟨u, hfirst, hrest⟩ := forPlaces_cons_eq_ok h
      exact List.forall_mem_cons.2 ⟨⟨n, w, u, hfirst⟩, ih hrest⟩

omit [Host] in
/-- How the entries of a list are read and added, when it is known what is read from them. -/
theorem readAndAdd_cons {α β : Type} {read : Nat → Json → Except Failure α} {add : α → Operation β}
    {n : Nat} {item : Json} {rest : List Json} {as : List α}
    (hread : mapPlaces read n (item :: rest) = .ok as)
    (h : (forPlaces (fun n payload => do let _ ← add (← .ofExcept (read n payload))) n
      (item :: rest)).runOn w = (.ok (), v)) :
    ∃ a later b u, as = a :: later ∧ mapPlaces read (n + 1) rest = .ok later ∧
      (add a).runOn w = (.ok b, u) ∧
      (forPlaces (fun n payload => do let _ ← add (← .ofExcept (read n payload))) (n + 1)
        rest).runOn u = (.ok (), v) := by
  obtain ⟨a, ha, hread⟩ := eq_ok_of_bind hread
  obtain ⟨later, hlater, hread⟩ := eq_ok_of_bind hread
  cases hread
  obtain ⟨u, hfirst, hrest⟩ := forPlaces_cons_eq_ok h
  rw [ha] at hfirst
  obtain ⟨_, _, ⟨⟩, hfirst⟩ := runOn_bind_eq_ok hfirst
  obtain ⟨b, u', hadd, hfirst⟩ := runOn_bind_eq_ok hfirst
  cases hfirst
  exact ⟨a, later, b, u, rfl, hlater, hadd, hrest⟩

/-- The conditions of a group are added in order. -/
theorem addConditions_eq_ok {group : Id} {items : List Json} {n : Nat}
    {conditions : List ConditionRow}
    (hread : mapPlaces Condition.ofPayload n items = .ok (conditions.map ConditionRow.draft))
    (h : (forPlaces (fun n payload => do
      let _ ← addCondition group (← .ofExcept (Condition.ofPayload n payload))) n items).runOn w =
      (.ok (), v)) :
    v = { w with store := { w.store with
      conditions := w.store.conditions.insertAll (conditions.map ({ · with group })) } } := by
  induction items generalizing n conditions w with
  | nil =>
      cases h
      rw [List.map_eq_nil_iff.1 (Except.ok.inj hread).symm]
      rfl
  | cons item rest ih =>
      obtain ⟨c, later, _, u, heq, hlater, hadd, hrest⟩ := readAndAdd_cons hread h
      obtain ⟨c, conditions, rfl, rfl, rfl⟩ := List.map_eq_cons_iff.1 heq
      rw [ih hlater hrest, addCondition_eq_ok hadd]
      rfl

/-- The actions of a rule are added in order, with their values written once more. -/
theorem addActions_eq_ok {rule : Id} {items : List Json} {n : Nat} {actions : List ActionRow}
    (hread : mapPlaces Action.ofPayload n items = .ok (actions.map ActionRow.draft))
    (h : (forPlaces (fun n payload => do
      let _ ← addAction rule (← .ofExcept (Action.ofPayload n payload))) n items).runOn w =
      (.ok (), v)) :
    ∃ written, List.Forall₂ ActionRow.Rewritten actions written ∧
      v = { w with store := { w.store with
        actions := w.store.actions.insertAll (written.map ({ · with rule })) } } := by
  induction items generalizing n actions w with
  | nil =>
      cases h
      rw [List.map_eq_nil_iff.1 (Except.ok.inj hread).symm]
      exact ⟨[], .nil, rfl⟩
  | cons item rest ih =>
      obtain ⟨a, later, _, u, heq, hlater, hadd, hrest⟩ := readAndAdd_cons hread h
      obtain ⟨a, actions, rfl, rfl, rfl⟩ := List.map_eq_cons_iff.1 heq
      obtain ⟨b, hb, rfl⟩ := addAction_eq_ok hadd
      obtain ⟨written, hwritten, rfl⟩ := ih hlater hrest
      exact ⟨b :: written, .cons hb hwritten, rfl⟩

/-- A group is added with its conditions. -/
theorem writeConditionGroup_eq_ok {rule : Id} {place : Nat} {payload : Json} {g : GroupDraft}
    (hread : ConditionGroup.ofPayload payload = .ok g.group)
    (h : (writeConditionGroup rule place payload).runOn w = (.ok (), v)) :
    ∃ n, v = { w with store := w.store.withGroup ⟨rule, g.connective, n⟩ g.conditions } := by
  obtain ⟨_, hlist, hread⟩ := eq_ok_of_bind hread
  obtain ⟨items, hitems, hread⟩ := eq_ok_of_bind hread
  obtain ⟨conditions, hconditions, hread⟩ := eq_ok_of_bind hread
  obtain ⟨connective, hconnective, hread⟩ := eq_ok_of_bind hread
  cases hread
  rw [writeConditionGroup, hconnective, hlist] at h
  obtain ⟨_, _, ⟨⟩, h⟩ := runOn_bind_eq_ok h
  obtain ⟨order, _, horder, h⟩ := runOn_bind_eq_ok h
  obtain ⟨-, rfl⟩ := runOn_ofExcept_eq_ok horder
  obtain ⟨group, u, hgroup, h⟩ := runOn_bind_eq_ok h
  obtain ⟨n, rfl, rfl⟩ := addConditionGroup_eq_ok hgroup
  rw [bind_of_eq_ok rfl, hitems] at h
  obtain ⟨_, _, ⟨⟩, h⟩ := runOn_bind_eq_ok h
  exact ⟨n, addConditions_eq_ok hconditions h⟩

/-- The groups of a rule are added one after the other, each with a place. -/
theorem writeGroups_eq_ok {rule : Id} {items : List Json} {n : Nat} {groups : List GroupDraft}
    (hread : items.mapM ConditionGroup.ofPayload = .ok (groups.map GroupDraft.group))
    (h : (forPlaces (writeConditionGroup rule) n items).runOn w = (.ok (), v)) :
    ∃ placed : List (GroupDraft × Int), placed.map (·.1) = groups ∧
      v = { w with store := w.store.withGroups rule placed } := by
  induction items generalizing n groups w with
  | nil =>
      cases h
      exact ⟨[], (List.map_eq_nil_iff.1 (Except.ok.inj hread).symm).symm, rfl⟩
  | cons item rest ih =>
      rw [List.mapM_cons] at hread
      obtain ⟨first, hfirst, hread⟩ := eq_ok_of_bind hread
      obtain ⟨later, hlater, hread⟩ := eq_ok_of_bind hread
      obtain ⟨g, groups, rfl, rfl, rfl⟩ := List.map_eq_cons_iff.1 (Except.ok.inj hread).symm
      obtain ⟨u, hgroup, hrest⟩ := forPlaces_cons_eq_ok h
      obtain ⟨place, rfl⟩ := writeConditionGroup_eq_ok hfirst hgroup
      obtain ⟨placed, rfl, rfl⟩ := ih hlater hrest
      exact ⟨(g, place) :: placed, rfl, rfl⟩

/-- All parts that a definition asks for are added. -/
theorem writeParts_eq_ok {rule : Id} {d : Json} (x : Drafts d)
    (h : (writeParts rule d).runOn w = (.ok (), v)) :
    ∃ (placed : List (GroupDraft × Int)) (written : List ActionRow), placed.map (·.1) = x.groups ∧
      List.Forall₂ ActionRow.Rewritten x.actions written ∧
      v = { w with store := w.store.withParts rule placed written } := by
  rw [writeParts, bind_of_eq_ok x.findGroups, bind_of_eq_ok x.findActions] at h
  obtain ⟨_, _, ⟨⟩, h⟩ := runOn_bind_eq_ok h
  obtain ⟨⟨⟩, u, hgroups, h⟩ := runOn_bind_eq_ok h
  obtain ⟨_, _, ⟨⟩, h⟩ := runOn_bind_eq_ok h
  obtain ⟨placed, hplaced, rfl⟩ := writeGroups_eq_ok x.readGroups hgroups
  obtain ⟨written, hwritten, rfl⟩ := addActions_eq_ok x.readActions h
  exact ⟨placed, written, hplaced, hwritten, rfl⟩

/-- Parts can be added only if they were read, so that their values are readable. -/
theorem valuesStorable_of_writeParts {rule : Id} {d : Json}
    (h : (writeParts rule d).runOn w = (.ok (), v)) : ValuesStorable d := by
  obtain ⟨groups, _, hgroups, h⟩ := runOn_bind_eq_ok h
  obtain ⟨hgroups, rfl⟩ := runOn_ofExcept_eq_ok hgroups
  obtain ⟨⟨⟩, u, hwriteGroups, h⟩ := runOn_bind_eq_ok h
  obtain ⟨actions, _, hactions, hwriteActions⟩ := runOn_bind_eq_ok h
  obtain ⟨hactions, rfl⟩ := runOn_ofExcept_eq_ok hactions
  refine ⟨fun items hitems group hgroup conditions hconditions item hitem => ?_,
    fun items hitems item hitem => ?_⟩
  · rw [bind_of_eq_ok hitems] at hgroups
    cases hgroups
    obtain ⟨place, t, t', hgroup⟩ := exists_of_mem_forPlaces hwriteGroups group hgroup
    obtain ⟨_, _, -, hgroup⟩ := runOn_bind_eq_ok hgroup
    obtain ⟨_, _, -, hgroup⟩ := runOn_bind_eq_ok hgroup
    obtain ⟨_, _, -, hgroup⟩ := runOn_bind_eq_ok hgroup
    rw [bind_of_eq_ok hconditions] at hgroup
    obtain ⟨_, _, ⟨⟩, hgroup⟩ := runOn_bind_eq_ok hgroup
    obtain ⟨n, t, t', hadd⟩ := exists_of_mem_forPlaces hgroup item hitem
    obtain ⟨c, _, hread, -⟩ := runOn_bind_eq_ok hadd
    exact hasReadableValue_of_condition (runOn_ofExcept_eq_ok hread).1
  · rw [bind_of_eq_ok hitems] at hactions
    cases hactions
    obtain ⟨n, t, t', hadd⟩ := exists_of_mem_forPlaces hwriteActions item hitem
    obtain ⟨a, _, hread, -⟩ := runOn_bind_eq_ok hadd
    exact hasStorableValue_of_action (runOn_ofExcept_eq_ok hread).1

/-! ## The rule -/

/-- Parts that referred to numbers given out go on doing so, and so does a change that is under
way. -/
structure Workspace.StaysKnown (w v : Workspace) : Prop where
  changing : v.isChanging = w.isChanging
  known : w.store.PartsKnown → v.store.PartsKnown

instance : IsPreorder Workspace Workspace.StaysKnown where
  refl _ := ⟨rfl, fun h => h⟩
  trans _ _ _ hwv hvu := ⟨hvu.changing.trans hwv.changing, fun h => hvu.known (hwv.known h)⟩

omit [Host] in
theorem staysKnown_writeResult {α : Type} {change : Store → Except Failure (α × Store)}
    (hchange : ∀ s a t, change s = .ok (a, t) → s.PartsKnown → t.PartsKnown) :
    Keeps Workspace.StaysKnown (writeResult change) := by
  intro w
  rw [runOn_writeResult]
  rcases hresult : change w.store with failure | ⟨a, t⟩
  · exact refl w
  · dsimp only
    split
    · exact ⟨rfl, hchange w.store a t hresult⟩
    · exact refl w

omit [Host] in
/-- Deleting takes rows away, but not the numbers that were given out. -/
theorem Store.PartsKnown.delete {s : Store} (h : s.PartsKnown) (chosen : Doomed) :
    (s.delete chosen).PartsKnown where
  groups row hrow := h.groups row (List.mem_filter.1 hrow).1
  conditions row hrow := h.conditions row (List.mem_filter.1 hrow).1
  actions row hrow := h.actions row (List.mem_filter.1 hrow).1

omit [Host] in
theorem staysKnown_deleteNamedRules (user group : Id) (name : String) :
    Keeps Workspace.StaysKnown (deleteNamedRules user group name) := by
  rw [deleteNamedRules]
  refine Keeps.bind keeps_get fun w => staysKnown_writeResult ?_
  rintro s _ _ ⟨⟩ h
  exact h.delete _

section Groups

variable {R : Workspace → Workspace → Prop} [IsPreorder Workspace R]

/-- Whoever looks for a group changes nothing, but may add one. -/
theorem keeps_findOrAddGroup (hadd : ∀ g, Keeps R (addGroup g)) (user : Id) (name : Json)
    (new : Calendar.Instant → Except Failure Group) : Keeps R (findOrAddGroup user name new) := by
  rw [findOrAddGroup]
  refine (keeps_ofExcept _).bind fun wanted => Keeps.bind keeps_get fun w => ?_
  dsimp only
  split
  · exact keeps_pure _
  · exact Keeps.bind keeps_get fun w => (keeps_ofExcept _).bind fun g => hadd g
  · exact keeps_throw _

theorem keeps_resolveGroup (hadd : ∀ g, Keeps R (addGroup g)) (user : Id) (reference : Json) :
    Keeps R (resolveGroup user reference) := by
  rw [resolveGroup]
  split
  · exact keeps_findOrAddGroup hadd user _ _
  · refine (keeps_ofExcept _).bind fun id => ?_
    split
    · exact keeps_throw _
    · refine Keeps.bind keeps_get fun w => ?_
      split
      · split
        · exact keeps_pure _
        · exact keeps_throw _
      · exact keeps_throw _

end Groups

omit [Host] in
theorem staysKnown_addGroup (g : Group) : Keeps Workspace.StaysKnown (addGroup g) := by
  refine staysKnown_writeResult ?_
  rintro s _ _ ⟨⟩ h
  exact ⟨h.groups, h.conditions, h.actions⟩

/-- The group in which a rule is created. -/
def groupForRule (user : Id) (d : Json) : Option Id → Operation Id
  | some group => return group
  | none => do resolveGroup user (← .ofExcept (d.findOr "rule_group_id" .null))

/-- What is deleted before a rule is created. -/
def makeRoom (user group : Id) (d : Json) (replace : Bool) : Operation Unit :=
  if replace then do
    deleteNamedRules user group (← .ofExcept (do (← d.require "name").plain .message))
  else return ()

/-- The steps of creating a rule, one after the other. -/
theorem createRule_eq (user : Id) (d : Json) (group : Option Id) (replace : Bool) :
    createRule user d group replace = atomically (do
      .ofExcept (checkDefinition d)
      let group ← groupForRule user d group
      let _ ← makeRoom user group d replace
      let now := (← get).now
      let rule ← addRule (← .ofExcept (ruleOfDefinition user group d now))
      writeParts rule d
      return rule) := by
  unfold createRule groupForRule makeRoom
  cases group <;> cases replace <;>
    simp only [bind_assoc, pure_bind, if_true, Bool.false_eq_true, if_false]

theorem keeps_groupForRule {R : Workspace → Workspace → Prop} [IsPreorder Workspace R]
    (hadd : ∀ g, Keeps R (addGroup g)) (user : Id) (d : Json) (group : Option Id) :
    Keeps R (groupForRule user d group) := by
  cases group with
  | some group => exact keeps_pure group
  | none => exact (keeps_ofExcept _).bind fun reference => keeps_resolveGroup hadd user reference

theorem staysKnown_makeRoom (user group : Id) (d : Json) (replace : Bool) :
    Keeps Workspace.StaysKnown (makeRoom user group d replace) := by
  rw [makeRoom]
  split
  · exact (keeps_ofExcept _).bind fun name => staysKnown_deleteNamedRules user group name
  · exact keeps_pure ()

/-- How a rule is created: the definition is not refused, the rule gets the next number, and its
parts are added. -/
theorem createRule_eq_ok {user rule : Id} {d : Json} {group : Option Id} {replace : Bool}
    (h : (createRule user d group replace).runOn w = (.ok rule, v)) :
    checkDefinition d = .ok () ∧ (v.isChanging || v.store.referencesHold) = true ∧
      ∃ group now r, ∃ u u' : Workspace, ruleOfDefinition user group d now = .ok r ∧
        Workspace.StaysKnown { w with isChanging := true } u ∧ rule = u.store.rules.nextId ∧
        (writeParts rule d).runOn { u with store := { u.store with
          rules := u.store.rules.insert r } } = (.ok (), u') ∧ v.store = u'.store := by
  rw [createRule_eq] at h
  obtain ⟨u, hinside, rfl, hholds⟩ := atomically_eq_ok h
  obtain ⟨_, _, hcheck, hinside⟩ := runOn_bind_eq_ok hinside
  obtain ⟨haccepted, rfl⟩ := runOn_ofExcept_eq_ok hcheck
  obtain ⟨chosen, u₁, hgroup, hinside⟩ := runOn_bind_eq_ok hinside
  obtain ⟨_, u₂, hroom, hinside⟩ := runOn_bind_eq_ok hinside
  obtain ⟨_, _, ⟨⟩, hinside⟩ := runOn_bind_eq_ok hinside
  obtain ⟨r, _, hread, hinside⟩ := runOn_bind_eq_ok hinside
  obtain ⟨hr, rfl⟩ := runOn_ofExcept_eq_ok hread
  obtain ⟨id, _, hadd, hinside⟩ := runOn_bind_eq_ok hinside
  obtain ⟨rfl, rfl⟩ := insertRow_eq_ok hadd
  obtain ⟨⟨⟩, u', hparts, hinside⟩ := runOn_bind_eq_ok hinside
  cases hinside
  have hknown : Workspace.StaysKnown { w with isChanging := true } u₁ := by
    have hkept := keeps_groupForRule staysKnown_addGroup user d group { w with isChanging := true }
    rwa [hgroup] at hkept
  have hknown' : Workspace.StaysKnown u₁ u₂ := by
    have hkept := staysKnown_makeRoom user chosen d replace u₁
    rwa [hroom] at hkept
  exact ⟨haccepted, hholds, chosen, _, r, u₂, _, hr, IsTrans.trans _ _ _ hknown hknown', rfl,
    hparts, rfl⟩

/-- The switch of a rule is kept as it is given. -/
theorem stopProcessing_of_ruleFromColumns {user group : Id}
    {name description trigger order isActive : Json} {stops : Bool}
    {createdAt updatedAt : Calendar.Instant} {r : Rule}
    (h : ruleFromColumns user group name description trigger order isActive (.bool stops)
      createdAt updatedAt = .ok r) : r.stopProcessing = stops := by
  obtain ⟨_, -, h⟩ := eq_ok_of_bind h
  obtain ⟨_, -, h⟩ := eq_ok_of_bind h
  obtain ⟨_, -, h⟩ := eq_ok_of_bind h
  obtain ⟨_, -, h⟩ := eq_ok_of_bind h
  obtain ⟨_, -, h⟩ := eq_ok_of_bind h
  obtain ⟨_, ⟨⟩, h⟩ := eq_ok_of_bind h
  obtain ⟨_, -, h⟩ := eq_ok_of_bind h
  obtain ⟨_, -, h⟩ := eq_ok_of_bind h
  obtain ⟨_, -, h⟩ := eq_ok_of_bind h
  obtain ⟨_, -, h⟩ := eq_ok_of_bind h
  obtain ⟨_, -, h⟩ := eq_ok_of_bind h
  obtain ⟨_, -, h⟩ := eq_ok_of_bind h
  obtain ⟨_, ⟨⟩, h⟩ := eq_ok_of_bind h
  cases h
  rfl

/-- The switch of a new rule is the one of its definition. -/
theorem stopProcessing_of_ruleOfDefinition {user group : Id} {d : Json} {now : Calendar.Instant}
    {r : Rule} {stops : Bool} (hr : ruleOfDefinition user group d now = .ok r)
    (hstops : d.findOr "stop_processing" (.bool false) = .ok (.bool stops)) :
    r.stopProcessing = stops := by
  obtain ⟨_, -, hr⟩ := eq_ok_of_bind hr
  obtain ⟨_, -, hr⟩ := eq_ok_of_bind hr
  obtain ⟨_, -, hr⟩ := eq_ok_of_bind hr
  obtain ⟨_, -, hr⟩ := eq_ok_of_bind hr
  obtain ⟨_, -, hr⟩ := eq_ok_of_bind hr
  rw [bind_of_eq_ok hstops] at hr
  exact stopProcessing_of_ruleFromColumns hr

/-- The parts of a rule that was created were read from its definition. -/
theorem drafts_of_createRule {user rule : Id} {d : Json} {group : Option Id} {replace : Bool}
    (h : (createRule user d group replace).runOn w = (.ok rule, v)) : Nonempty (Drafts d) := by
  obtain ⟨hcheck, -, _, _, _, _, _, -, -, -, hparts, -⟩ := createRule_eq_ok h
  exact drafts_of_checkDefinition hcheck (valuesStorable_of_writeParts hparts)

/-- What is read from the rows of a rule that was created: the groups of its definition, perhaps in
another order, and its actions, with their values written once more. -/
theorem createRule_stores {user rule : Id} {d : Json} {group : Option Id} {replace : Bool}
    (h : (createRule user d group replace).runOn w = (.ok rule, v))
    (hknown : w.store.PartsKnown) (x : Drafts d) :
    ∃ group now row written, ruleOfDefinition user group d now = .ok row ∧
      v.store.rules.find? rule = some row ∧ List.Forall₂ ActionRow.Rewritten x.actions written ∧
      ((RuleDefinition.ofRow v.store rule row).groups.map ConditionGroup.core).Perm
        (x.groups.map (·.group.core)) ∧
      (RuleDefinition.ofRow v.store rule row).actions.map Action.core =
        written.map (·.draft.core) := by
  obtain ⟨-, -, group, now, row, u, u', hrow, hkept, rfl, hparts, hstore⟩ := createRule_eq_ok h
  obtain ⟨placed, written, hplaced, hwritten, rfl⟩ := writeParts_eq_ok x hparts
  obtain ⟨hgroupsKnown, hconditionsKnown, hactionsKnown⟩ := hkept.known hknown
  have hconditionsOrdered : ∀ g ∈ placed, g.1.conditions.Pairwise fun a b => a.order < b.order :=
    fun g hg => x.conditionsOrdered g.1 (hplaced ▸ List.mem_map_of_mem hg)
  have hactionsOrdered : written.Pairwise fun a b => a.order < b.order := by
    have horders : written.map ActionRow.order = x.actions.map ActionRow.order :=
      map_eq_of_forall₂ hwritten fun _ _ => ActionRow.Rewritten.order_eq
    exact List.pairwise_map.1 (horders ▸ List.pairwise_map.2 x.actionsOrdered)
  -- The rule has a number that no part has referred to before, so that all its parts are new.
  have hgroupsNew : ∀ g ∈ u.store.conditionGroups.rows, g.2.rule ≠ u.store.rules.nextId :=
    fun g hg => Int.ne_of_lt (Int.lt_add_one_of_le (hgroupsKnown g hg))
  have hactionsNew : ∀ a ∈ u.store.actions.rows, a.2.rule ≠ u.store.rules.nextId :=
    fun a ha => Int.ne_of_lt (Int.lt_add_one_of_le (hactionsKnown a ha))
  let s : Store := { u.store with rules := u.store.rules.insert row }
  have hstored := s.ofRow_withParts hgroupsNew hactionsNew hconditionsKnown hconditionsOrdered
    hactionsOrdered row
  rw [hstore]
  refine ⟨group, now, row, written, hrow, ?_, hwritten, ?_, hstored.2⟩
  · obtain ⟨conditionGroups, conditions, hsame⟩ := s.withGroups_eq u.store.rules.nextId placed
    dsimp only [Store.withParts]
    rw [hsame, Table.find?_insert, if_pos rfl]
  · rw [← hplaced, List.map_map]
    exact hstored.1

/-- The rule that is stored agrees with the one that is read from the definition, if its actions are
settled. -/
theorem createRule_agrees {user rule : Id} {d : Json} {group : Option Id} {replace : Bool}
    (h : (createRule user d group replace).runOn w = (.ok rule, v))
    (hknown : w.store.PartsKnown) {r : RuleDefinition}
    (hr : RuleDefinition.ofPayload d = .ok r)
    (hsettled : ∀ a ∈ r.actions, a.setValue a.value = .ok a) :
    ∃ row, v.store.rules.find? rule = some row ∧
      r.Agrees (RuleDefinition.ofRow v.store rule row) := by
  have hcheck := (createRule_eq_ok h).1
  obtain ⟨x⟩ := drafts_of_checkDefinition hcheck ((exists_ofPayload_iff hcheck).1 ⟨r, hr⟩)
  obtain ⟨r', hr', hgroups, hactions, hstops⟩ := RuleDefinition.ofPayload_of_drafts hcheck x
  obtain rfl : r = r' := Except.ok.inj (hr.symm.trans hr')
  obtain ⟨group, now, row, written, hrow, hfound, hwritten, hstoredGroups, hstoredActions⟩ :=
    createRule_stores h hknown x
  refine ⟨row, hfound, ?_, ?_, ?_⟩
  · have hcores := hgroups.map ConditionGroup.core
    rw [List.map_map] at hcores
    exact hcores.trans hstoredGroups.symm
  · have hsame := ActionRow.map_draft_eq hwritten fun a ha =>
      hsettled _ (hactions ▸ List.mem_map_of_mem ha)
    rw [hstoredActions, hactions, ← hsame, List.map_map]
    rfl
  · obtain ⟨_, hfind, hboolean⟩ := (accepts_of_checkDefinition hcheck).findOr "stop_processing"
      (.bool false) rfl rfl
    obtain ⟨stops, rfl⟩ := hboolean.boolean
    have hread : r.stopProcessing = .bool stops := Except.ok.inj (hstops.symm.trans hfind)
    rw [hread, RuleDefinition.ofRow, stopProcessing_of_ruleOfDefinition hrow hfind]

end Rulebook
