import Rulebook.Proofs.Ledger.RuleTree
import Rulebook.Proofs.Service.Storing

/-!
# What a definition stores

Whether a definition can be stored in a given group, and if not why, depends on the definition
alone.  So does the tree of the stored rule.  Both are said here by a function of the definition
(`RuleTree.ofDefinition`) that checks it and then reads the rule and its parts in the very order in
which they are stored.

The program that stores a definition reads and inserts by turns.  Within a change an insertion does
not fail, and what is read next does not depend on what was inserted, except for the numbers of
rows.  `Enacts` relates such a program to the function that only reads: the program fails where the
function fails, with the same failure, and otherwise changes the store as the result of the function
says.  A failure may leave rows behind, but the change takes them back.

## Main definitions

* `RuleTree.ofDefinition` — the rule that a definition describes, or why it cannot be stored.
* `Enacts` — within a change, a program does what a plan says.
* `Store.replacing` — the store with a rule in place of those of the same name.
* `RuleTree.PlacesFit` — the places of the parts are numbers that columns hold.

## Main statements

* `enacts_writeParts` — adding the parts of a rule.
* `runOn_createRule` — creating a rule in place of others, as an equation.
* `treeOf_createRule` — whoever creates a rule from a definition stores its tree.
-/

namespace Rulebook

open Program

/-! ## Programs that do what was read -/

section Enacts

variable {α β γ : Type} {x : Operation α}

/-- Within a change the program does what the plan says: it gives the result and changes the store,
or it fails like the plan, and changes nothing but the store either way. -/
def Enacts (plan : Except Failure (Store → α × Store)) (x : Operation α) : Prop :=
  ∀ w : Workspace, w.isChanging = true →
    match plan with
    | .ok effect =>
      x.runOn w = (.ok (effect w.store).1, { w with store := (effect w.store).2 })
    | .error failure => ∃ s, x.runOn w = (.error failure, { w with store := s })

theorem enacts_pure (a : α) : Enacts (.ok fun s => (a, s)) (pure a : Operation α) :=
  fun _ _ => rfl

/-- What is read first decides what comes next. -/
theorem enacts_ofExcept_bind {r : Except Failure β} {plan : β → Except Failure (Store → α × Store)}
    {f : β → Operation α} (hf : ∀ b, r = .ok b → Enacts (plan b) (f b)) :
    Enacts (r >>= plan) (.ofExcept r >>= f) := by
  intro w hw
  cases r with
  | error failure => exact ⟨w.store, rfl⟩
  | ok b => exact hf b rfl w hw

/-- What comes second may use the result of the first, but whether it fails does not depend on
it. -/
theorem Enacts.bind {plan : Except Failure (Store → α × Store)} (hx : Enacts plan x)
    (next : Except Failure (α → Store → β × Store)) {f : α → Operation β}
    (hf : ∀ a, Enacts ((· a) <$> next) (f a)) :
    Enacts (do
      let first ← plan
      let second ← next
      return fun s => second (first s).1 (first s).2) (x >>= f) := by
  intro w hw
  have hfirst := hx w hw
  rcases plan with failure | first
  · obtain ⟨s, hrun⟩ := hfirst
    refine ⟨s, ?_⟩
    rw [runOn_bind, hrun]
  · dsimp only at hfirst
    have hsecond := hf (first w.store).1 { w with store := (first w.store).2 } hw
    rw [runOn_bind, hfirst]
    rcases next with failure | second
    · exact hsecond
    · exact hsecond

/-- What cannot fail may come first. -/
theorem Enacts.thenBind {effect : Store → α × Store} (hx : Enacts (.ok effect) x)
    (next : Except Failure (α → Store → β × Store)) {f : α → Operation β}
    (hf : ∀ a, Enacts ((· a) <$> next) (f a)) :
    Enacts ((fun second s => second (effect s).1 (effect s).2) <$> next) (x >>= f) := by
  rw [← bind_pure_comp]
  exact hx.bind next hf

/-- What comes second may use the result of the first, where neither can fail. -/
theorem Enacts.andThen {effect : Store → α × Store} (hx : Enacts (.ok effect) x)
    {next : α → Store → β × Store} {f : α → Operation β} (hf : ∀ a, Enacts (.ok (next a)) (f a)) :
    Enacts (.ok fun s => next (effect s).1 (effect s).2) (x >>= f) := hx.bind (.ok next) hf

theorem Enacts.map_unit {plan : Except Failure (Store → α × Store)} (hx : Enacts plan x) :
    Enacts ((fun effect s => ((), (effect s).2)) <$> plan) (do let _ ← x) := by
  have hbind := hx.bind (f := fun _ => pure ()) (.ok fun _ s => ((), s)) fun _ => enacts_pure ()
  rcases plan with failure | effect
  · exact hbind
  · exact hbind

/-- A row that is inserted if its columns are in order. -/
theorem enacts_insertChecked (table : Store → Table β) (setTable : Store → Table β → Store)
    (row : Except Failure β) :
    Enacts ((fun b s => ((table s).nextId, setTable s ((table s).insert b))) <$> row)
      (do insertRow table setTable (← .ofExcept row) : Operation Id) := by
  have hinsert : ∀ b, Enacts (.ok fun s => ((table s).nextId, setTable s ((table s).insert b)))
      (insertRow table setTable b) := by
    intro b w hw
    change (insertRow table setTable b).runOn w = _
    rw [insertRow, runOn_writeResult]
    dsimp only
    rw [hw, Bool.true_or, if_pos rfl]
  have hbind := enacts_ofExcept_bind (r := row) fun b _ => hinsert b
  rcases row with failure | b
  · exact hbind
  · exact hbind

/-- A pass that reads and adds each entry does what reading all entries first says. -/
theorem enacts_forPlaces {read : Nat → β → Except Failure γ} {add : γ → Store → Store}
    {f : Nat → β → Operation Unit}
    (hf : ∀ n b, Enacts ((fun c s => ((), add c s)) <$> read n b) (f n b)) (n : Nat)
    (items : List β) :
    Enacts ((fun cs s => ((), cs.foldl (fun s c => add c s) s)) <$> mapPlaces read n items)
      (forPlaces f n items) := by
  induction items generalizing n with
  | nil => exact enacts_pure ()
  | cons b rest ih =>
      have hbind := (hf n b).bind (f := fun _ => forPlaces f (n + 1) rest)
        ((fun cs _ s => ((), cs.foldl (fun s c => add c s) s)) <$>
          mapPlaces read (n + 1) rest) fun _ => by
        rw [← comp_map]
        exact ih (n + 1)
      simp only [mapPlaces, forPlaces, map_bind, map_pure, bind_map_left] at hbind ⊢
      exact hbind

end Enacts

/-! ## Parts -/

variable [Host]

/-- The row of a condition, without the number of its group. -/
def ConditionRow.ofCondition (c : Condition) : Except Failure ConditionRow := do
  let field ← Column.text c.field
  let operator ← Column.text c.operator
  let value ← Column.text c.value
  let isCaseSensitive ← Column.truth c.isCaseSensitive
  let isNegated ← Column.truth c.isNegated
  let order ← Column.whole "order" c.order
  let order ← order.mapM Column.checkFits
  return {
    group := 0
    field := ← Column.required field
    operator := ← Column.required operator
    value := ← Column.required value
    isCaseSensitive := ← Column.required isCaseSensitive
    isNegated := ← Column.required isNegated
    order := ← Column.required order }

/-- The row of an action as it is, without the number of its rule. -/
def ActionRow.ofWritten (a : Action) : Except Failure ActionRow := do
  let kind ← Column.text a.kind
  let value ← Column.text a.value
  let order ← Column.whole "order" a.order
  let stopProcessing ← Column.truth a.stopProcessing
  let order ← order.mapM Column.checkFits
  return {
    rule := 0
    kind := ← Column.required kind
    value
    order := ← Column.required order
    stopProcessing := ← Column.required stopProcessing }

/-- The row of an action, without the number of its rule.  Its value is written once more. -/
def ActionRow.ofAction (a : Action) : Except Failure ActionRow := do
  ofWritten (← a.setValue a.value)

/-- The connective and the place of a group, from the values of its columns. -/
def readGroupColumns (connective order : Json) : Except Failure (String × Int) := do
  let connective ← Column.text connective
  let order ← Column.whole "order" order
  let order ← order.mapM Column.checkFits
  return (← Column.required connective, ← Column.required order)

/-- The row of the condition that a payload describes. -/
def ConditionRow.ofPayload (place : Nat) (payload : Json) : Except Failure ConditionRow := do
  ofCondition (← Condition.ofPayload place payload)

/-- The row of the action that a payload describes. -/
def ActionRow.ofPayload (place : Nat) (payload : Json) : Except Failure ActionRow := do
  ofAction (← Action.ofPayload place payload)

/-- The conditions of a group that a payload describes. -/
def readConditions (payload : Json) : Except Failure (List ConditionRow) := do
  mapPlaces ConditionRow.ofPayload 0 (← (← payload.findOr "conditions" (.list [])).entries)

/-- The group that a payload describes, with its place. -/
def GroupDraft.ofPayload (place : Nat) (payload : Json) : Except Failure (GroupDraft × Int) := do
  let connective ← payload.findOr "logic_operator" (.text (Vocabulary.code Connective.all))
  let order ← payload.findOr "order" (.int place)
  let columns ← readGroupColumns connective order
  let conditions ← readConditions payload
  return (⟨columns.1, conditions⟩, columns.2)

/-- The groups of a rule that a definition describes. -/
def readGroups (definition : Json) : Except Failure (List (GroupDraft × Int)) := do
  mapPlaces GroupDraft.ofPayload 0
    (← (← definition.findOr "condition_groups" (.list [])).entries)

/-- The actions of a rule that a definition describes. -/
def readActions (definition : Json) : Except Failure (List ActionRow) := do
  mapPlaces ActionRow.ofPayload 0 (← (← definition.findOr "actions" (.list [])).entries)

theorem enacts_addCondition (group : Id) (c : Condition) :
    Enacts ((fun row s => (s.conditions.nextId,
        { s with conditions := s.conditions.insert { row with group } })) <$>
        ConditionRow.ofCondition c)
      (addCondition group c) := by
  have hadd : addCondition group c = (do
      insertRow Store.conditions (fun s t => { s with conditions := t })
        (← .ofExcept ((fun row : ConditionRow => { row with group }) <$>
          ConditionRow.ofCondition c)) : Operation Id) := by
    simp only [addCondition, ConditionRow.ofCondition, map_bind, map_pure]
  rw [hadd]
  have hinsert := enacts_insertChecked Store.conditions
    (fun s t => { s with conditions := t })
    ((fun row : ConditionRow => { row with group }) <$> ConditionRow.ofCondition c)
  rwa [← comp_map] at hinsert

theorem enacts_addAction (rule : Id) (a : Action) :
    Enacts ((fun row s => (s.actions.nextId,
        { s with actions := s.actions.insert { row with rule } })) <$> ActionRow.ofAction a)
      (addAction rule a) := by
  have hadd : addAction rule a = (do
      let a ← .ofExcept (a.setValue a.value)
      insertRow Store.actions (fun s t => { s with actions := t })
        (← .ofExcept ((fun row : ActionRow => { row with rule }) <$>
          ActionRow.ofWritten a)) : Operation Id) := by
    simp only [addAction, ActionRow.ofWritten, map_bind, map_pure]
  rw [hadd, ActionRow.ofAction, map_bind]
  refine enacts_ofExcept_bind fun a _ => ?_
  have hinsert := enacts_insertChecked Store.actions
    (fun s t => { s with actions := t })
    ((fun row : ActionRow => { row with rule }) <$> ActionRow.ofWritten a)
  rwa [← comp_map] at hinsert

theorem enacts_addConditionGroup (rule : Id) (connective order : Json) :
    Enacts ((fun columns s => (s.conditionGroups.nextId, { s with
        conditionGroups := s.conditionGroups.insert ⟨rule, columns.1, columns.2⟩ })) <$>
        readGroupColumns connective order)
      (addConditionGroup rule connective order) := by
  have hadd : addConditionGroup rule connective order = (do
      insertRow Store.conditionGroups (fun s t => { s with conditionGroups := t })
        (← .ofExcept ((fun columns : String × Int =>
          (⟨rule, columns.1, columns.2⟩ : ConditionGroupRow)) <$>
            readGroupColumns connective order)) : Operation Id) := by
    simp only [addConditionGroup, readGroupColumns, map_bind, map_pure]
  have hinsert := enacts_insertChecked Store.conditionGroups
    (fun s t => { s with conditionGroups := t })
    ((fun columns : String × Int => (⟨rule, columns.1, columns.2⟩ : ConditionGroupRow)) <$>
      readGroupColumns connective order)
  rw [hadd]
  rwa [← comp_map] at hinsert

omit [Host] in
/-- Conditions that are inserted one after the other. -/
theorem foldl_insert_conditions (group : Id) (rows : List ConditionRow) (s : Store) :
    rows.foldl (fun s row =>
      { s with conditions := s.conditions.insert { row with group } }) s =
      { s with conditions := s.conditions.insertAll (rows.map ({ · with group })) } := by
  induction rows generalizing s with
  | nil => rfl
  | cons row rest ih => exact ih _

omit [Host] in
theorem foldl_insert_actions (rule : Id) (rows : List ActionRow) (s : Store) :
    rows.foldl (fun s row => { s with actions := s.actions.insert { row with rule } }) s =
      { s with actions := s.actions.insertAll (rows.map ({ · with rule })) } := by
  induction rows generalizing s with
  | nil => rfl
  | cons row rest ih => exact ih _

/-- Adding the conditions that payloads describe. -/
theorem enacts_addConditions (group : Id) (n : Nat) (items : List Json) :
    Enacts ((fun rows s => ((), { s with
        conditions := s.conditions.insertAll (rows.map ({ · with group })) })) <$>
        mapPlaces ConditionRow.ofPayload n items)
      (forPlaces (fun n payload => do
        let _ ← addCondition group (← .ofExcept (Condition.ofPayload n payload))) n items) := by
  have hadd : ∀ n payload, Enacts ((fun row s => ((), { s with
      conditions := s.conditions.insert { row with group } })) <$>
        ConditionRow.ofPayload n payload)
      (do let _ ← addCondition group (← .ofExcept (Condition.ofPayload n payload))) := by
    intro n payload
    rw [ConditionRow.ofPayload, map_bind]
    refine enacts_ofExcept_bind fun c _ => ?_
    have hunit := (enacts_addCondition group c).map_unit
    rwa [← comp_map] at hunit
  have hall := enacts_forPlaces hadd n items
  simp only [foldl_insert_conditions] at hall
  exact hall

/-- Adding the actions that payloads describe. -/
theorem enacts_addActions (rule : Id) (n : Nat) (items : List Json) :
    Enacts ((fun rows s => ((), { s with
        actions := s.actions.insertAll (rows.map ({ · with rule })) })) <$>
        mapPlaces ActionRow.ofPayload n items)
      (forPlaces (fun n payload => do
        let _ ← addAction rule (← .ofExcept (Action.ofPayload n payload))) n items) := by
  have hadd : ∀ n payload, Enacts ((fun row s => ((), { s with
      actions := s.actions.insert { row with rule } })) <$> ActionRow.ofPayload n payload)
      (do let _ ← addAction rule (← .ofExcept (Action.ofPayload n payload))) := by
    intro n payload
    rw [ActionRow.ofPayload, map_bind]
    refine enacts_ofExcept_bind fun a _ => ?_
    have hunit := (enacts_addAction rule a).map_unit
    rwa [← comp_map] at hunit
  have hall := enacts_forPlaces hadd n items
  simp only [foldl_insert_actions] at hall
  exact hall

/-- Adding the group that a payload describes. -/
theorem enacts_writeConditionGroup (rule : Id) (place : Nat) (payload : Json) :
    Enacts ((fun g s => ((), s.withGroup ⟨rule, g.1.connective, g.2⟩ g.1.conditions)) <$>
        GroupDraft.ofPayload place payload)
      (writeConditionGroup rule place payload) := by
  simp only [GroupDraft.ofPayload, writeConditionGroup, map_bind, map_pure]
  refine enacts_ofExcept_bind fun connective _ => enacts_ofExcept_bind fun order _ => ?_
  let insert (rows : List ConditionRow) (group : Id) (s : Store) : Unit × Store :=
    ((), { s with conditions := s.conditions.insertAll (rows.map ({ · with group })) })
  have hconditions : ∀ group : Id, Enacts ((· group) <$> (insert <$> readConditions payload))
      (do
        let items ← .ofExcept (do (← payload.findOr "conditions" (.list [])).entries)
        forPlaces (fun n payload => do
          let _ ← addCondition group (← .ofExcept (Condition.ofPayload n payload))) 0 items) := by
    intro group
    rw [← comp_map, readConditions, ← bind_assoc, map_bind]
    exact enacts_ofExcept_bind fun items _ => enacts_addConditions group 0 items
  have hall := (enacts_addConditionGroup rule connective order).bind _ hconditions
  simp only [bind_map_left] at hall
  exact hall

/-- Adding the parts that a definition describes. -/
theorem enacts_writeParts (rule : Id) (d : Json) :
    Enacts (do
        let groups ← readGroups d
        let actions ← readActions d
        return fun s => ((), s.withParts rule groups actions))
      (writeParts rule d) := by
  have hactions : Enacts ((fun rows s => ((), { s with
      actions := s.actions.insertAll (rows.map ({ · with rule })) })) <$> readActions d)
      (do
        let items ← .ofExcept (do (← d.findOr "actions" (.list [])).entries)
        forPlaces (fun n payload => do
          let _ ← addAction rule (← .ofExcept (Action.ofPayload n payload))) 0 items) := by
    rw [readActions, ← bind_assoc, map_bind]
    exact enacts_ofExcept_bind fun items _ => enacts_addActions rule 0 items
  have hgroups : Enacts ((fun groups s => ((), s.withGroups rule groups)) <$> readGroups d)
      (do
        let items ← .ofExcept (do (← d.findOr "condition_groups" (.list [])).entries)
        forPlaces (writeConditionGroup rule) 0 items) := by
    rw [readGroups, ← bind_assoc, map_bind]
    exact enacts_ofExcept_bind fun items _ =>
      enacts_forPlaces (enacts_writeConditionGroup rule) 0 items
  have hall := hgroups.bind ((fun rows _ s => ((), { s with
    actions := s.actions.insertAll (rows.map ({ · with rule })) })) <$> readActions d)
      fun _ => by rwa [← comp_map]
  rw [bind_assoc] at hall
  simp only [bind_map_left] at hall
  exact hall

/-! ## Rules -/

/-- The rule that is read from a definition, as it would be stored. -/
def RuleTree.read (definition : Json) : Except Failure RuleTree := do
  let r ← ruleOfDefinition 0 0 definition startInstant
  let groups ← readGroups definition
  let actions ← readActions definition
  return {
    name := r.name
    description := r.description
    trigger := r.trigger
    order := r.order
    isActive := r.isActive
    stopProcessing := r.stopProcessing
    groups, actions }

/-- The rule that a definition describes, or why it cannot be stored. -/
def RuleTree.ofDefinition (definition : Json) : Except Failure RuleTree := do
  checkDefinition definition
  read definition

/-- Whose the rule is and when it is created only shows in its row. -/
theorem ruleOfDefinition_eq_map (user group : Id) (d : Json) (now : Calendar.Instant) :
    ruleOfDefinition user group d now =
      (fun r : Rule => { r with user, group, createdAt := now, updatedAt := now }) <$>
        ruleOfDefinition 0 0 d startInstant := by
  simp only [ruleOfDefinition, ruleFromColumns, map_bind, map_pure]

/-- Adding a rule with its parts. -/
theorem enacts_addRuleWithParts (user group : Id) (d : Json) (now : Calendar.Instant) :
    Enacts ((fun t s => (s.rules.nextId, s.withTree user group now t)) <$> RuleTree.read d)
      (do
        let rule ← addRule (← .ofExcept (ruleOfDefinition user group d now))
        writeParts rule d
        return rule) := by
  let parts : Except Failure (List (GroupDraft × Int) × List ActionRow) := do
    let groups ← readGroups d
    let actions ← readActions d
    return (groups, actions)
  let insert (parts : List (GroupDraft × Int) × List ActionRow) (rule : Id) (s : Store) :=
    (rule, s.withParts rule parts.1 parts.2)
  have hparts : ∀ rule : Id, Enacts ((· rule) <$> (insert <$> parts))
      (do
        writeParts rule d
        return rule) := by
    intro rule
    have hall := (enacts_writeParts rule d).bind (f := fun _ => pure rule)
      (.ok fun _ s => (rule, s)) fun _ => enacts_pure rule
    simp only [parts, map_bind, map_pure, bind_assoc, pure_bind] at hall ⊢
    exact hall
  have hrow := enacts_insertChecked Store.rules
    (fun s t => { s with rules := t }) (ruleOfDefinition user group d now)
  have hall := hrow.bind _ hparts
  rw [ruleOfDefinition_eq_map] at hall
  rw [RuleTree.read, ruleOfDefinition_eq_map user group d now]
  simp only [parts, map_bind, map_pure, bind_map_left, bind_assoc, pure_bind] at hall ⊢
  exact hall

/-- The rules of a user in a group that have a name. -/
def Store.rulesNamed (s : Store) (user group : Id) (name : String) : List (Id × Rule) :=
  s.rules.filter fun _ r => r.user = user && r.group = group && r.name = name

/-- The store with a rule in place of those of the same name in its group. -/
def Store.replacing (user group : Id) (now : Calendar.Instant) (t : RuleTree) (s : Store) : Store :=
  (s.delete { rules := (s.rulesNamed user group t.name).map (·.1) }).withTree user group now t

namespace Store

variable {s : Store} {user group : Id}

omit [Host] in
/-- The new rule refers to what is there. -/
theorem IsClosed.withTree (h : s.IsClosed) (huser : s.users.has user = true)
    (hgroup : s.groups.has group = true) (now : Calendar.Instant) (t : RuleTree) :
    (s.withTree user group now t).IsClosed := by
  refine (h.insertRule (r := t.row user group now) huser hgroup).withParts ?_ _ _
  refine Table.has_of_find? (a := t.row user group now) ?_
  rw [Table.find?_insert, if_pos rfl]

omit [Host] in
theorem IsClosed.replacing (h : s.IsClosed) (huser : s.users.has user = true)
    (hgroup : s.groups.has group = true) (now : Calendar.Instant) (t : RuleTree) :
    (s.replacing user group now t).IsClosed :=
  (h.delete _).withTree ((has_delete_rules s _ user).1.trans huser)
    ((has_delete_rules s _ group).2.trans hgroup) now t

end Store

section Creating

variable {w v : Workspace} {user group : Id} {d : Json} {t : RuleTree}

/-- A rule has the name that is given for its column. -/
theorem name_of_ruleFromColumns {name description trigger order isActive stops : Json}
    {createdAt updatedAt : Calendar.Instant} {r : Rule}
    (h : ruleFromColumns user group name description trigger order isActive stops createdAt
      updatedAt = .ok r) : name.plain .message = .ok r.name := by
  obtain ⟨shown, hshown, h⟩ := eq_ok_of_bind h
  obtain ⟨_, -, h⟩ := eq_ok_of_bind h
  obtain ⟨_, -, h⟩ := eq_ok_of_bind h
  obtain ⟨_, -, h⟩ := eq_ok_of_bind h
  obtain ⟨_, -, h⟩ := eq_ok_of_bind h
  obtain ⟨_, -, h⟩ := eq_ok_of_bind h
  obtain ⟨_, -, h⟩ := eq_ok_of_bind h
  obtain ⟨required, hrequired, h⟩ := eq_ok_of_bind h
  obtain ⟨_, -, h⟩ := eq_ok_of_bind h
  obtain ⟨_, -, h⟩ := eq_ok_of_bind h
  obtain ⟨_, -, h⟩ := eq_ok_of_bind h
  obtain ⟨_, -, h⟩ := eq_ok_of_bind h
  obtain ⟨_, -, h⟩ := eq_ok_of_bind h
  cases h
  rw [Column.text.eq_def] at hshown
  split at hshown
  · cases hshown
    cases hrequired
  · obtain ⟨s, hs, hshown⟩ := eq_ok_of_bind hshown
    cases hshown
    cases hrequired
    exact hs

/-- The name in a tree is the one by which rules are replaced. -/
theorem RuleTree.name_of_read (h : RuleTree.read d = .ok t) :
    ∃ name, d.require "name" = .ok name ∧ name.plain .message = .ok t.name := by
  obtain ⟨r, hr, h⟩ := eq_ok_of_bind h
  obtain ⟨groups, -, h⟩ := eq_ok_of_bind h
  obtain ⟨actions, -, h⟩ := eq_ok_of_bind h
  cases h
  obtain ⟨name, hname, hr⟩ := eq_ok_of_bind hr
  refine ⟨name, hname, ?_⟩
  obtain ⟨_, -, hr⟩ := eq_ok_of_bind hr
  obtain ⟨_, -, hr⟩ := eq_ok_of_bind hr
  obtain ⟨_, -, hr⟩ := eq_ok_of_bind hr
  obtain ⟨_, -, hr⟩ := eq_ok_of_bind hr
  obtain ⟨_, -, hr⟩ := eq_ok_of_bind hr
  exact name_of_ruleFromColumns hr

/-- The rules of the name that a definition gives make room for the new one. -/
theorem runOn_makeRoom (hw : w.isChanging = true) {name : String}
    (hname : d.require "name" = .ok (.text name)) :
    (makeRoom user group d true).runOn w = (.ok (), { w with
      store := w.store.delete
        { rules := (w.store.rulesNamed user group name).map (·.1) } }) := by
  rw [makeRoom, if_pos rfl, bind_of_eq_ok hname, Json.plain_text]
  change (deleteNamedRules user group name).runOn w = _
  rw [deleteNamedRules, runOn_bind, runOn_get]
  change (write _).runOn w = _
  rw [write, runOn_writeResult]
  dsimp only
  rw [hw, Bool.true_or, if_pos rfl]
  rfl

omit [Host] in
/-- A change of its own is made final if all references hold. -/
theorem runOn_atomically_of_ok {α : Type} {act : Operation α} {a : α} {s : Store}
    (h : act.runOn { w with isChanging := true } =
      (.ok a, { w with isChanging := true, store := s })) :
    (atomically act).runOn w =
      if w.isChanging || s.referencesHold then (.ok a, { w with store := s })
      else (.error .brokenReference, w) := by
  rw [runOn_atomically, h]
  rfl

omit [Host] in
/-- A change of its own that fails changes nothing. -/
theorem runOn_atomically_of_error {α : Type} {act : Operation α} {failure : Failure} {s : Store}
    (h : act.runOn { w with isChanging := true } =
      (.error failure, { w with isChanging := true, store := s })) :
    (atomically act).runOn w = (.error failure, w) := by
  rw [runOn_atomically, h]
  rfl

/-- Creating a rule in place of those of the same name: what the definition describes is put in
their place, unless the definition is refused or the user or the group is not there. -/
theorem runOn_createRule (w : Workspace) (user group : Id) (d : Json) :
    (createRule user d (some group) true).runOn w =
      match RuleTree.ofDefinition d with
      | .ok t =>
        if w.isChanging || (w.store.replacing user group w.now t).referencesHold then
          (.ok w.store.rules.nextId, { w with store := w.store.replacing user group w.now t })
        else (.error .brokenReference, w)
      | .error failure => (.error failure, w) := by
  rw [RuleTree.ofDefinition]
  rcases hcheck : checkDefinition d with failure | ⟨⟨⟩⟩
  · rw [createRule_eq, hcheck]
    rfl
  · have hbody : createRule user d (some group) true = atomically (do
        let _ ← makeRoom user group d true
        addRuleWithParts user group d) := by
      rw [createRule_eq, hcheck]
      rfl
    obtain ⟨_, hname, hshape⟩ :=
      (accepts_of_checkDefinition hcheck).require "name" rfl (by simp)
    obtain ⟨name, rfl⟩ := hshape.boundedText
    let room := w.store.delete
      { rules := (w.store.rulesNamed user group name).map (·.1) }
    have hinside : (do
        let _ ← makeRoom user group d true
        addRuleWithParts user group d : Operation Id).runOn { w with isChanging := true } =
          (do
            let rule ← addRule (← .ofExcept (ruleOfDefinition user group d w.now))
            writeParts rule d
            return rule : Operation Id).runOn { w with isChanging := true, store := room } := by
      rw [runOn_bind, runOn_makeRoom rfl hname]
      dsimp only
      rw [addRuleWithParts, runOn_bind, runOn_get]
    have hadd := enacts_addRuleWithParts user group d w.now
      { w with isChanging := true, store := room } rfl
    rw [hbody]
    rcases hread : RuleTree.read d with failure | t
    · rw [hread] at hadd
      obtain ⟨s, hrun⟩ := hadd
      exact runOn_atomically_of_error (hinside.trans hrun)
    · obtain ⟨_, hsame, ht⟩ := RuleTree.name_of_read hread
      cases hname.symm.trans hsame
      obtain rfl := Except.ok.inj ((Json.plain_text name).symm.trans ht)
      rw [hread] at hadd
      have hreplacing : w.store.replacing user group w.now t =
          room.withTree user group w.now t := by
        rw [Store.replacing]
      have hrun := runOn_atomically_of_ok (hinside.trans hadd)
      rw [hrun]
      change _ = if w.isChanging || (w.store.replacing user group w.now t).referencesHold then _
        else _
      rw [hreplacing]
      rfl

/-- Where nothing refers to rows that are not there, whether a rule can be created depends on its
definition alone. -/
theorem runOn_createRule_of_closed (hclosed : w.store.IsClosed)
    (huser : w.store.users.has user = true) (hgroup : w.store.groups.has group = true) (d : Json) :
    (createRule user d (some group) true).runOn w =
      match RuleTree.ofDefinition d with
      | .ok t =>
        (.ok w.store.rules.nextId, { w with store := w.store.replacing user group w.now t })
      | .error failure => (.error failure, w) := by
  rw [runOn_createRule]
  rcases RuleTree.ofDefinition d with failure | t
  · rfl
  · have hholds := Store.isClosed_iff.1 (hclosed.replacing huser hgroup w.now t)
    dsimp only
    rw [hholds, Bool.or_true, if_pos rfl]

end Creating

/-! ## What is stored -/

omit [Host] in
/-- Entries that are read with their places come out in the order of their places. -/
theorem pairwise_of_mapPlaces {α β : Type} {read : Nat → α → Except Failure β} {place : β → Int}
    (hplace : ∀ n a b, read n a = .ok b → place b = n) {n : Nat} {items : List α} {bs : List β}
    (h : mapPlaces read n items = .ok bs) :
    bs.Pairwise (fun a b => place a < place b) ∧ ∀ b ∈ bs, (n : Int) ≤ place b := by
  induction items generalizing n bs with
  | nil =>
      cases h
      exact ⟨.nil, nofun⟩
  | cons a rest ih =>
      obtain ⟨b, hb, h⟩ := eq_ok_of_bind h
      obtain ⟨later, hlater, h⟩ := eq_ok_of_bind h
      cases h
      obtain ⟨hordered, hleast⟩ := ih hlater
      have hfirst := hplace n a b hb
      refine ⟨List.pairwise_cons.2 ⟨fun c hc => ?_, hordered⟩,
        List.forall_mem_cons.2 ⟨Int.le_of_eq hfirst.symm, fun c hc => ?_⟩⟩
      · have hlast := hleast c hc
        omega
      · have hlast := hleast c hc
        omega

theorem ConditionRow.ofPayload_eq_ok {n : Nat} {payload : Json} {c : ConditionRow}
    (h : ofPayload n payload = .ok c) :
    c.order = n ∧ c.detached = c ∧ Column.fits n = true := by
  obtain ⟨drafted, hread, h⟩ := eq_ok_of_bind h
  obtain ⟨_, -, hread⟩ := eq_ok_of_bind hread
  obtain ⟨_, -, hread⟩ := eq_ok_of_bind hread
  obtain ⟨_, -, hread⟩ := eq_ok_of_bind hread
  obtain ⟨_, -, hread⟩ := eq_ok_of_bind hread
  obtain ⟨_, -, hread⟩ := eq_ok_of_bind hread
  obtain ⟨_, -, hread⟩ := eq_ok_of_bind hread
  cases hread
  obtain ⟨_, -, h⟩ := eq_ok_of_bind h
  obtain ⟨_, -, h⟩ := eq_ok_of_bind h
  obtain ⟨_, -, h⟩ := eq_ok_of_bind h
  obtain ⟨_, -, h⟩ := eq_ok_of_bind h
  obtain ⟨_, -, h⟩ := eq_ok_of_bind h
  obtain ⟨_, ⟨⟩, h⟩ := eq_ok_of_bind h
  obtain ⟨_, horder, h⟩ := eq_ok_of_bind h
  cases mapM_checkFits_eq_ok horder
  obtain ⟨_, -, h⟩ := eq_ok_of_bind h
  obtain ⟨_, -, h⟩ := eq_ok_of_bind h
  obtain ⟨_, -, h⟩ := eq_ok_of_bind h
  obtain ⟨_, -, h⟩ := eq_ok_of_bind h
  obtain ⟨_, -, h⟩ := eq_ok_of_bind h
  cases h
  exact ⟨rfl, rfl, fits_of_mapM_checkFits horder⟩

theorem ActionRow.ofPayload_eq_ok {n : Nat} {payload : Json} {a : ActionRow}
    (h : ofPayload n payload = .ok a) :
    a.order = n ∧ a.detached = a ∧ Column.fits n = true := by
  obtain ⟨drafted, hread, h⟩ := eq_ok_of_bind h
  obtain ⟨_, -, hread⟩ := eq_ok_of_bind hread
  obtain ⟨_, -, hread⟩ := eq_ok_of_bind hread
  obtain ⟨_, -, hread⟩ := eq_ok_of_bind hread
  obtain ⟨_, _, -, -, rfl⟩ := Action.setValue_eq_ok hread
  obtain ⟨_, hset, h⟩ := eq_ok_of_bind h
  obtain ⟨_, _, -, -, rfl⟩ := Action.setValue_eq_ok hset
  obtain ⟨_, -, h⟩ := eq_ok_of_bind h
  obtain ⟨_, -, h⟩ := eq_ok_of_bind h
  obtain ⟨_, ⟨⟩, h⟩ := eq_ok_of_bind h
  obtain ⟨_, -, h⟩ := eq_ok_of_bind h
  obtain ⟨_, horder, h⟩ := eq_ok_of_bind h
  cases mapM_checkFits_eq_ok horder
  obtain ⟨_, -, h⟩ := eq_ok_of_bind h
  obtain ⟨_, ⟨⟩, h⟩ := eq_ok_of_bind h
  obtain ⟨_, -, h⟩ := eq_ok_of_bind h
  cases h
  exact ⟨rfl, rfl, fits_of_mapM_checkFits horder⟩

theorem fits_of_readGroupColumns {connective order : Json} {columns : String × Int}
    (h : readGroupColumns connective order = .ok columns) : Column.fits columns.2 = true := by
  obtain ⟨_, -, h⟩ := eq_ok_of_bind h
  obtain ⟨whole, -, h⟩ := eq_ok_of_bind h
  obtain ⟨checked, hchecked, h⟩ := eq_ok_of_bind h
  obtain ⟨_, -, h⟩ := eq_ok_of_bind h
  obtain ⟨n, hn, h⟩ := eq_ok_of_bind h
  cases h
  cases whole with
  | none =>
      cases hchecked
      cases hn
  | some m =>
      cases mapM_checkFits_eq_ok hchecked
      cases hn
      exact fits_of_mapM_checkFits hchecked

/-- The parts that are read from a definition are each read from a payload. -/
theorem RuleTree.parts_of_read {d : Json} {t : RuleTree} (h : read d = .ok t) :
    (∀ g ∈ t.groups, Column.fits g.2 = true ∧
      ∃ items, mapPlaces ConditionRow.ofPayload 0 items = .ok g.1.conditions) ∧
    ∃ items, mapPlaces ActionRow.ofPayload 0 items = .ok t.actions := by
  obtain ⟨r, -, h⟩ := eq_ok_of_bind h
  obtain ⟨groups, hgroups, h⟩ := eq_ok_of_bind h
  obtain ⟨actions, hactions, h⟩ := eq_ok_of_bind h
  cases h
  obtain ⟨_, -, hgroups⟩ := eq_ok_of_bind hgroups
  obtain ⟨_, -, hgroups⟩ := eq_ok_of_bind hgroups
  obtain ⟨_, -, hactions⟩ := eq_ok_of_bind hactions
  obtain ⟨items, -, hactions⟩ := eq_ok_of_bind hactions
  refine ⟨fun g hg => ?_, items, hactions⟩
  obtain ⟨payload, -, n, hread⟩ := exists_of_mem_mapPlaces hgroups hg
  obtain ⟨_, -, hread⟩ := eq_ok_of_bind hread
  obtain ⟨_, -, hread⟩ := eq_ok_of_bind hread
  obtain ⟨columns, hcolumns, hread⟩ := eq_ok_of_bind hread
  obtain ⟨conditions, hconditions, hread⟩ := eq_ok_of_bind hread
  cases hread
  obtain ⟨_, -, hconditions⟩ := eq_ok_of_bind hconditions
  obtain ⟨items, -, hconditions⟩ := eq_ok_of_bind hconditions
  exact ⟨fits_of_readGroupColumns hcolumns, items, hconditions⟩

/-- What is read from a definition has its parts in order. -/
theorem RuleTree.isDraft_of_read {d : Json} {t : RuleTree} (h : read d = .ok t) : t.IsDraft := by
  obtain ⟨hgroups, items, hactions⟩ := parts_of_read h
  refine ⟨fun g hg => ?_, fun g hg c hc => ?_, ?_, fun a ha => ?_⟩
  · obtain ⟨-, items, hitems⟩ := hgroups g hg
    exact (pairwise_of_mapPlaces (fun n payload c h => (ConditionRow.ofPayload_eq_ok h).1)
      hitems).1
  · obtain ⟨-, items, hitems⟩ := hgroups g hg
    obtain ⟨_, -, n, hread⟩ := exists_of_mem_mapPlaces hitems hc
    exact (ConditionRow.ofPayload_eq_ok hread).2.1
  · exact (pairwise_of_mapPlaces (fun n payload a h => (ActionRow.ofPayload_eq_ok h).1) hactions).1
  · obtain ⟨_, -, n, hread⟩ := exists_of_mem_mapPlaces hactions ha
    exact (ActionRow.ofPayload_eq_ok hread).2.1

/-- The places of all parts are numbers that columns hold. -/
structure RuleTree.PlacesFit (t : RuleTree) : Prop where
  groups : ∀ g ∈ t.groups, Column.fits g.2 = true
  conditions : ∀ g ∈ t.groups, ∀ c ∈ g.1.conditions, Column.fits c.order = true
  actions : ∀ a ∈ t.actions, Column.fits a.order = true

/-- What is read from a definition has places that fit. -/
theorem RuleTree.placesFit_of_read {d : Json} {t : RuleTree} (h : read d = .ok t) :
    t.PlacesFit := by
  obtain ⟨hgroups, items, hactions⟩ := parts_of_read h
  refine ⟨fun g hg => (hgroups g hg).1, fun g hg c hc => ?_, fun a ha => ?_⟩
  · obtain ⟨-, items, hitems⟩ := hgroups g hg
    obtain ⟨_, -, n, hread⟩ := exists_of_mem_mapPlaces hitems hc
    obtain ⟨horder, -, hfits⟩ := ConditionRow.ofPayload_eq_ok hread
    rwa [horder]
  · obtain ⟨_, -, n, hread⟩ := exists_of_mem_mapPlaces hactions ha
    obtain ⟨horder, -, hfits⟩ := ActionRow.ofPayload_eq_ok hread
    rwa [horder]

theorem RuleTree.isOrdered_of_ofDefinition {d : Json} {t : RuleTree} (h : ofDefinition d = .ok t) :
    t.IsOrdered := by
  obtain ⟨_, -, hread⟩ := eq_ok_of_bind h
  exact (isDraft_of_read hread).isOrdered

/-- Whoever creates a rule from a definition, and wherever: what is stored is the tree of the
definition, with its groups in the order of their places. -/
theorem treeOf_createRule {w v : Workspace} {user rule : Id} {d : Json} {group : Option Id}
    {replace : Bool} (h : (createRule user d group replace).runOn w = (.ok rule, v))
    (hknown : w.store.PartsKnown) :
    ∃ t row, RuleTree.ofDefinition d = .ok t ∧ v.store.rules.find? rule = some row ∧
      v.store.treeOf rule row = t.sorted := by
  obtain ⟨hcheck, -, group, now, r, u, u', hr, hkept, rfl, hparts, hstore⟩ := createRule_eq_ok h
  rw [ruleOfDefinition_eq_map, ← bind_pure_comp] at hr
  obtain ⟨r, hread, hr⟩ := eq_ok_of_bind hr
  cases hr
  have hrun := enacts_writeParts u.store.rules.nextId d { u with store := { u.store with
    rules := u.store.rules.insert
      { r with user, group, createdAt := now, updatedAt := now } } } hkept.changing
  rcases hgroups : readGroups d with failure | groups
  · rw [hgroups] at hrun
    obtain ⟨_, hfails⟩ := hrun
    cases hparts.symm.trans hfails
  · rcases hactions : readActions d with failure | actions
    · rw [hgroups, hactions] at hrun
      obtain ⟨_, hfails⟩ := hrun
      cases hparts.symm.trans hfails
    · rw [hgroups, hactions] at hrun
      let t : RuleTree := ⟨r.name, r.description, r.trigger, r.order, r.isActive,
        r.stopProcessing, groups, actions⟩
      have ht : RuleTree.read d = .ok t := by
        rw [RuleTree.read, hread, hgroups, hactions]
        rfl
      have hfinal : v.store = u.store.withTree user group now t := by
        cases hparts.symm.trans hrun
        exact hstore
      refine ⟨t, t.row user group now, ?_, ?_, ?_⟩
      · rw [RuleTree.ofDefinition, hcheck]
        exact ht
      · rw [hfinal, Store.find?_withTree, if_pos rfl]
      · rw [hfinal]
        exact Store.treeOf_withTree (hkept.known hknown) (RuleTree.isDraft_of_read ht).isOrdered
          user group now

end Rulebook
