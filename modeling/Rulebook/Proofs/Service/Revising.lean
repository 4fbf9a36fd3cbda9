import Rulebook.Proofs.Exchange.Description
import Rulebook.Service.Management

/-!
# Changing a rule

A rule is changed by a definition.  The definition is checked, the settings that it mentions are
written over the old ones, all parts of the rule are deleted, and new parts are written from the
definition.  Anything may still fail once the old parts are gone, but all of this is one change, and
a change that fails is taken back as a whole.

The parts that are written are those that anybody writes who creates a rule from the same
definition. The rule has none when they are written, just as a new rule has none, so they are read
back in the same way (`Store.IsBare`).  What goes along with the old parts is found by number, and
nothing that belongs to another rule has such a number.

If a rule is changed by its own payload, nothing about it changes that a payload shows.  The parts
are written again at the places where they stand, and settled values are written again as they are.

## Main definitions

* `Revision` — a rule as it is to become; `Store.revising` puts it in its place.
* `Rule.Revised` — the settings of a rule before and after.

## Main statements

* `runOn_updateRule` — changing a rule, as an equation.
* `updateRule_replaces` — a rule is changed as a whole, or not at all, and no other is.
-/

namespace Rulebook

open Program Calendar

section

/-! ## Taking the parts away -/

namespace Store

variable {s : Store} {rule id : Id}

/-- A table without the rows with some numbers is the table without the rows that pass a test, if
these are the same rows. -/
theorem without_eq_remove {α : Type} {t : Table α} {gone : List Id} {test : Id → α → Bool}
    (h : ∀ n a, t.find? n = some a → (n ∈ gone ↔ test n a = true)) :
    without t gone = t.remove test := by
  refine Table.ext (List.filter_congr fun row hrow => ?_) rfl
  obtain ⟨n, a⟩ := row
  have hsame : gone.contains n = test n a := by
    rw [Bool.eq_iff_iff, List.contains_iff_mem]
    exact h n a (Table.find?_eq_some_of_mem hrow)
  exact congrArg (!·) hsame

/-- The numbers of the rows that pass a test are those of exactly these rows. -/
theorem mem_map_filter_iff {α : Type} {t : Table α} {test : Id → α → Bool} {n : Id} {a : α}
    (h : t.find? n = some a) : n ∈ (t.filter test).map (·.1) ↔ test n a = true := by
  rw [List.mem_map]
  constructor
  · rintro ⟨⟨m, b⟩, hrow, rfl⟩
    obtain ⟨hmem, htest⟩ := List.mem_filter.1 hrow
    cases h.symm.trans (Table.find?_eq_some_of_mem hmem)
    exact htest
  · intro htest
    exact ⟨(n, a), List.mem_filter.2 ⟨Table.mem_rows_of_find? h, htest⟩, rfl⟩

/-- Whether a condition stands in a group of the rule. -/
def isConditionOf (s : Store) (rule : Id) (c : ConditionRow) : Bool :=
  (s.conditionGroups.find? c.group).any (·.rule = rule)

/-- Deleting the parts of a rule deletes its groups, their conditions, and its actions, and nothing
else. -/
theorem delete_partsOf (s : Store) (rule : Id) :
    s.delete (s.partsOf rule) = { s with
      conditionGroups := s.conditionGroups.remove fun _ g => g.rule = rule
      conditions := s.conditions.remove fun _ c => s.isConditionOf rule c
      actions := s.actions.remove fun _ a => a.rule = rule } := by
  have hgroup : ∀ n g, s.conditionGroups.find? n = some g →
      (n ∈ reach s.conditionGroups (s.partsOf rule).conditionGroups (fun _ => false) ↔
        decide (g.rule = rule) = true) := by
    intro n g hfind
    rw [mem_reach_iff]
    simp [hfind, partsOf, mem_map_filter_iff hfind]
  have hgroups : without s.conditionGroups (reach s.conditionGroups
      (s.partsOf rule).conditionGroups fun _ => false) =
        s.conditionGroups.remove fun _ g => g.rule = rule := without_eq_remove hgroup
  have hactions : without s.actions (reach s.actions (s.partsOf rule).actions fun _ => false) =
      s.actions.remove fun _ a => a.rule = rule := by
    refine without_eq_remove fun n a hfind => ?_
    rw [mem_reach_iff]
    simp [hfind, partsOf, mem_map_filter_iff hfind]
  have hconditions : without s.conditions (reach s.conditions [] fun c =>
      (reach s.conditionGroups (s.partsOf rule).conditionGroups fun _ => false).contains c.group) =
        s.conditions.remove fun _ c => s.isConditionOf rule c := by
    refine without_eq_remove fun n c hfind => ?_
    rw [mem_reach_iff]
    rcases hnamed : s.conditionGroups.find? c.group with _ | g
    · have hnone : c.group ∉
          reach s.conditionGroups (s.partsOf rule).conditionGroups fun _ => false := by
        rw [mem_reach_iff, hnamed]
        rintro ⟨_, ⟨⟩, -⟩
      simp [hfind, hnone, isConditionOf, hnamed]
    · simp [hfind, isConditionOf, hnamed, hgroup c.group g hnamed]
  rw [← hgroups, ← hactions, ← hconditions]
  simp [delete, removeDoomed, doomed, partsOf, reach_nil, mapRows_id]

/-- A rule whose parts were deleted has none. -/
theorem PartsKnown.isBare_delete (h : s.PartsKnown) (rule : Id) :
    (s.delete (s.partsOf rule)).IsBare rule := by
  rw [delete_partsOf]
  refine ⟨fun row hrow => ?_, fun row hrow => ?_, fun row hrow => ?_⟩
  · simpa using (List.mem_filter.1 hrow).2
  · simpa using (List.mem_filter.1 hrow).2
  · exact h.conditions row (List.mem_filter.1 hrow).1

/-- Deleting the parts of a rule leaves all other rules alone. -/
theorem keepsRule_delete_partsOf (hne : id ≠ rule) :
    s.KeepsRule (s.delete (s.partsOf rule)) id := by
  rw [delete_partsOf]
  have hother : ∀ {n : Id}, decide (n = id) = true → decide (n = rule) = false := by
    intro n hn
    rw [of_decide_eq_true hn]
    exact decide_eq_false hne
  have hmine : ∀ {α : Type} (t : Table α) (owner : α → Id),
      ((t.remove fun _ a => owner a = rule).filter fun _ a => owner a = id) =
        t.filter fun _ a => owner a = id :=
    fun t owner => Table.filter_remove fun _ a _ hown => hother hown
  refine ⟨rfl, ?_, fun row hrow => ?_, ?_, rfl⟩
  · exact congrArg (inOrder _) (hmine s.conditionGroups ConditionGroupRow.rule)
  · obtain ⟨hmem, hown⟩ := List.mem_filter.1 (List.mem_mergeSort.1 hrow)
    have hstays : ((s.conditions.remove fun _ c => s.isConditionOf rule c).filter
        fun _ c => c.group = row.1) = s.conditions.filter fun _ c => c.group = row.1 := by
      refine Table.filter_remove fun _ c _ hin => ?_
      rw [isConditionOf, of_decide_eq_true hin, Table.find?_eq_some_of_mem hmem]
      exact hother hown
    exact congrArg (inOrder _) hstays
  · exact congrArg (inOrder _) (hmine s.actions ActionRow.rule)

/-- Who a rule belongs to may not change, and then everything goes on referring to rows. -/
theorem IsClosed.updateRule (h : s.IsClosed) {r r' : Rule} (hrow : s.rules.find? rule = some r)
    (huser : r'.user = r.user) (hgroup : r'.group = r.group) :
    { s with rules := s.rules.update rule fun _ => r' }.IsClosed := by
  have hhas : ∀ n, (s.rules.update rule fun _ => r').has n = s.rules.has n :=
    fun n => Table.has_update s.rules rule n _
  refine { h with
    labels := h.labels
    roles := h.roles
    rules := fun n row hfind => ?_
    conditionGroups := fun n g hfind => (hhas _).trans (h.conditionGroups n g hfind)
    actions := fun n a hfind => (hhas _).trans (h.actions n a hfind)
    logs := fun n l hfind => (h.logs n l hfind).imp_left (hhas _).trans }
  rw [Table.find?_update] at hfind
  split at hfind
  · next heq =>
    rw [heq, hrow] at hfind
    cases hfind
    rw [huser, hgroup]
    exact h.rules rule r hrow
  · exact h.rules n row hfind

end Store

/-! ## The revision -/

/-- A rule as it is to become: its row and its parts. -/
structure Revision where
  row : Rule
  groups : List (GroupDraft × Int)
  actions : List ActionRow

variable [Host]

/-- What a definition makes of a rule, or why it is refused. -/
def Revision.ofDefinition (r : Rule) (now : Instant) (definition : Json) :
    Except Failure Revision := do
  checkDefinition definition
  let row ← ruleWithDefinition r definition now
  let groups ← readGroups definition
  let actions ← readActions definition
  return ⟨row, groups, actions⟩

/-- The store with a rule revised. -/
def Store.revising (rule : Id) (x : Revision) (s : Store) : Store :=
  let t := { s with rules := s.rules.update rule fun _ => x.row }
  (t.delete (t.partsOf rule)).withParts rule x.groups x.actions

section Updating

variable {w v : Workspace} {rule : Id} {r : Rule} {d : Json} {x : Revision}

omit [Host] in
theorem enacts_write (change : Store → Store) :
    Enacts (.ok fun s => ((), change s)) (write change) := by
  intro w hw
  change (write change).runOn w = _
  rw [write, runOn_writeResult]
  dsimp only
  rw [hw, Bool.true_or, if_pos rfl]

/-- Writing over the row of a rule and putting new parts in the place of its old ones. -/
theorem enacts_revision (rule : Id) (r : Rule) (now : Instant) (d : Json) :
    Enacts ((fun x s => ((), s.revising rule x)) <$> Revision.ofDefinition r now d)
      (do
        .ofExcept (checkDefinition d)
        let changed ← .ofExcept (ruleWithDefinition r d now)
        write fun s => { s with rules := s.rules.update rule fun _ => changed }
        deleteRows ((← get).store.partsOf rule)
        writeParts rule d) := by
  have hdelete : Enacts (.ok fun s => ((), s.delete (s.partsOf rule)))
      (get >>= fun w => deleteRows (w.store.partsOf rule)) :=
    fun w hw => enacts_write (·.delete (w.store.partsOf rule)) w hw
  simp only [Revision.ofDefinition, map_bind, map_pure]
  refine enacts_ofExcept_bind fun _ _ => enacts_ofExcept_bind fun row _ => ?_
  have hparts := hdelete.thenBind (f := fun _ => writeParts rule d) (do
      let groups ← readGroups d
      let actions ← readActions d
      return fun _ s => ((), s.withParts rule groups actions)) fun _ => by
    simpa only [map_bind, map_pure] using enacts_writeParts rule d
  have hall := (enacts_write fun s => { s with rules := s.rules.update rule fun _ => row }).thenBind
    (f := fun _ => do
      deleteRows ((← get).store.partsOf rule)
      writeParts rule d)
    (do
      let groups ← readGroups d
      let actions ← readActions d
      return fun _ s => ((), (s.delete (s.partsOf rule)).withParts rule groups actions)) fun _ => by
    simpa only [map_bind, map_pure, bind_assoc] using hparts
  simp only [map_bind, map_pure] at hall ⊢
  exact hall

/-- Changing a rule: it is revised, unless it is not there or the definition is refused. -/
theorem runOn_updateRule (w : Workspace) (rule : Id) (d : Json) :
    (updateRule rule d).runOn w =
      match w.store.rules.find? rule with
      | none => (.error (.missingRow .rule), w)
      | some r =>
        match Revision.ofDefinition r w.now d with
        | .ok x =>
          if w.isChanging || (w.store.revising rule x).referencesHold then
            (.ok (), { w with store := w.store.revising rule x })
          else (.error .brokenReference, w)
        | .error failure => (.error failure, w) := by
  rw [updateRule, runOn_bind, runOn_row]
  cases w.store.rules.find? rule with
  | none => rfl
  | some r =>
      dsimp only
      have hrun := enacts_revision rule r w.now d { w with isChanging := true } rfl
      -- The time is read within the change, where it is the same.
      have hinside : (do
          .ofExcept (checkDefinition d)
          let changed ← .ofExcept (ruleWithDefinition r d (← get).now)
          write fun s => { s with rules := s.rules.update rule fun _ => changed }
          deleteRows ((← get).store.partsOf rule)
          writeParts rule d : Operation Unit).runOn { w with isChanging := true } =
            (do
              .ofExcept (checkDefinition d)
              let changed ← .ofExcept (ruleWithDefinition r d w.now)
              write fun s => { s with rules := s.rules.update rule fun _ => changed }
              deleteRows ((← get).store.partsOf rule)
              writeParts rule d : Operation Unit).runOn { w with isChanging := true } := by
        rw [runOn_bind, runOn_bind, runOn_ofExcept]
        cases checkDefinition d with
        | error failure => rfl
        | ok _ =>
            dsimp only
            rw [runOn_bind, runOn_get]
      rcases hread : Revision.ofDefinition r w.now d with failure | x <;> rw [hread] at hrun
      · obtain ⟨s, hfails⟩ := hrun
        exact runOn_atomically_of_error (hinside.trans hfails)
      · exact runOn_atomically_of_ok (hinside.trans hrun)

end Updating

/-! ## What is in the store afterwards -/

namespace Store

variable {s : Store} {rule id : Id} {r r' : Rule} {x : Revision} {t : RuleTree}

omit [Host] in
/-- A revision changes the tables of rules and of their parts, and no other. -/
theorem revising_eq (rule : Id) (x : Revision) (s : Store) :
    ∃ conditionGroups conditions actions, s.revising rule x =
      { s with
        rules := s.rules.update rule fun _ => x.row
        conditionGroups, conditions, actions } := by
  rw [revising, delete_partsOf]
  exact withParts_eq _ rule x.groups x.actions

omit [Host] in
theorem find?_revising (hrow : s.rules.find? rule = some r) :
    (s.revising rule x).rules.find? rule = some x.row := by
  obtain ⟨_, _, _, hsame⟩ := s.revising_eq rule x
  rw [hsame, Table.find?_update, if_pos rfl, hrow]
  rfl

omit [Host] in
/-- A revision leaves all other rules alone. -/
theorem keepsRule_revising (hne : id ≠ rule) (x : Revision) :
    s.KeepsRule (s.revising rule x) id := by
  have hrow : s.KeepsRule { s with rules := s.rules.update rule fun _ => x.row } id :=
    ⟨Table.find?_update_of_ne hne _, rfl, fun _ _ => rfl, rfl, rfl⟩
  exact (hrow.trans (keepsRule_delete_partsOf hne)).trans
    (keepsRule_withParts hne x.groups x.actions)

omit [Host] in
/-- The parts of a revised rule are read back, whatever it had before. -/
theorem parts_revising (hknown : s.PartsKnown) (ht : t.IsOrdered) (hgroups : x.groups = t.groups)
    (hactions : x.actions = t.actions) (r : Rule) :
    ((s.revising rule x).treeOf rule r).groups = t.sorted.groups ∧
      ((s.revising rule x).treeOf rule r).actions = t.actions := by
  have hupdated : PartsKnown { s with rules := s.rules.update rule fun _ => x.row } :=
    ⟨hknown.groups, hknown.conditions, hknown.actions⟩
  have hbare := hupdated.isBare_delete rule
  rw [revising, hgroups, hactions]
  exact ⟨groupTrees_withParts hbare ht, actions_withParts hbare ht⟩

omit [Host] in
/-- A revision leaves no reference without a row if the rule stays where it belongs. -/
theorem IsClosed.revising (h : s.IsClosed) (hrow : s.rules.find? rule = some r)
    (huser : x.row.user = r.user) (hgroup : x.row.group = r.group) :
    (s.revising rule x).IsClosed := by
  refine ((h.updateRule hrow huser hgroup).delete _).withParts ?_ x.groups x.actions
  rw [delete_partsOf]
  exact (Table.has_update _ _ _ _).trans (Table.has_of_find? hrow)

end Store

/-! ## Settings -/

/-- A setting is what the definition says, or what it was if the definition says nothing. -/
def Json.Settles {α : Type} (d : Json) (name : String) (means : Json → α → Prop) (old new : α) :
    Prop :=
  match d.find name with
  | .ok (some j) => means j new
  | _ => new = old

/-- A rule before and after it was changed by a definition.  It keeps its user, its group, and the
time when it was created. -/
structure Rule.Revised (d : Json) (now : Instant) (r r' : Rule) : Prop where
  user : r'.user = r.user
  group : r'.group = r.group
  createdAt : r'.createdAt = r.createdAt
  updatedAt : r'.updatedAt = now
  name : d.require "name" = .ok (.text r'.name)
  description : d.Settles "description" (fun j s => j = .text s) r.description r'.description
  trigger : d.Settles "trigger_type" (fun j s => j = .text s) r.trigger r'.trigger
  order : d.Settles "order" (fun j n => Column.whole "order" j = .ok (some n)) r.order r'.order
  isActive : d.Settles "is_active" (fun j b => j = .bool b) r.isActive r'.isActive
  stopProcessing :
    d.Settles "stop_processing" (fun j b => j = .bool b) r.stopProcessing r'.stopProcessing

section Settings

variable {d j other : Json} {name : String} {r r' : Rule} {now : Instant}

omit [Host] in
/-- What is read with the old value as default settles the matter. -/
theorem Json.settles_of_findOr {α : Type} {means : Json → α → Prop} {old new : α}
    (hfind : d.findOr name other = .ok j) (hj : means j new)
    (hother : means other new → new = old) : d.Settles name means old new := by
  obtain ⟨found, hfound, hj'⟩ := eq_ok_of_bind hfind
  rw [Settles, hfound]
  cases found with
  | none =>
      cases hj'
      exact hother hj
  | some value =>
      cases hj'
      exact hj

omit [Host] in
/-- A member of a definition that may be left out has its shape, unless it was left out. -/
theorem Schema.Accepts.findOr_or {required : List String} {members : List (String × Schema)}
    {schema : Schema} (h : (Schema.record required members).Accepts d) (name : String)
    (other : Json) (hmember : members.lookup name = some schema) :
    ∃ value, d.findOr name other = .ok value ∧ (value = other ∨ schema.Accepts value) := by
  obtain ⟨values, rfl, -, hshapes⟩ := h.record
  refine ⟨(values.lookup name).getD other, rfl, ?_⟩
  cases hvalue : values.lookup name with
  | none => exact .inl rfl
  | some value => exact .inr (hshapes name schema hmember value hvalue)

omit [Host] in
/-- A setting whose values have one form is changed to a value of this form. -/
theorem Schema.Accepts.exists_setting {α : Type} {make : α → Json} {required : List String}
    {members : List (String × Schema)} {schema : Schema}
    (h : (Schema.record required members).Accepts d) (name : String)
    (hinjective : Function.Injective make) (hmember : members.lookup name = some schema)
    (hschema : ∀ j, schema.Accepts j → ∃ a, j = make a) (old : α) :
    ∃ a, d.findOr name (make old) = .ok (make a) ∧
      d.Settles name (fun j a => j = make a) old a := by
  obtain ⟨j, hfind, rfl | haccepts⟩ := h.findOr_or name (make old) hmember
  · exact ⟨old, hfind, Json.settles_of_findOr hfind rfl fun hsame => (hinjective hsame).symm⟩
  · obtain ⟨a, rfl⟩ := hschema j haccepts
    exact ⟨a, hfind, Json.settles_of_findOr hfind rfl fun hsame => (hinjective hsame).symm⟩

/-- The row of a rule that is changed by a definition which is not refused. -/
theorem revised_of_ruleWithDefinition (hcheck : checkDefinition d = .ok ())
    (h : ruleWithDefinition r d now = .ok r') :
    r.Revised d now r' ∧ Column.fits r'.order = true := by
  have hshape := accepts_of_checkDefinition hcheck
  obtain ⟨_, hname, hnameShape⟩ := hshape.require "name" rfl (by simp)
  obtain ⟨name, rfl⟩ := hnameShape.boundedText
  have htext : Function.Injective Json.text := fun _ _ => Json.text.inj
  have hbool : Function.Injective Json.bool := fun _ _ => Json.bool.inj
  obtain ⟨description, hdescription, hdescribed⟩ := hshape.exists_setting "description"
    htext rfl (fun j hj => hj.ofText) r.description
  obtain ⟨trigger, htrigger, htriggered⟩ := hshape.exists_setting "trigger_type" htext rfl
    (fun j hj => (Schema.accepts_oneOf_iff.1 hj).imp fun _ => And.right) r.trigger
  obtain ⟨isActive, hactive, hactivated⟩ := hshape.exists_setting "is_active" hbool rfl
    (fun j hj => hj.boolean) r.isActive
  obtain ⟨stops, hstops, hstopped⟩ := hshape.exists_setting "stop_processing" hbool rfl
    (fun j hj => hj.boolean) r.stopProcessing
  obtain ⟨order, horder, -⟩ := hshape.findOr_or "order" (.int r.order) rfl
  rw [ruleWithDefinition, bind_of_eq_ok hname, bind_of_eq_ok hdescription, bind_of_eq_ok htrigger,
    bind_of_eq_ok horder, bind_of_eq_ok hactive, bind_of_eq_ok hstops] at h
  obtain ⟨n, hwhole, hfits, rfl⟩ := ruleFromColumns_eq_ok.1 h
  have hordered : d.Settles "order" (fun j n => Column.whole "order" j = .ok (some n)) r.order n :=
    Json.settles_of_findOr horder hwhole fun h => (Option.some.inj (Except.ok.inj h)).symm
  exact ⟨⟨rfl, rfl, rfl, rfl, hname, hdescribed, htriggered, hordered, hactivated, hstopped⟩, hfits⟩

/-- The row that a rule is going to have. -/
theorem revised_of_revision {x : Revision} (h : Revision.ofDefinition r now d = .ok x) :
    r.Revised d now x.row := by
  obtain ⟨⟨⟩, hcheck, h⟩ := eq_ok_of_bind h
  obtain ⟨changed, hchanged, h⟩ := eq_ok_of_bind h
  obtain ⟨groups, -, h⟩ := eq_ok_of_bind h
  obtain ⟨actions, -, h⟩ := eq_ok_of_bind h
  cases h
  exact (revised_of_ruleWithDefinition hcheck hchanged).1

/-- Where a rule can be changed by a definition, one can be created from it, with the same parts. -/
theorem exists_tree_of_revision {x : Revision} (h : Revision.ofDefinition r now d = .ok x) :
    ∃ t, RuleTree.ofDefinition d = .ok t ∧ t.groups = x.groups ∧ t.actions = x.actions := by
  obtain ⟨⟨⟩, hcheck, h⟩ := eq_ok_of_bind h
  obtain ⟨changed, hchanged, h⟩ := eq_ok_of_bind h
  obtain ⟨groups, hgroups, h⟩ := eq_ok_of_bind h
  obtain ⟨actions, hactions, h⟩ := eq_ok_of_bind h
  cases h
  obtain ⟨hrevised, hfits⟩ := revised_of_ruleWithDefinition hcheck hchanged
  have hnumber : ∀ j, d.findOr "order" (.int 0) = .ok j → j.Fits := by
    intro j hj
    obtain ⟨found, hfound, hj⟩ := eq_ok_of_bind hj
    have horder := hrevised.order
    rw [Json.Settles, hfound] at horder
    cases found with
    | none =>
        cases hj
        exact Json.fits_int.2 (by decide)
    | some value =>
        cases hj
        exact ⟨_, horder, hfits⟩
  obtain ⟨row, hrow⟩ :=
    (ruleOfDefinition_of_checkDefinition hcheck 0 0 startInstant).1.2 hnumber
  refine ⟨⟨row.name, row.description, row.trigger, row.order, row.isActive, row.stopProcessing,
    groups, actions⟩, ?_, rfl, rfl⟩
  rw [RuleTree.ofDefinition, bind_of_eq_ok hcheck, RuleTree.read, bind_of_eq_ok hrow,
    bind_of_eq_ok hgroups, bind_of_eq_ok hactions]
  rfl

end Settings

/-! ## Changing a rule -/

/-- The rule has the parts that a definition describes.  They are those that are stored by whoever
creates a rule from the definition. -/
structure Store.HasPartsOf (s : Store) (rule : Id) (r : Rule) (d : Json) : Prop where
  described : ∃ t, RuleTree.ofDefinition d = .ok t ∧ (s.treeOf rule r).groups = t.sorted.groups ∧
    (s.treeOf rule r).actions = t.actions
  created : ∀ {w v : Workspace} {user created : Id} {group : Option Id} {replace : Bool},
    (createRule user d group replace).runOn w = (.ok created, v) → w.store.PartsKnown →
      ∃ row, v.store.rules.find? created = some row ∧
        (v.store.treeOf created row).groups = (s.treeOf rule r).groups ∧
        (v.store.treeOf created row).actions = (s.treeOf rule r).actions

section Changing

variable {w v : Workspace} {rule : Id} {r : Rule} {d : Json} {x : Revision}

theorem hasPartsOf_revising (hknown : w.store.PartsKnown)
    (h : Revision.ofDefinition r w.now d = .ok x) (row : Rule) :
    (w.store.revising rule x).HasPartsOf rule row d := by
  obtain ⟨t, ht, hgroups, hactions⟩ := exists_tree_of_revision h
  obtain ⟨hgroups, hactions⟩ := Store.parts_revising hknown
    (RuleTree.isOrdered_of_ofDefinition ht) hgroups.symm hactions.symm row
  refine ⟨⟨t, ht, hgroups, hactions⟩, fun hcreate hknown => ?_⟩
  obtain ⟨t', created, ht', hfind, htree⟩ := treeOf_createRule hcreate hknown
  obtain rfl := Except.ok.inj (ht.symm.trans ht')
  refine ⟨created, hfind, ?_, ?_⟩ <;> rw [htree]
  · exact hgroups.symm
  · exact hactions.symm

/-- A change that goes through is a revision of a rule that is there. -/
theorem updateRule_eq_ok (h : (updateRule rule d).runOn w = (.ok (), v)) :
    ∃ r x, w.store.rules.find? rule = some r ∧ Revision.ofDefinition r w.now d = .ok x ∧
      v.store = w.store.revising rule x := by
  rw [runOn_updateRule] at h
  split at h
  · cases h
  · next r hrow =>
    refine ⟨r, ?_⟩
    split at h
    · next x hx =>
      split at h
      · cases h
        exact ⟨x, hrow, hx, rfl⟩
      · cases h
    · cases h

/-- A change that fails changes nothing. -/
theorem updateRule_eq_error {failure : Failure}
    (h : (updateRule rule d).runOn w = (.error failure, v)) : v = w := by
  rw [runOn_updateRule] at h
  split at h
  · cases h
    rfl
  · split at h
    · split at h
      · cases h
      · cases h
        rfl
    · cases h
      rfl

/-- The settings of a rule that is changed by its own payload. -/
theorem Rule.Revised.of_payload {t : RuleTree} {now : Instant} {r' : Rule}
    (h : r.Revised t.payload now r') :
    r'.name = t.name ∧ r'.description = t.description ∧ r'.trigger = t.trigger ∧
      r'.order = t.order ∧ r'.isActive = t.isActive ∧ r'.stopProcessing = t.stopProcessing := by
  have hname : (.ok (.text t.name) : Except Failure Json) = .ok (.text r'.name) := h.name
  have hdescription : Json.text t.description = .text r'.description := h.description
  have htrigger : Json.text t.trigger = .text r'.trigger := h.trigger
  have horder : (.ok (some t.order) : Except Failure (Option Int)) = .ok (some r'.order) := h.order
  have hactive : Json.bool t.isActive = .bool r'.isActive := h.isActive
  have hstops : Json.bool t.stopProcessing = .bool r'.stopProcessing := h.stopProcessing
  exact ⟨(Json.text.inj (Except.ok.inj hname)).symm, (Json.text.inj hdescription).symm,
    (Json.text.inj htrigger).symm, (Option.some.inj (Except.ok.inj horder)).symm,
    (Json.bool.inj hactive).symm, (Json.bool.inj hstops).symm⟩

/-- A rule that is changed by its own payload keeps its payload. -/
theorem payloadOf_revising (hknown : w.store.PartsKnown)
    (hsettled : ∀ row ∈ w.store.actionsOf rule, (Action.ofRow row.1 row.2).IsSettled)
    (h : Revision.ofDefinition r w.now (w.store.payloadOf rule r) = .ok x) :
    (w.store.revising rule x).payloadOf rule x.row = w.store.payloadOf rule r := by
  rw [Store.payloadOf_eq] at h
  obtain ⟨t, ht, hgroups, hactions⟩ := exists_tree_of_revision h
  have hdetached : ∀ a ∈ (w.store.treeOf rule r).actions, (Action.ofRow 0 a).IsSettled := by
    intro a ha
    obtain ⟨row, hrow, rfl⟩ := List.mem_map.1 ha
    exact (hsettled row hrow).of_core rfl
  have hportable := RuleTree.isPortable_of_ofDefinition hdetached ht
  obtain rfl := Except.ok.inj (ht.symm.trans (RuleTree.ofDefinition_payload hportable))
  have hparts : ((w.store.revising rule x).treeOf rule x.row).groups =
        (w.store.treeOf rule r).renumbered.sorted.groups ∧
      ((w.store.revising rule x).treeOf rule x.row).actions =
        (w.store.treeOf rule r).renumbered.actions :=
    Store.parts_revising hknown (RuleTree.isOrdered_of_ofDefinition ht) hgroups.symm hactions.symm
      x.row
  obtain ⟨hnewGroups, hnewActions⟩ := hparts
  rw [RuleTree.sorted_renumbered (w.store.pairwise_groups_treeOf rule r)] at hnewGroups
  obtain ⟨hname, hdescription, htrigger, horder, hactive, hstops⟩ :=
    (revised_of_revision h).of_payload
  have htree : (w.store.revising rule x).treeOf rule x.row =
      (w.store.treeOf rule r).renumbered := by
    rw [Store.treeOf, RuleTree.mk.injEq]
    exact ⟨hname, hdescription, htrigger, horder, hactive, hstops, hnewGroups, hnewActions⟩
  rw [Store.payloadOf_eq, Store.payloadOf_eq, htree, RuleTree.payload_renumbered]

/-- A portable rule can be changed by its own payload. -/
theorem exists_revision_of_isPortable {t : RuleTree} (h : t.IsPortable) (now : Instant) :
    ∃ x, Revision.ofDefinition r now t.payload = .ok x := by
  have hread := RuleTree.ofDefinition_payload h
  obtain ⟨_, -, hread⟩ := eq_ok_of_bind hread
  obtain ⟨_, -, hread⟩ := eq_ok_of_bind hread
  obtain ⟨groups, hgroups, hread⟩ := eq_ok_of_bind hread
  obtain ⟨actions, hactions, -⟩ := eq_ok_of_bind hread
  have hcolumns : ruleFromColumns r.user r.group (.text t.name) (.text t.description)
      (.text t.trigger) (.int t.order) (.bool t.isActive) (.bool t.stopProcessing) r.createdAt now =
        .ok { t.row r.user r.group now with createdAt := r.createdAt } :=
    ruleFromColumns_eq_ok.2 ⟨t.order, rfl, h.order, rfl⟩
  have hrow : ruleWithDefinition r t.payload now =
      .ok { t.row r.user r.group now with createdAt := r.createdAt } := hcolumns
  rw [Revision.ofDefinition, bind_of_eq_ok h.passes, bind_of_eq_ok hrow, bind_of_eq_ok hgroups,
    bind_of_eq_ok hactions]
  exact ⟨_, rfl⟩

/-- A revision of a rule that is there goes through. -/
theorem updateRule_succeeds (hrow : w.store.rules.find? rule = some r)
    (hx : Revision.ofDefinition r w.now d = .ok x)
    (hfinal : w.isChanging = true ∨ w.store.referencesHold = true) :
    ((updateRule rule d).runOn w).1 = .ok () := by
  have hrevised := revised_of_revision hx
  have hallowed : (w.isChanging || (w.store.revising rule x).referencesHold) = true := by
    rcases hfinal with hchanging | hholds
    · rw [hchanging, Bool.true_or]
    · have hclosed := Store.isClosed_iff.2 hholds
      rw [Store.isClosed_iff.1 (hclosed.revising hrow hrevised.user hrevised.group), Bool.or_true]
  rw [runOn_updateRule, hrow]
  dsimp only
  rw [hx]
  dsimp only
  rw [if_pos hallowed]

end Changing

/-- Changing a rule replaces it and nothing else.  If it goes through, the rule keeps its number,
its user, its group, its logs, and the time when it was created.  It has the settings that the
definition mentions, and otherwise those from before, and it has the parts that the definition
describes.  No other rule is changed and no other table.  If it fails, nothing is changed at all.  A
rule with settled actions that is changed by its own payload keeps its payload, and the change goes
through if the rule is portable. -/
theorem updateRule_replaces {w : Workspace} {rule : Id} {d : Json} (hknown : w.store.PartsKnown) :
    (∀ v, (updateRule rule d).runOn w = (.ok (), v) →
      ∃ r r', w.store.rules.find? rule = some r ∧ v.store.rules.find? rule = some r' ∧
        r.Revised d w.now r' ∧ v.store.HasPartsOf rule r' d ∧
        (∀ id, id ≠ rule → w.store.KeepsRule v.store id) ∧
        ∃ rules conditionGroups conditions actions,
          v.store = { w.store with rules, conditionGroups, conditions, actions }) ∧
    (∀ failure v, (updateRule rule d).runOn w = (.error failure, v) → v = w) ∧
    ∀ r, w.store.rules.find? rule = some r → d = w.store.payloadOf rule r →
      (∀ row ∈ w.store.actionsOf rule, (Action.ofRow row.1 row.2).IsSettled) →
      (∃ r', ((updateRule rule d).runOn w).2.store.rules.find? rule = some r' ∧
        ((updateRule rule d).runOn w).2.store.payloadOf rule r' = w.store.payloadOf rule r) ∧
      ((w.store.treeOf rule r).IsPortable → w.isChanging = true ∨ w.store.referencesHold = true →
        ((updateRule rule d).runOn w).1 = .ok ()) := by
  refine ⟨fun v h => ?_, fun failure v h => updateRule_eq_error h, ?_⟩
  · obtain ⟨r, x, hrow, hx, hstore⟩ := updateRule_eq_ok h
    obtain ⟨conditionGroups, conditions, actions, hsame⟩ := w.store.revising_eq rule x
    rw [hstore]
    exact ⟨r, x.row, hrow, Store.find?_revising hrow, revised_of_revision hx,
      hasPartsOf_revising hknown hx x.row, fun id hne => Store.keepsRule_revising hne x, _, _, _, _,
      hsame⟩
  · rintro r hrow rfl hsettled
    refine ⟨?_, fun hportable hfinal => ?_⟩
    · rcases hrun : (updateRule rule (w.store.payloadOf rule r)).runOn w with ⟨failure | ⟨⟨⟩⟩, v⟩
      · obtain rfl := updateRule_eq_error hrun
        exact ⟨r, hrow, rfl⟩
      · obtain ⟨r₀, x, hrow₀, hx, hstore⟩ := updateRule_eq_ok hrun
        obtain rfl := Option.some.inj (hrow.symm.trans hrow₀)
        rw [hstore]
        exact ⟨x.row, Store.find?_revising hrow, payloadOf_revising hknown hsettled hx⟩
    · obtain ⟨x, hx⟩ := exists_revision_of_isPortable (r := r) hportable w.now
      rw [← Store.payloadOf_eq] at hx
      exact updateRule_succeeds hrow hx hfinal

end

namespace SmallLedger

/-- A definition that gives the rule another name, a place and a condition, and no action. -/
def bakeryDefinition : Json :=
  .object
    [("name", .text "Bakery"), ("order", .int 3),
      ("condition_groups", .list [.object [("conditions", .list [.object
        [("field", .text "description"), ("operator", .text "contains"),
          ("value", .text "bakery")]])]])]

/-- The only action of the rule. -/
def categoryAction : ActionRow := ⟨1, "set_category", some "1", 1, false⟩

theorem actionsOf_rule : store.actionsOf 1 = [(1, categoryAction)] :=
  List.mergeSort_singleton _

theorem treeOf_rule : store.treeOf 1 rule =
    ⟨"Food", "", "manual", 1, true, true, [], [categoryAction.detached]⟩ := by
  have hgroups : store.groupsOf 1 = [] := List.mergeSort_nil
  rw [Store.treeOf, hgroups, actionsOf_rule]
  rfl

/-- The rule itself is portable: its action is settled and its numbers fit. -/
theorem isPortable_rule : (store.treeOf 1 rule).IsPortable := by
  rw [treeOf_rule]
  refine ⟨eq_ok_of_toOption (by decide +kernel), fun a ha => ?_, by decide, nofun, by decide⟩
  obtain rfl := List.mem_singleton.1 ha
  rfl

/-- The rule gets the new settings and keeps its trigger, and it keeps its payload if it is changed
by that. -/
theorem change_rule :
    store.PartsKnown ∧
    (∃ v r, (updateRule 1 bakeryDefinition).runOn workspace = (.ok (), v) ∧
      v.store.rules.find? 1 = some r ∧ rule.Revised bakeryDefinition startInstant r ∧
      v.store.HasPartsOf 1 r bakeryDefinition) ∧
    ((updateRule 1 (store.payloadOf 1 rule)).runOn workspace).1 = .ok () ∧
    ∃ r, ((updateRule 1 (store.payloadOf 1 rule)).runOn workspace).2.store.rules.find? 1 = some r ∧
      ((updateRule 1 (store.payloadOf 1 rule)).runOn workspace).2.store.payloadOf 1 r =
        store.payloadOf 1 rule := by
  have hholds : workspace.store.referencesHold = true := by decide +kernel
  have hknown : workspace.store.PartsKnown := Store.partsKnown_of_referencesHold hholds
  have hrun := runOn_of_toOption (x := updateRule 1 bakeryDefinition) (s := workspace) (a := ())
    (by decide +kernel)
  obtain ⟨r, r', hrow, hnew, hrevised, hparts, -⟩ := (updateRule_replaces hknown).1 _ hrun
  obtain rfl : rule = r := Option.some.inj hrow
  obtain ⟨hkept, hreturns⟩ := (updateRule_replaces hknown).2.2 rule rfl rfl fun row hrow => by
    obtain rfl := List.mem_singleton.1 (actionsOf_rule ▸ hrow)
    rfl
  exact ⟨hknown, ⟨_, r', hrun, hnew, hrevised, hparts⟩, hreturns isPortable_rule (.inr hholds),
    hkept⟩

end SmallLedger

end Rulebook
