import Rulebook.Proofs.Definition.Settling

/-!
# What passes the check

A definition is refused for its shape, for an operator that does not suit its field, or for the
value of an action.  The first two are the same for a definition and for the rows of the rule that
was created from it, because rows hold the very words of the definition.  The values of actions are
not, because they are written anew whenever they are stored.

So the payload of a rule with sound groups passes the check again exactly if the stored value of
each of its actions can be coerced (`Store.payloadOf_passes`).

## Main definitions

* `ConditionGroup.IsSound` — the words of a group are known, and its operators suit their fields.
* `Action.CanCoerce` — the stored value of an action can be coerced.

## Main statements

* `isSound_of_checkDefinition` — the groups of a definition that is not refused are sound.
* `Store.payloadOf_passes` — when the payload of a stored rule passes the check.
-/

namespace Rulebook

/-! ## Words -/

variable [Host]

namespace Vocabulary

variable {α : Type} [Vocabulary α] {s : String}

theorem mem_codes_of_require {a : α} (h : require (.text s) = .ok a) : s ∈ codes α := by
  rw [require] at h
  split at h
  · next known hknown => exact mem_codes_iff.2 ⟨known, hknown⟩
  · cases h

end Vocabulary

/-! ## Sound parts -/

/-- The field and the operator of a condition are known and suit each other. -/
def Condition.IsSound (c : Condition) : Prop :=
  ∃ (field : Field) (op : Operator), Vocabulary.require c.field = .ok field ∧
    Vocabulary.require c.operator = .ok op ∧ op.accepts field.kind = true

/-- The connective of a group is known, and its conditions are sound. -/
def ConditionGroup.IsSound (g : ConditionGroup) : Prop :=
  (∃ connective : Connective, Vocabulary.ofJson? g.connective = some connective) ∧
    ∀ c ∈ g.conditions, c.IsSound

/-- The stored value of an action can be coerced. -/
def Action.CanCoerce (a : Action) : Prop := ∃ v, coerceNamed a.kind (.json a.value) = .ok v

/-- Whether a group is sound does not depend on the numbers of its conditions. -/
theorem ConditionGroup.isSound_core {g : ConditionGroup} : g.core.IsSound ↔ g.IsSound := by
  simp only [IsSound, core, List.forall_mem_map]
  rfl

theorem Action.canCoerce_core {a : Action} : a.core.CanCoerce ↔ a.CanCoerce := Iff.rfl

/-! ## Definitions -/

section Lists

variable {α β : Type}

omit [Host] in
/-- Whatever was read with its place was read from an entry. -/
theorem exists_of_mem_mapPlaces {f : Nat → α → Except Failure β} {items : List α} {n : Nat}
    {bs : List β} (h : mapPlaces f n items = .ok bs) {b : β} (hb : b ∈ bs) :
    ∃ a ∈ items, ∃ m, f m a = .ok b := by
  induction items generalizing n bs with
  | nil =>
      cases h
      cases hb
  | cons a rest ih =>
      obtain ⟨first, hfirst, h⟩ := eq_ok_of_bind h
      obtain ⟨later, hlater, h⟩ := eq_ok_of_bind h
      cases h
      rcases List.mem_cons.1 hb with rfl | hb
      · exact ⟨a, List.mem_cons_self, n, hfirst⟩
      · obtain ⟨c, hc, m, hread⟩ := ih hlater hb
        exact ⟨c, List.mem_cons_of_mem a hc, m, hread⟩

omit [Host] in
theorem exists_of_mem_mapM {f : α → Except Failure β} {items : List α} {bs : List β}
    (h : items.mapM f = .ok bs) {b : β} (hb : b ∈ bs) : ∃ a ∈ items, f a = .ok b := by
  induction items generalizing bs with
  | nil =>
      cases h
      cases hb
  | cons a rest ih =>
      rw [List.mapM_cons] at h
      obtain ⟨first, hfirst, h⟩ := eq_ok_of_bind h
      obtain ⟨later, hlater, h⟩ := eq_ok_of_bind h
      cases h
      rcases List.mem_cons.1 hb with rfl | hb
      · exact ⟨a, List.mem_cons_self, hfirst⟩
      · obtain ⟨c, hc, hread⟩ := ih hlater hb
        exact ⟨c, List.mem_cons_of_mem a hc, hread⟩

end Lists

/-- A condition that is not complained about is sound. -/
theorem isSound_of_operatorErrors {group place n : Nat} {item : Json} {c : Condition}
    (h : operatorErrors group place item = .ok []) (hc : Condition.ofPayload n item = .ok c) :
    c.IsSound := by
  obtain ⟨f, hf, h⟩ := eq_ok_of_bind h
  obtain ⟨field, hfield, h⟩ := eq_ok_of_bind h
  obtain ⟨o, ho, h⟩ := eq_ok_of_bind h
  obtain ⟨op, hop, h⟩ := eq_ok_of_bind h
  rw [Condition.ofPayload, bind_of_eq_ok hf, bind_of_eq_ok ho] at hc
  obtain ⟨_, -, hc⟩ := eq_ok_of_bind hc
  obtain ⟨_, -, hc⟩ := eq_ok_of_bind hc
  obtain ⟨_, -, hc⟩ := eq_ok_of_bind hc
  obtain ⟨_, -, hc⟩ := eq_ok_of_bind hc
  cases hc
  refine ⟨field, op, hfield, hop, ?_⟩
  split at h
  · next haccepts => exact haccepts
  · cases h

/-- A group that is not complained about is sound. -/
theorem isSound_of_groupErrors {place : Nat} {item : Json} {g : ConditionGroup}
    (hshape : conditionGroupSchema.Accepts item) (h : groupErrors place item = .ok [])
    (hg : ConditionGroup.ofPayload item = .ok g) : g.IsSound := by
  obtain ⟨items, hlist, -⟩ := hshape.findEntries "conditions" rfl
  obtain ⟨_, hconnective, hword⟩ :=
    hshape.findOr "logic_operator" (.text (Vocabulary.code Connective.all)) rfl rfl
  obtain ⟨connective, hlisted, rfl⟩ := Schema.accepts_oneOf_iff.1 hword
  rw [groupErrors, bind_of_eq_ok hlist, Json.entries, bind_of_eq_ok rfl] at h
  rw [ConditionGroup.ofPayload, bind_of_eq_ok hlist, Json.entries, bind_of_eq_ok rfl] at hg
  obtain ⟨conditions, hconditions, hg⟩ := eq_ok_of_bind hg
  rw [bind_of_eq_ok hconnective] at hg
  cases hg
  refine ⟨Vocabulary.mem_codes_iff.1 hlisted, fun c hc => ?_⟩
  obtain ⟨item, hitem, n, hread⟩ := exists_of_mem_mapPlaces hconditions hc
  obtain ⟨m, hm⟩ := flatMapPlaces_eq_nil h item hitem
  exact isSound_of_operatorErrors hm hread

/-- The groups of a definition that is not refused are sound. -/
theorem isSound_of_checkDefinition {d : Json} (h : checkDefinition d = .ok ()) (x : Drafts d) :
    ∀ g ∈ x.groups, g.group.IsSound := by
  intro g hg
  obtain ⟨groupItems, hfind, hshapes⟩ :=
    (accepts_of_checkDefinition h).findEntries "condition_groups" rfl
  obtain rfl : groupItems = x.groupItems := by
    have hsame := hfind.symm.trans x.findGroups
    cases hsame
    rfl
  obtain ⟨item, hitem, hread⟩ := exists_of_mem_mapM x.readGroups (List.mem_map_of_mem hg)
  obtain ⟨m, hm⟩ := groupErrors_of_checkDefinition h hfind item hitem
  exact isSound_of_groupErrors (hshapes item hitem) hm hread

/-! ## Payloads -/

/-- What a stored condition says has the shape of a condition if the condition is sound. -/
theorem ConditionRow.accepts_payload {c : ConditionRow} {id : Id}
    (hc : (Condition.ofRow id c).IsSound) : conditionSchema.Accepts c.payload := by
  obtain ⟨field, op, hfield, hop, -⟩ := hc
  refine Schema.accepts_record_iff.2 ⟨_, rfl, ?_, ?_⟩
  · exact List.forall_mem_cons.2 ⟨⟨_, rfl⟩, List.forall_mem_singleton.2 ⟨_, rfl⟩⟩
  simp only [List.forall_mem_cons]
  refine ⟨?_, ?_, ?_, ?_, ?_, nofun⟩ <;> rintro _ ⟨⟩
  · exact Schema.accepts_oneOf_iff.2 ⟨_, Vocabulary.mem_codes_of_require hfield, rfl⟩
  · exact Schema.accepts_oneOf_iff.2 ⟨_, Vocabulary.mem_codes_of_require hop, rfl⟩
  · rfl
  · rfl
  · rfl

/-- Its operator is not complained about either. -/
theorem ConditionRow.operatorErrors_payload {c : ConditionRow} {id : Id}
    (hc : (Condition.ofRow id c).IsSound) (group place : Nat) :
    operatorErrors group place c.payload = .ok [] := by
  obtain ⟨field, op, hfield, hop, haccepts⟩ := hc
  rw [Condition.ofRow] at hfield hop
  rw [operatorErrors, bind_of_eq_ok (show c.payload.require "field" = .ok (.text c.field) from rfl),
    bind_of_eq_ok hfield,
    bind_of_eq_ok (show c.payload.require "operator" = .ok (.text c.operator) from rfl),
    bind_of_eq_ok hop, if_pos haccepts]
  rfl

namespace Store

variable {s : Store} {id : Id}

theorem accepts_groupPayload {g : ConditionGroupRow} (hg : (ConditionGroup.ofRow s id g).IsSound) :
    conditionGroupSchema.Accepts (s.groupPayload id g) := by
  obtain ⟨⟨connective, hconnective⟩, hconditions⟩ := hg
  refine Schema.accepts_record_iff.2 ⟨_, rfl, nofun, ?_⟩
  simp only [List.forall_mem_cons]
  refine ⟨?_, ?_, ?_, nofun⟩ <;> rintro _ ⟨⟩
  · exact Schema.accepts_oneOf_iff.2 ⟨_, Vocabulary.mem_codes_iff.2 ⟨connective, hconnective⟩, rfl⟩
  · rfl
  · refine Schema.accepts_listOf_iff.2 ⟨_, rfl, List.forall_mem_map.2 fun row hrow => ?_⟩
    exact ConditionRow.accepts_payload (hconditions _ (List.mem_map_of_mem hrow))

theorem groupErrors_groupPayload {g : ConditionGroupRow}
    (hg : (ConditionGroup.ofRow s id g).IsSound) (place : Nat) :
    groupErrors place (s.groupPayload id g) = .ok [] := by
  have hlist : (s.groupPayload id g).findOr "conditions" (.list []) =
    .ok (.list ((s.conditionsOf id).map fun row => row.2.payload)) := rfl
  rw [groupErrors, bind_of_eq_ok hlist, Json.entries, bind_of_eq_ok rfl]
  refine flatMapPlaces_of_nil (fun m => List.forall_mem_map.2 fun row hrow => ?_) 0
  exact ConditionRow.operatorErrors_payload (hg.2 _ (List.mem_map_of_mem hrow)) place m

end Store

/-- The value of a stored action is complained about unless it can be coerced. -/
theorem ActionRow.valueErrors_payload {a : ActionRow} {id : Id} {place : Nat} :
    valueErrors place a.payload = .ok [] ↔ (Action.ofRow id a).CanCoerce := by
  change _ ↔ ∃ v, coerceNamed (.text a.kind) (.json (.ofText? a.value)) = .ok v
  rw [valueErrors,
    bind_of_eq_ok (show a.payload.require "action_type" = .ok (.text a.kind) from rfl),
    bind_of_eq_ok (show a.payload.findOr "value" .null = .ok (.ofText? a.value) from rfl)]
  rcases coerceNamed (.text a.kind) (.json (.ofText? a.value)) with failure | v
  · constructor
    · intro h
      cases failure <;> cases h
    · rintro ⟨v, hread⟩
      cases hread
  · exact ⟨fun _ => ⟨v, rfl⟩, fun _ => rfl⟩

theorem ActionRow.accepts_payload {a : ActionRow} {id : Id} (ha : (Action.ofRow id a).CanCoerce) :
    actionSchema.Accepts a.payload := by
  obtain ⟨v, hv⟩ := ha
  obtain ⟨kind, hkind, -⟩ := eq_ok_of_bind hv
  refine Schema.accepts_record_iff.2 ⟨_, rfl, by simp, ?_⟩
  simp only [List.forall_mem_cons]
  refine ⟨?_, ?_, ?_, nofun⟩ <;> rintro _ ⟨⟩
  · exact Schema.accepts_oneOf_iff.2 ⟨_, Vocabulary.mem_codes_of_require hkind, rfl⟩
  · cases a.value <;> rfl
  · rfl

/-- The name and the trigger of a rule are such as a definition may give. -/
structure Rule.IsSound (r : Rule) : Prop where
  name : (Schema.boundedText 1 255).Accepts (.text r.name)
  trigger : r.trigger ∈ Vocabulary.codes Trigger

/-- The payload of a stored rule passes the check exactly if the values of its actions can be
coerced, as long as the rest of the rule is sound. -/
theorem Store.payloadOf_passes {s : Store} {id : Id} {r : Rule} (hr : r.IsSound)
    (hgroups : ∀ g ∈ (RuleDefinition.ofRow s id r).groups, g.IsSound) :
    checkDefinition (s.payloadOf id r) = .ok () ↔
      ∀ a ∈ (RuleDefinition.ofRow s id r).actions, a.CanCoerce := by
  have hactionItems : (s.payloadOf id r).findOr "actions" (.list []) =
    .ok (.list ((s.actionsOf id).map fun row => row.2.payload)) := rfl
  have hgroupItems : (s.payloadOf id r).findOr "condition_groups" (.list []) =
    .ok (.list ((s.groupsOf id).map fun row => s.groupPayload row.1 row.2)) := rfl
  have hgroup : ∀ row ∈ s.groupsOf id, (ConditionGroup.ofRow s row.1 row.2).IsSound :=
    fun row hrow => hgroups _ (List.mem_map_of_mem hrow)
  constructor
  · intro hcheck a ha
    obtain ⟨row, hrow, rfl⟩ := List.mem_map.1 ha
    obtain ⟨m, hm⟩ :=
      valueErrors_of_checkDefinition hcheck hactionItems _ (List.mem_map_of_mem hrow)
    exact ActionRow.valueErrors_payload.1 hm
  · intro hactions
    have haction : ∀ row ∈ s.actionsOf id, (Action.ofRow row.1 row.2).CanCoerce :=
      fun row hrow => hactions _ (List.mem_map_of_mem hrow)
    refine (checkDefinition_iff_no_errors hgroupItems hactionItems).2 ⟨?_,
      flatMapPlaces_of_nil (fun m => List.forall_mem_map.2 fun row hrow =>
        groupErrors_groupPayload (hgroup row hrow) m) 0,
      flatMapPlaces_of_nil (fun m => List.forall_mem_map.2 fun row hrow =>
        ActionRow.valueErrors_payload.2 (haction row hrow)) 0⟩
    refine Schema.accepts_record_iff.2 ⟨_, rfl, by simp, ?_⟩
    simp only [List.forall_mem_cons]
    refine ⟨?_, ?_, ?_, ?_, ?_, ?_, ?_, ?_, nofun⟩ <;> rintro _ ⟨⟩
    · exact hr.name
    · rfl
    · exact Schema.accepts_oneOf_iff.2 ⟨_, hr.trigger, rfl⟩
    · rfl
    · rfl
    · rfl
    · refine Schema.accepts_listOf_iff.2 ⟨_, rfl, List.forall_mem_map.2 fun row hrow => ?_⟩
      exact accepts_groupPayload (hgroup row hrow)
    · refine Schema.accepts_listOf_iff.2 ⟨_, rfl, List.forall_mem_map.2 fun row hrow => ?_⟩
      exact ActionRow.accepts_payload (haction row hrow)

end Rulebook
