import Rulebook.Exchange.Payload
import Rulebook.Proofs.Definition.Reading

/-!
# Reading an export back

The payload of a stored rule says what the rows of the rule say, except for the numbers.  Whoever
reads it gets a rule with the same conditions and the same actions.  The order of the groups is
given by numbers in the payload, and may come out differently where two groups have the same number.

The value of an action is coerced when it is read.  The stored text is taken for what a user gave,
and may then stand for something else; only of settled actions it does not.

## Main definitions

* `Action.IsSettled` — coercing the value of the action again gives the same value.

## Main statements

* `Store.payloadOf_agrees` — what is read from the payload of a rule agrees with the rule.
-/

namespace Rulebook

/-! ## Settled actions -/

variable [Host]

namespace Action

/-- Coercing the stored text of the action again succeeds and gives the same text. -/
def IsSettled (a : Action) : Prop := a.setValue a.value = .ok a

variable {a b : Action}

/-- Whether an action is settled is seen from its kind and value. -/
theorem IsSettled.setValue (ha : a.IsSettled) (hkind : b.kind = a.kind) :
    b.setValue a.value = .ok { b with value := a.value } := by
  obtain ⟨hraw, kind, v, hknown, hv, heq⟩ := setValue_eq_ok_iff.1 ha
  have hvalue : a.value = .ofText? (encodeValue v) := congrArg Action.value heq
  exact setValue_eq_ok_iff.2 ⟨hraw, kind, v, hkind ▸ hknown, hv, by rw [← hvalue]⟩

theorem IsSettled.of_core (ha : a.IsSettled) (hcore : b.core = a.core) : b.IsSettled := by
  obtain ⟨hkind, hvalue, -⟩ := core_eq_iff.1 hcore
  have hsame := ha.setValue hkind
  rw [← hvalue] at hsame
  exact hsame

end Action

/-! ## Parts of a rule -/

/-- The payload of a condition is read as the condition at its place. -/
theorem ConditionRow.read_payload (c : ConditionRow) (place : Nat) :
    Condition.ofPayload place c.payload = .ok { c with order := place }.draft := by
  have htext : expectedText (.text c.value) = .ok c.value := Json.plain_text c.value
  have hvalue : c.payload.findOr "value" .null = .ok (.text c.value) := rfl
  rw [Condition.ofPayload, hvalue]
  change (expectedText (.text c.value) >>= _) = _
  rw [bind_of_eq_ok htext]
  rfl

/-- The payload of a condition says everything but its number and place. -/
theorem ConditionRow.ofPayload_payload (c : ConditionRow) (place : Nat) (id : Id) :
    ∃ c', Condition.ofPayload place c.payload = .ok c' ∧ c'.core = (Condition.ofRow id c).core :=
  ⟨_, c.read_payload place, rfl⟩

/-- The payload of a settled action says everything but its number and place. -/
theorem ActionRow.ofPayload_payload {a : ActionRow} {id : Id} (ha : (Action.ofRow id a).IsSettled)
    (place : Nat) :
    ∃ a', Action.ofPayload place a.payload = .ok a' ∧ a'.core = (Action.ofRow id a).core := by
  let unread : Action :=
    { id := none, rule := none, kind := .text a.kind, value := .null, order := .int place,
      stopProcessing := .bool a.stopProcessing }
  exact ⟨{ unread with value := .ofText? a.value }, ha.setValue (b := unread) rfl, rfl⟩

section Lists

variable {α β γ : Type} (payload : α → Json) (meaning : α → γ) (core : β → γ) {rows : List α}

omit [Host] in
/-- What is read from the payloads of rows means the same as the rows, one after the other. -/
theorem mapPlaces_payloads {f : Nat → Json → Except Failure β}
    (h : ∀ n, ∀ a ∈ rows, ∃ b, f n (payload a) = .ok b ∧ core b = meaning a) (n : Nat) :
    ∃ bs, mapPlaces f n (rows.map payload) = .ok bs ∧ bs.map core = rows.map meaning := by
  induction rows generalizing n with
  | nil => exact ⟨[], rfl, rfl⟩
  | cons a rest ih =>
      obtain ⟨b, hb, hsame⟩ := h n a List.mem_cons_self
      obtain ⟨bs, hbs, hrest⟩ := ih (fun n c hc => h n c (List.mem_cons_of_mem a hc)) (n + 1)
      refine ⟨b :: bs, ?_, ?_⟩
      · rw [List.map_cons, mapPlaces, hb, hbs]
        rfl
      · rw [List.map_cons, List.map_cons, hsame, hrest]

omit [Host] in
theorem mapM_payloads {f : Json → Except Failure β}
    (h : ∀ a ∈ rows, ∃ b, f (payload a) = .ok b ∧ core b = meaning a) :
    ∃ bs, (rows.map payload).mapM f = .ok bs ∧ bs.map core = rows.map meaning := by
  induction rows with
  | nil => exact ⟨[], rfl, rfl⟩
  | cons a rest ih =>
      obtain ⟨b, hb, hsame⟩ := h a List.mem_cons_self
      obtain ⟨bs, hbs, hrest⟩ := ih fun c hc => h c (List.mem_cons_of_mem a hc)
      refine ⟨b :: bs, ?_, ?_⟩
      · rw [List.map_cons, List.mapM_cons, hb, hbs]
        rfl
      · rw [List.map_cons, List.map_cons, hsame, hrest]

end Lists

namespace Store

/-- The payload of a group says everything but its number. -/
theorem ofPayload_groupPayload (s : Store) (id : Id) (g : ConditionGroupRow) :
    ∃ g', ConditionGroup.ofPayload (s.groupPayload id g) = .ok g' ∧
      g'.core = (ConditionGroup.ofRow s id g).core := by
  obtain ⟨conditions, hread, hcores⟩ := mapPlaces_payloads
    (fun row : Id × ConditionRow => row.2.payload)
    (fun row => (Condition.ofRow row.1 row.2).core) Condition.core
    (fun n row (_ : row ∈ s.conditionsOf id) => row.2.ofPayload_payload n row.1) 0
  refine ⟨⟨.text g.connective, conditions⟩, ?_, ?_⟩
  · have hitems : (s.groupPayload id g).findOr "conditions" (.list []) =
      .ok (.list ((s.conditionsOf id).map fun row => row.2.payload)) := rfl
    rw [ConditionGroup.ofPayload, bind_of_eq_ok hitems, Json.entries, bind_of_eq_ok rfl,
      bind_of_eq_ok hread]
    rfl
  · simp only [ConditionGroup.core, ConditionGroup.ofRow, hcores, List.map_map]
    rfl

/-- Reading the payload of a rule gives a rule that agrees with it, if its actions are settled. -/
theorem payloadOf_agrees (s : Store) (id : Id) (r : Rule)
    (hsettled : ∀ a ∈ (RuleDefinition.ofRow s id r).actions, a.IsSettled) :
    ∃ r', RuleDefinition.ofPayload (s.payloadOf id r) = .ok r' ∧
      r'.Agrees (RuleDefinition.ofRow s id r) := by
  obtain ⟨groups, hgroups, hgroupCores⟩ := mapM_payloads
    (fun row : Id × ConditionGroupRow => s.groupPayload row.1 row.2)
    (fun row => (ConditionGroup.ofRow s row.1 row.2).core) ConditionGroup.core
    fun row (_ : row ∈ s.groupsOf id) => s.ofPayload_groupPayload row.1 row.2
  obtain ⟨actions, hactions, hactionCores⟩ := mapPlaces_payloads
    (fun row : Id × ActionRow => row.2.payload)
    (fun row => (Action.ofRow row.1 row.2).core) Action.core
    (fun n row (hrow : row ∈ s.actionsOf id) => ActionRow.ofPayload_payload
      (hsettled _ (List.mem_map.2 ⟨row, hrow, rfl⟩)) n) 0
  have hgroupItems : (s.payloadOf id r).findOr "condition_groups" (.list []) =
    .ok (.list ((s.groupsOf id).map fun row => s.groupPayload row.1 row.2)) := rfl
  have hactionItems : (s.payloadOf id r).findOr "actions" (.list []) =
    .ok (.list ((s.actionsOf id).map fun row => row.2.payload)) := rfl
  have hkeys : ∀ item ∈ (s.groupsOf id).map fun row => s.groupPayload row.1 row.2,
      ∃ key, item.findOr "order" (.int 0) = .ok key ∧ key.IsNumeric := by
    intro item hitem
    obtain ⟨row, -, rfl⟩ := List.mem_map.1 hitem
    exact ⟨.int row.2.order, rfl, rfl⟩
  obtain ⟨r', hread, hperm, hsame, hstops⟩ :=
    RuleDefinition.ofPayload_of_parts hgroupItems hactionItems hkeys hgroups hactions
  refine ⟨r', hread, ?_, ?_, (Except.ok.inj hstops).symm⟩
  · have hcores := hperm.map ConditionGroup.core
    rw [hgroupCores] at hcores
    simpa [RuleDefinition.ofRow, Function.comp_def] using hcores
  · rw [hsame, hactionCores]
    simp [RuleDefinition.ofRow]

end Store

end Rulebook
