import Rulebook.Proofs.Definition.Coercing
import Rulebook.Proofs.Definition.Shape
import Rulebook.Proofs.Engine.Sight

/-!
# Reading definitions

A definition that is not refused can be read if there is a place for the value of each part: the
value of a condition must not be a whole number with too long a numeral, and the value of an action
must not enclose half of a pair either.  What is read from it can be stored as it is: texts where a
row has texts and truth values where it has truth values.  So a part that was read is the *draft* of
a row, which only lacks the numbers of the row and of whatever it belongs to.

Groups are read in the order of their numbers.  These are integers, and any two of them can be
compared, so that sorting succeeds.  It moves groups around but loses none
(`RuleDefinition.ofPayload_of_parts`).

## Main definitions

* `ConditionRow.draft`, `ActionRow.draft`, `GroupDraft` — parts before they are stored.
* `ValuesStorable` — there is a place for the values of a definition.
* `Drafts` — the parts that a definition asks for.

## Main statements

* `drafts_of_checkDefinition`, `RuleDefinition.ofPayload_of_drafts` — a definition that is not
  refused can be read if there is a place for its values.
* `exists_ofPayload_iff` — only then.
-/

namespace Rulebook

/-! ## Lists of payloads -/

section Lists

variable {α β γ : Type}

/-- Reading each entry with its place gives drafts in ascending order. -/
theorem mapPlaces_eq_ok {f : Nat → α → Except Failure β} {draft : γ → β} (order : γ → Int)
    {items : List α} (h : ∀ n, ∀ a ∈ items, ∃ c, f n a = .ok (draft c) ∧ order c = n) (n : Nat) :
    ∃ cs : List γ, mapPlaces f n items = .ok (cs.map draft) ∧
      cs.Pairwise (fun a b => order a < order b) ∧ ∀ c ∈ cs, (n : Int) ≤ order c := by
  induction items generalizing n with
  | nil => exact ⟨[], rfl, .nil, fun _ hc => nomatch hc⟩
  | cons a rest ih =>
      obtain ⟨c, hc, hplace⟩ := h n a List.mem_cons_self
      obtain ⟨cs, hcs, hordered, hleast⟩ :=
        ih (fun n b hb => h n b (List.mem_cons_of_mem a hb)) (n + 1)
      refine ⟨c :: cs, ?_, List.pairwise_cons.2 ⟨fun d hd => ?_, hordered⟩,
        List.forall_mem_cons.2 ⟨Int.le_of_eq hplace.symm, fun d hd => ?_⟩⟩
      · rw [mapPlaces, hc, hcs]
        rfl
      · have hlater := hleast d hd
        omega
      · have hlater := hleast d hd
        omega

/-- In another order the same entries give the same results in that order. -/
theorem mapM_perm {f : α → Except Failure β} {items items' : List α} (hperm : items.Perm items') :
    ∀ {bs : List β}, items.mapM f = .ok bs → ∃ bs', items'.mapM f = .ok bs' ∧ bs.Perm bs' := by
  induction hperm with
  | nil => exact fun {bs} h => ⟨bs, h, .refl bs⟩
  | cons a _ ih =>
      intro bs h
      rw [List.mapM_cons] at h
      obtain ⟨b, hb, h⟩ := eq_ok_of_bind h
      obtain ⟨rest, hrest, h⟩ := eq_ok_of_bind h
      cases h
      obtain ⟨rest', hrest', hsame⟩ := ih hrest
      exact ⟨b :: rest', by rw [List.mapM_cons, hb, hrest']; rfl, hsame.cons b⟩
  | swap a a' items =>
      intro bs h
      rw [List.mapM_cons, List.mapM_cons] at h
      obtain ⟨b, hb, h⟩ := eq_ok_of_bind h
      obtain ⟨later, hlater, h⟩ := eq_ok_of_bind h
      obtain ⟨b', hb', hlater⟩ := eq_ok_of_bind hlater
      obtain ⟨rest, hrest, hlater⟩ := eq_ok_of_bind hlater
      cases hlater
      cases h
      refine ⟨b' :: b :: rest, ?_, .swap b' b rest⟩
      rw [List.mapM_cons, List.mapM_cons, hb, hb', hrest]
      rfl
  | trans _ _ ih ih' =>
      intro bs h
      obtain ⟨bs', h', hsame⟩ := ih h
      obtain ⟨bs'', h'', hsame'⟩ := ih' h'
      exact ⟨bs'', h'', hsame.trans hsame'⟩

end Lists

/-! ## Sorting by numbers -/

namespace Json

/-- A value that has a place among numbers. -/
def IsNumeric (j : Json) : Prop := j.place?.isSome = true

theorem less_of_numeric {a b : Json} (ha : a.IsNumeric) (hb : b.IsNumeric) :
    ∃ before, a.less b = .ok before := by
  obtain ⟨p, hp⟩ := Option.isSome_iff_exists.1 ha
  obtain ⟨q, hq⟩ := Option.isSome_iff_exists.1 hb
  unfold less
  split
  · exact ⟨_, rfl⟩
  · rw [hp, hq]
    rcases p with _ | p <;> rcases q with _ | q <;> exact ⟨_, rfl⟩

variable {α : Type}

theorem insertByKey_perm {key : Json} (hkey : key.IsNumeric) (a : α) {done : List (Json × α)}
    (hdone : ∀ entry ∈ done, entry.1.IsNumeric) :
    ∃ sorted, insertByKey key a done = .ok sorted ∧ sorted.Perm ((key, a) :: done) := by
  induction done with
  | nil => exact ⟨_, rfl, .refl _⟩
  | cons first rest ih =>
      obtain ⟨k, b⟩ := first
      obtain ⟨hfirst, hrest⟩ := List.forall_mem_cons.1 hdone
      obtain ⟨before, hbefore⟩ := less_of_numeric hkey hfirst
      rw [insertByKey, hbefore]
      cases before with
      | true => exact ⟨_, rfl, .refl _⟩
      | false =>
          obtain ⟨sorted, hsorted, hperm⟩ := ih hrest
          refine ⟨(k, b) :: sorted, ?_, (hperm.cons (k, b)).trans (.swap _ _ _)⟩
          rw [hsorted]
          rfl

/-- Inserting one entry after the other keeps all of them. -/
theorem foldlM_insertByKey_perm {rest : List (Json × α)}
    (hrest : ∀ entry ∈ rest, entry.1.IsNumeric) (done : List (Json × α))
    (hdone : ∀ entry ∈ done, entry.1.IsNumeric) :
    ∃ sorted, rest.foldlM (fun done (key, a) => insertByKey key a done) done = .ok sorted ∧
      sorted.Perm (rest ++ done) := by
  induction rest generalizing done with
  | nil => exact ⟨done, rfl, .refl done⟩
  | cons first rest ih =>
      obtain ⟨hfirst, hrest⟩ := List.forall_mem_cons.1 hrest
      obtain ⟨next, hnext, hperm⟩ := insertByKey_perm hfirst first.2 hdone
      have hnumeric : ∀ entry ∈ next, entry.1.IsNumeric := by
        intro entry hentry
        rcases List.mem_cons.1 (hperm.subset hentry) with rfl | hold
        · exact hfirst
        · exact hdone entry hold
      obtain ⟨sorted, hsorted, hall⟩ := ih hrest next hnumeric
      refine ⟨sorted, ?_, hall.trans ((hperm.append_left rest).trans List.perm_middle)⟩
      rw [List.foldlM_cons]
      dsimp only
      rw [hnext]
      exact hsorted

/-- Numbers can be sorted by, and sorting keeps all entries. -/
theorem sortByKey_perm {entries : List (Json × α)} (h : ∀ entry ∈ entries, entry.1.IsNumeric) :
    ∃ sorted, sortByKey entries = .ok sorted ∧ sorted.Perm (entries.map (·.2)) := by
  obtain ⟨sorted, hsorted, hperm⟩ := foldlM_insertByKey_perm h [] nofun
  rw [List.append_nil] at hperm
  exact ⟨sorted.map (·.2), by rw [sortByKey, hsorted]; rfl, hperm.map _⟩

end Json

/-! ## Drafts of rows -/

/-- The condition that a row will hold, before it has a number. -/
def ConditionRow.draft (c : ConditionRow) : Condition := { Condition.ofRow 0 c with id := none }

/-- The action that a row will hold, before it and its rule have numbers. -/
def ActionRow.draft (a : ActionRow) : Action := { Action.ofRow 0 a with id := none, rule := none }

/-- A group of conditions that is to be stored. -/
structure GroupDraft where
  connective : String
  conditions : List ConditionRow

/-- The group as a definition has it. -/
def GroupDraft.group (g : GroupDraft) : ConditionGroup where
  connective := .text g.connective
  conditions := g.conditions.map ConditionRow.draft

/-! ## Values that become texts -/

variable [Host]

theorem isReadable_of_expectedText {j : Json} {s : String} (h : expectedText j = .ok s) :
    j.IsReadable := by
  rintro n rfl
  exact (Json.plain_int_eq_ok_iff.1 h).1

/-- The value of the part is readable. -/
def Json.HasReadableValue (part : Json) : Prop :=
  ∀ value, part.findOr "value" .null = .ok value → value.IsReadable

theorem hasReadableValue_of_condition {place : Nat} {j : Json} {c : Condition}
    (h : Condition.ofPayload place j = .ok c) : j.HasReadableValue := by
  obtain ⟨_, -, h⟩ := eq_ok_of_bind h
  obtain ⟨_, -, h⟩ := eq_ok_of_bind h
  obtain ⟨value, hvalue, h⟩ := eq_ok_of_bind h
  obtain ⟨_, htext, -⟩ := eq_ok_of_bind h
  intro other hother
  cases hvalue.symm.trans hother
  exact isReadable_of_expectedText htext

/-- There is a place for the value of the part. -/
def Json.HasStorableValue (part : Json) : Prop :=
  ∀ value, part.findOr "value" .null = .ok value → value.IsStorable

theorem hasStorableValue_of_action {place : Nat} {j : Json} {a : Action}
    (h : Action.ofPayload place j = .ok a) : j.HasStorableValue := by
  obtain ⟨_, -, h⟩ := eq_ok_of_bind h
  obtain ⟨_, -, h⟩ := eq_ok_of_bind h
  obtain ⟨value, hvalue, h⟩ := eq_ok_of_bind h
  intro other hother
  cases hvalue.symm.trans hother
  exact (Action.setValue_eq_ok_iff.1 h).1

/-- There is a place for the values of all conditions and actions of a definition. -/
structure ValuesStorable (d : Json) : Prop where
  conditions : ∀ groups, d.findOr "condition_groups" (.list []) = .ok (.list groups) →
    ∀ group ∈ groups, ∀ items, group.findOr "conditions" (.list []) = .ok (.list items) →
      ∀ item ∈ items, item.HasReadableValue
  actions : ∀ items, d.findOr "actions" (.list []) = .ok (.list items) →
    ∀ item ∈ items, item.HasStorableValue

/-- No action of a definition has a value that encloses half of a pair. -/
def ValuesWhole (d : Json) : Prop :=
  ∀ items, d.findOr "actions" (.list []) = .ok (.list items) → ∀ item ∈ items,
    ∀ value, item.findOr "value" .null = .ok value → enclosesHalf value = false

omit [Host] in
theorem Json.CanShow.hasReadableValue {part : Json} (h : part.CanShow) : part.HasReadableValue := by
  rintro value hvalue n rfl
  exact (h.findOr ⟨1, rfl⟩ hvalue).isReadable

/-- A definition that can be shown has readable values. -/
theorem Json.CanShow.valuesStorable {d : Json} (h : d.CanShow) (hwhole : ValuesWhole d) :
    ValuesStorable d where
  conditions _ hgroups group hgroup _ hitems item hitem :=
    have hshown := (h.findOr ⟨1, rfl⟩ hgroups).item group hgroup
    ((hshown.findOr ⟨1, rfl⟩ hitems).item item hitem).hasReadableValue
  actions items hitems item hitem value hvalue :=
    ⟨((h.findOr ⟨1, rfl⟩ hitems).item item hitem).hasReadableValue value hvalue,
      hwhole items hitems item hitem value hvalue⟩

/-! ## Payloads that were checked -/

namespace Schema.Accepts

variable {j : Json}

omit [Host] in
theorem isNumeric (h : (Schema.oneOfTypes [.integer]).Accepts j) : j.IsNumeric := by
  obtain ⟨t, ht, hholds⟩ := Schema.accepts_oneOfTypes_iff.1 h
  rw [List.mem_singleton.1 ht] at hholds
  cases j with
  | int n => rfl
  | real x => cases x <;> rfl
  | _ => cases hholds

/-- A readable value that passes the check becomes a text. -/
theorem exists_expectedText (h : (Schema.oneOfTypes [.text, .number, .null]).Accepts j)
    (hj : j.IsReadable) : ∃ s, expectedText j = .ok s := by
  cases j with
  | null => exact ⟨"", rfl⟩
  | int n => exact ⟨toString n, Json.plain_int_eq_ok_iff.2 ⟨hj n rfl, rfl⟩⟩
  | real x => exact ⟨_, Json.plain_of_hidden?_eq_none (Json.hidden?_real x)⟩
  | text s => exact ⟨s, Json.plain_text s⟩
  | _ =>
      obtain ⟨t, ht, hholds⟩ := Schema.accepts_oneOfTypes_iff.1 h
      simp at ht
      rcases ht with rfl | rfl | rfl <;> cases hholds

/-- A condition that was checked is read as the draft of a row, if its value is readable. -/
theorem conditionDraft (h : conditionSchema.Accepts j) (hj : j.HasReadableValue) (place : Nat) :
    ∃ c : ConditionRow, Condition.ofPayload place j = .ok c.draft ∧ c.order = place := by
  obtain ⟨_, hfield, hshape⟩ := h.require "field" rfl (by simp)
  obtain ⟨field, -, rfl⟩ := Schema.accepts_oneOf_iff.1 hshape
  obtain ⟨_, hoperator, hshape⟩ := h.require "operator" rfl (by simp)
  obtain ⟨operator, -, rfl⟩ := Schema.accepts_oneOf_iff.1 hshape
  obtain ⟨value, hvalue, hshape⟩ := h.findOr "value" .null rfl rfl
  obtain ⟨text, htext⟩ := hshape.exists_expectedText (hj value hvalue)
  obtain ⟨_, hsensitive, hshape⟩ := h.findOr "is_case_sensitive" (.bool false) rfl rfl
  obtain ⟨isCaseSensitive, rfl⟩ := hshape.boolean
  obtain ⟨_, hnegated, hshape⟩ := h.findOr "is_negated" (.bool false) rfl rfl
  obtain ⟨isNegated, rfl⟩ := hshape.boolean
  refine ⟨⟨0, field, operator, text, isCaseSensitive, isNegated, place⟩, ?_, rfl⟩
  rw [Condition.ofPayload, bind_of_eq_ok hfield, bind_of_eq_ok hoperator, bind_of_eq_ok hvalue,
    bind_of_eq_ok htext, bind_of_eq_ok hsensitive, bind_of_eq_ok hnegated]
  rfl

omit [Host] in
/-- The entries of a list that may be left out. -/
theorem findEntries {required : List String} {members : List (String × Schema)} {entry : Schema}
    (h : (Schema.record required members).Accepts j) (name : String)
    (hmember : members.lookup name = some (.listOf entry)) :
    ∃ items, j.findOr name (.list []) = .ok (.list items) ∧ ∀ item ∈ items, entry.Accepts item := by
  obtain ⟨_, hlist, hshape⟩ := h.findOr name (.list []) hmember rfl
  obtain ⟨items, rfl, hitems⟩ := Schema.accepts_listOf_iff.1 hshape
  exact ⟨items, hlist, hitems⟩

/-- A group that was checked is read as a draft, with its conditions in order. -/
theorem groupDraft (h : conditionGroupSchema.Accepts j)
    (hj : ∀ items, j.findOr "conditions" (.list []) = .ok (.list items) →
      ∀ item ∈ items, item.HasReadableValue) :
    ∃ g : GroupDraft, ConditionGroup.ofPayload j = .ok g.group ∧
      g.conditions.Pairwise fun a b => a.order < b.order := by
  obtain ⟨items, hlist, hitems⟩ := h.findEntries "conditions" rfl
  obtain ⟨conditions, hconditions, hordered, -⟩ :=
    mapPlaces_eq_ok ConditionRow.order
      (fun n a ha => (hitems a ha).conditionDraft (hj items hlist a ha) n) 0
  obtain ⟨_, hconnective, hshape⟩ :=
    h.findOr "logic_operator" (.text (Vocabulary.code Connective.all)) rfl rfl
  obtain ⟨connective, -, rfl⟩ := Schema.accepts_oneOf_iff.1 hshape
  refine ⟨⟨connective, conditions⟩, ?_, hordered⟩
  rw [ConditionGroup.ofPayload, hlist]
  dsimp only [bind, Except.bind, Json.entries]
  rw [hconditions, hconnective]
  rfl

/-- The groups of a list are read as drafts, one after the other. -/
theorem groupDrafts {items : List Json} (h : ∀ item ∈ items, conditionGroupSchema.Accepts item)
    (hvalues : ∀ group ∈ items, ∀ conditions,
      group.findOr "conditions" (.list []) = .ok (.list conditions) →
        ∀ item ∈ conditions, item.HasReadableValue) :
    ∃ groups : List GroupDraft,
      items.mapM ConditionGroup.ofPayload = .ok (groups.map GroupDraft.group) ∧
        ∀ g ∈ groups, g.conditions.Pairwise fun a b => a.order < b.order := by
  induction items with
  | nil => exact ⟨[], rfl, nofun⟩
  | cons item rest ih =>
      obtain ⟨hfirst, hrest⟩ := List.forall_mem_cons.1 h
      obtain ⟨hreadable, hothers⟩ := List.forall_mem_cons.1 hvalues
      obtain ⟨g, hg, hordered⟩ := hfirst.groupDraft hreadable
      obtain ⟨groups, hgroups, hall⟩ := ih hrest hothers
      refine ⟨g :: groups, ?_, List.forall_mem_cons.2 ⟨hordered, hall⟩⟩
      rw [List.mapM_cons, hg, hgroups]
      rfl

/-- An action that was checked is read as the draft of a row, if there is a place for its value. -/
theorem actionDraft (h : actionSchema.Accepts j) {m : Nat} (hvalue : valueErrors m j = .ok [])
    (hj : j.HasStorableValue) (place : Nat) :
    ∃ a : ActionRow, Action.ofPayload place j = .ok a.draft ∧ a.order = place := by
  obtain ⟨_, hkind, hshape⟩ := h.require "action_type" rfl (by simp)
  obtain ⟨kind, -, rfl⟩ := Schema.accepts_oneOf_iff.1 hshape
  obtain ⟨raw, hraw, -⟩ := h.findOr "value" .null rfl rfl
  obtain ⟨_, hstop, hshape⟩ := h.findOr "stop_processing" (.bool false) rfl rfl
  obtain ⟨stopProcessing, rfl⟩ := hshape.boolean
  rw [valueErrors, bind_of_eq_ok hkind, bind_of_eq_ok hraw] at hvalue
  cases hcoerced : coerceNamed (.text kind) (.json raw) with
  | error failure =>
      rw [hcoerced] at hvalue
      cases failure <;> cases hvalue
  | ok value =>
      obtain ⟨known, hknown, hknownCoerced⟩ := eq_ok_of_bind hcoerced
      refine ⟨⟨0, kind, encodeValue value, place, stopProcessing⟩, ?_, rfl⟩
      rw [Action.ofPayload, bind_of_eq_ok hkind, bind_of_eq_ok hstop, bind_of_eq_ok hraw]
      exact Action.setValue_of_coerceValue (Vocabulary.require_eq_ok_iff_ofJson?.1 hknown)
        (hj raw hraw) hknownCoerced

end Schema.Accepts

/-! ## Rules -/

omit [Host] in
theorem Json.findOr_object (values : List (String × Json)) (name : String) (other : Json) :
    ∃ value, (Json.object values).findOr name other = .ok value := ⟨_, rfl⟩

omit [Host] in
/-- Where every entry has a number, the list can be sorted by it. -/
theorem Json.exists_keyed {items : List Json}
    (h : ∀ item ∈ items, ∃ key, item.findOr "order" (.int 0) = .ok key ∧ key.IsNumeric) :
    ∃ keyed : List (Json × Json),
      (items.mapM fun item => do return (← item.findOr "order" (.int 0), item)) = .ok keyed ∧
        (∀ entry ∈ keyed, entry.1.IsNumeric) ∧ keyed.map (·.2) = items := by
  induction items with
  | nil => exact ⟨[], rfl, nofun, rfl⟩
  | cons item rest ih =>
      obtain ⟨⟨key, hkey, hfirst⟩, hrest⟩ := List.forall_mem_cons.1 h
      obtain ⟨keyed, hkeyed, hnumeric, hitems⟩ := ih hrest
      refine ⟨(key, item) :: keyed, ?_, List.forall_mem_cons.2 ⟨hfirst, hnumeric⟩,
        congrArg (item :: ·) hitems⟩
      rw [List.mapM_cons, hkey, hkeyed]
      rfl

/-- A rule can be read from an object if its groups and actions can, and if its groups can be
sorted.  Sorting does not lose groups. -/
theorem RuleDefinition.ofPayload_of_parts {values : List (String × Json)}
    {groupItems actionItems : List Json} {groups : List ConditionGroup} {actions : List Action}
    (hgroupItems : (Json.object values).findOr "condition_groups" (.list []) =
      .ok (.list groupItems))
    (hactionItems : (Json.object values).findOr "actions" (.list []) = .ok (.list actionItems))
    (hkeys : ∀ item ∈ groupItems, ∃ key, item.findOr "order" (.int 0) = .ok key ∧ key.IsNumeric)
    (hgroups : groupItems.mapM ConditionGroup.ofPayload = .ok groups)
    (hactions : mapPlaces Action.ofPayload 0 actionItems = .ok actions) :
    ∃ r, ofPayload (.object values) = .ok r ∧ r.groups.Perm groups ∧ r.actions = actions ∧
      (Json.object values).findOr "stop_processing" (.bool false) = .ok r.stopProcessing := by
  obtain ⟨keyed, hkeyed, hnumeric, hitems⟩ := Json.exists_keyed hkeys
  obtain ⟨sorted, hsorted, hperm⟩ := Json.sortByKey_perm hnumeric
  rw [hitems] at hperm
  obtain ⟨read, hread, hsame⟩ := mapM_perm hperm.symm hgroups
  obtain ⟨id, hid⟩ := Json.findOr_object values "id" .null
  obtain ⟨name, hname⟩ := Json.findOr_object values "name" (.text "Test Rule")
  obtain ⟨trigger, htrigger⟩ :=
    Json.findOr_object values "trigger_type" (.text (Vocabulary.code Trigger.manual))
  obtain ⟨stops, hstops⟩ := Json.findOr_object values "stop_processing" (.bool false)
  refine ⟨⟨id, name, trigger, stops, read, actions⟩, ?_, hsame.symm, rfl, hstops⟩
  have hentries : ∀ items, (Json.list items).entries = .ok items := fun _ => rfl
  rw [ofPayload, bind_of_eq_ok hgroupItems, bind_of_eq_ok (hentries _), bind_of_eq_ok hkeyed,
    bind_of_eq_ok hsorted, bind_of_eq_ok hread, bind_of_eq_ok hactionItems,
    bind_of_eq_ok (hentries _), bind_of_eq_ok hactions, bind_of_eq_ok hid, bind_of_eq_ok hname,
    bind_of_eq_ok htrigger, bind_of_eq_ok hstops]
  rfl

/-- What the groups and actions of a definition say, as drafts of rows. -/
structure Drafts (d : Json) where
  groupItems : List Json
  actionItems : List Json
  groups : List GroupDraft
  actions : List ActionRow
  findGroups : d.findOr "condition_groups" (.list []) = .ok (.list groupItems)
  findActions : d.findOr "actions" (.list []) = .ok (.list actionItems)
  readGroups : groupItems.mapM ConditionGroup.ofPayload = .ok (groups.map GroupDraft.group)
  readActions : mapPlaces Action.ofPayload 0 actionItems = .ok (actions.map ActionRow.draft)
  /-- The conditions of a group are numbered in order. -/
  conditionsOrdered : ∀ g ∈ groups, g.conditions.Pairwise fun a b => a.order < b.order
  actionsOrdered : actions.Pairwise fun a b => a.order < b.order

omit [Host] in
/-- If there are no complaints in a list, there are none about its entries. -/
theorem flatMapPlaces_eq_nil {α β : Type} {f : Nat → α → Except Failure (List β)} {items : List α}
    {n : Nat} (h : flatMapPlaces f n items = .ok []) : ∀ a ∈ items, ∃ m, f m a = .ok [] := by
  induction items generalizing n with
  | nil => exact fun a ha => nomatch ha
  | cons first rest ih =>
      obtain ⟨errors, hfirst, h⟩ := eq_ok_of_bind h
      obtain ⟨later, hrest, h⟩ := eq_ok_of_bind h
      obtain ⟨rfl, rfl⟩ := List.append_eq_nil_iff.1 (Except.ok.inj h)
      exact List.forall_mem_cons.2 ⟨⟨n, hfirst⟩, ih hrest⟩

omit [Host] in
/-- There are no complaints in a list if there are none about its entries, wherever they stand. -/
theorem flatMapPlaces_of_nil {α β : Type} {f : Nat → α → Except Failure (List β)} {items : List α}
    (h : ∀ m, ∀ a ∈ items, f m a = .ok []) (n : Nat) : flatMapPlaces f n items = .ok [] := by
  induction items generalizing n with
  | nil => rfl
  | cons a rest ih =>
      rw [flatMapPlaces, h n a List.mem_cons_self,
        ih fun m b hb => h m b (List.mem_cons_of_mem a hb)]
      rfl

section Check

variable {d : Json} {groupItems actionItems : List Json}

/-- A definition passes the check if its shape is right and there are no complaints about its groups
and its actions. -/
theorem checkDefinition_iff_no_errors
    (hgroupItems : d.findOr "condition_groups" (.list []) = .ok (.list groupItems))
    (hactionItems : d.findOr "actions" (.list []) = .ok (.list actionItems)) :
    checkDefinition d = .ok () ↔ definitionSchema.Accepts d ∧
      flatMapPlaces groupErrors 0 groupItems = .ok [] ∧
      flatMapPlaces valueErrors 0 actionItems = .ok [] := by
  rw [← Schema.verdict_eq_ok_none_iff]
  unfold checkDefinition
  rcases definitionSchema.verdict d with failure | _ | complaint
  · exact iff_of_false nofun nofun
  · rw [bind_of_eq_ok rfl]
    dsimp only
    rw [bind_of_eq_ok hgroupItems, Json.entries, bind_of_eq_ok rfl, bind_of_eq_ok hactionItems,
      Json.entries, bind_of_eq_ok rfl, and_iff_right rfl]
    constructor
    · intro h
      obtain ⟨inGroups, hgroups, h⟩ := eq_ok_of_bind h
      obtain ⟨inActions, hactions, h⟩ := eq_ok_of_bind h
      split at h
      · next hempty =>
        obtain ⟨rfl, rfl⟩ := List.append_eq_nil_iff.1 (List.isEmpty_iff.1 hempty)
        exact ⟨hgroups, hactions⟩
      · cases h
    · rintro ⟨hgroups, hactions⟩
      rw [bind_of_eq_ok hgroups, bind_of_eq_ok hactions]
      rfl
  · exact iff_of_false nofun nofun

/-- Where there is nothing wrong with a definition, nothing is wrong with the operators of its
groups. -/
theorem groupErrors_of_checkDefinition (h : checkDefinition d = .ok ())
    (hitems : d.findOr "condition_groups" (.list []) = .ok (.list groupItems)) :
    ∀ item ∈ groupItems, ∃ m, groupErrors m item = .ok [] := by
  obtain ⟨_, hactionItems, -⟩ := (accepts_of_checkDefinition h).findEntries "actions" rfl
  exact flatMapPlaces_eq_nil ((checkDefinition_iff_no_errors hitems hactionItems).1 h).2.1

/-- Where there is nothing wrong with a definition, nothing is wrong with the values of its
actions. -/
theorem valueErrors_of_checkDefinition (h : checkDefinition d = .ok ())
    (hitems : d.findOr "actions" (.list []) = .ok (.list actionItems)) :
    ∀ item ∈ actionItems, ∃ m, valueErrors m item = .ok [] := by
  obtain ⟨_, hgroupItems, -⟩ := (accepts_of_checkDefinition h).findEntries "condition_groups" rfl
  exact flatMapPlaces_eq_nil ((checkDefinition_iff_no_errors hgroupItems hitems).1 h).2.2

end Check

/-- A definition that is not refused can be read if there is a place for its values. -/
theorem drafts_of_checkDefinition {d : Json} (h : checkDefinition d = .ok ())
    (hstorable : ValuesStorable d) : Nonempty (Drafts d) := by
  have hshape := accepts_of_checkDefinition h
  obtain ⟨groupItems, hfindGroups, hgroups⟩ := hshape.findEntries "condition_groups" rfl
  obtain ⟨actionItems, hfindActions, hactions⟩ := hshape.findEntries "actions" rfl
  obtain ⟨groups, hreadGroups, hconditions⟩ :=
    Schema.Accepts.groupDrafts hgroups (hstorable.conditions groupItems hfindGroups)
  have hvalues := valueErrors_of_checkDefinition h hfindActions
  obtain ⟨actions, hreadActions, hordered, -⟩ := mapPlaces_eq_ok ActionRow.order
    (fun n item hitem => (hactions item hitem).actionDraft (hvalues item hitem).choose_spec
      (hstorable.actions actionItems hfindActions item hitem) n) 0
  exact ⟨⟨groupItems, actionItems, groups, actions, hfindGroups, hfindActions, hreadGroups,
    hreadActions, hconditions, hordered⟩⟩

/-- The rule that is read from a definition that is not refused. -/
theorem RuleDefinition.ofPayload_of_drafts {d : Json} (h : checkDefinition d = .ok ())
    (x : Drafts d) :
    ∃ r, ofPayload d = .ok r ∧ r.groups.Perm (x.groups.map GroupDraft.group) ∧
      r.actions = x.actions.map ActionRow.draft ∧
      d.findOr "stop_processing" (.bool false) = .ok r.stopProcessing := by
  have hshape := accepts_of_checkDefinition h
  obtain ⟨groupItems, hfindGroups, hgroups⟩ := hshape.findEntries "condition_groups" rfl
  obtain rfl : x.groupItems = groupItems := by
    have hsame := x.findGroups.symm.trans hfindGroups
    cases hsame
    rfl
  obtain ⟨values, rfl, -, -⟩ := hshape.record
  refine ofPayload_of_parts x.findGroups x.findActions (fun item hitem => ?_) x.readGroups
    x.readActions
  obtain ⟨key, hkey, hinteger⟩ := (hgroups item hitem).findOr "order" (.int 0) rfl rfl
  exact ⟨key, hkey, hinteger.isNumeric⟩

/-! ## Whatever can be read can be stored -/

section Lists

variable {α β : Type}

omit [Host] in
theorem exists_of_mapM_eq_ok {f : α → Except Failure β} {items : List α} {bs : List β}
    (h : items.mapM f = .ok bs) : ∀ a ∈ items, ∃ b, f a = .ok b := by
  induction items generalizing bs with
  | nil => exact fun a ha => nomatch ha
  | cons first rest ih =>
      rw [List.mapM_cons] at h
      obtain ⟨b, hb, h⟩ := eq_ok_of_bind h
      obtain ⟨later, hlater, -⟩ := eq_ok_of_bind h
      exact List.forall_mem_cons.2 ⟨⟨b, hb⟩, ih hlater⟩

omit [Host] in
theorem exists_of_mapPlaces_eq_ok {f : Nat → α → Except Failure β} {items : List α} {n : Nat}
    {bs : List β} (h : mapPlaces f n items = .ok bs) : ∀ a ∈ items, ∃ m b, f m a = .ok b := by
  induction items generalizing n bs with
  | nil => exact fun a ha => nomatch ha
  | cons first rest ih =>
      obtain ⟨b, hb, h⟩ := eq_ok_of_bind h
      obtain ⟨later, hlater, -⟩ := eq_ok_of_bind h
      exact List.forall_mem_cons.2 ⟨⟨n, b, hb⟩, ih hlater⟩

end Lists

/-- The conditions of a group that was read have readable values. -/
theorem hasReadableValue_of_group {payload : Json} {g : ConditionGroup}
    (h : ConditionGroup.ofPayload payload = .ok g) {items : List Json}
    (hitems : payload.findOr "conditions" (.list []) = .ok (.list items)) :
    ∀ item ∈ items, item.HasReadableValue := by
  rw [ConditionGroup.ofPayload, bind_of_eq_ok hitems, Json.entries, bind_of_eq_ok rfl] at h
  obtain ⟨conditions, hconditions, -⟩ := eq_ok_of_bind h
  intro item hitem
  obtain ⟨place, c, hc⟩ := exists_of_mapPlaces_eq_ok hconditions item hitem
  exact hasReadableValue_of_condition hc

/-- The groups of a definition that was read have been read, whatever their order. -/
theorem exists_group_of_ofPayload {d : Json} (h : checkDefinition d = .ok ()) {r : RuleDefinition}
    (hr : RuleDefinition.ofPayload d = .ok r) {groups : List Json}
    (hgroups : d.findOr "condition_groups" (.list []) = .ok (.list groups)) :
    ∀ group ∈ groups, ∃ g, ConditionGroup.ofPayload group = .ok g := by
  rw [RuleDefinition.ofPayload, bind_of_eq_ok hgroups, Json.entries, bind_of_eq_ok rfl] at hr
  obtain ⟨keyed, hkeyed, hr⟩ := eq_ok_of_bind hr
  obtain ⟨sorted, hsorted, hr⟩ := eq_ok_of_bind hr
  obtain ⟨read, hread, -⟩ := eq_ok_of_bind hr
  obtain ⟨_, hfind, hshapes⟩ := (accepts_of_checkDefinition h).findEntries "condition_groups" rfl
  cases hgroups.symm.trans hfind
  obtain ⟨keyed', hkeyed', hnumeric, hentries⟩ := Json.exists_keyed fun item hitem => by
    obtain ⟨key, hkey, hinteger⟩ := (hshapes item hitem).findOr "order" (.int 0) rfl rfl
    exact ⟨key, hkey, hinteger.isNumeric⟩
  obtain rfl := Except.ok.inj (hkeyed.symm.trans hkeyed')
  -- Sorting loses no group.
  obtain ⟨sorted', hsorted', hperm⟩ := Json.sortByKey_perm hnumeric
  obtain rfl := Except.ok.inj (hsorted.symm.trans hsorted')
  rw [hentries] at hperm
  exact fun group hgroup => exists_of_mapM_eq_ok hread group (hperm.mem_iff.2 hgroup)

/-- There was a place for the values of a definition that was read. -/
theorem valuesStorable_of_ofPayload {d : Json} (h : checkDefinition d = .ok ()) {r : RuleDefinition}
    (hr : RuleDefinition.ofPayload d = .ok r) : ValuesStorable d := by
  refine ⟨fun groups hgroups group hgroup items hitems => ?_, fun items hitems item hitem => ?_⟩
  · obtain ⟨g, hg⟩ := exists_group_of_ofPayload h hr hgroups group hgroup
    exact hasReadableValue_of_group hg hitems
  · obtain ⟨_, -, hr⟩ := eq_ok_of_bind hr
    obtain ⟨_, -, hr⟩ := eq_ok_of_bind hr
    obtain ⟨_, -, hr⟩ := eq_ok_of_bind hr
    obtain ⟨_, -, hr⟩ := eq_ok_of_bind hr
    obtain ⟨_, -, hr⟩ := eq_ok_of_bind hr
    rw [bind_of_eq_ok hitems, Json.entries, bind_of_eq_ok rfl] at hr
    obtain ⟨actions, hactions, -⟩ := eq_ok_of_bind hr
    obtain ⟨place, a, ha⟩ := exists_of_mapPlaces_eq_ok hactions item hitem
    exact hasStorableValue_of_action ha

/-- A definition that is not refused can be read if and only if there is a place for its values. -/
theorem exists_ofPayload_iff {d : Json} (h : checkDefinition d = .ok ()) :
    (∃ r, RuleDefinition.ofPayload d = .ok r) ↔ ValuesStorable d := by
  constructor
  · rintro ⟨r, hr⟩
    exact valuesStorable_of_ofPayload h hr
  · intro hstorable
    obtain ⟨x⟩ := drafts_of_checkDefinition h hstorable
    obtain ⟨r, hr, -⟩ := RuleDefinition.ofPayload_of_drafts h x
    exact ⟨r, hr⟩

end Rulebook
