import Rulebook.Proofs.Service.Blueprint

/-!
# What a payload describes

The payload of a rule is a definition, and it describes the rule from which it was made: reading it
gives the tree of the rule back.  The parts get new places, which are those in which they stand; as
they stand in the order of their places, this does not change their order, and the payload does not
show it.

There are two reasons why this may fail.  A stored action need not be settled, and then its value is
another one once it has been read.  And the numbers of the rule must fit into columns, which those
of a stored rule do.

## Main definitions

* `RuleTree.renumbered` — the rule with its parts at the places where they stand.
* `RuleTree.IsPortable` — its payload passes the check, its actions are settled, its numbers fit.

## Main statements

* `RuleTree.ofDefinition_payload` — the payload of a portable rule describes the rule.
* `RuleTree.isPortable_of_ofDefinition` — no other payload describes anything.
-/

namespace Rulebook

open Program

/-! ## Places -/

/-- A place before the bound fits into a column. -/
theorem fits_of_lt {n length : Nat} (hn : n < length) (hlength : (length : Int) ≤ Column.bound) :
    Column.fits n = true := by
  unfold Column.fits
  unfold Column.bound at hlength ⊢
  simp only [Bool.and_eq_true, decide_eq_true_eq]
  omega

/-- Entries each of which is read at its place are read one after the other. -/
theorem mapPlaces_map {α β γ : Type} (read : Nat → α → Except Failure β) (f : γ → α)
    (g : Nat → γ → β) (items : List γ) (n : Nat)
    (h : ∀ i, (hi : i < items.length) → read (n + i) (f items[i]) = .ok (g (n + i) items[i])) :
    mapPlaces read n (items.map f) = .ok (items.mapIdx fun i c => g (n + i) c) := by
  induction items generalizing n with
  | nil => rfl
  | cons c rest ih =>
      have hfirst : read n (f c) = .ok (g n c) := h 0 (Nat.zero_lt_succ _)
      have hrest := ih (n + 1) fun i hi => by
        have hnext := h (i + 1) (Nat.succ_lt_succ hi)
        rwa [← Nat.add_assoc, Nat.add_right_comm] at hnext
      rw [List.map_cons, mapPlaces, hfirst, hrest, List.mapIdx_cons]
      simp only [Nat.add_assoc, Nat.add_comm 1]
      rfl

/-- What does not depend on the places is the same wherever the entries stand. -/
theorem map_mapIdx_of_eq {α β γ : Type} {f : β → γ} {g : Nat → α → β} {p : α → γ}
    (h : ∀ n a, f (g n a) = p a) (items : List α) : (items.mapIdx g).map f = items.map p := by
  apply List.ext_getElem
  · simp
  · intro n hn hn'
    simp [h]

/-- The condition at a place, without the number of its group. -/
def ConditionRow.placed (place : Nat) (c : ConditionRow) : ConditionRow :=
  { c with group := 0, order := place }

/-- The action at a place, without the number of its rule. -/
def ActionRow.placed (place : Nat) (a : ActionRow) : ActionRow :=
  { a with rule := 0, order := place }

@[simp] theorem ConditionRow.payload_placed (place : Nat) (c : ConditionRow) :
    (c.placed place).payload = c.payload := rfl

@[simp] theorem ActionRow.payload_placed (place : Nat) (a : ActionRow) :
    (a.placed place).payload = a.payload := rfl

/-! ## Parts -/

variable [Host]

/-- A condition whose place fits can be written as it is. -/
theorem ConditionRow.ofCondition_draft {c : ConditionRow} (horder : Column.fits c.order = true) :
    ofCondition c.draft = .ok c.detached := by
  have hsensitive : Column.truth c.draft.isCaseSensitive = .ok (some c.isCaseSensitive) := rfl
  have hnegated : Column.truth c.draft.isNegated = .ok (some c.isNegated) := rfl
  have hwhole : Column.whole "order" c.draft.order = .ok (some c.order) := rfl
  rw [ofCondition, Column.text_bind (show c.draft.field = .text c.field from rfl),
    Column.text_bind (show c.draft.operator = .text c.operator from rfl),
    Column.text_bind (show c.draft.value = .text c.value from rfl), bind_of_eq_ok hsensitive,
    bind_of_eq_ok hnegated, bind_of_eq_ok hwhole, bind_of_eq_ok (mapM_checkFits_of_fits horder)]
  rfl

/-- An action whose place fits can be written as it is. -/
theorem ActionRow.ofWritten_draft {a : ActionRow} (horder : Column.fits a.order = true) :
    ofWritten a.draft = .ok a.detached := by
  have hwhole : Column.whole "order" a.draft.order = .ok (some a.order) := rfl
  have hstops : Column.truth a.draft.stopProcessing = .ok (some a.stopProcessing) := rfl
  have hvalue : Column.text a.draft.value = .ok a.value := Column.text_ofText? a.value
  rw [ofWritten, Column.text_bind (show a.draft.kind = .text a.kind from rfl),
    bind_of_eq_ok hvalue, bind_of_eq_ok hwhole, bind_of_eq_ok hstops,
    bind_of_eq_ok (mapM_checkFits_of_fits horder)]
  obtain ⟨rule, kind, value, order, stopProcessing⟩ := a
  cases value <;> rfl

/-- A settled action is written as it is. -/
theorem ActionRow.ofAction_of_isSettled {a : Action} (ha : a.IsSettled) :
    ofAction a = ofWritten a := bind_of_eq_ok ha

/-- A group whose place fits can be written as it is. -/
theorem readGroupColumns_of_fits (connective : String) {n : Int} (horder : Column.fits n = true) :
    readGroupColumns (.text connective) (.int n) = .ok (connective, n) := by
  have hwhole : Column.whole "order" (.int n) = .ok (some n) := rfl
  rw [readGroupColumns, Column.text_bind rfl, bind_of_eq_ok hwhole,
    bind_of_eq_ok (mapM_checkFits_of_fits horder)]
  rfl

/-- The payload of a condition describes the condition. -/
theorem ConditionRow.ofPayload_of_fits (c : ConditionRow) {place : Nat}
    (hplace : Column.fits place = true) :
    ofPayload place c.payload = .ok (c.placed place) := by
  have hread : Condition.ofPayload place c.payload = .ok (c.placed place).draft :=
    c.read_payload place
  rw [ofPayload, bind_of_eq_ok hread]
  exact ofCondition_draft hplace

/-- The payload of a settled action describes the action. -/
theorem ActionRow.ofPayload_of_isSettled {a : ActionRow} (ha : (Action.ofRow 0 a).IsSettled)
    {place : Nat} (hplace : Column.fits place = true) :
    ofPayload place a.payload = .ok (a.placed place) := by
  have hread : Action.ofPayload place a.payload = .ok (a.placed place).draft :=
    ha.setValue (b := { (a.placed place).draft with value := .null }) rfl
  have hagain : (a.placed place).draft.IsSettled := ha.of_core rfl
  rw [ofPayload, bind_of_eq_ok hread, ofAction_of_isSettled hagain]
  exact ofWritten_draft hplace

/-- The group with its conditions at the places where they stand. -/
def GroupDraft.renumbered (g : GroupDraft × Int) : GroupDraft × Int :=
  (⟨g.1.connective, g.1.conditions.mapIdx ConditionRow.placed⟩, g.2)

omit [Host] in
@[simp] theorem RuleTree.groupPayload_renumbered (g : GroupDraft × Int) :
    groupPayload (GroupDraft.renumbered g) = groupPayload g := by
  have hsame : (g.1.conditions.mapIdx ConditionRow.placed).map ConditionRow.payload =
      g.1.conditions.map ConditionRow.payload :=
    map_mapIdx_of_eq ConditionRow.payload_placed g.1.conditions
  unfold groupPayload GroupDraft.renumbered
  dsimp only
  rw [hsame]

/-- The payload of a group describes the group. -/
theorem GroupDraft.ofPayload_of_fits {g : GroupDraft × Int} (horder : Column.fits g.2 = true)
    (hconditions : (g.1.conditions.length : Int) ≤ Column.bound) (place : Nat) :
    ofPayload place (RuleTree.groupPayload g) = .ok (renumbered g) := by
  have hread : readConditions (RuleTree.groupPayload g) =
      .ok (g.1.conditions.mapIdx ConditionRow.placed) := by
    have hall := mapPlaces_map ConditionRow.ofPayload ConditionRow.payload ConditionRow.placed
      g.1.conditions 0 fun i hi => by
        rw [Nat.zero_add]
        exact ConditionRow.ofPayload_of_fits _ (fits_of_lt hi hconditions)
    simp only [Nat.zero_add] at hall
    exact hall
  have hconnective : (RuleTree.groupPayload g).findOr "logic_operator"
      (.text (Vocabulary.code Connective.all)) = .ok (.text g.1.connective) := rfl
  have hnumber : (RuleTree.groupPayload g).findOr "order" (.int place) = .ok (.int g.2) := rfl
  rw [ofPayload, bind_of_eq_ok hconnective, bind_of_eq_ok hnumber,
    bind_of_eq_ok (readGroupColumns_of_fits _ horder), bind_of_eq_ok hread]
  rfl

/-! ## Rules -/

namespace RuleTree

variable {t : RuleTree}

/-- The rule with its parts at the places where they stand. -/
def renumbered (t : RuleTree) : RuleTree :=
  { t with
    groups := t.groups.map GroupDraft.renumbered
    actions := t.actions.mapIdx ActionRow.placed }

omit [Host] in
/-- A payload does not show the places of conditions and actions. -/
@[simp] theorem payload_renumbered (t : RuleTree) : t.renumbered.payload = t.payload := by
  have hgroups : (t.groups.map GroupDraft.renumbered).map groupPayload =
      t.groups.map groupPayload := by
    rw [List.map_map]
    exact List.map_congr_left fun g _ => groupPayload_renumbered g
  have hactions : (t.actions.mapIdx ActionRow.placed).map ActionRow.payload =
      t.actions.map ActionRow.payload :=
    map_mapIdx_of_eq ActionRow.payload_placed t.actions
  unfold payload renumbered
  dsimp only
  rw [hgroups, hactions]

omit [Host] in
/-- Groups that are in order stay so. -/
theorem sorted_renumbered (h : t.groups.Pairwise fun a b => a.2 ≤ b.2) :
    t.renumbered.sorted = t.renumbered := sorted_of_pairwise (List.pairwise_map.2 h)

/-- The payload of the rule can be read as the rule wherever it is taken. -/
structure IsPortable (t : RuleTree) : Prop where
  /-- The payload is not refused. -/
  passes : checkDefinition t.payload = .ok ()
  settled : ∀ a ∈ t.actions, (Action.ofRow 0 a).IsSettled
  order : Column.fits t.order = true
  groups : ∀ g ∈ t.groups, Column.fits g.2 = true ∧
    (g.1.conditions.length : Int) ≤ Column.bound
  actions : (t.actions.length : Int) ≤ Column.bound

/-- The payload of a portable rule describes the rule. -/
theorem ofDefinition_payload (h : t.IsPortable) : ofDefinition t.payload = .ok t.renumbered := by
  have hcolumns : ruleFromColumns 0 0 (.text t.name) (.text t.description) (.text t.trigger)
      (.int t.order) (.bool t.isActive) (.bool t.stopProcessing) startInstant startInstant =
        .ok (t.row 0 0 startInstant) :=
    ruleFromColumns_eq_ok.2 ⟨t.order, rfl, h.order, rfl⟩
  have hrow : ruleOfDefinition 0 0 t.payload startInstant = .ok (t.row 0 0 startInstant) :=
    hcolumns
  have hgroups : readGroups t.payload = .ok (t.groups.map GroupDraft.renumbered) := by
    have hall := mapPlaces_map GroupDraft.ofPayload groupPayload
      (fun _ g => GroupDraft.renumbered g) t.groups 0 fun i hi => by
        obtain ⟨horder, hconditions⟩ := h.groups _ (List.getElem_mem hi)
        exact GroupDraft.ofPayload_of_fits horder hconditions _
    have hsame := map_mapIdx_of_eq (f := id) (p := GroupDraft.renumbered)
      (g := fun _ g => GroupDraft.renumbered g) (fun _ _ => rfl) t.groups
    rw [List.map_id] at hsame
    exact hall.trans (congrArg Except.ok hsame)
  have hactions : readActions t.payload = .ok (t.actions.mapIdx ActionRow.placed) := by
    have hall := mapPlaces_map ActionRow.ofPayload ActionRow.payload ActionRow.placed
      t.actions 0 fun i hi => by
        rw [Nat.zero_add]
        exact ActionRow.ofPayload_of_isSettled (h.settled _ (List.getElem_mem hi))
          (fits_of_lt hi h.actions)
    simp only [Nat.zero_add] at hall
    exact hall
  rw [ofDefinition, bind_of_eq_ok h.passes, read, bind_of_eq_ok hrow, bind_of_eq_ok hgroups,
    bind_of_eq_ok hactions]
  rfl

/-! ## Whatever can be read is portable -/

omit [Host] in
/-- Entries that are read one after the other are each read at their place. -/
theorem exists_of_mapPlaces {α β : Type} {read : Nat → α → Except Failure β} {items : List α}
    {n : Nat} {bs : List β} (h : mapPlaces read n items = .ok bs) {i : Nat}
    (hi : i < items.length) : ∃ b, read (n + i) items[i] = .ok b := by
  induction items generalizing n bs i with
  | nil => cases hi
  | cons a rest ih =>
      obtain ⟨b, hb, h⟩ := eq_ok_of_bind h
      obtain ⟨later, hlater, -⟩ := eq_ok_of_bind h
      cases i with
      | zero => exact ⟨b, hb⟩
      | succ i =>
          obtain ⟨c, hc⟩ := ih hlater (Nat.lt_of_succ_lt_succ hi)
          refine ⟨c, ?_⟩
          rwa [Nat.add_assoc, Nat.add_comm 1] at hc

omit [Host] in
/-- There are no more entries than places if each is only read at a place that fits. -/
theorem length_le_of_mapPlaces {α β : Type} {read : Nat → α → Except Failure β} {items : List α}
    {bs : List β} (hfits : ∀ n a b, read n a = .ok b → Column.fits n = true)
    (h : mapPlaces read 0 items = .ok bs) : (items.length : Int) ≤ Column.bound := by
  by_cases hlength : items.length = 0
  · rw [hlength]
    decide
  · obtain ⟨b, hb⟩ := exists_of_mapPlaces h (Nat.sub_one_lt hlength)
    have hlast := hfits _ _ b hb
    unfold Column.fits at hlast
    simp only [Bool.and_eq_true, decide_eq_true_eq] at hlast
    omega

theorem fits_of_readGroup {g : GroupDraft × Int} {place : Nat} {draft : GroupDraft × Int}
    (h : GroupDraft.ofPayload place (groupPayload g) = .ok draft) :
    Column.fits g.2 = true ∧ (g.1.conditions.length : Int) ≤ Column.bound := by
  obtain ⟨_, ⟨⟩, h⟩ := eq_ok_of_bind h
  obtain ⟨_, ⟨⟩, h⟩ := eq_ok_of_bind h
  obtain ⟨columns, hcolumns, h⟩ := eq_ok_of_bind h
  obtain ⟨conditions, hconditions, -⟩ := eq_ok_of_bind h
  obtain ⟨_, -, hcolumns⟩ := eq_ok_of_bind hcolumns
  obtain ⟨_, ⟨⟩, hcolumns⟩ := eq_ok_of_bind hcolumns
  obtain ⟨_, horder, -⟩ := eq_ok_of_bind hcolumns
  have hall : mapPlaces ConditionRow.ofPayload 0 (g.1.conditions.map ConditionRow.payload) =
      .ok conditions := hconditions
  have hlength := length_le_of_mapPlaces
    (fun n payload c h => (ConditionRow.ofPayload_eq_ok h).2.2) hall
  rw [List.length_map] at hlength
  exact ⟨fits_of_mapM_checkFits horder, hlength⟩

/-- If the payload of a rule with settled actions can be read at all, the rule is portable. -/
theorem isPortable_of_ofDefinition (hsettled : ∀ a ∈ t.actions, (Action.ofRow 0 a).IsSettled)
    {read : RuleTree} (h : ofDefinition t.payload = .ok read) : t.IsPortable := by
  obtain ⟨⟨⟩, hpasses, h⟩ := eq_ok_of_bind h
  obtain ⟨row, hrow, h⟩ := eq_ok_of_bind h
  obtain ⟨groups, hgroups, h⟩ := eq_ok_of_bind h
  obtain ⟨actions, hactions, -⟩ := eq_ok_of_bind h
  have hcolumns : ruleFromColumns 0 0 (.text t.name) (.text t.description) (.text t.trigger)
      (.int t.order) (.bool t.isActive) (.bool t.stopProcessing) startInstant startInstant =
        .ok row := hrow
  obtain ⟨n, hwhole, hfits, -⟩ := ruleFromColumns_eq_ok.1 hcolumns
  cases hwhole
  have hall : mapPlaces GroupDraft.ofPayload 0 (t.groups.map groupPayload) = .ok groups := hgroups
  have hplaced : mapPlaces ActionRow.ofPayload 0 (t.actions.map ActionRow.payload) = .ok actions :=
    hactions
  have hlength := length_le_of_mapPlaces
    (fun n payload a h => (ActionRow.ofPayload_eq_ok h).2.2) hplaced
  rw [List.length_map] at hlength
  refine ⟨hpasses, hsettled, hfits, fun g hg => ?_, hlength⟩
  obtain ⟨i, hi, rfl⟩ := List.mem_iff_getElem.1 hg
  obtain ⟨draft, hdraft⟩ := exists_of_mapPlaces hall (i := i) (by simpa using hi)
  rw [List.getElem_map] at hdraft
  exact fits_of_readGroup hdraft

end RuleTree

end Rulebook
