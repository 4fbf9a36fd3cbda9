import Rulebook.Proofs.Exchange.Recheck
import Rulebook.Proofs.Ledger.Closure
import Rulebook.Proofs.Service.Creation

/-!
# When a definition can be stored

Whoever checks a definition and whoever stores it go their own ways, and not all that passes the
check can be stored.  There are four reasons for a refusal, and no others.  The user may have
several groups with the name of the default group, and it is not known which of them is meant.  A
number may be too large for its column, because the check asks for an integer only.  The value of a
condition or an action may be a whole number with too long a numeral to become a text.  And the
value of an action is written twice, first as it is read from the definition and then as it is
saved, while the check writes it once: what is left of a text between quotes may be refused the
second time (`stores_what_validates`).

A rule that was stored is described by its payload, and checking the payload writes the values for
the third time.

Every step of storing is carried out within one change, where an insertion does not fail.  So each
step has a condition of its own that decides whether it succeeds, whatever the steps before it did
(`SucceedsIff`), and the condition of the whole is that all of them hold.

## Main definitions

* `SucceedsIff` — within a change, a condition decides whether an operation succeeds.
* `NumbersFit` — the numbers of a definition and the places of its parts fit into columns.

## Main statements

* `succeedsIff_writeParts` — when the parts of a rule can be added.
* `stores_what_validates` — when a definition can be stored, and when the payload of the
  stored rule passes the check.
-/

namespace Rulebook

open Program

section

/-! ## Operations with a condition -/

section Conditions

variable {α β γ : Type} {P Q : Prop} {x : Operation α} {f : α → Operation β}

/-- Within a change, the operation succeeds exactly if the condition holds, and the change goes
on. -/
def SucceedsIff (P : Prop) (x : Operation α) : Prop :=
  ∀ w : Workspace, w.isChanging = true →
    ((∃ a v, x.runOn w = (.ok a, v)) ↔ P) ∧
      ∀ a v, x.runOn w = (.ok a, v) → v.isChanging = true

theorem SucceedsIff.congr (hx : SucceedsIff P x) (h : P ↔ Q) : SucceedsIff Q x := fun w hw =>
  ⟨(hx w hw).1.trans h, (hx w hw).2⟩

theorem succeedsIff_pure (a : α) : SucceedsIff True (pure a : Operation α) := fun w hw =>
  ⟨⟨fun _ => trivial, fun _ => ⟨a, w, rfl⟩⟩, by rintro _ _ ⟨⟩; exact hw⟩

theorem succeedsIff_ofExcept (r : Except Failure α) :
    SucceedsIff (∃ a, r = .ok a) (.ofExcept r : Operation α) := by
  intro w hw
  refine ⟨⟨fun ⟨a, v, h⟩ => ⟨a, (runOn_ofExcept_eq_ok h).1⟩, fun ⟨a, h⟩ => ⟨a, w, ?_⟩⟩, ?_⟩
  · rw [h]
    rfl
  · intro a v h
    exact (runOn_ofExcept_eq_ok h).2 ▸ hw

/-- Two steps succeed if both of their conditions hold. -/
theorem SucceedsIff.bind (hx : SucceedsIff P x) (hf : ∀ a, SucceedsIff Q (f a)) :
    SucceedsIff (P ∧ Q) (x >>= f) := by
  intro w hw
  obtain ⟨hfirst, hgoes⟩ := hx w hw
  refine ⟨⟨fun ⟨b, u, h⟩ => ?_, fun ⟨hP, hQ⟩ => ?_⟩, fun b u h => ?_⟩
  · obtain ⟨a, v, ha, hb⟩ := runOn_bind_eq_ok h
    exact ⟨hfirst.1 ⟨a, v, ha⟩, (hf a v (hgoes a v ha)).1.1 ⟨b, u, hb⟩⟩
  · obtain ⟨a, v, ha⟩ := hfirst.2 hP
    obtain ⟨b, u, hb⟩ := (hf a v (hgoes a v ha)).1.2 hQ
    exact ⟨b, u, by rw [runOn_bind, ha]; exact hb⟩
  · obtain ⟨a, v, ha, hb⟩ := runOn_bind_eq_ok h
    exact (hf a v (hgoes a v ha)).2 b u hb

/-- A step that does not touch the state, with what follows for its result. -/
theorem SucceedsIff.ofExcept_bind {r : Except Failure α}
    (hf : ∀ a, r = .ok a → SucceedsIff Q (f a)) :
    SucceedsIff ((∃ a, r = .ok a) ∧ Q) (.ofExcept r >>= f) := by
  rcases r with failure | a
  · exact fun w _ => ⟨⟨fun ⟨_, _, h⟩ => (nomatch h), fun ⟨⟨_, h⟩, _⟩ => (nomatch h)⟩,
      fun _ _ h => nomatch h⟩
  · exact (hf a rfl).congr ⟨fun h => ⟨⟨a, rfl⟩, h⟩, And.right⟩

theorem SucceedsIff.after {r : Except Failure α} {a : α} (hr : r = .ok a)
    (hf : SucceedsIff Q (f a)) : SucceedsIff Q (.ofExcept r >>= f) := by
  subst hr
  exact hf

theorem succeedsIff_get_bind {f : Workspace → Operation β} (hf : ∀ w, SucceedsIff Q (f w)) :
    SucceedsIff Q (get >>= f) := fun w hw => hf w w hw

theorem succeedsIff_writeResult {change : Store → Except Failure (α × Store)}
    (hchange : ∀ s, ∃ entry, change s = .ok entry) : SucceedsIff True (writeResult change) := by
  intro w hw
  obtain ⟨⟨a, s⟩, h⟩ := hchange w.store
  have hrun : (writeResult change).runOn w = (.ok a, { w with store := s }) := by
    rw [runOn_writeResult, h]
    dsimp only
    rw [hw, Bool.true_or, if_pos rfl]
  refine ⟨⟨fun _ => trivial, fun _ => ⟨a, _, hrun⟩⟩, fun b v h => ?_⟩
  cases hrun.symm.trans h
  exact hw

theorem succeedsIff_insertRow (table : Store → Table β) (setTable : Store → Table β → Store)
    (b : β) : SucceedsIff True (insertRow table setTable b) :=
  succeedsIff_writeResult fun _ => ⟨_, rfl⟩

/-- Entries that are read one after the other are added if each of them can be. -/
theorem succeedsIff_readAndAdd {read : Nat → Json → Except Failure α} {add : α → Operation β}
    {draft : γ → α} {P : γ → Prop} (hadd : ∀ c, SucceedsIff (P c) (add (draft c)))
    {items : List Json} {n : Nat} {cs : List γ} (hread : mapPlaces read n items = .ok (cs.map draft)) :
    SucceedsIff (∀ c ∈ cs, P c)
      (forPlaces (fun n payload => do let _ ← add (← .ofExcept (read n payload))) n items) := by
  induction items generalizing n cs with
  | nil =>
      rw [List.map_eq_nil_iff.1 (Except.ok.inj hread).symm]
      exact (succeedsIff_pure ()).congr ⟨fun _ => nofun, fun _ => trivial⟩
  | cons item rest ih =>
      obtain ⟨a, ha, hread⟩ := eq_ok_of_bind hread
      obtain ⟨later, hlater, hread⟩ := eq_ok_of_bind hread
      obtain ⟨c, cs, rfl, rfl, rfl⟩ := List.map_eq_cons_iff.1 (Except.ok.inj hread).symm
      refine SucceedsIff.congr (.bind (.after ha ((hadd c).bind fun _ => succeedsIff_pure ()))
        fun _ => ih hlater) ?_
      rw [and_true, List.forall_mem_cons]

end Conditions

/-! ## Numbers and columns -/

variable [Host]

/-- The value is a whole number that fits into a column. -/
def Json.Fits (j : Json) : Prop :=
  ∃ n, Column.whole "order" j = .ok (some n) ∧ Column.fits n = true

/-- The numbers that a definition gives to the rule and to its groups fit into columns, and so do
the places of all parts. -/
structure NumbersFit (d : Json) (r : RuleDefinition) : Prop where
  order : ∀ n, d.findOr "order" (.int 0) = .ok n → n.Fits
  groups : ∀ items, d.findOr "condition_groups" (.list []) = .ok (.list items) →
    ∀ (place : Nat) (item : Json), items[place]? = some item →
      ∀ n, item.findOr "order" (.int place) = .ok n → n.Fits
  conditions : ∀ g ∈ r.groups, ∀ c ∈ g.conditions, c.order.Fits
  actions : ∀ a ∈ r.actions, a.order.Fits

theorem Json.fits_int {n : Int} : (Json.int n).Fits ↔ Column.fits n = true :=
  ⟨fun ⟨_, hn, hfits⟩ => by cases hn; exact hfits, fun hfits => ⟨n, rfl, hfits⟩⟩

omit [Host] in
/-- A number that was stored fits. -/
theorem fits_of_mapM_checkFits {n : Int} {order : Option Int}
    (h : (some n).mapM Column.checkFits = .ok order) : Column.fits n = true := by
  obtain ⟨m, hm, -⟩ := eq_ok_of_bind h
  rw [Column.checkFits] at hm
  split at hm
  · assumption
  · cases hm

omit [Host] in
theorem mapM_checkFits_of_fits {n : Int} (h : Column.fits n = true) :
    (some n).mapM Column.checkFits = .ok (some n) := by
  have hcheck : Column.checkFits n = .ok n := by rw [Column.checkFits, if_pos h]
  rw [Option.mapM_some, hcheck]
  rfl

/-! ## The parts of a rule -/

theorem succeedsIff_addCondition (group : Id) (c : ConditionRow) :
    SucceedsIff c.draft.order.Fits (addCondition group c.draft) := by
  refine SucceedsIff.congr (.bind (succeedsIff_ofExcept _) fun _ => succeedsIff_insertRow _ _ _) ?_
  refine Iff.trans ?_ Json.fits_int.symm
  rw [Column.text_bind (show c.draft.field = .text c.field from rfl),
    Column.text_bind (show c.draft.operator = .text c.operator from rfl),
    Column.text_bind (show c.draft.value = .text c.value from rfl)]
  constructor
  · rintro ⟨⟨row, hrow⟩, -⟩
    obtain ⟨_, ⟨⟩, hrow⟩ := eq_ok_of_bind hrow
    obtain ⟨_, ⟨⟩, hrow⟩ := eq_ok_of_bind hrow
    obtain ⟨_, ⟨⟩, hrow⟩ := eq_ok_of_bind hrow
    obtain ⟨_, horder, -⟩ := eq_ok_of_bind hrow
    exact fits_of_mapM_checkFits horder
  · intro hfits
    refine ⟨⟨{ c with group }, ?_⟩, trivial⟩
    rw [bind_of_eq_ok (show Column.truth c.draft.isCaseSensitive = .ok (some _) from rfl),
      bind_of_eq_ok (show Column.truth c.draft.isNegated = .ok (some _) from rfl),
      bind_of_eq_ok (show Column.whole "order" c.draft.order = .ok (some _) from rfl),
      bind_of_eq_ok (mapM_checkFits_of_fits hfits)]
    rfl

/-- The stored value of an action can be written again. -/
def Action.CanRewrite (a : Action) : Prop := ∃ b, a.setValue a.value = .ok b

/-- An action can be added if its value can be written once more. -/
theorem succeedsIff_addAction (rule : Id) (a : ActionRow) :
    SucceedsIff (a.draft.CanRewrite ∧ a.draft.order.Fits) (addAction rule a.draft) := by
  refine .ofExcept_bind fun b hb => ?_
  obtain ⟨kind, value, -, -, rfl⟩ := Action.setValue_eq_ok hb
  refine SucceedsIff.congr (.bind (succeedsIff_ofExcept _) fun _ => succeedsIff_insertRow _ _ _) ?_
  refine Iff.trans ?_ Json.fits_int.symm
  rw [Column.text_bind (show a.draft.kind = .text a.kind from rfl),
    bind_of_eq_ok (Column.text_ofText? (encodeValue value))]
  constructor
  · rintro ⟨⟨row, hrow⟩, -⟩
    obtain ⟨_, ⟨⟩, hrow⟩ := eq_ok_of_bind hrow
    obtain ⟨_, ⟨⟩, hrow⟩ := eq_ok_of_bind hrow
    obtain ⟨_, horder, -⟩ := eq_ok_of_bind hrow
    exact fits_of_mapM_checkFits horder
  · intro hfits
    refine ⟨⟨{ a with rule, value := encodeValue value }, ?_⟩, trivial⟩
    rw [bind_of_eq_ok (show Column.whole "order" a.draft.order = .ok (some _) from rfl),
      bind_of_eq_ok (show Column.truth a.draft.stopProcessing = .ok (some _) from rfl),
      bind_of_eq_ok (mapM_checkFits_of_fits hfits)]
    rfl

theorem succeedsIff_addConditionGroup (rule : Id) (connective : String) (order : Json) :
    SucceedsIff order.Fits (addConditionGroup rule (.text connective) order) := by
  refine SucceedsIff.congr (.bind (succeedsIff_ofExcept _) fun _ => succeedsIff_insertRow _ _ _) ?_
  rw [Column.text_bind rfl]
  constructor
  · rintro ⟨⟨row, hrow⟩, -⟩
    obtain ⟨_ | n, hwhole, hrow⟩ := eq_ok_of_bind hrow
    · cases hrow
    · obtain ⟨_, horder, -⟩ := eq_ok_of_bind hrow
      exact ⟨n, hwhole, fits_of_mapM_checkFits horder⟩
  · rintro ⟨n, hwhole, hfits⟩
    refine ⟨⟨⟨rule, connective, n⟩, ?_⟩, trivial⟩
    rw [bind_of_eq_ok hwhole, bind_of_eq_ok (mapM_checkFits_of_fits hfits)]
    rfl

/-- A group can be added if its number and the places of its conditions fit. -/
theorem succeedsIff_writeConditionGroup {rule : Id} {place : Nat} {payload : Json} {g : GroupDraft}
    (hread : ConditionGroup.ofPayload payload = .ok g.group) {n : Json}
    (hn : payload.findOr "order" (.int place) = .ok n) :
    SucceedsIff (n.Fits ∧ ∀ c ∈ g.conditions, c.draft.order.Fits)
      (writeConditionGroup rule place payload) := by
  obtain ⟨_, hlist, hread⟩ := eq_ok_of_bind hread
  obtain ⟨items, hitems, hread⟩ := eq_ok_of_bind hread
  obtain ⟨conditions, hconditions, hread⟩ := eq_ok_of_bind hread
  obtain ⟨connective, hconnective, hread⟩ := eq_ok_of_bind hread
  cases hread
  rw [writeConditionGroup, hlist]
  refine .after hconnective (.after hn (.bind (succeedsIff_addConditionGroup rule _ n) fun id => ?_))
  exact .after hitems (succeedsIff_readAndAdd (fun c => succeedsIff_addCondition id c) hconditions)

/-- The groups can be added if each of them can. -/
theorem succeedsIff_writeGroups {rule : Id} {items : List Json} {n : Nat} {groups : List GroupDraft}
    (hread : items.mapM ConditionGroup.ofPayload = .ok (groups.map GroupDraft.group))
    (hobjects : ∀ item ∈ items, ∀ place : Nat, ∃ order, item.findOr "order" (.int place) = .ok order) :
    SucceedsIff
      ((∀ (i : Nat) (item : Json), items[i]? = some item →
        ∀ order, item.findOr "order" (.int (n + i : Nat)) = .ok order → order.Fits) ∧
          ∀ g ∈ groups, ∀ c ∈ g.conditions, c.draft.order.Fits)
      (forPlaces (writeConditionGroup rule) n items) := by
  induction items generalizing n groups with
  | nil =>
      rw [List.map_eq_nil_iff.1 (Except.ok.inj hread).symm]
      exact (succeedsIff_pure ()).congr ⟨fun _ => ⟨nofun, nofun⟩, fun _ => trivial⟩
  | cons item rest ih =>
      rw [List.mapM_cons] at hread
      obtain ⟨first, hfirst, hread⟩ := eq_ok_of_bind hread
      obtain ⟨later, hlater, hread⟩ := eq_ok_of_bind hread
      obtain ⟨g, groups, rfl, rfl, rfl⟩ := List.map_eq_cons_iff.1 (Except.ok.inj hread).symm
      obtain ⟨hobject, hobjects⟩ := List.forall_mem_cons.1 hobjects
      obtain ⟨order, horder⟩ := hobject n
      refine SucceedsIff.congr (.bind (succeedsIff_writeConditionGroup hfirst horder)
        fun _ => ih (n := n + 1) hlater hobjects) ?_
      constructor
      · rintro ⟨⟨hfits, hconditions⟩, hrest, hlaters⟩
        refine ⟨fun i other hi m hm => ?_, List.forall_mem_cons.2 ⟨hconditions, hlaters⟩⟩
        cases i with
        | zero =>
            cases hi
            cases horder.symm.trans hm
            exact hfits
        | succ i =>
            refine hrest i other hi m ?_
            rwa [Nat.add_assoc, Nat.add_comm 1 i]
      · rintro ⟨horders, hall⟩
        obtain ⟨hconditions, hlaters⟩ := List.forall_mem_cons.1 hall
        refine ⟨⟨horders 0 item rfl order horder, hconditions⟩, fun i other hi m hm => ?_, hlaters⟩
        refine horders (i + 1) other hi m ?_
        rwa [Nat.add_assoc, Nat.add_comm 1 i] at hm

/-- All parts of a definition can be added if their numbers fit and the values of its actions can be
written once more. -/
theorem succeedsIff_writeParts {d : Json} (h : checkDefinition d = .ok ()) (x : Drafts d)
    (rule : Id) :
    SucceedsIff
      (((∀ (i : Nat) (item : Json), x.groupItems[i]? = some item →
        ∀ order, item.findOr "order" (.int i) = .ok order → order.Fits) ∧
          ∀ g ∈ x.groups, ∀ c ∈ g.conditions, c.draft.order.Fits) ∧
        ∀ a ∈ x.actions, a.draft.CanRewrite ∧ a.draft.order.Fits)
      (writeParts rule d) := by
  obtain ⟨groupItems, hfind, hshapes⟩ :=
    (accepts_of_checkDefinition h).findEntries "condition_groups" rfl
  have hobjects : ∀ item ∈ x.groupItems, ∀ place : Nat,
      ∃ order, item.findOr "order" (.int place) = .ok order := by
    cases hfind.symm.trans x.findGroups
    intro item hitem place
    obtain ⟨values, rfl, -, -⟩ := (hshapes item hitem).record
    exact Json.findOr_object values "order" (.int place)
  have hgroups : SucceedsIff _ (forPlaces (writeConditionGroup rule) 0 x.groupItems) :=
    succeedsIff_writeGroups x.readGroups hobjects
  simp only [Nat.zero_add] at hgroups
  rw [writeParts, bind_of_eq_ok x.findGroups, bind_of_eq_ok x.findActions]
  refine .after rfl (hgroups.bind fun _ => .after rfl ?_)
  exact succeedsIff_readAndAdd (fun a => succeedsIff_addAction rule a) x.readActions

/-! ## The row of the rule -/

omit [Host] in
theorem Schema.Accepts.ofText {j : Json} (h : (Schema.oneOfTypes [.text]).Accepts j) :
    ∃ s, j = .text s := by
  obtain ⟨t, ht, hholds⟩ := Schema.accepts_oneOfTypes_iff.1 h
  rw [List.mem_singleton.1 ht] at hholds
  cases j with
  | text s => exact ⟨s, rfl⟩
  | _ => cases hholds

/-- The columns of a rule are in order if its number fits. -/
theorem ruleFromColumns_eq_ok {user group : Id} {name description trigger : String} {order : Json}
    {isActive stops : Bool} {createdAt updatedAt : Calendar.Instant} {row : Rule} :
    ruleFromColumns user group (.text name) (.text description) (.text trigger) order
        (.bool isActive) (.bool stops) createdAt updatedAt = .ok row ↔
      ∃ n, Column.whole "order" order = .ok (some n) ∧ Column.fits n = true ∧
        row = ⟨user, group, name, description, trigger, n, isActive, stops, createdAt,
          updatedAt⟩ := by
  rw [ruleFromColumns, Column.text_bind rfl, Column.text_bind rfl, Column.text_bind rfl]
  constructor
  · intro h
    obtain ⟨_ | n, hwhole, h⟩ := eq_ok_of_bind h
    · cases h
    · obtain ⟨_, ⟨⟩, h⟩ := eq_ok_of_bind h
      obtain ⟨_, ⟨⟩, h⟩ := eq_ok_of_bind h
      obtain ⟨_, horder, h⟩ := eq_ok_of_bind h
      cases mapM_checkFits_eq_ok horder
      cases h
      exact ⟨n, hwhole, fits_of_mapM_checkFits horder, rfl⟩
  · rintro ⟨n, hwhole, hfits, rfl⟩
    rw [bind_of_eq_ok hwhole,
      bind_of_eq_ok (show Column.truth (.bool isActive) = .ok (some _) from rfl),
      bind_of_eq_ok (show Column.truth (.bool stops) = .ok (some _) from rfl),
      bind_of_eq_ok (mapM_checkFits_of_fits hfits)]
    rfl

/-- The row of a rule whose definition is not refused: it is sound, and there is one if the number of
the rule fits. -/
theorem ruleOfDefinition_of_checkDefinition {d : Json} (h : checkDefinition d = .ok ())
    (user group : Id) (now : Calendar.Instant) :
    ((∃ row, ruleOfDefinition user group d now = .ok row) ↔
      ∀ n, d.findOr "order" (.int 0) = .ok n → n.Fits) ∧
      ∀ row, ruleOfDefinition user group d now = .ok row →
        row.user = user ∧ row.group = group ∧ row.IsSound := by
  have hshape := accepts_of_checkDefinition h
  obtain ⟨_, hname, hnameShape⟩ := hshape.require "name" rfl (by simp)
  obtain ⟨name, rfl⟩ := hnameShape.boundedText
  obtain ⟨_, hdescription, hword⟩ := hshape.findOr "description" (.text "") rfl rfl
  obtain ⟨description, rfl⟩ := hword.ofText
  obtain ⟨_, htrigger, hword⟩ :=
    hshape.findOr "trigger_type" (.text (Vocabulary.code Trigger.transactionCreated)) rfl rfl
  obtain ⟨trigger, hlisted, rfl⟩ := Schema.accepts_oneOf_iff.1 hword
  obtain ⟨order, horder, -⟩ := hshape.findOr "order" (.int 0) rfl rfl
  obtain ⟨_, hactive, hboolean⟩ := hshape.findOr "is_active" (.bool true) rfl rfl
  obtain ⟨isActive, rfl⟩ := hboolean.boolean
  obtain ⟨_, hstops, hboolean⟩ := hshape.findOr "stop_processing" (.bool false) rfl rfl
  obtain ⟨stops, rfl⟩ := hboolean.boolean
  have hrow : ruleOfDefinition user group d now = ruleFromColumns user group (.text name)
      (.text description) (.text trigger) order (.bool isActive) (.bool stops) now now := by
    rw [ruleOfDefinition, bind_of_eq_ok hname, bind_of_eq_ok hdescription, bind_of_eq_ok htrigger,
      bind_of_eq_ok horder, bind_of_eq_ok hactive, bind_of_eq_ok hstops]
  simp only [hrow, ruleFromColumns_eq_ok]
  refine ⟨⟨?_, fun hfits => ?_⟩, ?_⟩
  · rintro ⟨row, n, hwhole, hfits, -⟩ m hm
    cases horder.symm.trans hm
    exact ⟨n, hwhole, hfits⟩
  · obtain ⟨n, hwhole, hn⟩ := hfits order horder
    exact ⟨_, n, hwhole, hn, rfl⟩
  · rintro row ⟨n, -, -, rfl⟩
    exact ⟨rfl, rfl, hnameShape, hlisted⟩

/-! ## Storing a definition -/

/-- The groups of a user with a name. -/
def Store.groupsNamed (s : Store) (user : Id) (name : String) : List (Id × Group) :=
  s.groups.filter fun _ g => g.user = user && g.name = name

/-- Within a change to a store whose references hold, the user and the group of a new rule are
there. -/
structure Workspace.CanHold (user group : Id) (w : Workspace) : Prop where
  changing : w.isChanging = true
  closed : w.store.IsClosed
  user : w.store.users.has user = true
  group : w.store.groups.has group = true

section Storing

variable {w v : Workspace} {user group : Id} {d : Json}

/-- The columns of a default group are in order. -/
theorem groupFromColumns_default (user : Id) (now : Calendar.Instant) :
    groupFromColumns user (.text defaultGroupName) (.text "") (.int 0) (.bool true) now =
      .ok ⟨user, defaultGroupName, "", 0, true, now⟩ := by
  rw [groupFromColumns, Column.text_bind rfl, Column.text_bind rfl]
  rfl

/-- Within a change the default group of a user is added. -/
theorem runOn_addGroup_default (hw : w.isChanging = true) :
    (do addGroup (← .ofExcept (groupFromColumns user (.text defaultGroupName) (.text "") (.int 0)
        (.bool true) (← get).now)) : Operation Id).runOn w =
      (.ok w.store.groups.nextId, { w with store := { w.store with
        groups := w.store.groups.insert ⟨user, defaultGroupName, "", 0, true, w.now⟩ } }) := by
  rw [runOn_bind, runOn_get]
  dsimp only
  rw [groupFromColumns_default]
  change (addGroup _).runOn w = _
  rw [addGroup, insertRow, runOn_writeResult]
  dsimp only
  rw [hw, Bool.true_or, if_pos rfl]

/-- The default group of a user is found or added unless there are several. -/
theorem findOrAddGroup_default (hw : w.isChanging = true) (hclosed : w.store.IsClosed)
    (huser : w.store.users.has user = true)
    (hnone : d.findOr "rule_group_id" .null = .ok .null) :
    ((w.store.groupsNamed user defaultGroupName).length ≤ 1 →
      ∃ group u, (groupForRule user d none).runOn w = (.ok group, u) ∧ u.CanHold user group) ∧
    (¬(w.store.groupsNamed user defaultGroupName).length ≤ 1 →
      ∃ failure, (groupForRule user d none).runOn w = (.error failure, w)) := by
  have hrun : (groupForRule user d none).runOn w =
      (findOrAddGroup user (.text defaultGroupName) fun now =>
        groupFromColumns user (.text defaultGroupName) (.text "") (.int 0) (.bool true)
          now).runOn w := by
    rw [groupForRule, hnone]
    rfl
  have hsame : (w.store.groups.filter fun _ g =>
      g.user = user && some g.name = some defaultGroupName) =
        w.store.groupsNamed user defaultGroupName := by
    simp [Store.groupsNamed]
  rw [hrun, findOrAddGroup, Column.text_text, runOn_bind, runOn_ofExcept]
  dsimp only
  rw [runOn_bind, runOn_get]
  dsimp only
  rw [hsame]
  rcases hgroups : w.store.groupsNamed user defaultGroupName with _ | ⟨⟨id, g⟩, _ | ⟨other, rest⟩⟩
  · refine ⟨fun _ => ⟨_, _, runOn_addGroup_default hw, hw, hclosed.insertGroup huser, huser, ?_⟩,
      fun h => absurd (Nat.zero_le 1) h⟩
    refine Table.has_of_find? (a := ⟨user, defaultGroupName, "", 0, true, w.now⟩) ?_
    rw [Table.find?_insert, if_pos rfl]
  · refine ⟨fun _ => ⟨id, w, rfl, hw, hclosed, huser, ?_⟩, fun h => absurd (Nat.le_refl 1) h⟩
    have hmem : (id, g) ∈ w.store.groupsNamed user defaultGroupName := by
      rw [hgroups]
      exact List.mem_singleton_self _
    exact Table.has_of_find? (Table.find?_eq_some_of_mem (List.mem_filter.1 hmem).1)
  · exact ⟨fun h => absurd h (by simp), fun _ => ⟨_, rfl⟩⟩

omit [Host] in
/-- Rules take neither users nor groups along when they are deleted. -/
theorem has_delete_rules (s : Store) (rules : List Id) (id : Id) :
    (s.delete { rules }).users.has id = s.users.has id ∧
      (s.delete { rules }).groups.has id = s.groups.has id := by
  have hnone : ∀ {α : Type} (t : Table α), Store.reach t [] (fun _ => false) = [] := by
    intro α t
    simp [Store.reach, Table.filter]
  have husers : (s.doomed { rules }).users = [] := hnone s.users
  have hgroups : (s.doomed { rules }).groups = [] := by
    have hmine : (s.doomed { rules }).groups =
      Store.reach s.groups [] fun g => (s.doomed { rules }).users.contains g.user := rfl
    rw [hmine, husers]
    exact hnone s.groups
  have hkept : ∀ {α : Type} (t : Table α), (Store.without t []).has id = t.has id := by
    intro α t
    rw [Bool.eq_iff_iff, Store.has_without]
    simp
  refine ⟨?_, ?_⟩
  · rw [Store.delete, Store.removeDoomed, husers]
    exact hkept s.users
  · rw [Store.delete, Store.removeDoomed, hgroups]
    exact hkept s.groups

/-- Room is always made. -/
theorem makeRoom_succeeds (hcheck : checkDefinition d = .ok ()) (hw : w.CanHold user group)
    (replace : Bool) :
    ∃ u, (makeRoom user group d replace).runOn w = (.ok (), u) ∧ u.CanHold user group := by
  rw [makeRoom]
  split
  · obtain ⟨_, hname, hshape⟩ := (accepts_of_checkDefinition hcheck).require "name" rfl (by simp)
    obtain ⟨name, rfl⟩ := hshape.boundedText
    let same := w.store.rules.filter fun _ r =>
      r.user = user && r.group = group && r.name = name
    let chosen : Doomed := { rules := same.map (·.1) }
    have hdelete : (write (·.delete chosen)).runOn w =
        (.ok (), { w with store := w.store.delete chosen }) := by
      rw [write, runOn_writeResult]
      dsimp only
      rw [hw.changing, Bool.true_or, if_pos rfl]
    rw [bind_of_eq_ok hname, Json.plain_text]
    refine ⟨_, hdelete, hw.changing, hw.closed.delete chosen, ?_, ?_⟩
    · exact (has_delete_rules w.store _ user).1.trans hw.user
    · exact (has_delete_rules w.store _ group).2.trans hw.group
  · exact ⟨w, rfl, hw⟩

/-- The last steps of creating a rule: its row and its parts are added. -/
def addRuleWithParts (user group : Id) (d : Json) : Operation Id := do
  let now := (← get).now
  let rule ← addRule (← .ofExcept (ruleOfDefinition user group d now))
  writeParts rule d
  return rule

theorem addRuleWithParts_closed (hcheck : checkDefinition d = .ok ()) (hw : w.CanHold user group)
    {rule : Id} (h : (addRuleWithParts user group d).runOn w = (.ok rule, v)) :
    v.store.IsClosed := by
  obtain ⟨_, _, ⟨⟩, h⟩ := runOn_bind_eq_ok h
  obtain ⟨row, _, hread, h⟩ := runOn_bind_eq_ok h
  obtain ⟨hrow, rfl⟩ := runOn_ofExcept_eq_ok hread
  obtain ⟨id, _, hadd, h⟩ := runOn_bind_eq_ok h
  obtain ⟨rfl, rfl⟩ := insertRow_eq_ok hadd
  obtain ⟨⟨⟩, u, hparts, h⟩ := runOn_bind_eq_ok h
  cases h
  obtain ⟨x⟩ := drafts_of_checkDefinition hcheck (valuesStorable_of_writeParts hparts)
  obtain ⟨placed, written, -, -, rfl⟩ := writeParts_eq_ok x hparts
  obtain ⟨huser, hgroup, -⟩ := (ruleOfDefinition_of_checkDefinition hcheck _ _ _).2 row hrow
  refine (hw.closed.insertRule (r := row) (huser ▸ hw.user) (hgroup ▸ hw.group)).withParts ?_ _ _
  refine Table.has_of_find? (a := row) ?_
  rw [Table.find?_insert, if_pos rfl]

/-- When the row and the parts of a rule can be added. -/
theorem succeedsIff_addRuleWithParts (hcheck : checkDefinition d = .ok ()) {r : RuleDefinition}
    (hr : RuleDefinition.ofPayload d = .ok r) (user group : Id) :
    SucceedsIff (NumbersFit d r ∧ ∀ a ∈ r.actions, a.CanRewrite) (addRuleWithParts user group d) := by
  obtain ⟨x⟩ := drafts_of_checkDefinition hcheck ((exists_ofPayload_iff hcheck).1 ⟨r, hr⟩)
  obtain ⟨r', hr', hgroups, hactions, -⟩ := RuleDefinition.ofPayload_of_drafts hcheck x
  obtain rfl : r = r' := Except.ok.inj (hr.symm.trans hr')
  have hconditions : (∀ g ∈ r.groups, ∀ c ∈ g.conditions, c.order.Fits) ↔
      ∀ g ∈ x.groups, ∀ c ∈ g.conditions, c.draft.order.Fits := by
    simp only [hgroups.mem_iff, List.forall_mem_map, GroupDraft.group]
  have hadd : ∀ row, SucceedsIff True (addRule row) := fun row => succeedsIff_insertRow _ _ row
  refine succeedsIff_get_bind fun w => SucceedsIff.congr (.ofExcept_bind fun row _ =>
    (hadd row).bind fun rule => (succeedsIff_writeParts hcheck x rule).bind fun _ =>
      succeedsIff_pure rule) ?_
  rw [(ruleOfDefinition_of_checkDefinition hcheck user group w.now).1, true_and, and_true]
  constructor
  · rintro ⟨horder, ⟨horders, hplaces⟩, hboth⟩
    refine ⟨⟨horder, fun items hitems place item hitem => ?_, hconditions.2 hplaces, ?_⟩, ?_⟩
    · cases hitems.symm.trans x.findGroups
      exact horders place item hitem
    · rw [hactions]
      exact List.forall_mem_map.2 fun a ha => (hboth a ha).2
    · rw [hactions]
      exact List.forall_mem_map.2 fun a ha => (hboth a ha).1
  · rintro ⟨⟨horder, horders, hplaces, hfits⟩, hrewrite⟩
    rw [hactions] at hfits hrewrite
    exact ⟨horder, ⟨horders _ x.findGroups, hconditions.1 hplaces⟩, fun a ha =>
      ⟨List.forall_mem_map.1 hrewrite a ha, List.forall_mem_map.1 hfits a ha⟩⟩

end Storing

/-- A rule is created if the default group is known and the rule and its parts can be added. -/
theorem createRule_succeeds_iff {w : Workspace} {user : Id} {d : Json}
    (hholds : w.store.referencesHold = true) (huser : w.store.users.has user = true)
    (hcheck : checkDefinition d = .ok ()) (hnone : d.findOr "rule_group_id" .null = .ok .null)
    {r : RuleDefinition} (hr : RuleDefinition.ofPayload d = .ok r) (replace : Bool) :
    (∃ rule v, (createRule user d none replace).runOn w = (.ok rule, v)) ↔
      (w.store.groupsNamed user defaultGroupName).length ≤ 1 ∧ NumbersFit d r ∧
        ∀ a ∈ r.actions, a.CanRewrite := by
  have hbody : createRule user d none replace = atomically (do
      let group ← groupForRule user d none
      let _ ← makeRoom user group d replace
      addRuleWithParts user group d) := by
    rw [createRule_eq, hcheck]
    rfl
  have hclosed : w.store.IsClosed := Store.isClosed_iff.2 hholds
  obtain ⟨hfew, hmany⟩ := findOrAddGroup_default (w := { w with isChanging := true }) rfl hclosed
    huser hnone
  rw [hbody]
  by_cases hcount : (w.store.groupsNamed user defaultGroupName).length ≤ 1
  · obtain ⟨group, u, hgroup, hu⟩ := hfew hcount
    obtain ⟨u', hroom, hu'⟩ := makeRoom_succeeds hcheck hu replace
    have hinside : (do
        let group ← groupForRule user d none
        let _ ← makeRoom user group d replace
        addRuleWithParts user group d : Operation Id).runOn { w with isChanging := true } =
          (addRuleWithParts user group d).runOn u' := by
      rw [runOn_bind, hgroup]
      dsimp only
      rw [runOn_bind, hroom]
    have hadded := (succeedsIff_addRuleWithParts hcheck hr user group u' hu'.changing).1
    refine Iff.trans ?_ (hadded.trans ⟨fun h => ⟨hcount, h⟩, And.right⟩)
    constructor
    · rintro ⟨rule, v, hrun⟩
      obtain ⟨v', hrun, -, -⟩ := atomically_eq_ok hrun
      exact ⟨rule, v', hinside.symm.trans hrun⟩
    · rintro ⟨rule, v, hrun⟩
      have hv := Store.isClosed_iff.1 (addRuleWithParts_closed hcheck hu' hrun)
      refine ⟨rule, { v with isChanging := w.isChanging }, ?_⟩
      rw [runOn_atomically, hinside, hrun, settle]
      dsimp only
      rw [hv, Bool.or_true, if_pos rfl]
  · refine ⟨?_, fun h => absurd h.1 hcount⟩
    rintro ⟨rule, v, hrun⟩
    obtain ⟨failure, hfails⟩ := hmany hcount
    obtain ⟨v', hrun, -, -⟩ := atomically_eq_ok hrun
    obtain ⟨group, u, hgroup, -⟩ := runOn_bind_eq_ok hrun
    cases hfails.symm.trans hgroup

namespace Action

theorem rewritten_one {a : Action} : (∃ b, a.rewritten 1 = .ok b) ↔ a.CanRewrite := by
  rw [rewritten, CanRewrite]
  rcases a.setValue a.value with failure | b
  · constructor
    · rintro ⟨_, h⟩
      cases h
    · rintro ⟨_, h⟩
      cases h
  · exact ⟨fun _ => ⟨b, rfl⟩, fun _ => ⟨b, rfl⟩⟩

/-- An action that was written once more is the one whose value may have to be coerced again. -/
theorem canCoerce_rewritten_one {a b : Action} (h : a.setValue a.value = .ok b) :
    (∃ c, a.rewritten 1 = .ok c ∧ c.CanCoerce) ↔ b.CanCoerce := by
  have hone : a.rewritten 1 = .ok b := by
    rw [rewritten, h]
    rfl
  simp [hone]

end Action

theorem canCoerce_of_rewritten {actions written : List ActionRow}
    (h : List.Forall₂ ActionRow.Rewritten actions written) :
    (∀ b ∈ written, b.draft.CanCoerce) ↔
      ∀ a ∈ actions, ∃ b, a.draft.rewritten 1 = .ok b ∧ b.CanCoerce := by
  induction h with
  | nil => exact ⟨fun _ => nofun, fun _ => nofun⟩
  | cons hab _ ih =>
      rw [List.forall_mem_cons, List.forall_mem_cons, Action.canCoerce_rewritten_one hab]
      exact and_congr_right fun _ => ih

/-- What passes the check can be stored, with five exceptions.  Take any store whose references
hold, a user, and a definition that is not refused and names no group.  The definition can be read
exactly if no condition or action has a whole number with too long a numeral as its value, and no
value of an action encloses half of a pair.  Creating a rule from it succeeds exactly if it can be
read, the user has at most one group with the name of the default group, the numbers of the
definition fit into their columns, and the value of every action that was read from the definition
can be written once more.  The payload of the stored rule passes the check exactly if what is
written then can be coerced. -/
theorem stores_what_validates {w : Workspace} {user : Id} {d : Json}
    (hholds : w.store.referencesHold = true) (huser : w.store.users.has user = true)
    (hcheck : checkDefinition d = .ok ()) (hnone : d.findOr "rule_group_id" .null = .ok .null)
    (replace : Bool) :
    ((∃ r, RuleDefinition.ofPayload d = .ok r) ↔ ValuesStorable d) ∧
      ((∃ rule v, (createRule user d none replace).runOn w = (.ok rule, v)) ↔
        (w.store.groupsNamed user defaultGroupName).length ≤ 1 ∧
          ∃ r, RuleDefinition.ofPayload d = .ok r ∧ NumbersFit d r ∧
            ∀ a ∈ r.actions, ∃ b, a.rewritten 1 = .ok b) ∧
      ∀ rule v, (createRule user d none replace).runOn w = (.ok rule, v) →
        ∃ r row, RuleDefinition.ofPayload d = .ok r ∧ v.store.rules.find? rule = some row ∧
          (checkDefinition (v.store.payloadOf rule row) = .ok () ↔
            ∀ a ∈ r.actions, ∃ b, a.rewritten 1 = .ok b ∧ b.CanCoerce) := by
  refine ⟨exists_ofPayload_iff hcheck, ⟨fun hcreates => ?_, ?_⟩, fun rule v hcreate => ?_⟩
  · obtain ⟨rule, v, hcreate⟩ := hcreates
    obtain ⟨x⟩ := drafts_of_createRule hcreate
    obtain ⟨r, hr, -⟩ := RuleDefinition.ofPayload_of_drafts hcheck x
    obtain ⟨hfew, hfit, hrewrite⟩ :=
      (createRule_succeeds_iff hholds huser hcheck hnone hr replace).1 ⟨rule, v, hcreate⟩
    exact ⟨hfew, r, hr, hfit, fun a ha => Action.rewritten_one.2 (hrewrite a ha)⟩
  · rintro ⟨hfew, r, hr, hfit, hrewrite⟩
    exact (createRule_succeeds_iff hholds huser hcheck hnone hr replace).2
      ⟨hfew, hfit, fun a ha => Action.rewritten_one.1 (hrewrite a ha)⟩
  · obtain ⟨x⟩ := drafts_of_createRule hcreate
    obtain ⟨r, hr, hgroups, hactions, -⟩ := RuleDefinition.ofPayload_of_drafts hcheck x
    obtain ⟨group, now, row, written, hrow, hfound, hwritten, hstoredGroups, hstoredActions⟩ :=
      createRule_stores hcreate (Store.partsKnown_of_referencesHold hholds) x
    obtain ⟨-, -, hsound⟩ := (ruleOfDefinition_of_checkDefinition hcheck user group now).2 row hrow
    refine ⟨r, row, hr, hfound, (Store.payloadOf_passes hsound fun g hg => ?_).trans ?_⟩
    · obtain ⟨g', hg', hcore⟩ :=
        List.mem_map.1 (hstoredGroups.mem_iff.1 (List.mem_map_of_mem hg))
      rw [← ConditionGroup.isSound_core, ← hcore, ConditionGroup.isSound_core]
      exact isSound_of_checkDefinition hcheck x g' hg'
    · -- Each action was written once more when it was stored.
      have hrows : (∀ a ∈ (RuleDefinition.ofRow v.store rule row).actions, a.CanCoerce) ↔
          ∀ b ∈ written, b.draft.CanCoerce := by
        have hall : ∀ l : List Action,
            (∀ a ∈ l, a.CanCoerce) ↔ ∀ a ∈ l.map Action.core, a.CanCoerce := by
          intro l
          simp only [List.forall_mem_map, Action.canCoerce_core]
        rw [hall, hstoredActions]
        simp only [List.forall_mem_map, Action.canCoerce_core]
      rw [hrows, hactions, List.forall_mem_map]
      exact canCoerce_of_rewritten hwritten

end

namespace SmallLedger

/-- A definition whose only action sets a note. -/
def noted (note : String) : Json :=
  .object
    [("name", .text "Noted"),
      ("actions",
        .list [.object [("action_type", .text "set_note"), ("value", .text note)]])]

end SmallLedger

open SmallLedger in
/-- A plain note can be stored, and the payload of the stored rule passes the check. -/
theorem stores_plain_note :
    checkDefinition (noted "seen") = .ok () ∧
      ∃ rule v row, (createRule 1 (noted "seen") none false).runOn workspace = (.ok rule, v) ∧
        v.store.rules.find? rule = some row ∧
        checkDefinition (v.store.payloadOf rule row) = .ok () := by
  have hcheck : checkDefinition (noted "seen") = .ok () := rfl
  have hholds : workspace.store.referencesHold = true := by decide +kernel
  have huser : workspace.store.users.has 1 = true := by decide +kernel
  obtain ⟨-, -, hstored⟩ := stores_what_validates hholds huser hcheck rfl false
  have hrewritten : (RuleDefinition.ofPayload (noted "seen")).toOption.all (fun r =>
      r.actions.all fun a => (a.rewritten 1).toOption.any fun b =>
        (coerceNamed b.kind (.json b.value)).toOption.isSome) = true := by
    decide +kernel
  have hcreate : ((createRule 1 (noted "seen") none false).runOn workspace).1.toOption =
      some 2 := by
    decide +kernel
  have hrun := runOn_of_toOption hcreate
  obtain ⟨r, row, hr, hrow, hpasses⟩ := hstored 2 _ hrun
  refine ⟨hcheck, 2, _, row, hrun, hrow, hpasses.2 fun a ha => ?_⟩
  rw [hr] at hrewritten
  have hsome := List.all_eq_true.1 hrewritten a ha
  obtain ⟨b, hb, hcoerced⟩ := (Option.any_eq_true _ _).1 hsome
  obtain ⟨v, hv⟩ := Option.isSome_iff_exists.1 hcoerced
  exact ⟨b, eq_ok_of_toOption hb, v, eq_ok_of_toOption hv⟩

open SmallLedger in
/-- A note of which only quotes are left passes the check, but when it is stored nothing is left of
it, and it is refused. -/
theorem empty_quotes_are_refused :
    (workspace.store.referencesHold = true ∧ workspace.store.users.has 1 = true) ∧
      checkDefinition (noted "\"\\\"\\\"\"") = .ok () ∧
      (noted "\"\\\"\\\"\"").findOr "rule_group_id" .null = .ok .null ∧
      ((createRule 1 (noted "\"\\\"\\\"\"") none false).runOn workspace).1 =
        .error (.definition "Action 'set_note' requires a non-empty text value" []) := by
  refine ⟨⟨by decide +kernel, by decide +kernel⟩, rfl, rfl, ?_⟩
  rfl

end Rulebook
