import Rulebook.Proofs.Engine.Looking

/-!
# What actions are offered

Whether an action can be planned depends on its value, on who owns the transaction, and on which
labels it sees.  Labels are looked up through a cache that may be wrong, since a label can be added
or changed behind its back; so what is seen of a label is what the cache says about it, and what is
stored only if the cache says nothing (`Workspace.label?`).  Describing and planning an action fills
the cache, but never with anything else than what was seen before.  Hence everything that is looked
at may be looked at again.

This module says which actions go through, given what they are offered (`ActionKind.Goes`).  It
includes what may be refused only when the effect is carried out: an action that is run on its own
must not refer to rows that are not there.

## Main definitions

* `Workspace.label?`, `Workspace.SeesLabel` — what is seen of a label, and whether it is the owner's.
* `Workspace.owner?` — who owns a transaction.
* `Workspace.SameSight`, `Workspace.Glances` — a later workspace in which the same is seen.
* `Effect.Admitted`, `ActionKind.Goes` — which effects can be carried out, and which actions go
  through.

## Main statements

* `runOn_plan_of_owner` — how a plan ends.
-/

namespace Rulebook

open Program Text

namespace Workspace

/-! ## Sight -/

/-- What is seen of the label with a number. -/
def label? (w : Workspace) (kind : LabelKind) (id : Id) : Option Label :=
  match w.labels.lookup (kind, id) with
  | some found => found
  | none => (w.store.labels kind).find? id

/-- The label with a number is seen as that of the owner. -/
def SeesLabel (w : Workspace) (owner : Id) (kind : LabelKind) (id : Id) : Prop :=
  ∃ l, w.label? kind id = some l ∧ l.user = owner

/-- Who owns a transaction, as far as this can be looked up. -/
def owner? (w : Workspace) (h : Handle) : Option Id :=
  if (w.transaction h).account.isSet then
    ((w.transaction h).account.resolve (findAccount w.store)).bind fun r =>
      r.loaded.map (·.account.user)
  else none

/-- In the later workspace the same is stored, and the same is seen of labels. -/
structure SameSight (w v : Workspace) : Prop where
  store : v.store = w.store
  isChanging : v.isChanging = w.isChanging
  label? : ∀ kind id, v.label? kind id = w.label? kind id

instance : IsPreorder Workspace SameSight where
  refl _ := ⟨rfl, rfl, fun _ _ => rfl⟩
  trans _ _ _ hv hu :=
    ⟨hu.store.trans hv.store, hu.isChanging.trans hv.isChanging,
      fun kind id => (hu.label? kind id).trans (hv.label? kind id)⟩

theorem SameSight.seesLabel_iff {w v : Workspace} (hv : SameSight w v) {owner : Id}
    {kind : LabelKind} {id : Id} : v.SeesLabel owner kind id ↔ w.SeesLabel owner kind id := by
  rw [SeesLabel, SeesLabel, hv.label?]

end Workspace

open Workspace

variable {h : Handle} {w v : Workspace}

/-- A program that goes on with a result that is known. -/
theorem runOn_bind_of_result {α β : Type} {x : Operation α} {a : α} (hx : (x.runOn w).1 = .ok a)
    (f : α → Operation β) : (x >>= f).runOn w = (f a).runOn (x.runOn w).2 := by
  rw [runOn_bind]
  rcases hrun : x.runOn w with ⟨result, u⟩
  rw [hrun] at hx
  cases hx
  rfl

/-- How a program ends whose result is known. -/
theorem exists_runOn_of_result {α : Type} {R : Workspace → Workspace → Prop} {x : Operation α} {a : α}
    (hx : Keeps R x) (ha : (x.runOn w).1 = .ok a) : ∃ v, x.runOn w = (.ok a, v) ∧ R w v :=
  ⟨(x.runOn w).2, Prod.ext ha rfl, hx w⟩

/-! ## Looking again -/

theorem sameSight_cachedLabel (kind : LabelKind) (id : Id) :
    Keeps SameSight (cachedLabel kind id) := by
  intro w
  rw [runOn_cachedLabel]
  split
  · exact Std.Refl.refl w
  · next hnone =>
    refine ⟨rfl, rfl, fun other n => ?_⟩
    simp only [Workspace.label?, List.lookup_cons]
    split
    · next found heq =>
      split at heq
      · next hsame =>
        cases eq_of_beq hsame
        cases heq
        rw [hnone]
      · rw [heq]
    · next heq =>
      split at heq
      · cases heq
      · rw [heq]

/-- A label is found as it is seen. -/
theorem runOn_cachedLabel_label? (kind : LabelKind) (id : Id) (w : Workspace) :
    ((cachedLabel kind id).runOn w).1 = .ok (w.label? kind id) := by
  rw [runOn_cachedLabel, Workspace.label?]
  cases w.labels.lookup (kind, id) with
  | none => rfl
  | some found => rfl

theorem sameSight_report (e : Event) : Keeps SameSight (report e) :=
  fun _ => ⟨rfl, rfl, fun _ _ => rfl⟩

theorem sameSight_transaction (k : Handle) : Keeps SameSight (transaction k) :=
  keeps_of_runOn fun _ => rfl

theorem sameSight_ownedLabel (kind : LabelKind) (value : Option ActionValue) (owner : Id) :
    Keeps SameSight (ownedLabel kind value owner) := by
  rw [ownedLabel.eq_def]
  split
  · exact (sameSight_cachedLabel kind _).bind fun found => keeps_pure _
  · exact keeps_pure none

theorem sameSight_ownerOf (h : Handle) : Keeps SameSight (ownerOf h) := by
  rw [ownerOf]
  refine (sameSight_transaction h).bind fun t => ?_
  split
  · refine Keeps.bind (fun w => ?_) fun account => keeps_pure _
    rw [runOn_accountOf]
    split
    · exact ⟨rfl, rfl, fun _ _ => rfl⟩
    · exact Std.Refl.refl w
  · exact keeps_pure none

theorem sameSight_labelText (kind : LabelKind) (value : Option ActionValue) :
    Keeps SameSight (labelText kind value) := by
  rw [labelText.eq_def]
  split
  · refine (sameSight_cachedLabel kind _).bind fun found => ?_
    split
    · exact keeps_pure _
    · exact keeps_pure _
  · exact keeps_pure _
  · exact keeps_pure _

/-- To describe an action leaves the sight as it is. -/
theorem sameSight_describe [Host] (a : Action) : Keeps SameSight (describe a) := by
  rw [describe]
  split
  · exact keeps_pure _
  · next kind _ =>
    refine (keeps_ofExcept _).bind fun value => ?_
    cases kind with
    | setCategory | setMerchant | addTag | removeTag =>
      exact (sameSight_labelText _ value).bind fun text => keeps_pure _
    | _ => exact keeps_pure _

/-- To plan an action leaves the sight as it is. -/
theorem sameSight_plan [Host] (kind : ActionKind) (a : Action) (h : Handle) :
    Keeps SameSight (plan kind a h) := by
  have hkind : ∀ value t owner, Keeps SameSight (planKind kind a value t owner) := by
    intro value t owner
    cases kind with
    | setCategory | setMerchant | addTag | removeTag =>
      exact (sameSight_ownedLabel _ _ _).bind fun label => keeps_pure _
    | removeAllTags | markReconciled | sendNotification => exact keeps_pure _
    | _ => rcases value with _ | ⟨_ | _⟩ <;> exact keeps_pure _
  rw [plan]
  refine (keeps_ofExcept _).bind fun value => (sameSight_ownerOf h).bind fun owner => ?_
  cases owner with
  | none => exact keeps_pure none
  | some owner => exact (sameSight_transaction h).bind fun t => hkind value t owner

/-- The later workspace is the earlier one after somebody looked at a transaction, and the same is
seen of labels. -/
structure Workspace.Glances (h : Handle) (w v : Workspace) : Prop extends Looks h w v, SameSight w v

instance (h : Handle) : IsPreorder Workspace (Glances h) where
  refl w := ⟨Std.Refl.refl w, Std.Refl.refl w⟩
  trans _ _ _ hv hu :=
    ⟨hv.toLooks.trans hu.toLooks, IsTrans.trans _ _ _ hv.toSameSight hu.toSameSight⟩

theorem glances_report (e : Event) : Keeps (Glances h) (report e) :=
  fun w => ⟨looks_report e w, sameSight_report e w⟩

theorem glances_describe [Host] (a : Action) : Keeps (Glances h) (describe a) :=
  fun w => ⟨looks_describe a w, sameSight_describe a w⟩

theorem glances_plan [Host] (kind : ActionKind) (a : Action) (h : Handle) :
    Keeps (Glances h) (plan kind a h) :=
  fun w => ⟨looks_plan kind a h w, sameSight_plan kind a h w⟩

/-! ## The owner -/

/-- A reference that was looked up in the accounts is looked up the same. -/
theorem resolve_lookedUp {s : Store} {r r' : Reference LoadedAccount}
    (hr : r.LookedUp (LiveTransaction.AccountRow s) r') :
    r'.resolve (findAccount s) = r.resolve (findAccount s) := by
  cases hr with
  | same => rfl
  | @found id a hrow =>
    obtain ⟨hfind, hseen⟩ := hrow
    obtain ⟨account, _⟩ := a
    dsimp only at hfind hseen
    simp [Reference.resolve, Reference.known, Reference.byId, findAccount, hfind, hseen]

/-- The owner depends on the accounts and on the account of the transaction. -/
theorem owner?_congr (haccounts : v.store.accounts = w.store.accounts)
    (haccount : (w.transaction h).account.LookedUp (LiveTransaction.AccountRow w.store)
      (v.transaction h).account) : v.owner? h = w.owner? h := by
  have hfind : findAccount v.store = findAccount w.store := by
    funext id
    rw [findAccount, haccounts, findAccount]
  rw [Workspace.owner?, Workspace.owner?, Reference.isSet, haccount.id_eq, hfind,
    resolve_lookedUp haccount, Reference.isSet]

theorem Workspace.Looks.owner? (hl : Looks h w v) : v.owner? h = w.owner? h :=
  owner?_congr (by rw [hl.store]) hl.own.account

/-- Asking for the owner gives the owner, or fails and there is none. -/
theorem ownerOf_cases (h : Handle) (w : Workspace) :
    ((ownerOf h).runOn w).1 = .ok (w.owner? h) ∨
      w.owner? h = none ∧ ∃ failure, ((ownerOf h).runOn w).1 = .error failure := by
  rw [ownerOf, runOn_bind, runOn_transaction, Workspace.owner?]
  dsimp only
  split
  · rw [runOn_bind, runOn_accountOf]
    cases (w.transaction h).account.resolve (findAccount w.store) with
    | none => exact .inr ⟨rfl, _, rfl⟩
    | some r => exact .inl rfl
  · exact .inl rfl

/-! ## Which actions go through -/

/-- Whether an effect can be carried out for a stored transaction.  On its own it must not refer to
a row that is not there. -/
def Effect.Admitted (w : Workspace) : Effect → Prop
  | .attachTag tag => w.isChanging = true ∨ w.store.tags.has tag = true
  | .setNamedLabel _ _ owner | .attachNamedTag _ owner =>
    w.isChanging = true ∨ w.store.users.has owner = true
  | _ => True

/-- Whether an effect can be carried out depends on what is stored. -/
theorem Effect.admitted_congr (effect : Effect) (hv : SameSight w v) :
    effect.Admitted v ↔ effect.Admitted w := by
  cases effect <;> simp only [Effect.Admitted, hv.store, hv.isChanging]

/-- The label that an effect asks for by its name. -/
def Effect.named? : Effect → Option (LabelKind × String × Id)
  | .setNamedLabel role name owner => some (role.kind, name, owner)
  | .attachNamedTag name owner => some (.tag, name, owner)
  | _ => none

namespace ActionKind

/-- Whether an action of a kind goes through for a stored transaction of the owner. -/
def Goes (w : Workspace) (owner : Id) (kind : ActionKind) (value : Option ActionValue) : Prop :=
  match kind, value with
  | .setCategory, some (.identifier id) => w.SeesLabel owner .category id
  | .setMerchant, some (.identifier id) => w.SeesLabel owner .merchant id
  | .addTag, some (.identifier id) =>
    w.SeesLabel owner .tag id ∧ (w.isChanging = true ∨ w.store.tags.has id = true)
  | .removeTag, some (.identifier id) => w.SeesLabel owner .tag id
  | .removeAllTags, _ | .markReconciled, _ | .sendNotification, _ => True
  | .setDescription, some (.text _) | .appendDescription, some (.text _)
  | .prependDescription, some (.text _) | .setNote, some (.text _)
  | .appendNote, some (.text _) => True
  | .setType, some (.text words) => transactionTypes.contains (upper (strip words)) = true
  | .createTag, some (.text _) | .createCategory, some (.text _)
  | .createMerchant, some (.text _) => w.isChanging = true ∨ w.store.users.has owner = true
  | _, _ => False

/-- The label that an action of a kind asks for by its name. -/
def named? (owner : Id) (kind : ActionKind) (value : Option ActionValue) :
    Option (LabelKind × String × Id) :=
  match kind, value with
  | .createTag, some (.text name) => some (.tag, name, owner)
  | .createCategory, some (.text name) => some (.category, name, owner)
  | .createMerchant, some (.text name) => some (.merchant, name, owner)
  | _, _ => none

/-- The label that an action of a kind asks for by its number. -/
def numbered? (kind : ActionKind) (value : Option ActionValue) : Option (LabelKind × Id) :=
  match kind, value with
  | .setCategory, some (.identifier id) => some (.category, id)
  | .setMerchant, some (.identifier id) => some (.merchant, id)
  | .addTag, some (.identifier id) | .removeTag, some (.identifier id) => some (.tag, id)
  | _, _ => none

/-- An action goes through wherever the label is seen and stored that it asks for by its number. -/
theorem Goes.transport {owner : Id} {kind : ActionKind} {value : Option ActionValue}
    (hgoes : kind.Goes w owner value) (hchanging : v.isChanging = w.isChanging)
    (husers : v.store.users = w.store.users)
    (hlabel : ∀ labelKind id, kind.numbered? value = some (labelKind, id) →
      (w.SeesLabel owner labelKind id → v.SeesLabel owner labelKind id) ∧
        ((w.store.labels labelKind).has id = true → (v.store.labels labelKind).has id = true)) :
    kind.Goes v owner value := by
  cases kind with
  | setCategory | setMerchant | removeTag =>
    rcases value with _ | id | words
    · exact hgoes
    · exact (hlabel _ id rfl).1 hgoes
    · exact hgoes
  | addTag =>
    rcases value with _ | id | words
    · exact hgoes
    · exact ⟨(hlabel _ id rfl).1 hgoes.1, hgoes.2.imp (hchanging.trans ·) (hlabel _ id rfl).2⟩
    · exact hgoes
  | createTag | createCategory | createMerchant =>
    rcases value with _ | id | words
    · exact hgoes
    · exact hgoes
    · exact hgoes.imp (hchanging.trans ·) (husers ▸ ·)
  | _ => rcases value with _ | id | words <;> exact hgoes

/-- Whether an action goes through depends on what is seen and stored. -/
theorem goes_congr (hv : SameSight w v) (kind : ActionKind) (owner : Id)
    (value : Option ActionValue) : kind.Goes v owner value ↔ kind.Goes w owner value := by
  unfold Goes
  split <;> simp only [hv.seesLabel_iff, hv.store, hv.isChanging]

end ActionKind

/-- What is found of a label that an action names by its number. -/
inductive FindsOwned (w : Workspace) (owner : Id) (kind : LabelKind) :
    Option ActionValue → Option (Id × Label) → Prop
  | found {id : Id} {l : Label} (h : w.SeesLabel owner kind id) :
    FindsOwned w owner kind (some (.identifier id)) (some (id, l))
  | unseen {id : Id} (h : ¬w.SeesLabel owner kind id) :
    FindsOwned w owner kind (some (.identifier id)) none
  | words {s : String} : FindsOwned w owner kind (some (.text s)) none
  | nothing : FindsOwned w owner kind none none

theorem findsOwned_ownedLabel (kind : LabelKind) (value : Option ActionValue) (owner : Id)
    (w : Workspace) : ∃ found, ((ownedLabel kind value owner).runOn w).1 = .ok found ∧
      FindsOwned w owner kind value found := by
  rw [ownedLabel.eq_def]
  rcases value with _ | id | s
  · exact ⟨none, rfl, .nothing⟩
  · dsimp only
    rw [runOn_bind_of_result (runOn_cachedLabel_label? kind id w)]
    refine ⟨_, rfl, ?_⟩
    cases hseen : w.label? kind id with
    | none => exact .unseen (by simp [SeesLabel, hseen])
    | some l =>
      rw [Option.bind_some]
      split
      · next huser => exact .found ⟨l, hseen, huser⟩
      · next huser => exact .unseen (by simpa [SeesLabel, hseen] using huser)
  · exact ⟨none, rfl, .words⟩

/-- How the plan of an action of a kind ends, for a transaction with a row. -/
def PlannedAs (w : Workspace) (kind : ActionKind) (owner : Id) (value : Option ActionValue)
    (planned : Option Effect) : Prop :=
  ((∃ effect, planned = some effect ∧ effect.Admitted w) ↔ kind.Goes w owner value) ∧
    ∀ effect, planned = some effect → effect.named? = kind.named? owner value

section Planning

variable {kind : ActionKind} {value : Option ActionValue} {owner : Id}

/-- An effect is planned. -/
theorem plannedAs_some {effect : Effect}
    (hgoes : effect.Admitted w ↔ kind.Goes w owner value)
    (hnamed : effect.named? = kind.named? owner value) :
    PlannedAs w kind owner value (some effect) := by
  refine ⟨?_, by rintro _ ⟨⟩; exact hnamed⟩
  simpa using hgoes

/-- Nothing is planned. -/
theorem plannedAs_none (hgoes : ¬kind.Goes w owner value) : PlannedAs w kind owner value none :=
  ⟨iff_of_false (by simp) hgoes, nofun⟩

/-- The kinds that name a label by its number are planned as it is found. -/
theorem runOn_planLabel {labelKind : LabelKind} {f : Option (Id × Label) → Option Effect}
    (hf : ∀ found, FindsOwned w owner labelKind value found →
      PlannedAs w kind owner value (f found)) :
    ∃ planned, ((do return f (← ownedLabel labelKind value owner) :
        Operation (Option Effect)).runOn w).1 = .ok planned ∧
      PlannedAs w kind owner value planned := by
  obtain ⟨found, hfound, hfinds⟩ := findsOwned_ownedLabel labelKind value owner w
  exact ⟨f found, by rw [runOn_bind_of_result hfound]; rfl, hf found hfinds⟩

/-- The kinds that take a text are planned only with one. -/
theorem runOn_planText {t : LiveTransaction}
    (hnothing : ∀ id, ¬kind.Goes w owner (some (.identifier id)) ∧ ¬kind.Goes w owner none)
    (hwords : ∀ s, PlannedAs w kind owner (some (.text s)) (planText kind t owner s)) :
    ∃ planned, ((match value with
        | some (.text s) => return planText kind t owner s
        | _ => return none : Operation (Option Effect)).runOn w).1 = .ok planned ∧
      PlannedAs w kind owner value planned := by
  rcases value with _ | id | s
  · exact ⟨none, rfl, plannedAs_none (hnothing 0).2⟩
  · exact ⟨none, rfl, plannedAs_none (hnothing id).1⟩
  · exact ⟨_, rfl, hwords s⟩

/-- How the plan of an action of a kind ends. -/
theorem runOn_planKind (kind : ActionKind) (a : Action) (value : Option ActionValue)
    {t : LiveTransaction} (owner : Id) (hid : t.id.isSome = true) (w : Workspace) :
    ∃ planned, ((planKind kind a value t owner).runOn w).1 = .ok planned ∧
      PlannedAs w kind owner value planned := by
  cases kind with
  | setCategory | setMerchant | removeTag =>
    refine runOn_planLabel fun found hfound => ?_
    cases hfound with
    | found h => exact plannedAs_some (iff_of_true trivial h) rfl
    | unseen h => exact plannedAs_none h
    | words => exact plannedAs_none id
    | nothing => exact plannedAs_none id
  | addTag =>
    refine runOn_planLabel fun found hfound => ?_
    rw [if_pos hid]
    cases hfound with
    | found h => exact plannedAs_some (and_iff_right h).symm rfl
    | unseen h => exact plannedAs_none fun hgoes => h hgoes.1
    | words => exact plannedAs_none id
    | nothing => exact plannedAs_none id
  | removeAllTags | markReconciled | sendNotification =>
    exact ⟨_, rfl, plannedAs_some (iff_of_true trivial trivial) rfl⟩
  | setType =>
    refine runOn_planText (fun _ => ⟨id, id⟩) fun s => ?_
    rw [planText]
    by_cases hknown : transactionTypes.contains (upper (strip s)) = true
    · rw [if_pos hknown]
      exact plannedAs_some (iff_of_true trivial hknown) rfl
    · rw [if_neg hknown]
      exact plannedAs_none hknown
  | createTag =>
    refine runOn_planText (fun _ => ⟨id, id⟩) fun s => ?_
    rw [planText, if_pos hid]
    exact plannedAs_some Iff.rfl rfl
  | createCategory | createMerchant =>
    exact runOn_planText (fun _ => ⟨id, id⟩) fun s => plannedAs_some Iff.rfl rfl
  | _ =>
    exact runOn_planText (fun _ => ⟨id, id⟩) fun s =>
      plannedAs_some (iff_of_true trivial trivial) rfl

end Planning

/-- How the plan of an action ends, for a stored transaction of the owner. -/
theorem runOn_plan_of_owner [Host] (kind : ActionKind) {a : Action} {value : Option ActionValue}
    {owner : Id} (hid : (w.transaction h).id.isSome = true) (hvalue : a.typedValue = .ok value)
    (howner : w.owner? h = some owner) :
    ∃ planned v, (plan kind a h).runOn w = (.ok planned, v) ∧ Glances h w v ∧
      PlannedAs w kind owner value planned := by
  have hasked : ((ownerOf h).runOn w).1 = .ok (some owner) := by
    rcases ownerOf_cases h w with hresult | ⟨hnone, -⟩
    · rw [hresult, howner]
    · cases hnone.symm.trans howner
  have hlooks := looks_ownerOf h w
  have hsight := sameSight_ownerOf h w
  have hresult : ∃ planned, ((plan kind a h).runOn w).1 = .ok planned ∧
      PlannedAs w kind owner value planned := by
    rw [plan, runOn_bind, runOn_ofExcept, hvalue]
    dsimp only
    rw [runOn_bind_of_result hasked]
    generalize ((ownerOf h).runOn w).2 = u at hlooks hsight
    have hid' : (u.transaction h).id.isSome = true := by rw [hlooks.own.id_eq, hid]
    obtain ⟨planned, hplanned, hgoes, hnamed⟩ := runOn_planKind kind a value owner hid' u
    refine ⟨planned, hplanned, ?_, hnamed⟩
    rw [← kind.goes_congr hsight, ← hgoes]
    simp only [Effect.admitted_congr _ hsight]
  obtain ⟨planned, hplanned, hends⟩ := hresult
  obtain ⟨v, hrun, hglances⟩ := exists_runOn_of_result (glances_plan kind a h) hplanned
  exact ⟨planned, v, hrun, hglances, hends⟩

/-- An action is planned to have an effect only if it has a value and the transaction an owner. -/
theorem exists_owner_of_plan [Host] {kind : ActionKind} {a : Action} {effect : Effect}
    (hplan : ((plan kind a h).runOn w).1 = .ok (some effect)) :
    ∃ value owner, a.typedValue = .ok value ∧ w.owner? h = some owner := by
  rcases hrun : (plan kind a h).runOn w with ⟨result, v⟩
  rw [hrun] at hplan
  subst hplan
  rw [plan] at hrun
  obtain ⟨value, w₁, hvalue, hrun⟩ := runOn_bind_eq_ok hrun
  obtain ⟨htyped, rfl⟩ := runOn_ofExcept_eq_ok hvalue
  obtain ⟨found, w₂, howner, hrun⟩ := runOn_bind_eq_ok hrun
  cases found with
  | none => cases hrun
  | some owner =>
    refine ⟨value, owner, htyped, ?_⟩
    rcases ownerOf_cases h w with hresult | ⟨-, failure, hfails⟩
    · rw [howner] at hresult
      exact (Except.ok.inj hresult).symm
    · rw [howner] at hfails
      cases hfails

end Rulebook
