import Rulebook.Proofs.Engine.Account
import Rulebook.Proofs.Engine.Shadowing
import Rulebook.Proofs.Ledger.Ownership

/-!
# Work on one's own transactions

Whose transaction it is gets decided once, before any rule is looked at.  From then on everything
that a run does for the transaction is done for its owner: numbers in actions only count if they are
those of the owner's labels, labels that are added belong to the owner, and what is written goes to
the row of the transaction, to its tags and to the log.

`Workspace.IsAtWork` is the invariant and `Workspace.Confined` is what all steps have in common.
The invariant says that the label cache tells the truth; the cache knows labels by number and not by
owner, and a number that it remembered wrongly could be that of somebody else's label.

Saving needs one thing more.  It writes the fields that were reported as changed, and what is in
memory may have been anything before the run.  So a reference that is reported as changed must be to
one of the owner's labels by then (`Workspace.Fills`).

## Main definitions

* `Effect.IsOwn` — the effect uses labels of the user only.
* `Workspace.IsAtWork` — a change is under way on a transaction of the user.
* `Workspace.Confined` — what was done for the transaction stayed with what the user owns.
* `Workspace.Fills` — references that are reported as changed are to labels of the user.

## Main statements

* `isOwn_plan` — planned effects use the owner's labels only.
* `Engine.confined_runRules` — the rules stay with what the user owns.
* `Engine.fills_runRules` — references that the rules report as changed are to the user's labels.
-/

namespace Rulebook

open Program Workspace

/-! ## Effects for a user -/

/-- All labels that the effect uses belong to the user. -/
def Effect.IsOwn (s : Store) (user : Id) : Effect → Prop
  | .setLabel role id l => (s.labels role.kind).find? id = some l ∧ l.user = user
  | .setNamedLabel _ _ owner => owner = user
  | .attachTag tag => s.IsLabelOf .tag user tag
  | .attachNamedTag _ owner => owner = user
  | _ => True

section Plan

variable {h : Handle} {w v : Workspace} {user : Id} {kind : ActionKind} {a : Action}
  {value : Option ActionValue} {effect : Effect}

/-- A label that is found for an owner is the owner's. -/
theorem isLabelOf_ownedLabel (hw : w.LabelsAgree) {role : LabelKind} {found : Id × Label}
    (hrun : (ownedLabel role value user).runOn w = (.ok (some found), v)) :
    (w.store.labels role).find? found.1 = some found.2 ∧ found.2.user = user := by
  obtain ⟨labels, hpure, -⟩ := runOn_ownedLabel hw role value user
  rw [hrun] at hpure
  exact Direct.ownedLabel_eq_some (Except.ok.inj (congrArg Prod.fst hpure)).symm

/-- Plans that take a text use labels by name only, and those of the owner. -/
theorem isOwn_planText {s : Store} {t : LiveTransaction} {words : String}
    (hplan : planText kind t user words = some effect) : effect.IsOwn s user := by
  cases kind <;> simp only [planText] at hplan <;>
    first | (split at hplan <;> cases hplan) | cases hplan
  all_goals trivial

theorem isOwn_planKind (hw : w.LabelsAgree) {t : LiveTransaction}
    (hrun : (planKind kind a value t user).runOn w = (.ok (some effect), v)) :
    effect.IsOwn w.store user := by
  -- The kinds that name a label by number get a label of the owner.
  have hlabel : ∀ {role : LabelKind} {f : Option (Id × Label) → Option Effect}, f none = none →
      (do return f (← ownedLabel role value user) : Operation (Option Effect)).runOn w =
        (.ok (some effect), v) →
      ∃ found, ((w.store.labels role).find? found.1 = some found.2 ∧ found.2.user = user) ∧
        f (some found) = some effect := by
    intro role f hnone hrun
    obtain ⟨found, x, hfound, hplan⟩ := exists_found_of_plan hnone hrun
    exact ⟨found, isLabelOf_ownedLabel hw hfound, hplan⟩
  cases kind with
  | setCategory =>
      obtain ⟨found, hown, hplan⟩ := hlabel rfl hrun
      cases hplan
      exact hown
  | setMerchant =>
      obtain ⟨found, hown, hplan⟩ := hlabel rfl hrun
      cases hplan
      exact hown
  | addTag =>
      have hnone : (if t.id.isSome then Option.map (fun tag => Effect.attachTag tag.1)
          (none : Option (Id × Label)) else none) = none := by
        split <;> rfl
      obtain ⟨found, hown, hplan⟩ := hlabel hnone hrun
      split at hplan <;> cases hplan
      exact ⟨found.2, hown⟩
  | removeTag =>
      obtain ⟨found, -, hplan⟩ := hlabel rfl hrun
      cases hplan
      trivial
  | removeAllTags =>
      cases hrun
      trivial
  | markReconciled =>
      cases hrun
      trivial
  | sendNotification =>
      cases hrun
      trivial
  | _ =>
      obtain ⟨words, -, hplan⟩ := exists_words_of_plan hrun
      exact isOwn_planText hplan

/-- The effect that is planned for a transaction of the user uses labels of the user only. -/
theorem isOwn_plan [Host] (hw : w.LabelsAgree) (howned : w.OwnedBy h user)
    (hrun : (plan kind a h).runOn w = (.ok (some effect), v)) : effect.IsOwn w.store user := by
  rw [plan, runOn_bind, runOn_ofExcept] at hrun
  cases hvalue : a.typedValue with
  | error failure =>
      rw [hvalue] at hrun
      cases hrun
  | ok value =>
      rw [hvalue] at hrun
      dsimp only at hrun
      rw [runOn_bind, howned.runOn_ownerOf] at hrun
      dsimp only at hrun
      rw [runOn_bind, runOn_transaction] at hrun
      exact isOwn_planKind hw hrun

end Plan

/-! ## Work within a change -/

namespace Workspace

/-- A change is under way on a transaction of the user, the label cache tells the truth, and the
rules whose outcomes are logged are the user's. -/
structure IsAtWork (h : Handle) (user : Id) (logged : List RuleDefinition) (w : Workspace) :
    Prop where
  changing : w.isChanging = true
  owned : w.OwnedBy h user
  agree : w.LabelsAgree
  row : ∀ id, (w.transaction h).id = some id → w.store.transactionOwner? id = some user
  rules : ∀ r ∈ logged, ∀ n, r.id = .int n → w.store.IsRuleOf user n

/-- The reference of the transaction is to a label of the user, which is stored. -/
def RefersToOwn (h : Handle) (user : Id) (w : Workspace) (role : LabelRole) : Prop :=
  ∃ id l, role.get (w.transaction h) = .known id l ∧
    (w.store.labels role.kind).find? id = some l ∧ l.user = user

/-- References that are reported as changed are to labels of the user, and those that were before
still are. -/
def Fills (h : Handle) (user : Id) (reported : List TransactionField) (w v : Workspace) : Prop :=
  ∀ role, w.RefersToOwn h user role ∨ role.field ∈ reported → v.RefersToOwn h user role

/-- What was done for the transaction stayed with what the user owns.  Its references to labels are
as before or were set to labels of the user, and those that are reported as changed were set. -/
structure Confined (h : Handle) (user : Id) (reported : List TransactionField) (w v : Workspace) :
    Prop where
  store : w.store.KeepsTo user v.store
  account : (w.transaction h).account.LookedUp (LiveTransaction.AccountRow w.store)
    (v.transaction h).account
  references : ∀ role : LabelRole,
    (role.get (w.transaction h)).LookedUp (fun _ _ => True) (role.get (v.transaction h)) ∨
      ∃ id l, role.get (v.transaction h) = .known id l ∧ l.user = user
  fills : Fills h user reported w v

theorem Fills.trans {h : Handle} {user : Id} {reported more : List TransactionField}
    {w v u : Workspace} (hv : Fills h user reported w v) (hu : Fills h user more v u) :
    Fills h user (reported ++ more) w u := by
  rintro role (hown | hmem)
  · exact hu role (Or.inl (hv role (Or.inl hown)))
  · rcases List.mem_append.1 hmem with hmem | hmem
    · exact hu role (Or.inl (hv role (Or.inr hmem)))
    · exact hu role (Or.inr hmem)

namespace Confined

variable {h : Handle} {user : Id} {reported more : List TransactionField} {w v u : Workspace}

theorem trans (hv : Confined h user reported w v) (hu : Confined h user more v u) :
    Confined h user (reported ++ more) w u where
  store := IsTrans.trans _ _ _ hv.store hu.store
  account := by
    have hrows : LiveTransaction.AccountRow v.store = LiveTransaction.AccountRow w.store := by
      funext id a
      rw [LiveTransaction.AccountRow, hv.store.accounts, LiveTransaction.AccountRow]
    exact hv.account.trans (hrows ▸ hu.account)
  references role := by
    rcases hu.references role with hlooked | hown
    · rcases hv.references role with hfirst | ⟨id, l, hknown, huser⟩
      · exact Or.inl (hfirst.trans hlooked)
      · -- A label that is known is not looked up again.
        rw [hknown] at hlooked
        refine Or.inr ⟨id, l, ?_, huser⟩
        generalize role.get (u.transaction h) = r at hlooked
        cases hlooked
        rfl
    · exact Or.inr hown
  fills := hv.fills.trans hu.fills

/-- Less is reported. -/
theorem unreported (hv : Confined h user reported w v) : Confined h user [] w v :=
  { hv with fills := fun role hown => hv.fills role (hown.imp_right (nomatch ·)) }

end Confined

instance (h : Handle) (user : Id) : IsPreorder Workspace (Confined h user []) where
  refl _ :=
    ⟨Std.Refl.refl _, .same _, fun _ => Or.inl (.same _), fun _ hown => hown.resolve_right (nomatch ·)⟩
  trans _ _ _ hv hu := hv.trans hu

/-- Work on a transaction of the user that stays with what the user owns. -/
abbrev StaysOwn (h : Handle) (user : Id) (logged : List RuleDefinition)
    (reported : List TransactionField) : Workspace → Workspace → Prop :=
  Under (IsAtWork h user logged) (Confined h user reported)

theorem StaysOwn.trans {h : Handle} {user : Id} {logged : List RuleDefinition}
    {reported more : List TransactionField} {w v u : Workspace}
    (hv : StaysOwn h user logged reported w v) (hu : StaysOwn h user logged more v u) :
    StaysOwn h user logged (reported ++ more) w u := by
  intro hw
  obtain ⟨hatWork, hfirst⟩ := hv hw
  obtain ⟨hatWork, hlater⟩ := hu hatWork
  exact ⟨hatWork, hfirst.trans hlater⟩

end Workspace

section Steps

variable {h : Handle} {user : Id} {logged : List RuleDefinition} {w v : Workspace}

/-- Whoever is at work stays so as long as the work is confined. -/
theorem Workspace.IsAtWork.of_confined {reported : List TransactionField}
    (hw : w.IsAtWork h user logged) (hchanging : v.isChanging = w.isChanging)
    (hagree : v.LabelsAgree) (hid : (v.transaction h).id = (w.transaction h).id)
    (hv : Confined h user reported w v) : v.IsAtWork h user logged where
  changing := hchanging.trans hw.changing
  owned := hw.owned.of_account (hw.owned.account_eq hv.account)
  agree := hagree
  row id hnumber := by
    rw [hv.store.transactionOwner?_eq]
    exact hw.row id (hid ▸ hnumber)
  rules r hr n hn := by
    have hrule := hw.rules r hr n hn
    rwa [Store.IsRuleOf, ← hv.store.rules] at hrule

/-- Looking is confined to what the user owns. -/
theorem Workspace.Looks.confined (hl : Looks h w v) : Confined h user [] w v := by
  have hlooked : ∀ role : LabelRole,
      (role.get (w.transaction h)).LookedUp (fun _ _ => True) (role.get (v.transaction h)) := by
    intro role
    cases role with
    | category => exact hl.own.category.weaken
    | merchant => exact hl.own.merchant.weaken
  refine ⟨?_, hl.own.account, fun role => Or.inl (hlooked role), fun role hown => ?_⟩
  · rw [hl.store]
    exact Std.Refl.refl _
  · obtain ⟨id, l, hknown, hstored, huser⟩ := hown.resolve_right (nomatch ·)
    have hsame := hlooked role
    rw [hknown] at hsame
    refine ⟨id, l, ?_, hl.store ▸ hstored, huser⟩
    generalize role.get (v.transaction h) = r at hsame
    cases hsame
    rfl

theorem Workspace.Looks.staysOwn (hl : Looks h w v) : StaysOwn h user logged [] w v := fun hw =>
  ⟨hw.of_confined hl.isChanging (hl.agree hw.agree) hl.own.id_eq hl.confined, hl.confined⟩

/-- What does not touch the transaction in memory is confined if its changes to the store are. -/
theorem staysOwn_of_live (hlive : v.live = w.live) (hchanging : v.isChanging = w.isChanging)
    (hagree : w.LabelsAgree → v.LabelsAgree)
    (hstore : w.IsAtWork h user logged → w.store.KeepsTo user v.store) :
    StaysOwn h user logged [] w v := by
  intro hw
  have htransaction : v.transaction h = w.transaction h := by
    rw [Workspace.transaction, hlive, Workspace.transaction]
  have hkept := hstore hw
  have hconfined : Confined h user [] w v := by
    refine ⟨hkept, ?_, fun role => Or.inl ?_, fun role hown => ?_⟩
    · rw [htransaction]
      exact .same _
    · rw [htransaction]
      exact .same _
    · obtain ⟨id, l, hknown, hstored, huser⟩ := hown.resolve_right (nomatch ·)
      refine ⟨id, l, ?_, (hkept.labels role.kind).find? hstored, huser⟩
      rw [htransaction]
      exact hknown
  refine ⟨hw.of_confined hchanging (hagree hw.agree) ?_ hconfined, hconfined⟩
  rw [htransaction]

/-- Setting fields of the transaction in memory, but not its number or account.  References are only
set to labels of the user. -/
theorem staysOwn_change {f : LiveTransaction → LiveTransaction} {reported : List TransactionField}
    (hid : ∀ t, (f t).id = t.id) (haccount : ∀ t, (f t).account = t.account)
    (hrole : ∀ role : LabelRole,
      (∀ t, role.get (f t) = role.get t) ∧ role.field ∉ reported ∨
        ∃ id l, (∀ t, role.get (f t) = .known id l) ∧
          (w.store.labels role.kind).find? id = some l ∧ l.user = user) :
    StaysOwn h user logged reported w { w with live := w.live.update h f } := by
  intro hw
  have hset : { w with live := w.live.update h f }.transaction h = f (w.transaction h) :=
    transaction_update_self (live_has_of_isSet hw.owned.isSet) f
  have hconfined : Confined h user reported w { w with live := w.live.update h f } := by
    refine ⟨Std.Refl.refl _, ?_, fun role => ?_, fun role hown => ?_⟩
    · rw [hset, haccount]
      exact .same _
    · rw [hset]
      rcases hrole role with ⟨hsame, -⟩ | ⟨id, l, hknown, -, huser⟩
      · rw [hsame]
        exact Or.inl (.same _)
      · exact Or.inr ⟨id, l, hknown _, huser⟩
    · rcases hrole role with ⟨hsame, hfield⟩ | ⟨id, l, hknown, hstored, huser⟩
      · obtain ⟨id, l, hknown, hstored, huser⟩ := hown.resolve_right hfield
        refine ⟨id, l, ?_, hstored, huser⟩
        rw [hset, hsame]
        exact hknown
      · refine ⟨id, l, ?_, hstored, huser⟩
        rw [hset]
        exact hknown _
  refine ⟨hw.of_confined rfl hw.agree ?_ hconfined, hconfined⟩
  rw [hset, hid]

theorem staysOwn_findOrAddLabel (kind : LabelKind) (name : String) (hw : w.isChanging = true) :
    StaysOwn h user logged [] w ((findOrAddLabel kind name user).runOn w).2 := by
  have hagree := fun hagree => labelsAgree_findOrAddLabel hagree kind name user hw
  rw [runOn_findOrAddLabel kind name user hw] at hagree ⊢
  split
  · next id label hnamed =>
    rw [hnamed] at hagree
    exact staysOwn_of_live rfl rfl hagree fun _ => Std.Refl.refl _
  · next hnone =>
    rw [hnone] at hagree
    exact staysOwn_of_live rfl rfl hagree fun _ => Store.keepsTo_addLabel kind rfl rfl

theorem staysOwn_putTag {tag : Id} (hw : w.isChanging = true)
    (htag : w.store.IsLabelOf .tag user tag) :
    StaysOwn h user logged [] w ((putTag h tag).runOn w).2 := by
  rw [runOn_putTag h tag hw]
  split
  · next id hid =>
    refine staysOwn_of_live rfl rfl (labelsAgree_store · fun kind => ?_) fun hw => ?_
    · rw [Store.addLink]
      split <;> cases kind <;> rfl
    · exact Store.keepsTo_addLink (hw.row id hid) htag
  · exact Std.Refl.refl _

theorem staysOwn_takeTags (test : Id → Bool) (hw : w.isChanging = true) :
    StaysOwn h user logged [] w ((takeTags h test).runOn w).2 := by
  rw [runOn_takeTags h test hw]
  split
  · next id hid =>
    refine staysOwn_of_live rfl rfl (labelsAgree_store · fun kind => ?_) fun hw => ?_
    · cases kind <;> rfl
    · exact Store.keepsTo_removeLinks (hw.row id hid) test
  · exact Std.Refl.refl _

/-- Setting a reference to a label of the user. -/
theorem staysOwn_setRole (role : LabelRole) {id : Id} {l : Label}
    (hstored : (w.store.labels role.kind).find? id = some l) (huser : l.user = user) :
    StaysOwn h user logged [role.field] w
      { w with live := w.live.update h (role.set (.known id l)) } := by
  refine staysOwn_change (fun t => ?_) (fun t => ?_) fun other => ?_
  · cases role <;> rfl
  · cases role <;> rfl
  · by_cases hother : other = role
    · subst hother
      refine Or.inr ⟨id, l, fun t => ?_, hstored, huser⟩
      cases other <;> rfl
    · refine Or.inl ⟨fun t => ?_, ?_⟩
      · cases role <;> cases other <;> first | rfl | exact absurd rfl hother
      · cases role <;> cases other <;> first | decide | exact absurd rfl hother

/-- Carrying out an effect that uses labels of the user only. -/
theorem staysOwn_perform {effect : Effect} {fields : List TransactionField}
    (hw : w.isChanging = true) (heffect : effect.IsOwn w.store user)
    (hrun : (effect.perform h).runOn w = (.ok fields, v)) :
    StaysOwn h user logged fields w v := by
  -- What is done to tags reports no fields.
  have hnone : ∀ {x : Operation Unit} {w v : Workspace},
      StaysOwn h user logged [] w (x.runOn w).2 →
      (x >>= fun _ => pure [] : Operation (List TransactionField)).runOn w = (.ok fields, v) →
      StaysOwn h user logged fields w v := by
    intro x w v hx hrun
    obtain ⟨_, u, hfirst, hrun⟩ := runOn_bind_eq_ok hrun
    cases hrun
    rwa [hfirst] at hx
  -- The fields beside the references do not matter.
  have hplain : ∀ {f : LiveTransaction → LiveTransaction}, (∀ t, (f t).id = t.id) →
      (∀ t, (f t).account = t.account) → (∀ (role : LabelRole) t, role.get (f t) = role.get t) →
      (∀ role : LabelRole, role.field ∉ fields) →
      StaysOwn h user logged fields w { w with live := w.live.update h f } :=
    fun hid haccount hrole hfields =>
      staysOwn_change hid haccount fun role => Or.inl ⟨hrole role, hfields role⟩
  cases effect with
  | setLabel role id l =>
      cases hrun
      exact staysOwn_setRole role heffect.1 heffect.2
  | setNamedLabel role name owner =>
      cases heffect
      obtain ⟨⟨id, label⟩, u, hfind, hrun⟩ := runOn_bind_eq_ok hrun
      cases hrun
      have hfirst : StaysOwn h user logged [] w ((findOrAddLabel role.kind name user).runOn w).2 :=
        staysOwn_findOrAddLabel role.kind name hw
      rw [hfind] at hfirst
      obtain ⟨hstored, huser, -⟩ := labelNamed?_eq_some (findOrAddLabel_eq_ok hw hfind).1
      exact hfirst.trans (staysOwn_setRole role hstored huser)
  | attachTag tag => exact hnone (staysOwn_putTag hw heffect) hrun
  | attachNamedTag name owner =>
      cases heffect
      obtain ⟨⟨tag, label⟩, u, hfind, hrun⟩ := runOn_bind_eq_ok hrun
      have hfirst : StaysOwn h user logged [] w ((findOrAddLabel .tag name user).runOn w).2 :=
        staysOwn_findOrAddLabel .tag name hw
      rw [hfind] at hfirst
      obtain ⟨hnamed, -, -, hu⟩ := findOrAddLabel_eq_ok hw hfind
      obtain ⟨hstored, huser, -⟩ := labelNamed?_eq_some hnamed
      exact hfirst.trans (hnone (staysOwn_putTag hu ⟨label, hstored, huser⟩) hrun)
  | detachTag tag => exact hnone (staysOwn_takeTags _ hw) hrun
  | detachAllTags => exact hnone (staysOwn_takeTags _ hw) hrun
  | setDescription words =>
      cases hrun
      refine hplain (fun _ => rfl) (fun _ => rfl) (fun role _ => ?_) fun role => ?_
      · cases role <;> rfl
      · cases role <;> decide
  | setNote words =>
      cases hrun
      refine hplain (fun _ => rfl) (fun _ => rfl) (fun role _ => ?_) fun role => ?_
      · cases role <;> rfl
      · cases role <;> decide
  | setType words =>
      cases hrun
      refine hplain (fun _ => rfl) (fun _ => rfl) (fun role _ => ?_) fun role => ?_
      · cases role <;> rfl
      · cases role <;> decide
  | markReconciled =>
      cases hrun
      refine hplain (fun _ => rfl) (fun _ => rfl) (fun role _ => ?_) fun role => ?_
      · cases role <;> rfl
      · cases role <;> decide
  | notify rule message =>
      exact hnone (staysOwn_of_live rfl rfl id fun _ => Std.Refl.refl _) hrun

end Steps

/-! ## Rules -/

section Rules

variable {h : Handle} {user : Id} {logged : List RuleDefinition} {w v : Workspace}

theorem staysOwn_of_looks {α : Type} {x : Operation α} (hx : Keeps (Looks h) x) :
    Keeps (StaysOwn h user logged []) x := hx.mono fun _ _ hl => hl.staysOwn

/-- The effect is planned for the owner, and it does not matter that planning looks something up. -/
theorem isOwn_of_planned [Host] {kind : ActionKind} {a : Action} {effect : Effect}
    (hw : w.IsAtWork h user logged) (hplan : (plan kind a h).runOn w = (.ok (some effect), v)) :
    effect.IsOwn v.store user := by
  have hplanned := looks_plan kind a h w
  rw [hplan] at hplanned
  rw [hplanned.store]
  exact isOwn_plan hw.agree hw.owned hplan

/-- An action stays with what the user owns, whatever comes of it. -/
theorem staysOwn_runAction [Host] (a : Action) (dryRun : Bool) :
    Keeps (StaysOwn h user logged []) (runAction a h dryRun) := by
  rw [runAction]
  refine (staysOwn_of_looks (looks_transaction h)).bind fun t => ?_
  dsimp only
  split
  · exact (staysOwn_of_looks (looks_report _)).bind fun _ => keeps_pure _
  · next kind _ =>
    refine Keeps.tryCatch ?_ fun _ => ?_
    · rw [attemptAction]
      refine (staysOwn_of_looks (looks_describe a)).bind fun description => ?_
      refine (staysOwn_of_looks (looks_plan kind a h)).bind_under fun w effect v hw hplan hv => ?_
      cases effect with
      | none => exact keeps_pure _ v
      | some effect =>
          dsimp only
          split
          · exact ((keeps_pure []).bind fun changes => keeps_pure _) v
          · -- What is planned within a change is carried out without failures.
            obtain ⟨changes, u, hperform, -⟩ := succeeds_perform h effect v hv.changing
            have hkept : StaysOwn h user logged changes v u :=
              staysOwn_perform hv.changing (isOwn_of_planned hw hplan) hperform
            rw [runOn_bind, hperform]
            exact fun hv => (hkept hv).imp_right Confined.unreported
    · exact (staysOwn_of_looks (looks_report _)).bind fun _ => keeps_pure _

/-- Live actions report the references that they set. -/
theorem reporting_fills [Host] :
    Reporting h false fun fields => Under (IsAtWork h user []) (Fills h user fields) where
  looks hl hw := (hl.staysOwn hw).imp_right Confined.fills
  logged {w v} hv hw := by
    have htransaction := hv.transaction h
    have hlabels : ∀ kind, v.store.labels kind = w.store.labels kind := by
      intro kind
      rw [hv.store]
      cases kind <;> rfl
    refine ⟨⟨hv.isChanging.trans hw.changing, hw.owned.of_account ?_, fun kind id found hfound => ?_,
      fun id hid => ?_, fun _ hr => nomatch hr⟩, fun role hown => ?_⟩
    · rw [htransaction]
    · rw [hv.labels] at hfound
      rw [hlabels]
      exact hw.agree kind id found hfound
    · rw [htransaction] at hid
      rw [hv.store]
      exact hw.row id hid
    · obtain ⟨id, l, hknown, hstored, huser⟩ := hown.resolve_right (nomatch ·)
      rw [← htransaction] at hknown
      rw [← hlabels] at hstored
      exact ⟨id, l, hknown, hstored, huser⟩
  trans hv hu hw := by
    obtain ⟨hatWork, hfirst⟩ := hv hw
    obtain ⟨hatWork, hlater⟩ := hu hatWork
    exact ⟨hatWork, hfirst.trans hlater⟩
  action {a outcome w v} hrun hw := by
    rcases runAction_cases hw.changing hrun with
      ⟨-, hnone, hlooks⟩ | ⟨-, kind, u, effect, u', -, hlooks, hplan, hperform⟩
    · rw [hnone]
      exact (hlooks.staysOwn hw).imp_right Confined.fills
    · have hplanned := looks_plan kind a h u
      rw [hplan] at hplanned
      have hu := (hlooks.staysOwn hw).1
      have hu' := (hplanned.staysOwn hu).1
      have hdone : StaysOwn h user [] outcome.changes u' v :=
        staysOwn_perform hu'.changing (isOwn_of_planned hu hplan) hperform
      exact (((hlooks.trans hplanned).staysOwn.trans hdone) hw).imp_right Confined.fills

namespace Engine

variable {e : Engine} {trigger : Trigger} {dryRun : Bool}

/-- A rule of the user is logged for a transaction of the user. -/
theorem staysOwn_writeLog {log : Log} (hrule : w.store.IsRuleOf user log.rule)
    (hn : w.store.transactionOwner? log.transaction = some user) :
    StaysOwn h user logged [] w ((e.writeLog log).runOn w).2 := by
  have hcount : StaysOwn h user logged [] w { w with logWrites := w.logWrites + 1 } :=
    staysOwn_of_live rfl rfl id fun _ => Std.Refl.refl _
  have hinsert : StaysOwn h user logged [] { w with logWrites := w.logWrites + 1 }
      ((insertRow Store.logs (fun s t => { s with logs := t }) log).runOn
        { w with logWrites := w.logWrites + 1 }).2 := by
    rw [insertRow, runOn_writeResult]
    dsimp only
    split
    · refine staysOwn_of_live rfl rfl (labelsAgree_store · fun kind => ?_) fun _ => ?_
      · cases kind <;> rfl
      · exact Store.keepsTo_addLog hrule hn
    · exact Std.Refl.refl _
  rw [writeLog, runOn_bind, runOn_modify]
  dsimp only
  rw [runOn_bind, runOn_get]
  dsimp only
  split
  · exact hcount
  · refine IsTrans.trans _ _ _ hcount ?_
    rw [runOn_bind]
    rcases hrun : (insertRow Store.logs (fun s t => { s with logs := t }) log).runOn
      { w with logWrites := w.logWrites + 1 } with ⟨failure | n, v⟩ <;> rw [hrun] at hinsert
    · exact hinsert
    · exact hinsert

theorem staysOwn_logOutcome {r : RuleDefinition} (hr : r ∈ logged) {outcome : RuleOutcome}
    (hrule : outcome.rule = r.id) :
    Keeps (StaysOwn h user logged []) (e.logOutcome h outcome trigger dryRun) := by
  intro w hw
  rw [logOutcome, runOn_bind, runOn_transaction]
  dsimp only
  split
  · next n id hnumber hid =>
    split
    · rw [runOn_bind, runOn_get]
      exact staysOwn_writeLog (hw.rules r hr n (hrule ▸ hnumber)) (hw.row id hid) hw
    · exact ⟨hw, Std.Refl.refl w⟩
  · exact ⟨hw, Std.Refl.refl w⟩

/-- The rules stay with what the user owns. -/
theorem confined_runRules [Host] {log : Bool} {rules : List RuleDefinition}
    (hlogged : log = true → rules ⊆ logged) :
    Keeps (StaysOwn h user logged []) (e.runRules h trigger dryRun log rules) :=
  keeps_runRules (fun _ _ hl => hl.staysOwn) (staysOwn_runAction · dryRun)
    fun _ hr _ hlog hrule => staysOwn_logOutcome (hlogged hlog hr) hrule

/-- References that the rules report as changed are to labels of the user. -/
theorem fills_runRules [Host] {log : Bool} {rules : List RuleDefinition}
    {outcomes : List RuleOutcome} (hw : w.IsAtWork h user logged)
    (hrun : (e.runRules h trigger false log rules).runOn w = (.ok outcomes, v)) :
    Fills h user (outcomes.flatMap (·.changes)) w v :=
  (reporting_runRules reporting_fills hrun { hw with rules := fun _ hr => nomatch hr }).2

end Engine

end Rules

end Rulebook
