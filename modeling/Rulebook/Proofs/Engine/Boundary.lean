import Rulebook.Proofs.Engine.Ownership

/-!
# Runs and the data of other users

A batch may contain transactions of anybody.  What belongs to others nevertheless stays as it is,
because a run asks for the owner of each transaction before it does anything for it.  Afterwards
work on the transaction is confined to what the user owns, and this includes the saving of what was
changed.  If anything fails, the store is the one before, and the transaction is read again from its
row.

The owner is asked of the transaction in memory.  A transaction that somebody loaded long ago, or
built by hand, may name another account than its row does, and then the answer is not that of the
store.  Hence the one assumption: the account of a transaction in memory is that of its row
(`LiveTransaction.HasItsAccount`).  It stays true in the course of a run.

## Main definitions

* `LiveTransaction.HasItsAccount` — the account in memory is that of the row.
* `Workspace.KeepsTo` — a run for a user kept to what the user owns.

## Main statements

* `EntryPoint.run_keeps_to_owner` — every run keeps to what its user owns.
-/

namespace Rulebook

open Program Workspace

section

/-! ## Saving -/

section Saving

variable {h : Handle} {user : Id} {logged : List RuleDefinition} {w v : Workspace}

/-- The fields may be saved: actions set them, and the references among them are to labels of the
user. -/
structure Workspace.MaySave (h : Handle) (user : Id) (fields : List TransactionField)
    (w : Workspace) : Prop where
  settable : fields ⊆ TransactionField.settable
  owned : ∀ role : LabelRole, role.field ∈ fields → w.RefersToOwn h user role

/-- Saving writes references that are the user's to a row of the user. -/
theorem keepsTo_copyFields {t : LiveTransaction} {fields : List TransactionField}
    {now : Calendar.Instant} {content row : Transaction} {s : Store}
    (hcontent : t.contentOf fields now = .ok content) (hsettable : fields ⊆ TransactionField.settable)
    (hfields : ∀ role : LabelRole, role.field ∈ fields →
      ∃ id, (role.get t).id = some id ∧ s.IsLabelOf role.kind user id) :
    row.KeepsTo user s True (copyFields content fields row) := by
  have hrole : ∀ (role : LabelRole) (row : Transaction),
      row.content role.field = .reference (role.inRow row) := by
    intro role row
    cases role <;> rfl
  refine ⟨?_, fun hforeign => absurd trivial hforeign, fun role => ?_⟩
  · have haccount := content_copyFields content row fields .account
    rw [if_neg fun hmem => absurd (hsettable hmem) (by decide)] at haccount
    injection haccount with haccount
    exact Option.some.inj haccount
  · have hsaved := content_copyFields content row fields role.field
    rw [hrole] at hsaved
    split at hsaved
    · next hmem =>
      obtain ⟨id, hid, hlabel⟩ := hfields role hmem
      rw [(content_of_contentOf hcontent).2 _ hmem (hsettable hmem)] at hsaved
      refine Or.inr ⟨id, ?_, hlabel⟩
      cases role <;> (injection hsaved with hsaved; exact hsaved.trans hid)
    · rw [hrole] at hsaved
      injection hsaved with hsaved
      exact Or.inl hsaved

/-- What is to be saved of a transaction is put together after it was stamped with the time. -/
theorem runOn_prepareSaving (h : Handle) (fields : List TransactionField) (w : Workspace) :
    (prepareSaving h fields).runOn w =
      let u := { w with live := w.live.update h fun t => { t with updatedAt := some w.now } }
      ((u.transaction h).contentOf fields w.now, u) := by
  rw [prepareSaving, runOn_bind, runOn_get]
  rfl

/-- Saving stays with what the user owns. -/
theorem staysOwn_saveFields {fields : List TransactionField} (hsave : w.MaySave h user fields) :
    StaysOwn h user logged [] w ((saveFields h fields).runOn w).2 := by
  intro hw
  rw [saveFields, runOn_bind, runOn_transaction]
  dsimp only
  split
  · exact ⟨hw, Std.Refl.refl w⟩
  · next id hid =>
    have hstamp : StaysOwn h user logged [] w
        { w with live := w.live.update h fun t => { t with updatedAt := some w.now } } := by
      refine staysOwn_change (fun _ => rfl) (fun _ => rfl) fun role => Or.inl ⟨fun t => ?_, ?_⟩
      · cases role <;> rfl
      · exact List.not_mem_nil
    rw [runOn_bind, runOn_prepareSaving]
    dsimp only
    generalize hu : { w with live := w.live.update h fun t => { t with updatedAt := some w.now } } =
      u at hstamp ⊢
    have hnumber : (u.transaction h).id = some id := by
      rw [← hu, transaction_update_self (live_has_of_id hid)]
      exact hid
    cases hcontent : (u.transaction h).contentOf fields w.now with
    | error failure => exact hstamp hw
    | ok content =>
        refine hstamp.trans ?_ hw
        -- Stamping has not changed what the references are to.
        have hown : ∀ role : LabelRole, role.field ∈ fields →
            ∃ n, (role.get (u.transaction h)).id = some n ∧
              u.store.IsLabelOf role.kind user n := by
          intro role hmem
          obtain ⟨n, l, hknown, hstored⟩ := (hstamp hw).2.fills role (Or.inl (hsave.owned role hmem))
          exact ⟨n, congrArg Reference.id hknown, l, hstored⟩
        dsimp only
        rw [runOn_writeResult]
        split
        · next _ s hs =>
          split at hs
          · cases hs
            split
            · refine staysOwn_of_live rfl rfl (labelsAgree_store · fun kind => ?_) fun hatWork => ?_
              · cases kind <;> rfl
              · exact Store.keepsTo_updateTransaction (hatWork.row id hnumber) fun row _ =>
                  keepsTo_copyFields hcontent hsave.settable hown
            · exact Std.Refl.refl u
          · cases hs
        · exact Std.Refl.refl u

/-- Telling the observer stays with what the user owns, if what is reported as changed is. -/
theorem Engine.staysOwn_tellObserver {e : Engine} (hsaving : e.IsSaving)
    {summary : TransactionSummary} {dryRun : Bool}
    (hsave : dryRun = false → w.MaySave h user summary.changes) :
    StaysOwn h user logged [] w ((e.tellObserver h summary dryRun).runOn w).2 := by
  have hpersist : dryRun = false →
      StaysOwn h user logged [] w ((persistChanges h summary).runOn w).2 := by
    intro hlive
    rw [persistChanges]
    split
    · exact Std.Refl.refl w
    · exact staysOwn_saveFields (hsave hlive)
  rw [tellObserver]
  split
  · next observer hsome =>
    split
    · exact Std.Refl.refl w
    · next hlive =>
      rw [Bool.not_eq_true] at hlive
      rcases hsaving observer hsome with rfl | ⟨refuses, rfl⟩
      · exact hpersist hlive
      · rw [savingUnless, runOn_bind, runOn_transaction]
        dsimp only
        split
        · exact Std.Refl.refl w
        · exact hpersist hlive
  · exact Std.Refl.refl w

/-- What the rules of a live run report as changed may be saved. -/
theorem Engine.maySave_runRules [Host] {e : Engine} {trigger : Trigger} {log : Bool}
    {rules : List RuleDefinition} {outcomes : List RuleOutcome} (hw : w.IsAtWork h user logged)
    (id : Option Id) (hrun : (e.runRules h trigger false log rules).runOn w = (.ok outcomes, v)) :
    v.MaySave h user (TransactionSummary.ofOutcomes id outcomes).changes := by
  have hreported : ∀ field, field ∈ (TransactionSummary.ofOutcomes id outcomes).changes →
      field ∈ outcomes.flatMap (·.changes) := fun field =>
    TransactionSummary.mem_changes_ofOutcomes.1
  refine ⟨fun field hmem => ?_, fun role hmem => ?_⟩
  · exact (edits_runRules hw.changing hrun).settable (hreported field hmem)
  · exact fills_runRules hw hrun role (Or.inr (hreported _ hmem))

end Saving

/-! ## Whose transaction it is -/

namespace LiveTransaction

/-- The transaction has no row, or its account is that of its row, and the account that it has
looked up is stored. -/
def HasItsAccount (s : Store) (t : LiveTransaction) : Prop :=
  ∀ id, t.id = some id → ∃ row, s.transactions.find? id = some row ∧
    t.account.id = some row.account ∧
    ∀ a, t.account.loaded = some a → s.accounts.find? row.account = some a.account

variable {user : Id} {s s' : Store} {t t' : LiveTransaction}

/-- The account is still that of the row after it was looked up, as no account is changed and no row
gets another account. -/
theorem HasItsAccount.of_lookedUp (ht : t.HasItsAccount s) (hid : t'.id = t.id)
    (hlooked : t.account.LookedUp (AccountRow s) t'.account) (hs : s.KeepsTo user s') :
    t'.HasItsAccount s' := by
  intro id hnumber
  obtain ⟨row, hrow, haccount, hloaded⟩ := ht id (hid ▸ hnumber)
  have hrows := hs.transactions id
  rw [hrow] at hrows
  generalize s'.transactions.find? id = after at hrows ⊢
  cases hrows with
  | @some _ row' hkept =>
      refine ⟨row', rfl, ?_, fun a ha => ?_⟩
      · rw [hlooked.id_eq, hkept.account]
        exact haccount
      · rw [hs.accounts, hkept.account]
        generalize t.account = r at hlooked haccount hloaded
        generalize t'.account = r' at hlooked ha
        cases hlooked with
        | same => exact hloaded a ha
        | found hfound =>
            cases haccount
            cases ha
            exact hfound.1

end LiveTransaction

section Owner

variable {h : Handle} {user : Id} {w : Workspace}

/-- The owner who was looked up in memory is the owner of the row. -/
theorem transactionOwner?_of_ownedBy (ht : (w.transaction h).HasItsAccount w.store)
    (hw : w.OwnedBy h user) {id : Id} (hid : (w.transaction h).id = some id) :
    w.store.transactionOwner? id = some user := by
  obtain ⟨row, hrow, -, hstored⟩ := ht id hid
  obtain ⟨account, hloaded, huser⟩ := hw.loaded
  rw [Store.transactionOwner?, hrow, Option.bind_some, Store.ownerOf?, hstored account hloaded,
    Option.map_some, huser]

/-- Once the user is known to be the owner, a transaction of the user is worked on. -/
theorem isAtWork_of_ownerOf {log : Bool} {rules : List RuleDefinition} {v : Workspace}
    (hw : w.isChanging = true) (hagree : w.LabelsAgree)
    (ht : (w.transaction h).HasItsAccount w.store)
    (hrules : log = true → ∀ r ∈ rules, ∀ n, r.id = .int n → w.store.IsRuleOf user n)
    (hrun : (ownerOf h).runOn w = (.ok (some user), v)) :
    v.IsAtWork h user (if log then rules else []) := by
  have hlooks := looks_ownerOf h w
  rw [hrun] at hlooks
  have hconfined : Confined h user [] w v := hlooks.confined
  have howned := ownedBy_of_ownerOf hrun
  refine ⟨hlooks.isChanging.trans hw, howned, hlooks.agree hagree, fun id hid => ?_, ?_⟩
  · have hstays := ht.of_lookedUp hlooks.own.id_eq hconfined.account hconfined.store
    exact transactionOwner?_of_ownedBy hstays howned hid
  · intro r hr
    rw [hlooks.store]
    split at hr
    · next hlogged => exact hrules hlogged r hr
    · cases hr

end Owner

namespace Engine

variable {e : Engine} {rules : List RuleDefinition} {trigger : Trigger} {dryRun log : Bool}
  {h : Handle} {w : Workspace}

/-- The rules and the observer stay with what the user owns. -/
theorem staysOwn_runRules_tellObserver [Host] (hsaving : e.IsSaving) {logged : List RuleDefinition}
    (hlogged : log = true → rules ⊆ logged) (id : Option Id) :
    Keeps (StaysOwn h e.user logged []) (do
      let outcomes ← e.runRules h trigger dryRun log rules
      let _ ← e.tellObserver h (.ofOutcomes id outcomes) dryRun
      return TransactionSummary.ofOutcomes id outcomes : Operation TransactionSummary) := by
  refine (confined_runRules hlogged).bind_under fun w outcomes v hw hrun hv => ?_
  have htell : StaysOwn h e.user logged [] v
      ((e.tellObserver h (.ofOutcomes id outcomes) dryRun).runOn v).2 := by
    refine staysOwn_tellObserver hsaving ?_
    rintro rfl
    exact maySave_runRules hw id hrun
  rw [runOn_bind]
  rcases hobserved : (e.tellObserver h (.ofOutcomes id outcomes) dryRun).runOn v with
    ⟨failure | _, u⟩ <;> rw [hobserved] at htell
  · exact htell
  · exact htell

variable (trigger dryRun w) in
/-- Whatever becomes of a transaction whose account is that of its row, it stays with what the user
owns. -/
theorem confined_runTransaction [Host] (hsaving : e.IsSaving) (hw : w.isChanging = true)
    (hagree : w.LabelsAgree) (ht : (w.transaction h).HasItsAccount w.store)
    (hrules : log = true → ∀ r ∈ rules, ∀ n, r.id = .int n → w.store.IsRuleOf e.user n) :
    ((e.runTransaction h rules trigger dryRun log).runOn w).2.LabelsAgree ∧
      Confined h e.user [] w ((e.runTransaction h rules trigger dryRun log).runOn w).2 := by
  have hlooks := looks_ownerOf h w
  rw [runTransaction_eq, runOn_bind, runOn_transaction]
  dsimp only
  rw [runOn_bind]
  rcases howner : (ownerOf h).runOn w with ⟨failure | owner, u⟩ <;> rw [howner] at hlooks <;>
    dsimp only at hlooks ⊢
  · exact ⟨hlooks.agree hagree, hlooks.confined⟩
  · by_cases hmine : owner = some e.user
    · subst hmine
      rw [if_neg (not_not.2 rfl), runOn_bind, runOn_pure]
      dsimp only
      -- From here on a transaction of the user is worked on.
      have hlooked : Confined h e.user [] w u := hlooks.confined
      have hu : u.IsAtWork h e.user (if log then rules else []) :=
        isAtWork_of_ownerOf hw hagree ht hrules howner
      have hlogged : log = true → rules ⊆ if log then rules else [] := by
        rintro rfl
        exact List.Subset.refl rules
      obtain ⟨hatWork, hconfined⟩ :=
        staysOwn_runRules_tellObserver hsaving hlogged (w.transaction h).id u hu
      exact ⟨hatWork.agree, hlooked.trans hconfined⟩
    · rw [if_pos hmine, runOn_bind, runOn_throw]
      exact ⟨hlooks.agree hagree, hlooks.confined⟩

end Engine

/-! ## What becomes of the transactions in memory -/

/-- The reference is to a label of the user, by what is stored or by what was looked up. -/
def Workspace.OwnsReference (user : Id) (w : Workspace) (k : Handle) (role : LabelRole) : Prop :=
  ∃ id, (role.get (w.transaction k)).id = some id ∧
    (w.store.IsLabelOf role.kind user id ∨
      ∃ l, (role.get (w.transaction k)).loaded = some l ∧ l.user = user)

/-- The run kept to what the user owns.  In the store, whatever is different belongs to the user.  In
memory, transactions keep their numbers and their accounts.  Their references to labels are as they
were, or they are those of the row, or they are to labels of the user. -/
structure Workspace.KeepsTo (user : Id) (w v : Workspace) : Prop where
  store : w.store.KeepsTo user v.store
  ids : ∀ k, (v.transaction k).id = (w.transaction k).id
  accounts : ∀ k, (w.transaction k).HasItsAccount w.store → (v.transaction k).HasItsAccount v.store
  references : ∀ k (role : LabelRole),
    (role.get (w.transaction k)).LookedUp (fun _ _ => True) (role.get (v.transaction k)) ∨
      (∃ id row, (w.transaction k).id = some id ∧ w.store.transactions.find? id = some row ∧
        (role.get (v.transaction k)).id = role.inRow row) ∨
      v.OwnsReference user k role

namespace Workspace

variable {user : Id} {h : Handle} {w v u : Workspace}

/-- A reference to a label of the user stays one. -/
theorem OwnsReference.of_lookedUp {k : Handle} {role : LabelRole} (hv : v.OwnsReference user k role)
    (hlooked : (role.get (v.transaction k)).LookedUp (fun _ _ => True) (role.get (u.transaction k)))
    (hstore : v.store.KeepsTo user u.store) : u.OwnsReference user k role := by
  obtain ⟨id, hid, hown⟩ := hv
  refine ⟨id, hlooked.id_eq.trans hid, hown.imp (·.grows (hstore.labels role.kind)) ?_⟩
  rintro ⟨l, hloaded, huser⟩
  refine ⟨l, ?_, huser⟩
  generalize role.get (v.transaction k) = r at hlooked hloaded
  generalize role.get (u.transaction k) = r' at hlooked ⊢
  cases hlooked with
  | same => exact hloaded
  | found => cases hloaded

instance (user : Id) : IsPreorder Workspace (KeepsTo user) where
  refl _ := ⟨Std.Refl.refl _, fun _ => rfl, fun _ => id, fun _ _ => Or.inl (.same _)⟩
  trans w v u hwv hvu :=
    { store := IsTrans.trans _ _ _ hwv.store hvu.store
      ids := fun k => (hvu.ids k).trans (hwv.ids k)
      accounts := fun k => hvu.accounts k ∘ hwv.accounts k
      references := fun k role => by
        rcases hvu.references k role with hlooked | ⟨id, row, hid, hrow, hreread⟩ | hown
        · rcases hwv.references k role with hfirst | ⟨id, row, hid, hrow, hreread⟩ | hown
          · exact Or.inl (hfirst.trans hlooked)
          · exact Or.inr (Or.inl ⟨id, row, hid, hrow, hlooked.id_eq.trans hreread⟩)
          · exact Or.inr (Or.inr (hown.of_lookedUp hlooked hvu.store))
        · -- What was read again is in a row that is as before or has a label of the user by now.
          have hrows := hwv.store.transactions id
          rw [hrow] at hrows
          generalize hbefore : w.store.transactions.find? id = before at hrows
          cases hrows with
          | @some row₀ _ hkept =>
              rcases hkept.roles role with hsame | ⟨n, hn, hlabel⟩
              · exact Or.inr (Or.inl ⟨id, row₀, (hwv.ids k).symm.trans hid, hbefore,
                  hreread.trans hsame⟩)
              · exact Or.inr (Or.inr ⟨n, hreread.trans hn,
                  Or.inl (hlabel.grows (hvu.store.labels role.kind))⟩)
        · exact Or.inr (Or.inr hown) }

/-- Work on one transaction keeps to what the user owns if it does so in the store and in that
transaction. -/
theorem Works.keepsTo {L : Table Log → Table Log → Prop} (hv : Works L h w v)
    (hstore : w.store.KeepsTo user v.store)
    (haccount : (w.transaction h).HasItsAccount w.store → (v.transaction h).HasItsAccount v.store)
    (hreferences : ∀ role : LabelRole,
      (role.get (w.transaction h)).LookedUp (fun _ _ => True) (role.get (v.transaction h)) ∨
        (∃ id row, (w.transaction h).id = some id ∧ w.store.transactions.find? id = some row ∧
          (role.get (v.transaction h)).id = role.inRow row) ∨
        v.OwnsReference user h role) :
    KeepsTo user w v where
  store := hstore
  ids := hv.id_eq
  accounts k hk := by
    by_cases hkh : k = h
    · subst hkh
      exact haccount hk
    · rw [hv.others k hkh]
      exact hk.of_lookedUp rfl (.same _) hstore
  references k role := by
    by_cases hkh : k = h
    · subst hkh
      exact hreferences role
    · rw [hv.others k hkh]
      exact Or.inl (.same _)

/-- Reading a transaction again keeps to what the user owns. -/
theorem keepsTo_reread {n : Id} {row : Transaction} (hn : (w.transaction h).id = some n)
    (hrow : w.store.transactions.find? n = some row) :
    KeepsTo user w { w with live := w.live.update h fun _ => .ofRow n row } := by
  have hworks : Works Eq h w { w with live := w.live.update h fun _ => .ofRow n row } :=
    works_change hn.symm
  have hread := transaction_update_self (live_has_of_id hn) fun _ => LiveTransaction.ofRow n row
  refine hworks.keepsTo (Std.Refl.refl _) (fun _ => ?_) fun role => Or.inr (Or.inl ?_)
  · rw [hread]
    rintro _ ⟨⟩
    exact ⟨row, hrow, rfl, fun _ ha => nomatch ha⟩
  · refine ⟨n, row, hn, hrow, ?_⟩
    rw [hread]
    cases role <;> rfl

/-- Dropping a change keeps to what the user owns, and the label cache is empty then. -/
theorem keepsTo_discard (user : Id) (h : Handle) (w : Workspace) :
    ((Engine.discard h).runOn w).2.LabelsAgree ∧
      KeepsTo user w ((Engine.discard h).runOn w).2 := by
  have hforgotten : KeepsTo user w
      { w with labels := [], fields := w.fields.forget (w.transaction h).id } :=
    ⟨Std.Refl.refl _, fun _ => rfl, fun _ => id, fun _ _ => Or.inl (.same _)⟩
  rw [runOn_discard, runOn_refresh]
  split
  · exact ⟨labelsAgree_nil _, hforgotten⟩
  · next n hn =>
    split
    · next row hrow =>
      exact ⟨labelsAgree_nil _, IsTrans.trans _ _ _ hforgotten (keepsTo_reread hn hrow)⟩
    · exact ⟨labelsAgree_nil _, hforgotten⟩

end Workspace

/-! ## Runs -/

namespace Engine

variable {e : Engine} {rules : List RuleDefinition} {trigger : Trigger} {dryRun log : Bool}
  {h : Handle} {w : Workspace}

/-- A run may take its turn: the label cache tells the truth, the transactions have the accounts of
their rows, and the rules that are logged are the user's. -/
structure MayRun (e : Engine) (rules : List RuleDefinition) (log : Bool) (handles : List Handle)
    (w : Workspace) : Prop where
  agree : w.LabelsAgree
  accounts : ∀ h ∈ handles, (w.transaction h).HasItsAccount w.store
  rules : log = true → ∀ r ∈ rules, ∀ n, r.id = .int n → w.store.IsRuleOf e.user n

/-- The next turn may be taken when the one before kept to what the user owns. -/
theorem MayRun.of_keepsTo {handles : List Handle} {v : Workspace}
    (hw : e.MayRun rules log handles w) (hagree : v.LabelsAgree) (hv : w.KeepsTo e.user v) :
    e.MayRun rules log handles v where
  agree := hagree
  accounts h hh := hv.accounts h (hw.accounts h hh)
  rules hlog r hr n hn := by
    have hrule := hw.rules hlog r hr n hn
    rwa [Store.IsRuleOf, ← hv.store.rules] at hrule

variable (trigger dryRun) in
/-- The change for a transaction, made or taken back, keeps to what the user owns. -/
theorem keepsTo_attempt [Host] (hsaving : e.IsSaving) {handles : List Handle}
    (hw : e.MayRun rules log handles w) (hh : h ∈ handles) :
    (∀ t v, (atomically (e.runTransaction h rules trigger dryRun log)).runOn w = (.ok t, v) →
      v.LabelsAgree) ∧
    w.KeepsTo e.user ((atomically (e.runTransaction h rules trigger dryRun log)).runOn w).2 := by
  have hworks : Works AnyLogs h w
      ((atomically (e.runTransaction h rules trigger dryRun log)).runOn w).2 :=
    works_attempt (fun _ _ _ _ _ => trivial) rules log h
      (fun _ summary hsome _ => works_observer hsaving hsome h summary) w
  obtain ⟨hagree, hconfined⟩ := confined_runTransaction trigger dryRun
    { w with isChanging := true } hsaving rfl hw.agree (hw.accounts h hh) hw.rules
  rw [runOn_atomically] at hworks ⊢
  rcases hrun : (e.runTransaction h rules trigger dryRun log).runOn { w with isChanging := true }
    with ⟨result, v⟩
  rw [hrun] at hworks hagree hconfined
  dsimp only at hworks hagree hconfined ⊢
  -- The transaction in memory is the same whether the change is made or taken back.
  have hkept : ∀ y : Workspace, y.live = v.live → Works AnyLogs h w y →
      w.store.KeepsTo e.user y.store → w.KeepsTo e.user y := by
    intro y hlive hy hstore
    have hsame : y.transaction h = v.transaction h := by
      rw [Workspace.transaction, hlive, Workspace.transaction]
    refine hy.keepsTo hstore (fun ht => ht.of_lookedUp hy.ownId ?_ hstore) fun role => ?_
    · rw [hsame]
      exact hconfined.account
    · rcases hconfined.references role with hlooked | ⟨id, l, hknown, huser⟩
      · rw [hsame]
        exact Or.inl hlooked
      · rw [← hsame] at hknown
        refine Or.inr (Or.inr ?_)
        rw [OwnsReference, hknown]
        exact ⟨id, rfl, Or.inr ⟨l, rfl, huser⟩⟩
  cases result with
  | error failure =>
      refine ⟨?_, hkept _ rfl hworks (Std.Refl.refl _)⟩
      rintro _ _ ⟨⟩
  | ok t =>
      by_cases hcommit : (w.isChanging || v.store.referencesHold) = true
      · simp only [settle, hcommit, if_true] at hworks ⊢
        refine ⟨?_, hkept _ rfl hworks hconfined.store⟩
        rintro _ _ ⟨⟩
        exact hagree
      · simp only [settle, hcommit, Bool.false_eq_true, if_false] at hworks ⊢
        refine ⟨?_, hkept _ rfl hworks (Std.Refl.refl _)⟩
        rintro _ _ ⟨⟩

/-- A turn keeps to what the user owns. -/
theorem keepsTo_processOne [Host] (hsaving : e.IsSaving) {handles : List Handle}
    (hh : h ∈ handles) : Keeps (Under (e.MayRun rules log handles) (Workspace.KeepsTo e.user))
      (e.processOne rules trigger dryRun log h) := by
  intro w hw
  obtain ⟨hagree, hattempt⟩ := keepsTo_attempt trigger dryRun hsaving hw hh
  rw [runOn_processOne]
  rcases hrun : (atomically (e.runTransaction h rules trigger dryRun log)).runOn w with
    ⟨failure | t, v⟩ <;> rw [hrun] at hattempt <;> dsimp only at hattempt ⊢
  · obtain ⟨hnone, hdropped⟩ := keepsTo_discard e.user h v
    have hboth := IsTrans.trans _ _ _ hattempt hdropped
    rcases hdiscard : (discard h).runOn v with ⟨failure' | _, u⟩ <;>
      rw [hdiscard] at hnone hboth <;> dsimp only at hnone hboth ⊢
    · exact ⟨hw.of_keepsTo hnone hboth, hboth⟩
    · have hreported : Workspace.KeepsTo e.user w
          { u with
            events := .transactionFailed e.user (rules.map (·.id)) (w.transaction h).id dryRun ::
              u.events } := { hboth with }
      exact ⟨hw.of_keepsTo hnone hreported, hreported⟩
  · exact ⟨hw.of_keepsTo (hagree t v hrun) hattempt, hattempt⟩

/-- A run keeps to what the user owns if it may begin. -/
theorem keepsTo_process [Host] (hsaving : e.IsSaving) (source : Source)
    (hw : e.MayRun rules log (source.handles e w) (source.opened e w)) :
    (source.opened e w).KeepsTo e.user
      ((e.process (source.batch e) rules trigger dryRun log).runOn w).2 := by
  have hturns : Keeps (Under (e.MayRun rules log (source.handles e w)) (Workspace.KeepsTo e.user))
      ((source.handles e w).mapM (e.processOne rules trigger dryRun log)) :=
    keeps_mapM fun h hh => keepsTo_processOne hsaving hh
  have hpass := (hturns _ hw).2
  rw [runOn_process]
  rcases hrun : ((source.handles e w).mapM (e.processOne rules trigger dryRun log)).runOn
    (source.opened e w) with ⟨failure | entries, v⟩ <;> rw [hrun] at hpass
  · exact hpass
  · exact { hpass with }

end Engine

/-- The transactions that somebody holds have the accounts of their rows; those that are loaded for
the run do anyway. -/
def Source.HaveTheirAccounts (w : Workspace) : Source → Prop
  | held handles => ∀ h ∈ handles, (w.transaction h).HasItsAccount w.store
  | stored _ => True

theorem Source.hasItsAccount_opened {e : Engine} {source : Source} {w : Workspace}
    (haccounts : source.HaveTheirAccounts w) {h : Handle} (hh : h ∈ source.handles e w) :
    ((source.opened e w).transaction h).HasItsAccount w.store := by
  cases source with
  | held handles => exact haccounts h hh
  | stored test =>
      obtain ⟨id, t, hmem, hloaded⟩ := transaction_opened_stored hh
      rw [hloaded]
      rintro _ ⟨⟩
      refine ⟨t, Table.find?_eq_some_of_mem hmem, rfl, fun a ha => ?_⟩
      obtain ⟨account, haccount, rfl⟩ := Option.map_eq_some_iff.1 ha
      exact haccount

/-- The rules that take part in the runs of a user are the user's. -/
theorem Store.isRuleOf_of_mem_candidates {s : Store} {user id : Id} {row : Rule}
    (hmem : (id, row) ∈ s.candidates user) : s.IsRuleOf user id := by
  obtain ⟨hrow, hpart⟩ := List.mem_filter.1 (List.mem_mergeSort.1 hmem)
  simp only [takesPart, Bool.and_eq_true, decide_eq_true_eq] at hpart
  exact ⟨row, Table.find?_eq_some_of_mem hrow, hpart.1.1⟩

namespace EntryPoint

/-- No run crosses the boundary between users.  Take any way to start a run for a user, over any
batch, also with transactions of others, in which every transaction with a row has the account of
this row.  However the run ends, and whatever fails in it, every label, transaction, tag and log that
is different in the store belongs to the user, and accounts and rules are as they were.  What the run
made a transaction refer to is a label of the user, both in its row and in memory, and every log that
was added joins a rule of the user with a transaction of the user. -/
theorem run_keeps_to_owner [Host] {e : Engine} (hsaving : e.IsSaving) (p : EntryPoint)
    (dryRun : Bool) {w : Workspace} (haccounts : p.source.HaveTheirAccounts w) :
    match p.candidates e w with
    | .error failure => (p.start e dryRun).runOn w = (.error failure, w)
    | .ok _ => (p.source.opened e w).KeepsTo e.user ((p.start e dryRun).runOn w).2 := by
  have hstart := p.runOn_start e dryRun w
  cases hcandidates : p.candidates e w with
  | error failure =>
      rw [hcandidates] at hstart
      exact hstart
  | ok candidates =>
      obtain ⟨trigger, rules⟩ := candidates
      rw [hcandidates] at hstart
      dsimp only at hstart ⊢
      rw [hstart]
      refine Engine.keepsTo_process hsaving p.source ⟨labelsAgree_nil _, ?_, ?_⟩
      · exact fun h hh => Source.hasItsAccount_opened haccounts hh
      · intro hlogged r hr n hn
        obtain ⟨id, row, hmem, rfl⟩ := exists_of_candidates hlogged hcandidates hr
        cases hn
        exact Store.isRuleOf_of_mem_candidates hmem

end EntryPoint

end

namespace SmallLedger

/-- A transaction of the second user. -/
def foreignTransaction : Transaction := { transaction with account := 2 }

/-- The ledger with a second user, who has an account, a category and a transaction. -/
def shared : Store :=
  { store with
    users := store.users.insert ⟨"Bob", "bob@example.org", true⟩
    accounts := store.accounts.insert ⟨2, "Savings"⟩
    categories := store.categories.insert ⟨2, "Secret", "", none⟩
    transactions := store.transactions.insert foreignTransaction }

/-- A transaction of each user, held in memory. -/
def sharedWorkspace : Workspace where
  store := shared
  live := (Table.insert {} (.ofRow 1 transaction)).insert (.ofRow 3 foreignTransaction)
  now := startInstant
  settings := standardSettings

end SmallLedger

/-- A run for the first user over a transaction of each changes that of the first user only. -/
theorem EntryPoint.keeps_to_owner_in_shared :
    let run := ((EntryPoint.forTrigger (.held [1, 2]) (.text "manual")).start
        { user := 1, isLogging := true, observer := some persistChanges } false).runOn
      SmallLedger.sharedWorkspace
    run.2.store.transactions.rows.map (fun row => row.2.category) = [some 1, none, none] ∧
      ((Source.held [1, 2]).opened { user := 1, isLogging := true, observer := some persistChanges }
        SmallLedger.sharedWorkspace).KeepsTo 1 run.2 := by
  refine ⟨by decide +kernel, ?_⟩
  refine EntryPoint.run_keeps_to_owner
    (e := { user := 1, isLogging := true, observer := some persistChanges }) ?_
    (.forTrigger (.held [1, 2]) (.text "manual")) false (w := SmallLedger.sharedWorkspace) ?_
  · rintro _ ⟨⟩
    exact Or.inl rfl
  · intro h hh
    rcases List.mem_pair.1 hh with rfl | rfl <;> rintro _ ⟨⟩
    · exact ⟨SmallLedger.transaction, rfl, rfl, fun _ ha => nomatch ha⟩
    · exact ⟨SmallLedger.foreignTransaction, rfl, rfl, fun _ ha => nomatch ha⟩

end Rulebook
