import Rulebook.Engine.Run
import Rulebook.Proofs.Ledger.Footprint
import Rulebook.Proofs.Program

/-!
# Looking without touching

Matching a rule, describing an action and planning it only look: they fill the caches, report
malformed conditions, and look up rows that the transaction references.  `Workspace.Looks` states
what is left after that.  Everything else is as it was, and of the transaction at hand at most the
references have changed from "not looked up" to "looked up".

Every action of a dry run only looks as well (`looks_runAction_dry`): it is described and planned,
and planning does not write.

## Main definitions

* `LiveTransaction.bare` — the values of the fields, without the rows that were looked up.
* `LiveTransaction.LookedUp` — some references of the transaction were looked up.
* `Workspace.Looks` — what looking at one transaction leaves behind.
* `Workspace.LabelsAgree` — the label cache tells the truth.
-/

namespace Rulebook

/-! ## References that were looked up -/

/-- The later reference is the earlier one, or the row that it names was looked up. -/
inductive Reference.LookedUp {α : Type} (row : Id → α → Prop) : Reference α → Reference α → Prop
  | same (r : Reference α) : LookedUp row r r
  | found {id : Id} {a : α} (h : row id a) : LookedUp row (.byId (some id)) (.known id a)

namespace Reference.LookedUp

variable {α : Type} {row : Id → α → Prop} {r s t : Reference α}

theorem trans (h : LookedUp row r s) (k : LookedUp row s t) : LookedUp row r t := by
  cases h with
  | same => exact k
  | found hrow =>
      cases k
      exact found hrow

theorem id_eq (h : LookedUp row r s) : s.id = r.id := by
  cases h <;> rfl

theorem weaken (h : LookedUp row r s) : LookedUp (fun _ _ => True) r s := by
  cases h with
  | same => exact same _
  | found => exact found trivial

end Reference.LookedUp

/-- The reference after the row that it names was looked up; none if there is no such row. -/
def Reference.resolve {α : Type} (find : Id → Option α) (r : Reference α) : Option (Reference α) :=
  match r.loaded, r.id with
  | some _, _ => some r
  | none, none => some r
  | none, some id => (find id).map (known id)

theorem Reference.lookedUp_resolve {α : Type} {row : Id → α → Prop} {find : Id → Option α}
    {r s : Reference α} (hfind : ∀ id a, find id = some a → row id a)
    (h : r.resolve find = some s) : r.LookedUp row s := by
  obtain ⟨_ | id, _ | a⟩ := r
  · cases h
    exact .same _
  · cases h
    exact .same _
  · obtain ⟨a, ha, rfl⟩ := Option.map_eq_some_iff.1 h
    exact .found (hfind id a ha)
  · cases h
    exact .same _

namespace LiveTransaction

/-- The values of the fields, no row looked up. -/
def bare (t : LiveTransaction) : LiveTransaction :=
  { t with
    account := .byId t.account.id
    category := .byId t.category.id
    merchant := .byId t.merchant.id }

/-- The account row with a number, as it is kept when it was looked up. -/
def AccountRow (s : Store) (id : Id) (a : LoadedAccount) : Prop :=
  s.accounts.find? id = some a.account ∧ a.ownerSeen = false

/-- The label with a number. -/
def LabelRow (s : Store) (kind : LabelKind) (id : Id) (l : Label) : Prop :=
  (s.labels kind).find? id = some l

/-- Some references of the transaction were looked up in the store. -/
structure LookedUp (s : Store) (t u : LiveTransaction) : Prop where
  bare : u.bare = t.bare
  account : t.account.LookedUp (AccountRow s) u.account
  category : t.category.LookedUp (LabelRow s .category) u.category
  merchant : t.merchant.LookedUp (LabelRow s .merchant) u.merchant

instance (s : Store) : IsPreorder LiveTransaction (LookedUp s) where
  refl _ := ⟨rfl, .same _, .same _, .same _⟩
  trans _ _ _ h k :=
    ⟨k.bare.trans h.bare, h.account.trans k.account, h.category.trans k.category,
      h.merchant.trans k.merchant⟩

theorem LookedUp.id_eq {s : Store} {t u : LiveTransaction} (h : t.LookedUp s u) : u.id = t.id := by
  have hid := congrArg LiveTransaction.id h.bare
  exact hid

end LiveTransaction

/-! ## What looking leaves behind -/

namespace Workspace

/-- The workspace without the parts that looking may change. -/
def still (w : Workspace) : Workspace :=
  { w with live := {}, fields := {}, labels := [], events := [] }

/-- What the label cache knows is what is stored. -/
def LabelsAgree (w : Workspace) : Prop :=
  ∀ kind id found, w.labels.lookup (kind, id) = some found → (w.store.labels kind).find? id = found

/-- The values that the field cache holds for other transactions are the same. -/
def KeepsEntries (id : Option Id) (c d : FieldCache) : Prop :=
  ∀ n field, some n ≠ id → d.values.lookup (n, field) = c.values.lookup (n, field)

/-- The later workspace is the earlier one after somebody looked at a transaction. -/
structure Looks (h : Handle) (w v : Workspace) : Prop where
  still : v.still = w.still
  handles : v.live.ids = w.live.ids
  others : ∀ k, k ≠ h → v.transaction k = w.transaction k
  own : (w.transaction h).LookedUp w.store (v.transaction h)
  entries : KeepsEntries (w.transaction h).id w.fields v.fields
  agree : w.LabelsAgree → v.LabelsAgree

namespace Looks

variable {h : Handle} {w v u : Workspace}

theorem store (hl : Looks h w v) : v.store = w.store := by
  have hstore := congrArg Workspace.store hl.still
  exact hstore

theorem isChanging (hl : Looks h w v) : v.isChanging = w.isChanging := by
  have hchanging := congrArg Workspace.isChanging hl.still
  exact hchanging

theorem now (hl : Looks h w v) : v.now = w.now := by
  have hnow := congrArg Workspace.now hl.still
  exact hnow

theorem notifications (hl : Looks h w v) : v.notifications = w.notifications := by
  have hnotifications := congrArg Workspace.notifications hl.still
  exact hnotifications

theorem trans (hwv : Looks h w v) (hvu : Looks h v u) : Looks h w u where
  still := hvu.still.trans hwv.still
  handles := hvu.handles.trans hwv.handles
  others := fun k hk => (hvu.others k hk).trans (hwv.others k hk)
  own := by
    have hown := hvu.own
    rw [hwv.store] at hown
    exact IsTrans.trans _ _ _ hwv.own hown
  entries := by
    intro n field hn
    rw [← hwv.own.id_eq] at hn
    rw [hvu.entries n field hn]
    rw [hwv.own.id_eq] at hn
    exact hwv.entries n field hn
  agree := hvu.agree ∘ hwv.agree

instance (h : Handle) : IsPreorder Workspace (Looks h) where
  refl _ := ⟨rfl, rfl, fun _ _ => rfl, Std.Refl.refl _, fun _ _ _ => rfl, id⟩
  trans _ _ _ := trans

end Looks

/-- An empty label cache tells no lies. -/
theorem labelsAgree_nil (w : Workspace) : LabelsAgree { w with labels := [] } :=
  fun _ _ _ hfound => nomatch hfound

/-- Filling the caches and reporting is looking. -/
theorem looks_caches (h : Handle) (w : Workspace) {fields : FieldCache} {labels : LabelCache}
    (events : List Event) (hentries : KeepsEntries (w.transaction h).id w.fields fields)
    (hlabels : w.LabelsAgree → LabelsAgree { w with labels }) :
    Looks h w { w with fields, labels, events } where
  still := rfl
  handles := rfl
  others _ _ := rfl
  own := Std.Refl.refl _
  entries := hentries
  agree := hlabels

/-- Looking up a reference is looking. -/
theorem looks_change {h : Handle} {w : Workspace} {f : LiveTransaction → LiveTransaction}
    (hf : (w.transaction h).LookedUp w.store (f (w.transaction h))) :
    Looks h w { w with live := w.live.update h f } := by
  refine ⟨rfl, Table.ids_update _ _ _, fun k hk => transaction_update_of_ne hk f, ?_,
    fun _ _ _ => rfl, id⟩
  by_cases hlive : w.live.has h = true
  · rw [transaction_update_self hlive]
    exact hf
  · rw [Table.update_of_not_has (Bool.not_eq_true _ ▸ hlive)]
    exact Std.Refl.refl _

end Workspace

open Program Workspace LiveTransaction

variable {h : Handle}

/-! ## Looking up references -/

/-- The account with a number, as it is kept when it is looked up. -/
def findAccount (s : Store) (id : Id) : Option LoadedAccount :=
  (s.accounts.find? id).map fun a => ⟨a, false⟩

/-- A change that leaves the transaction as it is changes nothing. -/
theorem update_transaction_self {w : Workspace} {h : Handle} {f : LiveTransaction → LiveTransaction}
    (hf : f (w.transaction h) = w.transaction h) :
    { w with live := w.live.update h f } = w := by
  have hlive : w.live.update h f = w.live := by
    refine Table.update_eq_self fun t ht => ?_
    rw [Workspace.transaction, ht] at hf
    exact hf
  rw [hlive]

/-- Looking up the account keeps what was found. -/
theorem runOn_accountOf (h : Handle) (w : Workspace) :
    (accountOf h).runOn w =
      match (w.transaction h).account.resolve (findAccount w.store) with
      | some r =>
        (.ok r.loaded, { w with live := w.live.update h fun t => { t with account := r } })
      | none => (.error (.missingRow .account), w) := by
  have hsame : { w with live := w.live.update h fun t =>
      { t with account := (w.transaction h).account } } = w := update_transaction_self rfl
  rw [accountOf, runOn_bind, runOn_transaction]
  dsimp only
  generalize (w.transaction h).account = r at hsame ⊢
  obtain ⟨_ | id, _ | account⟩ := r
  · exact congrArg (Prod.mk (Except.ok none)) hsame.symm
  · exact congrArg (Prod.mk (Except.ok (some account))) hsame.symm
  · rw [runOn_bind, runOn_row, Reference.resolve]
    dsimp only [findAccount]
    cases w.store.accounts.find? id <;> rfl
  · exact congrArg (Prod.mk (Except.ok (some account))) hsame.symm

/-- Looking up a label keeps what was found. -/
theorem runOn_labelOf (role : LabelRole) (h : Handle) (w : Workspace) :
    (labelOf role h).runOn w =
      match (role.get (w.transaction h)).resolve (w.store.labels role.kind).find? with
      | some r => (.ok r.loaded, { w with live := w.live.update h (role.set r) })
      | none => (.error (.missingRow role.kind.entity), w) := by
  have hsame : { w with live := w.live.update h (role.set (role.get (w.transaction h))) } = w := by
    refine update_transaction_self ?_
    cases role <;> rfl
  rw [labelOf, runOn_bind, runOn_transaction]
  dsimp only
  generalize role.get (w.transaction h) = r at hsame ⊢
  obtain ⟨_ | id, _ | label⟩ := r
  · exact congrArg (Prod.mk (Except.ok none)) hsame.symm
  · exact congrArg (Prod.mk (Except.ok (some label))) hsame.symm
  · rw [runOn_bind, runOn_row, Reference.resolve]
    dsimp only
    cases (w.store.labels role.kind).find? id <;> rfl
  · exact congrArg (Prod.mk (Except.ok (some label))) hsame.symm

theorem looks_accountOf (h : Handle) : Keeps (Looks h) (accountOf h) := by
  intro w
  rw [runOn_accountOf]
  split
  · next r hr =>
    have hlooked : (w.transaction h).account.LookedUp (AccountRow w.store) r := by
      refine Reference.lookedUp_resolve (fun id a ha => ?_) hr
      obtain ⟨row, hrow, rfl⟩ := Option.map_eq_some_iff.1 ha
      exact ⟨hrow, rfl⟩
    refine looks_change ⟨?_, hlooked, .same _, .same _⟩
    simp only [LiveTransaction.bare, hlooked.id_eq]
  · exact Std.Refl.refl w

theorem looks_labelOf (role : LabelRole) (h : Handle) : Keeps (Looks h) (labelOf role h) := by
  intro w
  rw [runOn_labelOf]
  split
  · next r hr =>
    have hlooked : (role.get (w.transaction h)).LookedUp (LabelRow w.store role.kind) r :=
      Reference.lookedUp_resolve (fun _ _ ha => ha) hr
    have hid := hlooked.id_eq
    cases role with
    | category =>
        refine looks_change ⟨?_, .same _, hlooked, .same _⟩
        simp only [LabelRole.get] at hid
        simp only [LiveTransaction.bare, LabelRole.set, hid]
    | merchant =>
        refine looks_change ⟨?_, .same _, .same _, hlooked⟩
        simp only [LabelRole.get] at hid
        simp only [LiveTransaction.bare, LabelRole.set, hid]
  · exact Std.Refl.refl w

theorem looks_report (e : Event) : Keeps (Looks h) (report e) :=
  fun w => looks_caches h w (e :: w.events) (fun _ _ _ => rfl) id

theorem looks_transaction (k : Handle) : Keeps (Looks h) (transaction k) :=
  keeps_of_runOn fun _ => rfl

theorem looks_ownerOf (h : Handle) : Keeps (Looks h) (ownerOf h) := by
  rw [ownerOf]
  refine (looks_transaction h).bind fun t => ?_
  split
  · exact (looks_accountOf h).bind fun account => keeps_pure _
  · exact keeps_pure none

theorem looks_labelName (role : LabelRole) (h : Handle) : Keeps (Looks h) (labelName role h) := by
  rw [labelName]
  refine (looks_transaction h).bind fun t => ?_
  split
  · exact (looks_labelOf role h).bind fun label => keeps_pure _
  · exact keeps_pure _

theorem looks_accountName (h : Handle) : Keeps (Looks h) (accountName h) := by
  rw [accountName]
  refine (looks_transaction h).bind fun t => ?_
  split
  · exact (looks_accountOf h).bind fun account => keeps_pure _
  · exact keeps_pure _

theorem looks_tagNames (h : Handle) : Keeps (Looks h) (tagNames h) := by
  rw [tagNames]
  refine (looks_transaction h).bind fun t => ?_
  split
  · exact keeps_pure _
  · exact keeps_get.bind fun w => keeps_pure _

theorem looks_resolveField (h : Handle) (field : Field) :
    Keeps (Looks h) (resolveField h field) := by
  rw [resolveField]
  refine (looks_transaction h).bind fun t => ?_
  cases field with
  | category => exact looks_labelName .category h
  | merchant => exact looks_labelName .merchant h
  | account => exact looks_accountName h
  | tags => exact looks_tagNames h
  | _ => exact keeps_pure _

/-! ## Fields through the cache -/

theorem runOn_fieldValue (h : Handle) (field : Field) (w : Workspace) :
    (fieldValue h field).runOn w =
      match w.fields.find? (w.transaction h).id field with
      | some value => (.ok value, { w with fields := { w.fields with hits := w.fields.hits + 1 } })
      | none =>
        match (resolveField h field).runOn
          { w with fields := { w.fields with misses := w.fields.misses + 1 } } with
        | (.ok value, v) =>
          (.ok value, { v with fields := v.fields.keep (w.transaction h).id field value })
        | (.error failure, v) => (.error failure, v) := by
  rw [fieldValue, runOn_bind, runOn_transaction]
  dsimp only
  rw [runOn_bind, runOn_get]
  dsimp only
  cases w.fields.find? (w.transaction h).id field with
  | some value => rfl
  | none =>
      dsimp only
      rw [runOn_bind, runOn_modify]
      dsimp only
      rw [runOn_bind]
      generalize (resolveField h field).runOn _ = run
      rcases run with ⟨failure | value, v⟩ <;> rfl

/-- Keeping the value of a field does not show at other transactions. -/
theorem keepsEntries_keep (c : FieldCache) (id : Option Id) (field : Field) (value : FieldValue) :
    KeepsEntries id c (c.keep id field value) := by
  intro n other hn
  cases id with
  | none => rfl
  | some id =>
      have hne : ((n, other) == (id, field)) = false := by
        refine beq_eq_false_iff_ne.2 fun heq => hn ?_
        rw [(Prod.mk.inj heq).1]
      rw [FieldCache.keep, List.lookup_cons, hne]

/-- Forgetting a transaction shows at its fields and nowhere else. -/
theorem lookup_forget (c : FieldCache) (id : Option Id) (n : Id) (field : Field) :
    (c.forget id).values.lookup (n, field) =
      if some n = id then none else c.values.lookup (n, field) := by
  rw [FieldCache.forget]
  induction c.values with
  | nil => simp
  | cons entry rest ih =>
      obtain ⟨⟨m, other⟩, value⟩ := entry
      rw [List.filter_cons]
      by_cases hm : some m = id
      · rw [if_neg (by simpa using hm), ih, List.lookup_cons]
        by_cases hn : some n = id
        · rw [if_pos hn, if_pos hn]
        · have hne : ((n, field) == (m, other)) = false := by
            refine beq_eq_false_iff_ne.2 fun heq => hn ?_
            rw [(Prod.mk.inj heq).1]
            exact hm
          rw [if_neg hn, if_neg hn, hne]
      · rw [if_pos (by simpa using hm), List.lookup_cons, List.lookup_cons, ih]
        by_cases hn : some n = id
        · have hne : ((n, field) == (m, other)) = false := by
            refine beq_eq_false_iff_ne.2 fun heq => hm ?_
            rw [← (Prod.mk.inj heq).1]
            exact hn
          rw [if_pos hn, if_pos hn, hne]
        · rw [if_neg hn, if_neg hn]

theorem keepsEntries_forget (c : FieldCache) (id : Option Id) :
    KeepsEntries id c (c.forget id) := by
  intro n field hn
  rw [lookup_forget, if_neg hn]

theorem looks_fieldValue (h : Handle) (field : Field) : Keeps (Looks h) (fieldValue h field) := by
  intro w
  rw [runOn_fieldValue]
  split
  · exact looks_caches h w w.events (fun _ _ _ => rfl) id
  · have hmiss : Looks h w { w with fields := { w.fields with misses := w.fields.misses + 1 } } :=
      looks_caches h w w.events (fun _ _ _ => rfl) id
    have hresolve := hmiss.trans (looks_resolveField h field _)
    split
    · next value v hrun =>
      rw [hrun] at hresolve
      refine hresolve.trans (looks_caches h v v.events ?_ id)
      rw [hresolve.own.id_eq]
      exact keepsEntries_keep _ _ _ _
    · next failure v hrun =>
      rw [hrun] at hresolve
      exact hresolve

theorem looks_invalidate (h : Handle) : Keeps (Looks h) (invalidate h) := fun w =>
  looks_caches h w w.events (keepsEntries_forget _ _) id

/-! ## Conditions -/

variable [Host]

theorem looks_evaluateCondition (h : Handle) (c : Condition) :
    Keeps (Looks h) (evaluateCondition h c) := by
  rw [evaluateCondition]
  split
  · exact (looks_fieldValue h _).bind fun value => keeps_ofExcept _
  · exact keeps_ofExcept _

theorem looks_checkCondition (h : Handle) (c : Condition) :
    Keeps (Looks h) (checkCondition h c) := by
  rw [checkCondition]
  refine (looks_evaluateCondition h c).bind fun outcome => ?_
  dsimp only
  split
  · exact (looks_transaction h).bind fun t => (looks_report _).bind fun _ => keeps_pure _
  · exact keeps_pure _

theorem looks_ruleMatches (h : Handle) (r : RuleDefinition) :
    Keeps (Looks h) (ruleMatches h r) := by
  have hcondition : ∀ c, Keeps (Looks h) (conditionMatches h c) := fun c =>
    (looks_checkCondition h c).bind fun outcome => keeps_pure _
  refine keeps_allM fun g => ?_
  rw [groupMatches]
  split
  · exact keeps_pure true
  · split
    · exact keeps_allM hcondition
    · exact keeps_anyM hcondition

/-! ## Plans -/

omit [Host] in
theorem runOn_cachedLabel (kind : LabelKind) (id : Id) (w : Workspace) :
    (cachedLabel kind id).runOn w =
      match w.labels.lookup (kind, id) with
      | some found => (.ok found, w)
      | none =>
        (.ok ((w.store.labels kind).find? id),
          { w with labels := ((kind, id), (w.store.labels kind).find? id) :: w.labels }) := by
  rw [cachedLabel, runOn_bind, runOn_get]
  dsimp only
  cases w.labels.lookup (kind, id) <;> rfl

omit [Host] in
theorem labelsAgree_cons {w : Workspace} (hw : w.LabelsAgree) (kind : LabelKind) (id : Id) :
    LabelsAgree { w with labels := ((kind, id), (w.store.labels kind).find? id) :: w.labels } := by
  intro other n found hfound
  rw [List.lookup_cons] at hfound
  split at hfound
  · next heq =>
    cases eq_of_beq heq
    exact Option.some.inj hfound
  · exact hw other n found hfound

omit [Host] in
/-- Changes to the store that leave the labels alone do not matter to the cache. -/
theorem labelsAgree_store {w : Workspace} (hw : w.LabelsAgree) {s : Store}
    (hs : ∀ kind, s.labels kind = w.store.labels kind) : LabelsAgree { w with store := s } := by
  intro kind id found hfound
  dsimp only
  rw [hs]
  exact hw kind id found hfound

omit [Host] in
/-- A cache that agrees with the store gives what is stored. -/
theorem cachedLabel_eq_find? {w : Workspace} (hw : w.LabelsAgree) (kind : LabelKind) (id : Id) :
    ∃ labels, (cachedLabel kind id).runOn w =
        (.ok ((w.store.labels kind).find? id), { w with labels }) ∧
      LabelsAgree { w with labels } := by
  rw [runOn_cachedLabel]
  split
  · next found hfound =>
    refine ⟨w.labels, ?_, hw⟩
    rw [hw kind id found hfound]
  · exact ⟨_, rfl, labelsAgree_cons hw kind id⟩

omit [Host] in
theorem looks_cachedLabel (kind : LabelKind) (id : Id) : Keeps (Looks h) (cachedLabel kind id) := by
  intro w
  rw [runOn_cachedLabel]
  split
  · exact Std.Refl.refl w
  · exact looks_caches h w w.events (fun _ _ _ => rfl) fun hw => labelsAgree_cons hw kind id

omit [Host] in
theorem looks_ownedLabel (kind : LabelKind) (value : Option ActionValue) (owner : Id) :
    Keeps (Looks h) (ownedLabel kind value owner) := by
  rw [ownedLabel.eq_def]
  split
  · exact (looks_cachedLabel kind _).bind fun found => keeps_pure _
  · exact keeps_pure none

omit [Host] in
theorem looks_labelText (kind : LabelKind) (value : Option ActionValue) :
    Keeps (Looks h) (labelText kind value) := by
  rw [labelText.eq_def]
  split
  · refine (looks_cachedLabel kind _).bind fun found => ?_
    split
    · exact keeps_pure _
    · exact keeps_pure _
  · exact keeps_pure _
  · exact keeps_pure _

theorem looks_describe (a : Action) : Keeps (Looks h) (describe a) := by
  rw [describe]
  split
  · exact keeps_pure _
  · next kind _ =>
    refine (keeps_ofExcept _).bind fun value => ?_
    have hlabel : ∀ labelKind (f : String → String),
        Keeps (Looks h) (do return f (← labelText labelKind value)) := fun labelKind f =>
      (looks_labelText labelKind value).bind fun text => keeps_pure _
    cases kind with
    | setCategory => exact hlabel .category _
    | setMerchant => exact hlabel .merchant _
    | addTag => exact hlabel .tag _
    | removeTag => exact hlabel .tag _
    | _ => exact keeps_pure _

omit [Host] in
theorem looks_planKind (kind : ActionKind) (a : Action) (value : Option ActionValue)
    (t : LiveTransaction) (owner : Id) : Keeps (Looks h) (planKind kind a value t owner) := by
  cases kind with
  | setCategory => exact (looks_ownedLabel _ _ _).bind fun label => keeps_pure _
  | setMerchant => exact (looks_ownedLabel _ _ _).bind fun label => keeps_pure _
  | addTag => exact (looks_ownedLabel _ _ _).bind fun label => keeps_pure _
  | removeTag => exact (looks_ownedLabel _ _ _).bind fun label => keeps_pure _
  | removeAllTags => exact keeps_pure _
  | markReconciled => exact keeps_pure _
  | sendNotification => exact keeps_pure _
  | _ => rcases value with _ | ⟨_ | _⟩ <;> exact keeps_pure _

theorem looks_plan (kind : ActionKind) (a : Action) (h : Handle) :
    Keeps (Looks h) (plan kind a h) := by
  rw [plan]
  refine (keeps_ofExcept _).bind fun value => (looks_ownerOf h).bind fun owner => ?_
  cases owner with
  | none => exact keeps_pure none
  | some owner => exact (looks_transaction h).bind fun t => looks_planKind kind a value t owner

/-! ## Actions -/

/-- Every action of a dry run only looks. -/
theorem looks_runAction_dry (a : Action) (h : Handle) : Keeps (Looks h) (runAction a h true) := by
  rw [runAction]
  refine (looks_transaction h).bind fun t => ?_
  dsimp only
  split
  · exact (looks_report _).bind fun _ => keeps_pure _
  · next kind _ =>
    refine Keeps.tryCatch ?_ fun failure => (looks_report _).bind fun _ => keeps_pure _
    rw [attemptAction]
    refine (looks_describe a).bind fun description => (looks_plan kind a h).bind fun effect => ?_
    cases effect with
    | none => exact keeps_pure _
    | some effect => exact (keeps_pure []).bind fun changes => keeps_pure _

end Rulebook
