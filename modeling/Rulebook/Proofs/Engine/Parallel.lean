import Mathlib.Data.List.Forall2
import Rulebook.Proofs.Engine.Alike
import Rulebook.Proofs.Engine.EntryPoint

/-!
# The same run from workspaces that are alike

Every part of a run gives the same result from workspaces that are alike and leaves workspaces that
are alike.  The parts are taken up in the order in which runs are built from them: looking up
references, matching rules, planning and carrying out actions, logging, and the observer.

Results may depend on the transaction at hand only through its fields, which is what
`tracks_fields` says; a part that returns the transaction itself has no lemma of its own and goes
through `tracks_transaction`.

## Main statements

* `tracks_ruleMatches`, `tracks_runAction` — rules and actions.
* `Engine.tracks_processOne` — a transaction of a run.
* `Engine.result_process_eq` — a run.
-/

namespace Rulebook

open Program Workspace

section Looking

variable {c : Comparison} {i : Bool} {h h' : Handle} {w w' : Workspace} {α : Type}

/-! ## Looking up references -/

/-- Programs that read the transaction at hand go on with the two transactions. -/
theorem tracks_transaction {R : Workspace → Workspace → Prop} {f f' : LiveTransaction → Operation α}
    (hff : Tracks R (f (w.transaction h)) (f' (w'.transaction h')) w w') :
    Tracks R (transaction h >>= f) (transaction h' >>= f') w w' :=
  ⟨hff.result, hff.state⟩

/-- What depends on the fields of the transaction alone is the same. -/
theorem tracks_fields (ha : Alike c i w w') (hn : c.names h h') (f : LiveTransaction → α)
    (hf : ∀ t, f t = f t.bare) :
    Tracks (Alike c i) (pure (f (w.transaction h))) (pure (f (w'.transaction h'))) w w' := by
  rw [hf (w.transaction h), hf (w'.transaction h'), (ha.transactions hn).bare]
  exact tracks_pure _ ha

theorem tracks_report (ha : Alike c i w w') (e e' : Event) :
    Tracks (Alike c i) (report e) (report e') w w' :=
  tracks_modify (alike_fields ha _ _ ha.entries)

/-- The accounts that are looked up have the same content. -/
theorem tracks_accountOf (ha : Alike c i w w') (hn : c.names h h') {f : Option LoadedAccount → α}
    {g : Option Account → α} (hf : ∀ a, f a = g (a.map (·.account))) :
    Tracks (Alike c i) (accountOf h >>= fun a => pure (f a)) (accountOf h' >>= fun a => pure (f a))
      w w' := by
  have ht := ha.transactions hn
  have hfind : findAccount w'.store = findAccount w.store := by
    rw [ha.store]
    rfl
  -- Whether its owner was seen is not stored with an account, so only the rows agree.
  have hrow : ∀ id a, LiveTransaction.AccountIs c.base id a → ∃ b, findAccount w.store id = some b ∧
      LiveTransaction.AccountIs c.base id b ∧ b.account = a.account := by
    intro id a hrow
    refine ⟨⟨a.account, false⟩, ?_, hrow, rfl⟩
    rw [findAccount, ha.accounts, hrow]
    rfl
  rcases ht.account.resolve hrow with ⟨hnone, hnone'⟩ | ⟨r, r', hr, hr', halike, hview⟩
  · refine ⟨?_, ?_⟩ <;>
      rw [runOn_bind, runOn_bind, runOn_accountOf, runOn_accountOf, hfind, hnone, hnone']
    exact ha
  · have hid : r.id = (w.transaction h).account.id :=
      (Reference.lookedUp_resolve (fun _ _ _ => trivial) hr).id_eq
    have hchanged : Alike c i
        { w with live := w.live.update h fun t => { t with account := r } }
        { w' with live := w'.live.update h' fun t => { t with account := r' } } := by
      refine alike_change ha hn ⟨?_, halike, ht.category, ht.merchant⟩ rfl
      have hbare := ht.bare
      have hid' := halike.id_eq
      simp only [LiveTransaction.bare, LiveTransaction.mk.injEq, Reference.byId] at hbare ⊢
      simp [hbare, hid']
    refine ⟨?_, ?_⟩ <;>
      rw [runOn_bind, runOn_bind, runOn_accountOf, runOn_accountOf, hfind, hr, hr']
    · dsimp only
      rw [runOn_pure, runOn_pure, hf, hf, hview]
    · exact hchanged

theorem tracks_labelOf (ha : Alike c i w w') (hn : c.names h h') (role : LabelRole) :
    Tracks (Alike c i) (labelOf role h) (labelOf role h') w w' := by
  have ht := ha.transactions hn
  have hrow : ∀ id a, LiveTransaction.LabelRow c.base role.kind id a →
      ∃ b, (w.store.labels role.kind).find? id = some b ∧
        LiveTransaction.LabelRow c.base role.kind id b ∧ b = a := fun id a hrow =>
    ⟨a, (ha.labels role.kind).find? hrow, hrow, rfl⟩
  rcases (ht.role role).resolve hrow with ⟨hnone, hnone'⟩ | ⟨r, r', hr, hr', halike, hview⟩
  · refine ⟨?_, ?_⟩ <;> rw [runOn_labelOf, runOn_labelOf, ha.labels_eq, hnone, hnone']
    exact ha
  · have hchanged : Alike c i { w with live := w.live.update h (role.set r) }
        { w' with live := w'.live.update h' (role.set r') } := by
      refine alike_change ha hn (ht.setRole role halike) ?_
      cases role <;> rfl
    refine ⟨?_, ?_⟩ <;> rw [runOn_labelOf, runOn_labelOf, ha.labels_eq, hr, hr']
    · rw [Option.map_id', Option.map_id'] at hview
      exact congrArg Except.ok hview
    · exact hchanged

theorem tracks_ownerOf (ha : Alike c i w w') (hn : c.names h h') :
    Tracks (Alike c i) (ownerOf h) (ownerOf h') w w' := by
  have hset : (w'.transaction h').account.isSet = (w.transaction h).account.isSet := by
    rw [Reference.isSet, Reference.isSet, (ha.transactions hn).account.id_eq]
  rw [ownerOf, ownerOf]
  refine tracks_transaction ?_
  rw [hset]
  split
  · refine tracks_accountOf ha hn (g := fun a => a.map (·.user)) fun a => ?_
    rw [Option.map_map]
    rfl
  · exact tracks_pure none ha

theorem tracks_accountName (ha : Alike c i w w') (hn : c.names h h') :
    Tracks (Alike c i) (accountName h) (accountName h') w w' := by
  have hset : (w'.transaction h').account.isSet = (w.transaction h).account.isSet := by
    rw [Reference.isSet, Reference.isSet, (ha.transactions hn).account.id_eq]
  rw [accountName, accountName]
  refine tracks_transaction ?_
  rw [hset]
  split
  · refine tracks_accountOf ha hn (g := fun a => .ofText? (a.map (·.name))) fun a => ?_
    rw [Option.map_map]
    rfl
  · exact tracks_pure _ ha

theorem tracks_labelName (ha : Alike c i w w') (hn : c.names h h') (role : LabelRole) :
    Tracks (Alike c i) (labelName role h) (labelName role h') w w' := by
  have hset : (role.get (w'.transaction h')).isSet = (role.get (w.transaction h)).isSet := by
    rw [Reference.isSet, Reference.isSet, ((ha.transactions hn).role role).id_eq]
  rw [labelName, labelName]
  refine tracks_transaction ?_
  rw [hset]
  split
  · exact (tracks_labelOf ha hn role).bind fun label v v' hv => tracks_pure _ hv
  · exact tracks_pure _ ha

theorem tracks_tagNames (ha : Alike c i w w') (hn : c.names h h') :
    Tracks (Alike c i) (tagNames h) (tagNames h') w w' := by
  have htags : w'.store.tagsOf = w.store.tagsOf := by
    rw [ha.store]
    rfl
  rw [tagNames, tagNames]
  refine tracks_transaction ?_
  rw [(ha.transactions hn).id_eq]
  split
  · exact tracks_pure _ ha
  · refine tracks_get_bind ?_
    rw [htags]
    exact tracks_pure _ ha

/-! ## Fields -/

theorem tracks_resolveField (ha : Alike c i w w') (hn : c.names h h') (field : Field) :
    Tracks (Alike c i) (resolveField h field) (resolveField h' field) w w' := by
  rw [resolveField, resolveField]
  refine tracks_transaction ?_
  have hfields : ∀ f : LiveTransaction → FieldValue, (∀ t, f t = f t.bare) →
      Tracks (Alike c i) (pure (f (w.transaction h))) (pure (f (w'.transaction h'))) w w' :=
    fun f hf => tracks_fields ha hn f hf
  cases field with
  | category => exact tracks_labelName ha hn .category
  | merchant => exact tracks_labelName ha hn .merchant
  | account => exact tracks_accountName ha hn
  | tags => exact tracks_tagNames ha hn
  | amount => exact hfields (fun t => .amount t.amount) fun _ => rfl
  | description => exact hfields (fun t => .ofText? t.description) fun _ => rfl
  | partner => exact hfields (fun t => .ofText? t.partner) fun _ => rfl
  | type => exact hfields (fun t => .ofText? t.type) fun _ => rfl
  | note => exact hfields (fun t => .ofText? t.note) fun _ => rfl
  | recipientNote => exact hfields (fun t => .ofText? t.recipientNote) fun _ => rfl
  | place => exact hfields (fun t => .ofText? t.place) fun _ => rfl
  | targetIban => exact hfields (fun t => .ofText? t.targetIban) fun _ => rfl
  | sourceIban => exact hfields (fun t => .ofText? t.sourceIban) fun _ => rfl
  | date => exact hfields (fun t => .date t.bookedDate) fun _ => rfl

/-- What a field holds is the same, whether it was looked up before or not. -/
theorem tracks_fieldValue (ha : Alike c i w w') (hn : c.names h h') (field : Field) :
    Tracks (Alike c i) (fieldValue h field) (fieldValue h' field) w w' := by
  have hid := (ha.transactions hn).id_eq
  have hfind : w'.fields.find? (w.transaction h).id field =
      w.fields.find? (w.transaction h).id field := by
    rcases hsome : (w.transaction h).id with _ | id
    · rfl
    · exact ha.entries hn hsome field
  rw [fieldValue, fieldValue]
  refine tracks_transaction ?_
  rw [hid]
  refine tracks_get_bind ?_
  rw [hfind]
  cases w.fields.find? (w.transaction h).id field with
  | some value =>
      have hhit : Tracks (Alike c i)
          (modify fun w => { w with fields := { w.fields with hits := w.fields.hits + 1 } })
          (modify fun w => { w with fields := { w.fields with hits := w.fields.hits + 1 } }) w w' :=
        tracks_modify (alike_fields ha _ _ ha.entries)
      exact hhit.bind fun _ v v' hv => tracks_pure value hv
  | none =>
      have hmiss : Tracks (Alike c i)
          (modify fun w => { w with fields := { w.fields with misses := w.fields.misses + 1 } })
          (modify fun w => { w with fields := { w.fields with misses := w.fields.misses + 1 } })
          w w' :=
        tracks_modify (alike_fields ha _ _ ha.entries)
      refine hmiss.bind fun _ v v' hv => ?_
      refine (tracks_resolveField hv hn field).bind fun value u u' hu => ?_
      refine Tracks.bind (tracks_modify ?_) fun _ v v' hv => tracks_pure value hv
      refine alike_fields hu _ _ fun {k k'} hk id hkid other => ?_
      rcases (w.transaction h).id with _ | n
      · exact hu.entries hk hkid other
      · rw [FieldCache.keep, FieldCache.keep, List.lookup_cons, List.lookup_cons,
          hu.entries hk hkid other]

theorem tracks_invalidate (ha : Alike c i w w') (hn : c.names h h') :
    Tracks (Alike c i) (invalidate h) (invalidate h') w w' := by
  rw [invalidate, invalidate]
  refine tracks_transaction ?_
  rw [(ha.transactions hn).id_eq]
  refine tracks_modify (alike_fields ha _ _ fun {k k'} hk id hkid field => ?_)
  rw [lookup_forget, lookup_forget, ha.entries hk hkid field]

/-! ## Rules -/

theorem tracks_conditionMatches [Host] (ha : Alike c i w w') (hn : c.names h h')
    (condition : Condition) :
    Tracks (Alike c i) (conditionMatches h condition) (conditionMatches h' condition) w w' := by
  have hevaluate : Tracks (Alike c i) (evaluateCondition h condition)
      (evaluateCondition h' condition) w w' := by
    rw [evaluateCondition, evaluateCondition]
    split
    · refine (tracks_fieldValue ha hn _).bind fun value v v' hv => ?_
      exact tracks_ofExcept _ hv
    · exact tracks_ofExcept _ ha
  rw [conditionMatches, conditionMatches, checkCondition, checkCondition]
  refine Tracks.bind (hevaluate.bind fun outcome v v' hv => ?_) fun outcome u u' hu =>
    tracks_pure _ hu
  dsimp only
  split
  · refine tracks_transaction ?_
    exact (tracks_report hv _ _).bind fun _ u u' hu => tracks_pure _ hu
  · exact tracks_pure _ hv

theorem tracks_ruleMatches [Host] (ha : Alike c i w w') (hn : c.names h h') (r : RuleDefinition) :
    Tracks (Alike c i) (ruleMatches h r) (ruleMatches h' r) w w' := by
  refine tracks_allM (fun g v v' hv => ?_) ha
  rw [groupMatches, groupMatches]
  split
  · exact tracks_pure true hv
  · split
    · exact tracks_allM (fun condition u u' hu => tracks_conditionMatches hu hn condition) hv
    · exact tracks_anyM (fun condition u u' hu => tracks_conditionMatches hu hn condition) hv

/-! ## Plans -/

theorem tracks_cachedLabel (ha : Alike c i w w') (kind : LabelKind) (id : Id) :
    Tracks (Alike c i) (cachedLabel kind id) (cachedLabel kind id) w w' := by
  obtain ⟨labels, hrun, hcache⟩ := cachedLabel_eq_find? ha.cache kind id
  obtain ⟨labels', hrun', hcache'⟩ := cachedLabel_eq_find? ha.cache' kind id
  refine ⟨?_, ?_⟩ <;> rw [hrun, hrun']
  · rw [ha.labels_eq]
  · exact alike_labels ha hcache hcache'

theorem tracks_ownedLabel (ha : Alike c i w w') (kind : LabelKind) (value : Option ActionValue)
    (owner : Id) :
    Tracks (Alike c i) (ownedLabel kind value owner) (ownedLabel kind value owner) w w' := by
  rw [ownedLabel.eq_def]
  split
  · exact (tracks_cachedLabel ha kind _).bind fun found v v' hv => tracks_pure _ hv
  · exact tracks_pure none ha

theorem tracks_labelText (ha : Alike c i w w') (kind : LabelKind) (value : Option ActionValue) :
    Tracks (Alike c i) (labelText kind value) (labelText kind value) w w' := by
  rw [labelText.eq_def]
  split
  · refine (tracks_cachedLabel ha kind _).bind fun found v v' hv => ?_
    split
    · exact tracks_pure _ hv
    · exact tracks_pure _ hv
  · exact tracks_pure _ ha
  · exact tracks_pure _ ha

theorem tracks_describe [Host] (ha : Alike c i w w') (a : Action) :
    Tracks (Alike c i) (describe a) (describe a) w w' := by
  rw [describe]
  split
  · exact tracks_pure _ ha
  · next kind _ =>
    refine (tracks_ofExcept _ ha).bind fun value v v' hv => ?_
    have hlabel : ∀ labelKind (f : String → String),
        Tracks (Alike c i) (do return f (← labelText labelKind value))
          (do return f (← labelText labelKind value)) v v' := fun labelKind f =>
      (tracks_labelText hv labelKind value).bind fun text u u' hu => tracks_pure _ hu
    cases kind with
    | setCategory => exact hlabel .category _
    | setMerchant => exact hlabel .merchant _
    | addTag => exact hlabel .tag _
    | removeTag => exact hlabel .tag _
    | _ => exact tracks_pure _ hv

/-- A plan depends on the transaction through its fields only. -/
theorem planKind_bare (kind : ActionKind) (a : Action) (value : Option ActionValue)
    (t : LiveTransaction) (owner : Id) :
    planKind kind a value t owner = planKind kind a value t.bare owner := by
  cases kind <;> rfl

theorem tracks_planKind (ha : Alike c i w w') (kind : ActionKind) (a : Action)
    (value : Option ActionValue) (t : LiveTransaction) (owner : Id) :
    Tracks (Alike c i) (planKind kind a value t owner) (planKind kind a value t owner) w w' := by
  have howned : ∀ labelKind (f : Option (Id × Label) → Option Effect),
      Tracks (Alike c i) (do return f (← ownedLabel labelKind value owner))
        (do return f (← ownedLabel labelKind value owner)) w w' := fun labelKind f =>
    (tracks_ownedLabel ha labelKind value owner).bind fun label v v' hv => tracks_pure _ hv
  cases kind with
  | setCategory => exact howned .category _
  | setMerchant => exact howned .merchant _
  | addTag => exact howned .tag _
  | removeTag => exact howned .tag _
  | removeAllTags => exact tracks_pure _ ha
  | markReconciled => exact tracks_pure _ ha
  | sendNotification => exact tracks_pure _ ha
  | _ => rcases value with _ | ⟨_ | _⟩ <;> exact tracks_pure _ ha

theorem tracks_plan [Host] (ha : Alike c i w w') (hn : c.names h h') (kind : ActionKind)
    (a : Action) : Tracks (Alike c i) (plan kind a h) (plan kind a h') w w' := by
  rw [plan, plan]
  refine (tracks_ofExcept _ ha).bind fun value v v' hv => ?_
  refine (tracks_ownerOf hv hn).bind fun owner u u' hu => ?_
  cases owner with
  | none => exact tracks_pure none hu
  | some owner =>
      refine tracks_transaction ?_
      rw [planKind_bare, planKind_bare kind a value (u'.transaction h'), (hu.transactions hn).bare]
      exact tracks_planKind hu kind a value _ owner

end Looking

/-! ## Effects -/

section Changing

variable {c : Comparison} {h h' : Handle} {w w' : Workspace}

/-- Setting a field of the transaction at hand. -/
theorem tracks_change (ha : Alike c true w w') (hn : c.names h h')
    {f : LiveTransaction → LiveTransaction} (fields : List TransactionField)
    (hf : ∀ {t u}, t.Alike c.base u → (f t).Alike c.base (f u)) (hid : ∀ t, (f t).id = t.id) :
    Tracks (Alike c true) (do change h f; return fields) (do change h' f; return fields) w w' := by
  have hchange : Tracks (Alike c true) (change h f) (change h' f) w w' :=
    tracks_modify (alike_change ha hn (hf (ha.transactions hn)) (hid _))
  exact hchange.bind fun _ v v' hv => tracks_pure fields hv

theorem tracks_findOrAddLabel (ha : Alike c true w w') (kind : LabelKind) (name : String)
    (owner : Id) :
    Tracks (Alike c true) (findOrAddLabel kind name owner) (findOrAddLabel kind name owner)
      w w' := by
  have hcache := labelsAgree_findOrAddLabel ha.cache kind name owner ha.changing
  have hcache' := labelsAgree_findOrAddLabel ha.cache' kind name owner ha.changing'
  have hnamed : w'.store.labelNamed? kind owner name = w.store.labelNamed? kind owner name := by
    rw [Store.labelNamed?, Store.labelNamed?, ha.labels_eq]
  have hrun := runOn_findOrAddLabel kind name owner ha.changing
  have hrun' := runOn_findOrAddLabel kind name owner ha.changing'
  rw [hrun] at hcache
  rw [hrun'] at hcache'
  rw [hnamed] at hrun' hcache'
  rcases hlabel : w.store.labelNamed? kind owner name with _ | ⟨id, label⟩ <;>
    rw [hlabel] at hrun hrun' hcache hcache'
  · have hadded := alike_store ha
      (Store.unlogged_addLabel kind ⟨owner, name, createdDescription, none⟩) hcache hcache'
    refine ⟨?_, ?_⟩ <;> rw [hrun, hrun']
    · dsimp only
      rw [ha.labels_eq]
    · exact alike_fields hadded _ _ hadded.entries
  · exact tracks_of_runs hrun hrun' (alike_labels ha hcache hcache')

theorem tracks_putTag (ha : Alike c true w w') (hn : c.names h h') (tag : Id) :
    Tracks (Alike c true) (putTag h tag) (putTag h' tag) w w' := by
  have hrun := runOn_putTag h tag ha.changing
  have hrun' := runOn_putTag h' tag ha.changing'
  rw [(ha.transactions hn).id_eq] at hrun'
  rcases hid : (w.transaction h).id with _ | id <;> rw [hid] at hrun hrun'
  · exact tracks_of_runs hrun hrun' ha
  · refine tracks_of_runs hrun hrun' ?_
    refine alike_store_aside ha (Store.unlogged_addLink id tag) fun s kind => ?_
    dsimp only [Store.addLink]
    split
    · rfl
    · cases kind <;> rfl

theorem tracks_takeTags (ha : Alike c true w w') (hn : c.names h h') (test : Id → Bool) :
    Tracks (Alike c true) (takeTags h test) (takeTags h' test) w w' := by
  have hrun := runOn_takeTags h test ha.changing
  have hrun' := runOn_takeTags h' test ha.changing'
  rw [(ha.transactions hn).id_eq] at hrun'
  rcases hid : (w.transaction h).id with _ | id <;> rw [hid] at hrun hrun'
  · exact tracks_of_runs hrun hrun' ha
  · refine tracks_of_runs hrun hrun' ?_
    refine alike_store_aside ha (Store.unlogged_removeLinks id test) fun s kind => ?_
    cases kind <;> rfl

theorem tracks_sendNotification (ha : Alike c true w w') (h h' : Handle) (rule : Option Id)
    (message : String) :
    Tracks (Alike c true) (sendNotification h rule message) (sendNotification h' rule message)
      w w' := by
  rw [sendNotification, sendNotification]
  refine tracks_transaction ?_
  dsimp only
  refine (tracks_report ha _ _).bind fun _ v v' hv => ?_
  exact tracks_modify { hv with entries := hv.entries }

theorem tracks_setLabel (ha : Alike c true w w') (hn : c.names h h') (role : LabelRole) (id : Id)
    (label : Label) :
    Tracks (Alike c true) (do change h (role.set (.known id label)); return [role.field])
      (do change h' (role.set (.known id label)); return [role.field]) w w' := by
  refine tracks_change ha hn _ (fun ht => ht.setRole role (Or.inl rfl)) fun t => ?_
  cases role <;> rfl

/-- Changing fields that are not references. -/
theorem tracks_setField (ha : Alike c true w w') (hn : c.names h h')
    {f : LiveTransaction → LiveTransaction} (fields : List TransactionField)
    (hbare : ∀ t, (f t).bare = f t.bare)
    (hrefs : ∀ t, (f t).account = t.account ∧ (f t).category = t.category ∧
      (f t).merchant = t.merchant)
    (hid : ∀ t, (f t).id = t.id) :
    Tracks (Alike c true) (do change h f; return fields) (do change h' f; return fields) w w' := by
  refine tracks_change ha hn fields (fun {t u} ht => ?_) hid
  obtain ⟨hta, htc, htm⟩ := hrefs t
  obtain ⟨hua, huc, hum⟩ := hrefs u
  refine ⟨?_, ?_, ?_, ?_⟩
  · rw [hbare, hbare, ht.bare]
  · rw [hta, hua]
    exact ht.account
  · rw [htc, huc]
    exact ht.category
  · rw [htm, hum]
    exact ht.merchant

theorem tracks_perform (ha : Alike c true w w') (hn : c.names h h') (effect : Effect) :
    Tracks (Alike c true) (effect.perform h) (effect.perform h') w w' := by
  cases effect with
  | setLabel role id label => exact tracks_setLabel ha hn role id label
  | setNamedLabel role name owner =>
      refine (tracks_findOrAddLabel ha role.kind name owner).bind fun label v v' hv => ?_
      exact tracks_setLabel hv hn role label.1 label.2
  | attachTag tag => exact (tracks_putTag ha hn tag).bind fun _ v v' hv => tracks_pure _ hv
  | attachNamedTag name owner =>
      refine (tracks_findOrAddLabel ha .tag name owner).bind fun label v v' hv => ?_
      exact (tracks_putTag hv hn label.1).bind fun _ u u' hu => tracks_pure _ hu
  | detachTag tag => exact (tracks_takeTags ha hn _).bind fun _ v v' hv => tracks_pure _ hv
  | detachAllTags => exact (tracks_takeTags ha hn _).bind fun _ v v' hv => tracks_pure _ hv
  | setDescription s =>
      exact tracks_setField ha hn _ (fun _ => rfl) (fun _ => ⟨rfl, rfl, rfl⟩) fun _ => rfl
  | setNote s =>
      exact tracks_setField ha hn _ (fun _ => rfl) (fun _ => ⟨rfl, rfl, rfl⟩) fun _ => rfl
  | setType s =>
      exact tracks_setField ha hn _ (fun _ => rfl) (fun _ => ⟨rfl, rfl, rfl⟩) fun _ => rfl
  | markReconciled =>
      refine tracks_get_bind ?_
      rw [ha.now]
      exact tracks_setField ha hn _ (fun _ => rfl) (fun _ => ⟨rfl, rfl, rfl⟩) fun _ => rfl
  | notify rule message =>
      exact (tracks_sendNotification ha h h' rule message).bind fun _ v v' hv => tracks_pure _ hv

/-! ## Actions -/

theorem tracks_runAction [Host] (ha : Alike c true w w') (hn : c.names h h') (a : Action)
    (dryRun : Bool) :
    Tracks (Alike c true) (runAction a h dryRun) (runAction a h' dryRun) w w' := by
  rw [runAction, runAction]
  refine tracks_transaction ?_
  dsimp only
  split
  · exact (tracks_report ha _ _).bind fun _ v v' hv => tracks_pure _ hv
  · next kind _ =>
    refine Tracks.tryCatch ?_ fun _ v v' hv =>
      (tracks_report hv _ _).bind fun _ u u' hu => tracks_pure _ hu
    rw [attemptAction, attemptAction]
    refine (tracks_describe ha a).bind fun description v v' hv => ?_
    refine (tracks_plan hv hn kind a).bind fun effect u u' hu => ?_
    cases effect with
    | none => exact tracks_pure _ hu
    | some effect =>
        dsimp only
        split
        · exact (tracks_pure [] hu).bind fun changes v v' hv => tracks_pure _ hv
        · exact (tracks_perform hu hn effect).bind fun changes v v' hv => tracks_pure _ hv

namespace Engine

theorem tracks_runActions [Host] (ha : Alike c true w w') (hn : c.names h h') (r : RuleDefinition)
    (dryRun : Bool) (actions : List Action) :
    Tracks (Alike c true) (runActions h r dryRun actions) (runActions h' r dryRun actions)
      w w' := by
  induction actions generalizing w w' with
  | nil => exact tracks_pure [] ha
  | cons a rest ih =>
      rw [runActions, runActions]
      refine (tracks_runAction ha hn a dryRun).bind fun outcome v v' hv => ?_
      split
      · refine tracks_transaction ?_
        exact (tracks_report hv _ _).bind fun _ u u' hu => tracks_pure _ hu
      · exact (ih hv).bind fun outcomes u u' hu => tracks_pure _ hu

theorem tracks_runRule [Host] (ha : Alike c true w w') (hn : c.names h h') (r : RuleDefinition)
    (dryRun : Bool) : Tracks (Alike c true) (runRule h r dryRun) (runRule h' r dryRun) w w' := by
  rw [runRule, runRule]
  refine (tracks_ruleMatches ha hn r).bind fun matched v v' hv => ?_
  split
  · refine (tracks_runActions hv hn r dryRun r.actions).bind fun actions u u' hu => ?_
    dsimp only
    split
    · exact (tracks_invalidate hu hn).bind fun _ v v' hv => tracks_pure _ hv
    · exact tracks_pure _ hu
  · exact tracks_pure _ hv

end Engine

/-! ## Saving -/

/-- What is to be stored depends on the fields alone. -/
theorem contentOf_bare (t : LiveTransaction) (fields : List TransactionField)
    (now : Calendar.Instant) : t.contentOf fields now = t.bare.contentOf fields now := by
  have hreference : t.reference? = t.bare.reference? := by
    funext field
    cases field <;> rfl
  rw [LiveTransaction.contentOf, LiveTransaction.contentOf, hreference]
  rfl

theorem tracks_saveFields (ha : Alike c true w w') (hn : c.names h h')
    (fields : List TransactionField) :
    Tracks (Alike c true) (saveFields h fields) (saveFields h' fields) w w' := by
  rw [saveFields, saveFields]
  refine tracks_transaction ?_
  rw [(ha.transactions hn).id_eq]
  cases (w.transaction h).id with
  | none => exact tracks_throw _ ha
  | some id =>
      have hprepare : Tracks (Alike c true) (prepareSaving h fields) (prepareSaving h' fields)
          w w' := by
        rw [prepareSaving, prepareSaving]
        refine tracks_get_bind ?_
        rw [ha.now]
        refine Tracks.bind (tracks_modify (alike_change ha hn ?_ rfl)) fun _ v v' hv => ?_
        · have ht := ha.transactions hn
          have hbare := ht.bare
          refine ⟨?_, ht.account, ht.category, ht.merchant⟩
          simp only [LiveTransaction.bare, LiveTransaction.mk.injEq] at hbare ⊢
          simp [hbare]
        · refine tracks_transaction ?_
          rw [contentOf_bare, contentOf_bare (v'.transaction h'), (hv.transactions hn).bare]
          exact tracks_ofExcept _ hv
      refine hprepare.bind fun content v v' hv => ?_
      have hhas : v'.store.transactions.has id = v.store.transactions.has id := by
        rw [hv.store]
      have hrun := runOn_writeResult_of_changing (fun s : Store =>
        if s.transactions.has id then
          .ok ((), { s with transactions := s.transactions.update id (copyFields content fields) })
        else .error .updatedNothing) hv.changing
      have hrun' := runOn_writeResult_of_changing (fun s : Store =>
        if s.transactions.has id then
          .ok ((), { s with transactions := s.transactions.update id (copyFields content fields) })
        else .error .updatedNothing) hv.changing'
      rw [hhas] at hrun'
      -- The row is in both stores or in neither.
      by_cases hrow : v.store.transactions.has id = true
      · rw [if_pos hrow] at hrun hrun'
        refine ⟨?_, ?_⟩ <;> rw [hrun, hrun']
        refine alike_store_aside hv (Store.unlogged_updateTransaction id _) fun s kind => ?_
        cases kind <;> rfl
      · rw [if_neg hrow] at hrun hrun'
        refine ⟨?_, ?_⟩ <;> rw [hrun, hrun']
        exact hv

theorem tracks_persistChanges (ha : Alike c true w w') (hn : c.names h h')
    (summary : TransactionSummary) :
    Tracks (Alike c true) (persistChanges h summary) (persistChanges h' summary) w w' := by
  rw [persistChanges, persistChanges]
  split
  · exact tracks_pure () ha
  · exact tracks_saveFields ha hn _

end Changing

/-! ## A transaction of a run -/

/-- An observer that refuses some transactions by their fields, and saves what was changed on the
others. -/
def savingUnless (refuses : LiveTransaction → Option Failure) (h : Handle)
    (summary : TransactionSummary) : Operation Unit := do
  match refuses (← transaction h).bare with
  | some failure => throw failure
  | none => persistChanges h summary

/-- Nobody observes the run, or somebody who saves what it changes and perhaps refuses some of it.
-/
def Engine.IsSaving (e : Engine) : Prop :=
  ∀ observer, e.observer = some observer →
    observer = persistChanges ∨ ∃ refuses, observer = savingUnless refuses

namespace Engine

variable {c : Comparison} {h h' : Handle} {w w' : Workspace} {e : Engine} {trigger : Trigger}
  {dryRun : Bool}

theorem works_observer {L : Table Log → Table Log → Prop} [IsPreorder (Table Log) L]
    (he : e.IsSaving) {observer : Handle → TransactionSummary → Operation Unit}
    (hsome : e.observer = some observer) (h : Handle) (summary : TransactionSummary) :
    Keeps (Works L h) (observer h summary) := by
  rcases he observer hsome with rfl | ⟨refuses, rfl⟩
  · exact works_persistChanges h summary
  · rw [savingUnless]
    refine (works_of_looks (looks_transaction h)).bind fun t => ?_
    split
    · exact keeps_throw _
    · exact works_persistChanges h summary

theorem works_processOne_saving [Host] (hsaving : e.IsSaving) {rules : List RuleDefinition}
    {log : Bool} (h : Handle) : Keeps (Works AnyLogs h) (e.processOne rules trigger dryRun log h) :=
  works_processOne (fun _ _ _ _ _ => trivial) rules log h fun _ summary hsome _ =>
    works_observer hsaving hsome h summary

theorem tracks_tellObserver (he : e.IsSaving) (ha : Alike c true w w') (hn : c.names h h')
    (summary : TransactionSummary) :
    Tracks (Alike c true) (e.tellObserver h summary dryRun) (e.tellObserver h' summary dryRun)
      w w' := by
  rw [tellObserver, tellObserver]
  split
  · next observer hsome =>
    split
    · exact tracks_pure () ha
    · rcases he observer hsome with rfl | ⟨refuses, rfl⟩
      · exact tracks_persistChanges ha hn summary
      · rw [savingUnless, savingUnless]
        refine tracks_transaction ?_
        rw [(ha.transactions hn).bare]
        split
        · exact tracks_throw _ ha
        · exact tracks_persistChanges ha hn summary
  · exact tracks_pure () ha

theorem tracks_writeLog (he : e.failingLog = none) (ha : Alike c true w w') (log : Log) :
    Tracks (Alike c true) (e.writeLog log) (e.writeLog log) w w' := by
  have hrun : ∀ v : Workspace, v.isChanging = true → (e.writeLog log).runOn v =
      (.ok (), { v with
        logWrites := v.logWrites + 1
        store := { v.store with logs := v.store.logs.insert log } }) := by
    intro v hv
    rw [runOn_writeLog e log hv, he, if_neg (Option.some_ne_none _).symm]
  have hlog := alike_log ha log
  refine ⟨?_, ?_⟩ <;> rw [hrun w ha.changing, hrun w' ha.changing']
  exact { hlog with entries := hlog.entries }

theorem tracks_logOutcome (he : e.failingLog = none) (ha : Alike c true w w') (hn : c.names h h')
    (outcome : RuleOutcome) :
    Tracks (Alike c true) (e.logOutcome h outcome trigger dryRun)
      (e.logOutcome h' outcome trigger dryRun) w w' := by
  rw [logOutcome, logOutcome]
  refine tracks_transaction ?_
  rw [(ha.transactions hn).id_eq]
  split
  · split
    · refine tracks_get_bind ?_
      rw [ha.now]
      exact tracks_writeLog he ha _
    · exact tracks_pure () ha
  · exact tracks_pure () ha

theorem tracks_runRules [Host] (he : e.failingLog = none) (ha : Alike c true w w')
    (hn : c.names h h') (log : Bool) (rules : List RuleDefinition) :
    Tracks (Alike c true) (e.runRules h trigger dryRun log rules)
      (e.runRules h' trigger dryRun log rules) w w' := by
  induction rules generalizing w w' with
  | nil => exact tracks_pure [] ha
  | cons r rest ih =>
      rw [runRules_cons, runRules_cons]
      refine (tracks_runRule ha hn r dryRun).bind fun outcome v v' hv => Tracks.bind ?_ ?_
      · split
        · exact tracks_logOutcome he hv hn outcome
        · exact tracks_pure () hv
      · intro _ u u' hu
        split
        · exact tracks_pure _ hu
        · exact (ih hu).bind fun outcomes v v' hv => tracks_pure _ hv

/-- The rules for a transaction are run in the same way. -/
theorem tracks_runTransaction [Host] (hsaving : e.IsSaving) (he : e.failingLog = none)
    (ha : Alike c true w w') (hn : c.names h h') (rules : List RuleDefinition) (log : Bool) :
    Tracks (Alike c true) (e.runTransaction h rules trigger dryRun log)
      (e.runTransaction h' rules trigger dryRun log) w w' := by
  rw [runTransaction_eq, runTransaction_eq]
  refine tracks_transaction ?_
  rw [(ha.transactions hn).id_eq]
  refine (tracks_ownerOf ha hn).bind fun owner v v' hv => Tracks.bind ?_ fun _ u u' hu => ?_
  · split
    · exact tracks_throw _ hv
    · exact tracks_pure () hv
  · refine (tracks_runRules he hu hn log rules).bind fun outcomes v v' hv => ?_
    exact (tracks_tellObserver hsaving hv hn _).bind fun _ u u' hu => tracks_pure _ hu

/-! ## A transaction that is part of a run -/

theorem tracks_refresh {i : Bool} (ha : Alike c i w w') (hn : c.names h h') :
    Tracks (Alike c i) (refresh h) (refresh h') w w' := by
  have hid := (ha.transactions hn).id_eq
  have htransactions : w'.store.transactions = w.store.transactions := by
    rw [ha.store]
  have hrun := runOn_refresh h w
  have hrun' := runOn_refresh h' w'
  rw [hid, htransactions] at hrun'
  rcases hown : (w.transaction h).id with _ | id <;> rw [hown] at hrun hrun' <;>
    dsimp only at hrun hrun'
  · exact tracks_of_runs hrun hrun' ha
  · rcases hrow : w.store.transactions.find? id with _ | stored <;> rw [hrow] at hrun hrun'
    · refine ⟨?_, ?_⟩ <;> rw [hrun, hrun']
      exact ha
    · refine ⟨?_, ?_⟩ <;> rw [hrun, hrun']
      exact alike_change ha hn (Std.Refl.refl _) hown.symm

/-- Dropping a change makes the label caches agree again, whatever they held. -/
theorem tracks_discard {i : Bool} (hs : Similar c i w w') (hn : c.names h h') :
    Tracks (Alike c i) (discard h) (discard h') w w' := by
  have hcleared : Alike c i { w with labels := [], fields := w.fields.forget (w.transaction h).id }
      { w' with labels := [], fields := w'.fields.forget (w.transaction h).id } := by
    refine { hs with entries := fun {k k'} hk id hkid field => ?_, cache := ?_, cache' := ?_ }
    · rw [lookup_forget, lookup_forget, hs.entries hk hkid field]
    · rintro kind id found ⟨⟩
    · rintro kind id found ⟨⟩
  have hrefresh := tracks_refresh hcleared hn
  refine ⟨?_, ?_⟩ <;> rw [runOn_discard, runOn_discard, (hs.transactions hn).id_eq]
  · exact hrefresh.result
  · exact hrefresh.state

/-- Workspaces that are alike stay so within changes. -/
theorem alike_changing {i : Bool} (ha : Alike c i w w') (j : Bool) :
    Alike c j { w with isChanging := j } { w' with isChanging := j } :=
  { ha with changing := rfl, changing' := rfl }

/-- A change that fails in one workspace fails in the other.  It may leave labels in the caches that
are not stored, so that the workspaces are only similar then. -/
theorem tracks_atomically {α : Type} {x x' : Operation α} (ha : Alike c c.isChanging w w')
    (hx : Tracks (Alike c true) x x' { w with isChanging := true }
      { w' with isChanging := true }) :
    (∃ a v v', (atomically x).runOn w = (.ok a, v) ∧ (atomically x').runOn w' = (.ok a, v') ∧
      Alike c c.isChanging v v') ∨
    (∃ failure v v', (atomically x).runOn w = (.error failure, v) ∧
      (atomically x').runOn w' = (.error failure, v') ∧ Similar c c.isChanging v v') := by
  have hback : ∀ {v v' : Workspace}, Alike c true v v' →
      Similar c c.isChanging { v with isChanging := w.isChanging, store := w.store }
        { v' with isChanging := w'.isChanging, store := w'.store } := fun hv =>
    { ha with
      now := hv.now
      live := hv.live
      transactions := hv.transactions
      entries := hv.entries }
  rw [runOn_atomically, runOn_atomically]
  rcases hx.cases with ⟨a, v, v', hrun, hrun', hv⟩ | ⟨failure, v, v', hrun, hrun', hv⟩
  · rw [hrun, hrun']
    have hrestored := hback hv
    have hcommit : (w'.isChanging || v'.store.referencesHold) =
        (w.isChanging || v.store.referencesHold) := by
      rw [ha.changing, ha.changing']
      -- References are checked only where no larger change is under way.
      cases houter : c.isChanging with
      | true => rfl
      | false =>
          have hhold := hv.logsHold.resolve_left (by rw [houter]; exact Bool.false_ne_true)
          rw [hv.toSimilar.referencesHold hhold]
    rw [settle, settle, hcommit]
    split
    · refine Or.inl ⟨a, _, _, rfl, rfl, ?_⟩
      exact { hv with changing := ha.changing, changing' := ha.changing' }
    · exact Or.inr ⟨.brokenReference, _, _, rfl, rfl, hrestored⟩
  · rw [hrun, hrun']
    have hrestored := hback hv
    exact Or.inr ⟨failure, _, _, rfl, rfl, hrestored⟩

/-- A transaction of a run fares alike in workspaces that are alike. -/
theorem tracks_processOne [Host] (hsaving : e.IsSaving) (he : e.failingLog = none)
    (ha : Alike c c.isChanging w w') (hn : c.names h h') (rules : List RuleDefinition)
    (log : Bool) :
    Tracks (Alike c c.isChanging) (e.processOne rules trigger dryRun log h)
      (e.processOne rules trigger dryRun log h') w w' := by
  have htransaction : Tracks (Alike c true) (e.runTransaction h rules trigger dryRun log)
      (e.runTransaction h' rules trigger dryRun log) { w with isChanging := true }
      { w' with isChanging := true } :=
    tracks_runTransaction hsaving he (alike_changing ha true) hn rules log
  have hid := (ha.transactions hn).id_eq
  rcases tracks_atomically ha htransaction with
    ⟨t, v, v', hrun, hrun', halike⟩ | ⟨failure, v, v', hrun, hrun', hsimilar⟩
  · refine ⟨?_, ?_⟩ <;> rw [runOn_processOne, runOn_processOne, hrun, hrun']
    exact halike
  · rcases (tracks_discard hsimilar hn).cases with
      ⟨_, u, u', hdiscard, hdiscard', hu⟩ | ⟨later, u, u', hdiscard, hdiscard', hu⟩
    · refine ⟨?_, ?_⟩ <;>
        rw [runOn_processOne, runOn_processOne, hrun, hrun', hid] <;> dsimp only <;>
        rw [hdiscard, hdiscard']
      exact alike_fields hu _ _ hu.entries
    · refine ⟨?_, ?_⟩ <;>
        rw [runOn_processOne, runOn_processOne, hrun, hrun', hid] <;> dsimp only <;>
        rw [hdiscard, hdiscard']
      exact hu

/-- Passes over corresponding transactions fare alike. -/
theorem tracks_mapM [Host] (hsaving : e.IsSaving) (he : e.failingLog = none)
    (rules : List RuleDefinition)
    (log : Bool) {handles handles' : List Handle} (hn : List.Forall₂ c.names handles handles')
    (ha : Alike c c.isChanging w w') :
    Tracks (Alike c c.isChanging) (handles.mapM (e.processOne rules trigger dryRun log))
      (handles'.mapM (e.processOne rules trigger dryRun log)) w w' := by
  induction hn generalizing w w' with
  | nil => exact tracks_pure [] ha
  | cons hfirst _ ih =>
      rw [List.mapM_cons, List.mapM_cons]
      refine (tracks_processOne hsaving he ha hfirst rules log).bind fun t v v' hv => ?_
      exact (ih hv).bind fun rest u u' hu => tracks_pure _ hu

/-- A run gives the same summary if it begins in workspaces that are alike. -/
theorem result_process_eq [Host] (hsaving : e.IsSaving) (he : e.failingLog = none)
    (rules : List RuleDefinition) (log : Bool) {source : Source}
    (hn : List.Forall₂ c.names (source.handles e w) (source.handles e w'))
    (ha : Alike c c.isChanging (source.opened e w) (source.opened e w')) :
    ((e.process (source.batch e) rules trigger dryRun log).runOn w').1 =
      ((e.process (source.batch e) rules trigger dryRun log).runOn w).1 := by
  rw [runOn_process, runOn_process]
  rcases (tracks_mapM hsaving he rules log hn ha).cases with
    ⟨transactions, v, v', hrun, hrun', -⟩ | ⟨failure, v, v', hrun, hrun', -⟩
  · rw [hrun, hrun']
  · rw [hrun, hrun']

end Engine

end Rulebook
