import Rulebook.Proofs.Engine.EntryPoint
import Rulebook.Proofs.Engine.Working

/-!
# Receivers of notifications

A run tells receivers about notifications while it changes transactions and writes logs, and some of
them may fail.  Nothing of that comes back to the run: it never asks who the receivers are, and what
they do leaves traces in them and in the journal and nowhere else.

This is a statement about all possible receivers at once, so a run is compared with itself under
other receivers.  What is found on the way is that one list of notifications describes a run: it is
what the workspace remembers as sent, and what each receiver is told in this order, each once.

## Main definitions

* `Receiver.tellAll` — the receiver after it was told about several notifications.
* `Workspace.heardBy` — a workspace with other receivers.
* `Announces` — the notifications that an operation sends from a workspace, whoever receives them.
* `Silent`, `Broadcasts` — operations that announce nothing, or the same to everybody.

## Main statements

* `EntryPoint.broadcasts_start` — every run of the engine announces the same to everybody.
-/

namespace Rulebook

open Program Workspace

variable {α β : Type} {w v : Workspace} {ns ms : List Notification}

/-! ## Telling everybody the same -/

/-- The receiver after it was told about several notifications, one after the other. -/
def Receiver.tellAll (r : Receiver) (ns : List Notification) : Receiver :=
  { r with told := ns.reverse ++ r.told }

theorem Receiver.tellAll_append (r : Receiver) (ns ms : List Notification) :
    (r.tellAll ns).tellAll ms = r.tellAll (ns ++ ms) := by
  rw [tellAll, tellAll, tellAll, List.reverse_append, List.append_assoc]

theorem map_tellAll_nil (receivers : List Receiver) : receivers.map (·.tellAll []) = receivers :=
  List.map_id receivers

theorem map_tellAll_append (receivers : List Receiver) (ns ms : List Notification) :
    (receivers.map (·.tellAll ns)).map (·.tellAll ms) = receivers.map (·.tellAll (ns ++ ms)) := by
  rw [List.map_map]
  exact List.map_congr_left fun r _ => r.tellAll_append ns ms

/-- The workspace with other receivers and other events so far. -/
def Workspace.heardBy (w : Workspace) (receivers : List Receiver) (events : List Event) :
    Workspace := { w with receivers, events }

/-- From the workspace the operation sends these notifications, and it sends the same and does the
same for all receivers. -/
structure Announces (x : Operation α) (w : Workspace) (ns : List Notification) : Prop where
  sent : (x.runOn w).2.notifications = ns.reverse ++ w.notifications
  heard : ∀ receivers events, ∃ events', x.runOn (w.heardBy receivers events) =
    ((x.runOn w).1, (x.runOn w).2.heardBy (receivers.map (·.tellAll ns)) events')

/-- The operation sends nothing, and does the same for all receivers. -/
def Silent (x : Operation α) : Prop := ∀ w, Announces x w []

/-- The operation does the same for all receivers and tells them all the same. -/
def Broadcasts (x : Operation α) : Prop := ∀ w, ∃ ns, Announces x w ns

theorem Silent.broadcasts {x : Operation α} (hx : Silent x) : Broadcasts x := fun w => ⟨[], hx w⟩

/-- What a silent operation leaves of the notifications. -/
theorem Silent.notifications {x : Operation α} (hx : Silent x) (w : Workspace) :
    (x.runOn w).2.notifications = w.notifications := (hx w).sent

/-- The receivers that are there are told what is sent. -/
theorem Announces.receivers {x : Operation α} (hx : Announces x w ns) :
    (x.runOn w).2.receivers = w.receivers.map (·.tellAll ns) := by
  obtain ⟨events, hrun⟩ := hx.heard w.receivers w.events
  have hsame := congrArg (fun run => run.2.receivers) hrun
  exact hsame

/-- What is announced by an operation that begins with another one and goes on in a way that depends
on the result of that alone. -/
theorem Announces.andThen {x : Operation α} {y z : Operation β} (hx : Announces x w ns)
    (hy : ∀ u, (x.runOn u).1 = (x.runOn w).1 → y.runOn u = z.runOn (x.runOn u).2)
    (hz : Announces z (x.runOn w).2 ms) : Announces y w (ns ++ ms) := by
  constructor
  · rw [hy w rfl, hz.sent, hx.sent, List.reverse_append, List.append_assoc]
  · intro receivers events
    obtain ⟨events', hfirst⟩ := hx.heard receivers events
    obtain ⟨events'', hsecond⟩ := hz.heard (receivers.map (·.tellAll ns)) events'
    refine ⟨events'', ?_⟩
    have hresult := congrArg Prod.fst hfirst
    rw [hy _ hresult, hy w rfl, hfirst, hsecond, map_tellAll_append]

/-! ## Silent operations -/

theorem silent_of_runOn {x : Operation α} {r : Except Failure α} {f : Workspace → Workspace}
    (hrun : ∀ w, x.runOn w = (r, f w)) (hsent : ∀ w, (f w).notifications = w.notifications)
    (hheard : ∀ w receivers events, ∃ events',
      f (w.heardBy receivers events) = (f w).heardBy receivers events') : Silent x := by
  intro w
  refine ⟨?_, fun receivers events => ?_⟩
  · rw [hrun]
    exact hsent w
  · obtain ⟨events', hf⟩ := hheard w receivers events
    refine ⟨events', ?_⟩
    rw [hrun, hrun, hf, map_tellAll_nil]

theorem silent_ofExcept (r : Except Failure α) : Silent (Program.ofExcept r : Operation α) :=
  silent_of_runOn (fun _ => rfl) (fun _ => rfl) fun _ _ events => ⟨events, rfl⟩

theorem silent_pure (a : α) : Silent (pure a : Operation α) := silent_ofExcept (.ok a)

theorem silent_throw (failure : Failure) : Silent (throw failure : Operation α) :=
  silent_ofExcept (.error failure)

/-- Changes that do not concern notifications, receivers or events. -/
theorem silent_modify {f : Workspace → Workspace}
    (hsent : ∀ w, (f w).notifications = w.notifications)
    (hheard : ∀ w receivers events,
      f (w.heardBy receivers events) = (f w).heardBy receivers events) :
    Silent (modify f : Operation PUnit) :=
  silent_of_runOn (fun _ => rfl) hsent fun w receivers events => ⟨events, hheard w receivers events⟩

theorem silent_report (e : Event) : Silent (report e) :=
  silent_of_runOn (fun _ => rfl) (fun _ => rfl) fun _ _ events => ⟨e :: events, rfl⟩

theorem silent_change (h : Handle) (f : LiveTransaction → LiveTransaction) :
    Silent (change h f) := silent_modify (fun _ => rfl) fun _ _ _ => rfl

theorem Silent.bind {x : Operation α} {f : α → Operation β} (hx : Silent x)
    (hf : ∀ a, Silent (f a)) : Silent (x >>= f) := by
  intro w
  rcases hresult : (x.runOn w).1 with failure | a
  · exact (hx w).andThen (fun u hu => runOn_bind_of_error (hu.trans hresult))
      (silent_throw failure _)
  · exact (hx w).andThen (fun u hu => runOn_bind_of_ok (hu.trans hresult)) (hf a _)

/-- Operations that read nothing of the receivers. -/
theorem silent_get_bind {f : Workspace → Operation β}
    (hsame : ∀ w receivers events, f (w.heardBy receivers events) = f w)
    (hf : ∀ w, Silent (f w)) : Silent (get >>= f) := by
  intro w
  refine ⟨(hf w w).sent, fun receivers events => ?_⟩
  obtain ⟨events', hrun⟩ := (hf w w).heard receivers events
  refine ⟨events', ?_⟩
  rw [runOn_bind, runOn_bind, runOn_get, runOn_get]
  dsimp only
  rw [hsame]
  exact hrun

theorem silent_transaction (h : Handle) : Silent (transaction h) := by
  rw [transaction, reading]
  exact silent_get_bind (fun _ _ _ => rfl) fun w => silent_pure _

theorem silent_row {γ : Type} (e : Entity) (table : Store → Table γ) (id : Id) :
    Silent (row e table id) := by
  rw [row]
  refine silent_get_bind (fun _ _ _ => rfl) fun w => ?_
  split
  · exact silent_pure _
  · exact silent_throw _

theorem silent_writeResult (f : Store → Except Failure (α × Store)) : Silent (writeResult f) := by
  intro w
  have hrun := runOn_writeResult f w
  refine ⟨?_, fun receivers events => ⟨events, ?_⟩⟩
  · rw [hrun]
    split
    · split <;> rfl
    · rfl
  · have hstore : (w.heardBy receivers events).store = w.store := rfl
    have hchanging : (w.heardBy receivers events).isChanging = w.isChanging := rfl
    rw [runOn_writeResult, hrun, hstore, hchanging, map_tellAll_nil]
    rcases f w.store with failure | ⟨a, s⟩
    · rfl
    · dsimp only
      split <;> rfl

theorem silent_allM {p : β → Operation Bool} (hp : ∀ b, Silent (p b)) (l : List β) :
    Silent (l.allM p) := by
  induction l with
  | nil => exact silent_pure true
  | cons b rest ih =>
      rw [List.allM_cons]
      refine (hp b).bind fun holds => ?_
      cases holds with
      | true => exact ih
      | false => exact silent_pure false

theorem silent_anyM {p : β → Operation Bool} (hp : ∀ b, Silent (p b)) (l : List β) :
    Silent (l.anyM p) := by
  induction l with
  | nil => exact silent_pure false
  | cons b rest ih =>
      rw [List.anyM_cons]
      refine (hp b).bind fun holds => ?_
      cases holds with
      | true => exact silent_pure true
      | false => exact ih

theorem silent_mapM {f : β → Operation α} (hf : ∀ b, Silent (f b)) (l : List β) :
    Silent (l.mapM f) := by
  induction l with
  | nil => exact silent_pure []
  | cons b rest ih =>
      rw [List.mapM_cons]
      exact (hf b).bind fun a => ih.bind fun as => silent_pure _

/-! ## Matching is silent -/

section Matching

variable (h : Handle)

theorem silent_accountOf : Silent (accountOf h) := by
  rw [accountOf]
  refine (silent_transaction h).bind fun t => ?_
  dsimp only
  split
  · exact silent_pure _
  · exact silent_pure _
  · exact (silent_row _ _ _).bind fun account => (silent_change h _).bind fun _ => silent_pure _

theorem silent_labelOf (role : LabelRole) : Silent (labelOf role h) := by
  rw [labelOf]
  refine (silent_transaction h).bind fun t => ?_
  dsimp only
  split
  · exact silent_pure _
  · exact silent_pure _
  · exact (silent_row _ _ _).bind fun label => (silent_change h _).bind fun _ => silent_pure _

theorem silent_ownerOf : Silent (ownerOf h) := by
  rw [ownerOf]
  refine (silent_transaction h).bind fun t => ?_
  split
  · exact (silent_accountOf h).bind fun account => silent_pure _
  · exact silent_pure _

theorem silent_labelName (role : LabelRole) : Silent (labelName role h) := by
  rw [labelName]
  refine (silent_transaction h).bind fun t => ?_
  split
  · exact (silent_labelOf h role).bind fun label => silent_pure _
  · exact silent_pure _

theorem silent_accountName : Silent (accountName h) := by
  rw [accountName]
  refine (silent_transaction h).bind fun t => ?_
  split
  · exact (silent_accountOf h).bind fun account => silent_pure _
  · exact silent_pure _

theorem silent_tagNames : Silent (tagNames h) := by
  rw [tagNames]
  refine (silent_transaction h).bind fun t => ?_
  split
  · exact silent_pure _
  · exact silent_get_bind (fun _ _ _ => rfl) fun w => silent_pure _

theorem silent_resolveField (field : Field) : Silent (resolveField h field) := by
  rw [resolveField]
  refine (silent_transaction h).bind fun t => ?_
  cases field with
  | category => exact silent_labelName h .category
  | merchant => exact silent_labelName h .merchant
  | account => exact silent_accountName h
  | tags => exact silent_tagNames h
  | _ => exact silent_pure _

theorem silent_fieldValue (field : Field) : Silent (fieldValue h field) := by
  rw [fieldValue]
  refine (silent_transaction h).bind fun t => ?_
  refine silent_get_bind (fun _ _ _ => rfl) fun w => ?_
  split
  · refine Silent.bind ?_ fun _ => silent_pure _
    exact silent_modify (fun _ => rfl) fun _ _ _ => rfl
  · refine Silent.bind ?_ fun _ => (silent_resolveField h field).bind fun value => ?_
    · exact silent_modify (fun _ => rfl) fun _ _ _ => rfl
    · refine Silent.bind ?_ fun _ => silent_pure _
      exact silent_modify (fun _ => rfl) fun _ _ _ => rfl

theorem silent_invalidate : Silent (invalidate h) := by
  rw [invalidate]
  exact (silent_transaction h).bind fun t => silent_modify (fun _ => rfl) fun _ _ _ => rfl

theorem silent_refresh : Silent (refresh h) := by
  rw [refresh]
  refine (silent_transaction h).bind fun t => ?_
  split
  · exact silent_pure ()
  · exact (silent_row _ _ _).bind fun stored => silent_change h _

theorem silent_conditionMatches [Host] (c : Condition) : Silent (conditionMatches h c) := by
  have hevaluate : Silent (evaluateCondition h c) := by
    rw [evaluateCondition]
    split
    · exact (silent_fieldValue h _).bind fun value => silent_ofExcept _
    · exact silent_ofExcept _
  rw [conditionMatches, checkCondition]
  refine Silent.bind (hevaluate.bind fun outcome => ?_) fun outcome => silent_pure _
  dsimp only
  split
  · refine (silent_transaction h).bind fun t => ?_
    exact (silent_report _).bind fun _ => silent_pure _
  · exact silent_pure _

theorem silent_ruleMatches [Host] (r : RuleDefinition) : Silent (ruleMatches h r) := by
  refine silent_allM (fun g => ?_) r.groups
  rw [groupMatches]
  split
  · exact silent_pure true
  · split
    · exact silent_allM (silent_conditionMatches h) g.conditions
    · exact silent_anyM (silent_conditionMatches h) g.conditions

end Matching

/-! ## Planning and saving are silent -/

theorem silent_cachedLabel (kind : LabelKind) (id : Id) : Silent (cachedLabel kind id) := by
  rw [cachedLabel]
  refine silent_get_bind (fun _ _ _ => rfl) fun w => ?_
  split
  · exact silent_pure _
  · refine silent_get_bind (fun _ _ _ => rfl) fun w => ?_
    refine Silent.bind ?_ fun _ => silent_pure _
    exact silent_modify (fun _ => rfl) fun _ _ _ => rfl

theorem silent_ownedLabel (kind : LabelKind) (value : Option ActionValue) (owner : Id) :
    Silent (ownedLabel kind value owner) := by
  rw [ownedLabel.eq_def]
  split
  · exact (silent_cachedLabel kind _).bind fun found => silent_pure _
  · exact silent_pure none

theorem silent_labelText (kind : LabelKind) (value : Option ActionValue) :
    Silent (labelText kind value) := by
  rw [labelText.eq_def]
  split
  · refine (silent_cachedLabel kind _).bind fun found => ?_
    split
    · exact silent_pure _
    · exact silent_pure _
  · exact silent_pure _
  · exact silent_pure _

theorem silent_describe [Host] (a : Action) : Silent (describe a) := by
  rw [describe]
  split
  · exact silent_pure _
  · next kind _ =>
    refine (silent_ofExcept _).bind fun value => ?_
    cases kind with
    | setCategory | setMerchant | addTag | removeTag =>
        exact (silent_labelText _ value).bind fun name => silent_pure _
    | _ => exact silent_pure _

theorem silent_planKind (kind : ActionKind) (a : Action) (value : Option ActionValue)
    (t : LiveTransaction) (owner : Id) : Silent (planKind kind a value t owner) := by
  cases kind with
  | setCategory => exact (silent_ownedLabel _ _ _).bind fun label => silent_pure _
  | setMerchant => exact (silent_ownedLabel _ _ _).bind fun label => silent_pure _
  | addTag => exact (silent_ownedLabel _ _ _).bind fun label => silent_pure _
  | removeTag => exact (silent_ownedLabel _ _ _).bind fun label => silent_pure _
  | removeAllTags => exact silent_pure _
  | markReconciled => exact silent_pure _
  | sendNotification => exact silent_pure _
  | _ => rcases value with _ | ⟨_ | _⟩ <;> exact silent_pure _

theorem silent_plan [Host] (kind : ActionKind) (a : Action) (h : Handle) :
    Silent (plan kind a h) := by
  rw [plan]
  refine (silent_ofExcept _).bind fun value => (silent_ownerOf h).bind fun owner => ?_
  split
  · exact silent_pure none
  · exact (silent_transaction h).bind fun t => silent_planKind kind a value t _

theorem silent_findOrAddLabel (kind : LabelKind) (name : String) (owner : Id) :
    Silent (findOrAddLabel kind name owner) := by
  have hremember : ∀ id label, Silent (do
      modify fun w => { w with labels := ((kind, id), some label) :: w.labels }
      return (id, label) : Operation (Id × Label)) := by
    intro id label
    refine Silent.bind ?_ fun _ => silent_pure _
    exact silent_modify (fun _ => rfl) fun _ _ _ => rfl
  rw [findOrAddLabel]
  refine silent_get_bind (fun _ _ _ => rfl) fun w => ?_
  dsimp only
  split
  · exact (silent_pure _).bind fun label => hremember label.1 label.2
  · refine (silent_writeResult _).bind fun id => (silent_report _).bind fun _ => ?_
    exact (silent_pure _).bind fun label => hremember label.1 label.2

theorem silent_putTag (h : Handle) (tag : Id) : Silent (putTag h tag) := by
  rw [putTag]
  refine (silent_transaction h).bind fun t => ?_
  split
  · exact silent_writeResult _
  · exact silent_pure _

theorem silent_takeTags (h : Handle) (test : Id → Bool) : Silent (takeTags h test) := by
  rw [takeTags]
  refine (silent_transaction h).bind fun t => ?_
  split
  · exact silent_writeResult _
  · exact silent_pure _

/-- Saving what was changed is silent. -/
theorem silent_persistChanges (h : Handle) (summary : TransactionSummary) :
    Silent (persistChanges h summary) := by
  have hprepare : Silent (prepareSaving h summary.changes) := by
    rw [prepareSaving]
    refine silent_get_bind (fun _ _ _ => rfl) fun w => (silent_change h _).bind fun _ => ?_
    exact (silent_transaction h).bind fun t => silent_ofExcept _
  rw [persistChanges]
  split
  · exact silent_pure ()
  · rw [saveFields]
    refine (silent_transaction h).bind fun t => ?_
    split
    · exact silent_throw _
    · exact hprepare.bind fun content => silent_writeResult _

/-! ## Operations that send notifications -/

theorem Broadcasts.bind {x : Operation α} {f : α → Operation β} (hx : Broadcasts x)
    (hf : ∀ a, Broadcasts (f a)) : Broadcasts (x >>= f) := by
  intro w
  obtain ⟨ns, hsends⟩ := hx w
  rcases hresult : (x.runOn w).1 with failure | a
  · exact ⟨_, hsends.andThen (fun u hu => runOn_bind_of_error (hu.trans hresult))
      (silent_throw failure _)⟩
  · obtain ⟨ms, hrest⟩ := hf a (x.runOn w).2
    exact ⟨_, hsends.andThen (fun u hu => runOn_bind_of_ok (hu.trans hresult)) hrest⟩

theorem Broadcasts.tryCatch {x : Operation α} {handler : Failure → Operation α}
    (hx : Broadcasts x) (hhandler : ∀ failure, Broadcasts (handler failure)) :
    Broadcasts (MonadExcept.tryCatch x handler) := by
  intro w
  obtain ⟨ns, hsends⟩ := hx w
  rcases hresult : (x.runOn w).1 with failure | a
  · obtain ⟨ms, hrest⟩ := hhandler failure (x.runOn w).2
    exact ⟨_, hsends.andThen (fun u hu => runOn_tryCatch_of_error (hu.trans hresult)) hrest⟩
  · exact ⟨_, hsends.andThen (fun u hu => runOn_tryCatch_of_ok (hu.trans hresult))
      (silent_pure a _)⟩

/-- A larger change sends what its parts send, whether it is kept or taken back. -/
theorem Broadcasts.atomically {x : Operation α} (hx : Broadcasts x) :
    Broadcasts (Rulebook.atomically x) := by
  intro w
  obtain ⟨ns, hsends⟩ := hx { w with isChanging := true }
  have hsent := hsends.sent
  have hheard := hsends.heard
  rcases hrun : x.runOn { w with isChanging := true } with ⟨result, v⟩
  rw [hrun] at hsent hheard
  have hsettle : ∀ u : Workspace, (settle w.store result u).2.notifications = u.notifications ∧
      ∀ receivers events, settle w.store result (u.heardBy receivers events) =
        ((settle w.store result u).1, (settle w.store result u).2.heardBy receivers events) := by
    intro u
    cases result with
    | error failure => exact ⟨rfl, fun _ _ => rfl⟩
    | ok a =>
        by_cases hkept : (u.isChanging || u.store.referencesHold) = true
        · have hkept' : ∀ receivers events, ((u.heardBy receivers events).isChanging ||
              (u.heardBy receivers events).store.referencesHold) = true := fun _ _ => hkept
          simp only [settle, hkept, hkept', if_true]
          exact ⟨trivial, fun _ _ => trivial⟩
        · have hkept' : ∀ receivers events, ¬((u.heardBy receivers events).isChanging ||
              (u.heardBy receivers events).store.referencesHold) = true := fun _ _ => hkept
          simp only [settle, hkept, hkept']
          exact ⟨rfl, fun _ _ => rfl⟩
  refine ⟨ns, ?_, fun receivers events => ?_⟩
  · rw [runOn_atomically, hrun]
    exact (hsettle _).1.trans hsent
  · obtain ⟨events', hrun'⟩ := hheard receivers events
    refine ⟨events', ?_⟩
    have hsame : { w.heardBy receivers events with isChanging := true } =
        { w with isChanging := true }.heardBy receivers events := rfl
    rw [runOn_atomically, runOn_atomically, hrun, hsame, hrun']
    exact (hsettle { v with isChanging := w.isChanging }).2 _ _

/-- Everybody is told about the notification, and a receiver that fails only leaves an event. -/
theorem broadcasts_sendNotification (h : Handle) (rule : Option Id) (message : String) :
    Broadcasts (sendNotification h rule message) := fun w =>
  ⟨[⟨rule, (w.transaction h).id, message⟩], rfl, fun _ _ => ⟨_, rfl⟩⟩

/-- What is to be sent when the effect is carried out, and for which rule. -/
def Effect.notice? : Effect → Option (Option Id × String)
  | .notify rule message => some (rule, message)
  | _ => none

theorem silent_perform (h : Handle) {effect : Effect} (hquiet : effect.notice? = none) :
    Silent (effect.perform h) := by
  have hchange : ∀ (f : LiveTransaction → LiveTransaction) (fields : List TransactionField),
      Silent (do change h f; return fields) :=
    fun f fields => (silent_change h f).bind fun _ => silent_pure fields
  cases effect with
  | notify rule message => cases hquiet
  | setLabel role id label => exact hchange _ _
  | setNamedLabel role name owner =>
      exact (silent_findOrAddLabel role.kind name owner).bind fun label => hchange _ _
  | attachTag tag => exact (silent_putTag h tag).bind fun _ => silent_pure []
  | attachNamedTag name owner =>
      refine (silent_findOrAddLabel .tag name owner).bind fun label => ?_
      exact (silent_putTag h label.1).bind fun _ => silent_pure []
  | detachTag tag => exact (silent_takeTags h _).bind fun _ => silent_pure []
  | detachAllTags => exact (silent_takeTags h _).bind fun _ => silent_pure []
  | setDescription words => exact hchange _ _
  | setNote words => exact hchange _ _
  | setType words => exact hchange _ _
  | markReconciled => exact silent_get_bind (fun _ _ _ => rfl) fun w => hchange _ _

theorem broadcasts_perform (h : Handle) (effect : Effect) : Broadcasts (effect.perform h) := by
  cases effect with
  | notify rule message =>
      exact (broadcasts_sendNotification h rule message).bind fun _ => (silent_pure []).broadcasts
  | _ => exact (silent_perform h rfl).broadcasts

theorem broadcasts_runAction [Host] (a : Action) (h : Handle) (dryRun : Bool) :
    Broadcasts (runAction a h dryRun) := by
  have hfailed : ∀ (e : Event) (outcome : ActionOutcome),
      Broadcasts (do report e; return outcome : Operation ActionOutcome) := fun e outcome =>
    ((silent_report e).bind fun _ => silent_pure outcome).broadcasts
  rw [runAction]
  refine (silent_transaction h).broadcasts.bind fun t => ?_
  dsimp only
  split
  · exact hfailed _ _
  · next kind _ =>
    refine Broadcasts.tryCatch ?_ fun failure => hfailed _ _
    rw [attemptAction]
    refine (silent_describe a).broadcasts.bind fun description => ?_
    refine (silent_plan kind a h).broadcasts.bind fun effect => ?_
    split
    · exact (silent_pure _).broadcasts
    · dsimp only
      split
      · exact ((silent_pure []).bind fun changes => silent_pure _).broadcasts
      · exact (broadcasts_perform h _).bind fun changes => (silent_pure _).broadcasts

/-! ## Runs -/

namespace Engine

theorem broadcasts_runActions [Host] (h : Handle) (r : RuleDefinition) (dryRun : Bool)
    (actions : List Action) : Broadcasts (runActions h r dryRun actions) := by
  induction actions with
  | nil => exact (silent_pure []).broadcasts
  | cons a rest ih =>
      rw [runActions]
      refine (broadcasts_runAction a h dryRun).bind fun outcome => ?_
      split
      · refine Silent.broadcasts ((silent_transaction h).bind fun t => ?_)
        exact (silent_report _).bind fun _ => silent_pure _
      · exact ih.bind fun outcomes => (silent_pure _).broadcasts

theorem broadcasts_runRule [Host] (h : Handle) (r : RuleDefinition) (dryRun : Bool) :
    Broadcasts (runRule h r dryRun) := by
  rw [runRule]
  refine (silent_ruleMatches h r).broadcasts.bind fun matched => ?_
  split
  · refine (broadcasts_runActions h r dryRun r.actions).bind fun actions => ?_
    dsimp only
    split
    · exact ((silent_invalidate h).bind fun _ => silent_pure _).broadcasts
    · exact (silent_pure _).broadcasts
  · exact (silent_pure _).broadcasts

variable {e : Engine} {trigger : Trigger} {dryRun log : Bool} {rules : List RuleDefinition}

theorem silent_logOutcome (h : Handle) (outcome : RuleOutcome) :
    Silent (e.logOutcome h outcome trigger dryRun) := by
  have hwrite : ∀ row, Silent (e.writeLog row) := by
    intro row
    rw [writeLog]
    refine Silent.bind ?_ fun _ => ?_
    · exact silent_modify (fun _ => rfl) fun _ _ _ => rfl
    · refine silent_get_bind (fun _ _ _ => rfl) fun w => ?_
      dsimp only
      split
      · exact silent_throw _
      · exact (silent_writeResult _).bind fun _ => silent_pure ()
  rw [logOutcome]
  refine (silent_transaction h).bind fun t => ?_
  split
  · split
    · exact silent_get_bind (fun _ _ _ => rfl) fun w => hwrite _
    · exact silent_pure ()
  · exact silent_pure ()

theorem broadcasts_runRules [Host] (h : Handle) :
    Broadcasts (e.runRules h trigger dryRun log rules) := by
  induction rules with
  | nil => exact (silent_pure []).broadcasts
  | cons r rest ih =>
      rw [runRules]
      refine (broadcasts_runRule h r dryRun).bind fun outcome => ?_
      have hrest : Broadcasts (if (outcome.matched && r.stopProcessing.isTruthy) = true then
          return [outcome] else return outcome :: (← e.runRules h trigger dryRun log rest)) := by
        split
        · exact (silent_pure _).broadcasts
        · exact ih.bind fun outcomes => (silent_pure _).broadcasts
      dsimp only
      split
      · exact (silent_logOutcome h outcome).broadcasts.bind fun _ => hrest
      · exact hrest

theorem silent_discard (h : Handle) : Silent (discard h) := by
  rw [discard]
  refine Silent.bind ?_ fun _ => (silent_invalidate h).bind fun _ => silent_refresh h
  exact silent_modify (fun _ => rfl) fun _ _ _ => rfl

section Observed

variable (hobserver : ∀ observer, e.observer = some observer →
  ∀ h summary, Silent (observer h summary))

include hobserver

theorem silent_tellObserver (h : Handle) (summary : TransactionSummary) :
    Silent (e.tellObserver h summary dryRun) := by
  rw [tellObserver]
  split
  · next observer hsome =>
    split
    · exact silent_pure ()
    · exact hobserver observer hsome h summary
  · exact silent_pure ()

theorem broadcasts_runTransaction [Host] (h : Handle) :
    Broadcasts (e.runTransaction h rules trigger dryRun log) := by
  rw [runTransaction_eq]
  refine (silent_transaction h).broadcasts.bind fun t => ?_
  refine (silent_ownerOf h).broadcasts.bind fun owner => Broadcasts.bind ?_ fun _ => ?_
  · split
    · exact (silent_throw _).broadcasts
    · exact (silent_pure ()).broadcasts
  · refine (broadcasts_runRules h).bind fun outcomes => ?_
    exact ((silent_tellObserver hobserver h _).bind fun _ => silent_pure _).broadcasts

theorem broadcasts_processOne [Host] (h : Handle) :
    Broadcasts (e.processOne rules trigger dryRun log h) := by
  rw [processOne]
  refine (silent_transaction h).broadcasts.bind fun t => ?_
  refine (broadcasts_runTransaction hobserver h).atomically.tryCatch fun failure => ?_
  refine Silent.broadcasts ((silent_discard h).bind fun _ => ?_)
  exact (silent_report _).bind fun _ => silent_pure _

theorem broadcasts_mapM [Host] (handles : List Handle) :
    Broadcasts (handles.mapM (e.processOne rules trigger dryRun log)) := by
  induction handles with
  | nil => exact (silent_pure []).broadcasts
  | cons h rest ih =>
      rw [List.mapM_cons]
      refine (broadcasts_processOne hobserver h).bind fun t => ?_
      exact ih.bind fun later => (silent_pure _).broadcasts

theorem broadcasts_process [Host] (source : Source) :
    Broadcasts (e.process (source.batch e) rules trigger dryRun log) := by
  have hhold : ∀ t, Silent (hold t) := by
    refine fun t w => ⟨rfl, fun receivers events => ⟨events, ?_⟩⟩
    rw [map_tellAll_nil]
    rfl
  have hbatch : Silent (source.batch e) := by
    cases source with
    | held handles => exact silent_pure handles
    | stored test =>
        rw [Source.batch, transactionsWhere]
        refine silent_get_bind (fun _ _ _ => rfl) fun w => ?_
        rw [holdRows]
        exact silent_get_bind (fun _ _ _ => rfl) fun w => silent_mapM (fun row => hhold _) _
  rw [process, clearFields]
  refine Broadcasts.bind (Silent.broadcasts ?_) fun _ =>
    Broadcasts.bind (Silent.broadcasts ?_) fun _ => hbatch.broadcasts.bind fun hs => ?_
  · exact silent_modify (fun _ => rfl) fun _ _ _ => rfl
  · exact silent_modify (fun _ => rfl) fun _ _ _ => rfl
  · refine (broadcasts_mapM hobserver hs).bind fun transactions => Silent.broadcasts ?_
    exact (silent_report _).bind fun _ => silent_pure _

end Observed

end Engine

/-- Whoever receives notifications, and whether they fail or not, a run has the same result and does
the same, and everybody is told the same. -/
theorem EntryPoint.broadcasts_start [Host] {e : Engine}
    (hobserver : ∀ observer, e.observer = some observer →
      ∀ h summary, Silent (observer h summary)) (p : EntryPoint) (dryRun : Bool) :
    Broadcasts (p.start e dryRun) := by
  intro w
  have hstart := fun u => p.runOn_start e dryRun u
  have hsame : ∀ receivers events,
      p.candidates e (w.heardBy receivers events) = p.candidates e w := by
    intro receivers events
    cases p <;> rfl
  rcases hcandidates : p.candidates e w with failure | ⟨trigger, rules⟩
  · refine ⟨[], ?_, fun receivers events => ⟨events, ?_⟩⟩
    · rw [hstart, hcandidates]
      rfl
    · rw [hstart, hstart, hsame, hcandidates, map_tellAll_nil]
  · have hprocess : Broadcasts
        (e.process (p.source.batch e) rules trigger (p.isDry dryRun) p.isLogged) :=
      Engine.broadcasts_process hobserver p.source
    obtain ⟨ns, hsends⟩ := hprocess w
    refine ⟨ns, ?_, fun receivers events => ?_⟩
    · rw [hstart, hcandidates]
      exact hsends.sent
    · rw [hstart, hstart, hsame, hcandidates]
      exact hsends.heard receivers events

end Rulebook
