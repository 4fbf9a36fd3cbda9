import Mathlib.Data.List.Forall2
import Rulebook.Proofs.Engine.Boundary
import Rulebook.Proofs.Ledger.Share

/-!
# Working in a user's share of the store

A run for a user is compared with the same run in a workspace that has only the user's share of the
store.  Apart from the store and the label cache the two workspaces are equal at every step, because
everything that the run looks up to decide what to do is in the share.

There is one exception.  An action may name a label by its number, and its description looks the
name up whoever owns the label.  In the share the labels of others are not there, so descriptions
may differ; nothing else depends on them, but they are logged.  Outcomes and logs are therefore
compared in two ways at once, with their texts and without, and the texts only have to be the same
if no label that is named belongs to somebody else.

What makes the share enough is an invariant of the work in the share: no link dangles there, and
what the transaction at hand refers to is there unless it was looked up before.  Whole runs are
compared in `RestrictedRun`.

## Main definitions

* `ActionOutcome.Alike`, `RuleOutcome.Alike`, `Log.Alike` — the same, perhaps apart from texts.
* `Workspace.Restricted` — the second workspace has the user's share of the store of the first.
* `Workspace.RestrictedAt` — the same while a transaction of the user is worked on.

## Main statements

* `restricts_ruleMatches`, `restricts_plan`, `restricts_perform` — matching, planning and carrying
  out go the same way.
* `restricts_runAction`, `Engine.restricts_runRule` — outcomes are the same, perhaps apart from
  texts.
-/

namespace Rulebook

open Program Workspace

/-! ## Outcomes and logs -/

/-- The outcomes are the same; the descriptions have to be only if texts count. -/
structure ActionOutcome.Alike (texts : Prop) (o o' : ActionOutcome) : Prop where
  kind : o'.kind = o.kind
  succeeded : o'.succeeded = o.succeeded
  changes : o'.changes = o.changes
  description : texts → o'.description = o.description

/-- The outcomes are the same, perhaps apart from the descriptions of the actions. -/
structure RuleOutcome.Alike (texts : Prop) (r r' : RuleOutcome) : Prop where
  rule : r'.rule = r.rule
  name : r'.name = r.name
  matched : r'.matched = r.matched
  stopped : r'.stopped = r.stopped
  actions : List.Forall₂ (ActionOutcome.Alike texts) r.actions r'.actions

/-- The logs are the same, perhaps apart from the descriptions of the actions. -/
structure Log.Alike (texts : Prop) (l l' : Log) : Prop where
  rule : l'.rule = l.rule
  transaction : l'.transaction = l.transaction
  matched : l'.matched = l.matched
  context : l'.context = l.context
  createdAt : l'.createdAt = l.createdAt
  actions : ∃ outcomes outcomes', List.Forall₂ (ActionOutcome.Alike texts) outcomes outcomes' ∧
    l.actions = .list (outcomes.map ActionOutcome.toJson) ∧
    l'.actions = .list (outcomes'.map ActionOutcome.toJson)

section Outcomes

variable {texts : Prop}

theorem ActionOutcome.Alike.refl (o : ActionOutcome) : o.Alike texts o :=
  ⟨rfl, rfl, rfl, fun _ => rfl⟩

theorem RuleOutcome.Alike.changes {r r' : RuleOutcome} (h : r.Alike texts r') :
    r'.changes = r.changes := by
  have hactions := h.actions
  rw [RuleOutcome.changes, RuleOutcome.changes]
  generalize r.actions = actions at hactions ⊢
  generalize r'.actions = actions' at hactions ⊢
  induction hactions with
  | nil => rfl
  | cons hfirst _ ih => rw [List.flatMap_cons, List.flatMap_cons, hfirst.changes, ih]

/-- Whether an action succeeded is seen in either list. -/
theorem any_succeeded_eq {outcomes outcomes' : List ActionOutcome}
    (h : List.Forall₂ (ActionOutcome.Alike texts) outcomes outcomes') :
    outcomes'.any (·.succeeded) = outcomes.any (·.succeeded) := by
  induction h with
  | nil => rfl
  | cons hfirst _ ih => rw [List.any_cons, List.any_cons, hfirst.succeeded, ih]

/-- Logs of outcomes that are alike. -/
theorem logOf_alike {outcome outcome' : RuleOutcome} (h : outcome.Alike texts outcome')
    (rule transaction : Id) (trigger : Trigger) (dryRun : Bool) (now : Calendar.Instant) :
    (Engine.logOf rule transaction outcome trigger dryRun now).Alike texts
      (Engine.logOf rule transaction outcome' trigger dryRun now) := by
  refine ⟨rfl, rfl, h.matched, ?_, rfl, _, _, h.actions, rfl, rfl⟩
  rw [Engine.logOf, Engine.logOf, h.stopped]

end Outcomes

/-! ## What a share has to have -/

/-- What the reference names is in the table, unless it was looked up before. -/
def Reference.ResolvesIn {α β : Type} (t : Table β) (r : Reference α) : Prop :=
  r.loaded = none → ∀ id, r.id = some id → t.has id = true

namespace Reference

variable {α β : Type} {r s : Reference α} {t : Table β}

theorem ResolvesIn.of_lookedUp {row : Id → α → Prop} (hr : r.ResolvesIn t)
    (h : r.LookedUp row s) : s.ResolvesIn t := by
  cases h with
  | same => exact hr
  | found => exact fun hloaded => nomatch hloaded

theorem resolvesIn_known (id : Id) (a : α) : (known id a).ResolvesIn t :=
  fun hloaded => nomatch hloaded

/-- Looking up gives the same in two stores that agree on what may have to be looked up. -/
theorem resolve_congr {find find' : Id → Option α}
    (h : ∀ id, r.loaded = none → r.id = some id → find' id = find id) :
    r.resolve find' = r.resolve find := by
  obtain ⟨_ | id, _ | a⟩ := r
  · rfl
  · rfl
  · exact congrArg (Option.map _) (h id rfl rfl)
  · rfl

end Reference

/-- The store has whatever the transaction refers to and has not looked up yet. -/
structure LiveTransaction.ResolvesIn (s : Store) (t : LiveTransaction) : Prop where
  account : t.account.ResolvesIn s.accounts
  labels : ∀ role : LabelRole, (role.get t).ResolvesIn (s.labels role.kind)

namespace LiveTransaction

variable {h : Handle} {user : Id} {w v : Workspace}

/-- A user who keeps to what is owned takes nothing away that a transaction may refer to. -/
theorem ResolvesIn.of_keepsTo {s s' : Store} {t : LiveTransaction} (ht : t.ResolvesIn s)
    (hs : s.KeepsTo user s') : t.ResolvesIn s' where
  account := by
    rw [hs.accounts]
    exact ht.account
  labels role hloaded id hid := (hs.labels role.kind).has (ht.labels role hloaded id hid)

/-- What the transaction refers to after the work was there before, or it was looked up. -/
theorem ResolvesIn.of_confined {reported : List TransactionField}
    (hw : (w.transaction h).ResolvesIn w.store) (hv : Confined h user reported w v) :
    (v.transaction h).ResolvesIn w.store where
  account := hw.account.of_lookedUp hv.account
  labels role := by
    rcases hv.references role with hlooked | ⟨id, l, hknown, -⟩
    · exact (hw.labels role).of_lookedUp hlooked
    · rw [hknown]
      exact Reference.resolvesIn_known id l

end LiveTransaction

/-- The action names a label by its number. -/
def Action.Names [Host] (a : Action) (kind : LabelKind) (id : Id) : Prop :=
  a.typedValue = .ok (some (.identifier id)) ∧
    match (Vocabulary.ofJson? a.kind : Option ActionKind) with
    | some .setCategory => kind = .category
    | some .setMerchant => kind = .merchant
    | some .addTag | some .removeTag => kind = .tag
    | _ => False

/-! ## Workspaces with a share of the store -/

/-- The store without its logs. -/
def Store.withoutLogs (s : Store) : Store := { s with logs := {} }

/-- How a run is compared with the run in a user's share: the labels that may be named by number, of
which none belongs to somebody else; whether texts count; and the logs at first. -/
structure Restriction where
  user : Id
  named : LabelKind → Id → Prop
  texts : Prop
  logs : Table Log
  logs' : Table Log

/-- Logs that are alike were added to the logs at first. -/
def Restriction.LogsAlike (c : Restriction) (logs logs' : Table Log) : Prop :=
  ∃ added added', List.Forall₂ (Log.Alike c.texts) added added' ∧
    logs = c.logs.insertAll added ∧ logs' = c.logs'.insertAll added'

namespace Workspace

/-- The second workspace is the first one with the user's share of the store, apart from logs. -/
structure Restricted (c : Restriction) (w v : Workspace) : Prop where
  rest : v = { w with store := v.store, labels := v.labels }
  store : v.store.withoutLogs = (w.store.share c.user).withoutLogs
  logs : c.LogsAlike w.store.logs v.store.logs
  named : ∀ kind id, c.named kind id → ∀ l, (w.store.labels kind).find? id = some l →
    l.user = c.user
  agree : w.LabelsAgree
  agree' : v.LabelsAgree

/-- A transaction of the user is worked on, and the share has all that this takes. -/
structure RestrictedAt (c : Restriction) (h : Handle) (logged : List RuleDefinition)
    (w v : Workspace) : Prop extends Restricted c w v where
  atWork : v.IsAtWork h c.user logged
  links : v.store.LinksResolve
  resolves : (v.transaction h).ResolvesIn v.store

end Workspace

section Restricted

variable {c : Restriction} {h : Handle} {logged : List RuleDefinition} {w v : Workspace} {α : Type}

namespace Workspace

theorem Restricted.transaction (hr : Restricted c w v) (k : Handle) :
    v.transaction k = w.transaction k := by
  rw [hr.rest]
  rfl

theorem Restricted.isChanging (hr : Restricted c w v) : v.isChanging = w.isChanging := by
  rw [hr.rest]

/-- What is asked of the store, but not of its logs, is asked of the share. -/
theorem Restricted.query {β : Type} (hr : Restricted c w v) (q : Store → β)
    (hq : ∀ s, q s.withoutLogs = q s) : q v.store = q (w.store.share c.user) := by
  rw [← hq, hr.store, hq]

theorem Restricted.labels (hr : Restricted c w v) (kind : LabelKind) :
    v.store.labels kind = (w.store.share c.user).labels kind :=
  hr.query (·.labels kind) fun _ => by cases kind <;> rfl

/-- A label of the share is the user's. -/
theorem Restricted.find?_label (hr : Restricted c w v) {kind : LabelKind} {id : Id} {l : Label} :
    (v.store.labels kind).find? id = some l ↔
      (w.store.labels kind).find? id = some l ∧ l.user = c.user := by
  rw [hr.labels, Store.find?_labels_share]

/-- The row of a transaction that is the user's in the share is so in the store. -/
theorem Restricted.owns (hr : Restricted c w v) {id : Id}
    (hid : v.store.transactionOwner? id = some c.user) :
    w.store.ownsTransaction c.user id = true := by
  rw [hr.query Store.transactionOwner? fun _ => rfl] at hid
  exact decide_eq_true (Store.transactionOwner?_share.1 hid)

/-- Changes that have nothing to do with stores and label caches. -/
theorem Restricted.aside (hr : Restricted c w v) (g : Workspace → Workspace)
    (hg : ∀ w s labels,
      g { w with store := s, labels } = { g w with store := s, labels }) :
    Restricted c (g w) (g v) := by
  have hstill : ∀ x : Workspace, (g x).store = x.store ∧ (g x).labels = x.labels := by
    intro x
    have hstore := congrArg Workspace.store (hg x x.store x.labels)
    have hlabels := congrArg Workspace.labels (hg x x.store x.labels)
    exact ⟨hstore, hlabels⟩
  have hagree : ∀ {x : Workspace}, x.LabelsAgree → (g x).LabelsAgree := by
    intro x hx kind id found hfound
    rw [(hstill x).2] at hfound
    rw [(hstill x).1]
    exact hx kind id found hfound
  refine ⟨?_, ?_, ?_, ?_, hagree hr.agree, hagree hr.agree'⟩
  · rw [(hstill v).1, (hstill v).2, ← hg, ← hr.rest]
  · rw [(hstill v).1, (hstill w).1]
    exact hr.store
  · rw [(hstill v).1, (hstill w).1]
    exact hr.logs
  · rw [(hstill w).1]
    exact hr.named

/-- A transaction in memory is changed in both. -/
theorem Restricted.edit (hr : Restricted c w v) (h : Handle) (f : LiveTransaction → LiveTransaction) :
    Restricted c { w with live := w.live.update h f } { v with live := v.live.update h f } :=
  hr.aside (fun w => { w with live := w.live.update h f }) fun _ _ _ => rfl

/-- Changes of the stores that happen to the share as well, whatever is remembered of labels. -/
theorem Restricted.change (hr : Restricted c w v) {f : Store → Store} (hf : Store.Unlogged f)
    (hshare : (f w.store).share c.user = f (w.store.share c.user))
    (hkept : w.store.KeepsTo c.user (f w.store)) {labels labels' : LabelCache}
    (hagree : LabelsAgree { w with store := f w.store, labels })
    (hagree' : LabelsAgree { v with store := f v.store, labels := labels' }) :
    Restricted c { w with store := f w.store, labels }
      { v with store := f v.store, labels := labels' } := by
  have hblind : ∀ s, (f s).withoutLogs = f s.withoutLogs := fun s => (hf.blind s {}).symm
  refine ⟨?_, ?_, ?_, ?_, hagree, hagree'⟩
  · rw [hr.rest]
  · show (f v.store).withoutLogs = ((f w.store).share c.user).withoutLogs
    rw [hshare, hblind, hblind, hr.store]
  · dsimp only
    rw [hf.logs, hf.logs]
    exact hr.logs
  · intro kind id hnamed l hfind
    rcases hkept.newLabels kind id l hfind with hold | ⟨hown, -⟩
    · exact hr.named kind id hnamed l hold
    · exact hown

/-- What the label caches remember. -/
theorem Restricted.remember (hr : Restricted c w v) {labels labels' : LabelCache}
    (hagree : LabelsAgree { w with labels }) (hagree' : LabelsAgree { v with labels := labels' }) :
    Restricted c { w with labels } { v with labels := labels' } := by
  refine { hr with rest := ?_, agree := hagree, agree' := hagree' }
  rw [hr.rest]

/-- A label that may be named is found in the share if it is found at all. -/
theorem Restricted.find?_named (hr : Restricted c w v) {kind : LabelKind} {id : Id}
    (hnamed : c.named kind id) :
    (v.store.labels kind).find? id = (w.store.labels kind).find? id := by
  ext l
  rw [hr.find?_label]
  constructor
  · exact And.left
  · intro hfind
    exact ⟨hfind, hr.named kind id hnamed l hfind⟩

namespace RestrictedAt

variable {x : Operation α} {u y : Workspace}

/-- Work that stays with what the user owns leaves the share with all that it takes. -/
theorem follow {reported : List TransactionField} (hat : RestrictedAt c h logged w v)
    (hkept : StaysOwn h c.user logged reported v y) (hr : Restricted c u y) :
    RestrictedAt c h logged u y := by
  obtain ⟨hatWork, hconfined⟩ := hkept hat.atWork
  exact { hr with
    atWork := hatWork
    links := hconfined.store.linksResolve hat.links
    resolves := (hat.resolves.of_confined hconfined).of_keepsTo hconfined.store }

theorem after (hat : RestrictedAt c h logged w v) (hx : Tracks (Restricted c) x x w v)
    (hkept : StaysOwn h c.user logged [] v (x.runOn v).2) :
    Tracks (RestrictedAt c h logged) x x w v := ⟨hx.result, hat.follow hkept hx.state⟩

theorem look (hat : RestrictedAt c h logged w v) (hx : Tracks (Restricted c) x x w v)
    (hlooks : Keeps (Looks h) x) : Tracks (RestrictedAt c h logged) x x w v :=
  hat.after hx (hlooks v).staysOwn

/-- Changes that have nothing to do with the store or the transactions. -/
theorem aside (hat : RestrictedAt c h logged w v) (g : Workspace → Workspace)
    (hg : ∀ w s labels, g { w with store := s, labels } = { g w with store := s, labels })
    (hlive : ∀ w, (g w).live = w.live) (hchanging : ∀ w, (g w).isChanging = w.isChanging) :
    RestrictedAt c h logged (g w) (g v) := by
  have hstore := congrArg Workspace.store (hg v v.store v.labels)
  have hr := hat.toRestricted.aside g hg
  refine hat.follow (staysOwn_of_live (hlive v) (hchanging v) (fun _ => hr.agree') fun _ => ?_) hr
  rw [hstore]
  exact Std.Refl.refl _

theorem changing (hat : RestrictedAt c h logged w v) : w.isChanging = true :=
  hat.isChanging.symm.trans hat.atWork.changing

/-- The transaction at hand is the user's in the store as well. -/
theorem owns (hat : RestrictedAt c h logged w v) {id : Id} (hid : (w.transaction h).id = some id) :
    w.store.ownsTransaction c.user id = true := by
  rw [← hat.transaction] at hid
  exact hat.toRestricted.owns (hat.atWork.row id hid)

theorem tagsOf (hat : RestrictedAt c h logged w v) {id : Id}
    (hid : (w.transaction h).id = some id) : v.store.tagsOf id = w.store.tagsOf id := by
  have hlinks : (w.store.share c.user).LinksResolve :=
    (hat.query Store.LinksResolve fun _ => rfl) ▸ hat.links
  rw [hat.query Store.tagsOf fun _ => rfl]
  exact Store.tagsOf_share (hat.owns hid) hlinks

end RestrictedAt

end Workspace

/-! ## Looking references up -/

/-- The account is in the share, or it was looked up before. -/
theorem restricts_accountOf (hr : Restricted c w v)
    (hres : (v.transaction h).account.ResolvesIn v.store.accounts) :
    Tracks (Restricted c) (accountOf h) (accountOf h) w v := by
  have haccounts := hr.query (·.accounts) fun _ => rfl
  have hresolve : (w.transaction h).account.resolve (findAccount v.store) =
      (w.transaction h).account.resolve (findAccount w.store) := by
    rw [hr.transaction] at hres
    refine Reference.resolve_congr fun id hloaded hid => ?_
    obtain ⟨a, ha⟩ := Option.isSome_iff_exists.1 (hres hloaded id hid)
    rw [findAccount, ha, findAccount]
    rw [haccounts, Store.find?_accounts_share] at ha
    rw [ha.1]
  have hrun := runOn_accountOf h w
  have hrun' := runOn_accountOf h v
  rw [hr.transaction, hresolve] at hrun'
  cases hfound : (w.transaction h).account.resolve (findAccount w.store) with
  | none =>
      rw [hfound] at hrun hrun'
      exact tracks_of_runs hrun hrun' hr
  | some r =>
      rw [hfound] at hrun hrun'
      exact tracks_of_runs hrun hrun' (hr.edit h _)

theorem restricts_labelOf (hr : Restricted c w v) (role : LabelRole)
    (hres : (role.get (v.transaction h)).ResolvesIn (v.store.labels role.kind)) :
    Tracks (Restricted c) (labelOf role h) (labelOf role h) w v := by
  have hresolve : (role.get (w.transaction h)).resolve (v.store.labels role.kind).find? =
      (role.get (w.transaction h)).resolve (w.store.labels role.kind).find? := by
    rw [hr.transaction] at hres
    refine Reference.resolve_congr fun id hloaded hid => ?_
    obtain ⟨l, hl⟩ := Option.isSome_iff_exists.1 (hres hloaded id hid)
    rw [hl, (hr.find?_label.1 hl).1]
  have hrun := runOn_labelOf role h w
  have hrun' := runOn_labelOf role h v
  rw [hr.transaction, hresolve] at hrun'
  cases hfound : (role.get (w.transaction h)).resolve (w.store.labels role.kind).find? with
  | none =>
      rw [hfound] at hrun hrun'
      exact tracks_of_runs hrun hrun' hr
  | some r =>
      rw [hfound] at hrun hrun'
      exact tracks_of_runs hrun hrun' (hr.edit h _)

theorem restricts_ownerOf (hr : Restricted c w v)
    (hres : (v.transaction h).account.ResolvesIn v.store.accounts) :
    Tracks (Restricted c) (ownerOf h) (ownerOf h) w v := by
  rw [ownerOf]
  refine tracks_transaction ?_
  rw [hr.transaction]
  split
  · exact (restricts_accountOf hr hres).bind fun account w v hr => tracks_pure _ hr
  · exact tracks_pure none hr

/-- What a field holds is in the share, or it was looked up before. -/
theorem restricts_resolveField (hat : RestrictedAt c h logged w v) (field : Field) :
    Tracks (RestrictedAt c h logged) (resolveField h field) (resolveField h field) w v := by
  have hr := hat.toRestricted
  have hlabel : ∀ role, Tracks (Restricted c) (labelName role h) (labelName role h) w v := by
    intro role
    rw [labelName]
    refine tracks_transaction ?_
    rw [hr.transaction]
    split
    · exact (restricts_labelOf hr role (hat.resolves.labels role)).bind fun label w v hr =>
        tracks_pure _ hr
    · exact tracks_pure _ hr
  refine hat.look ?_ (looks_resolveField h field)
  rw [resolveField]
  refine tracks_transaction ?_
  rw [hr.transaction]
  cases field with
  | category => exact hlabel .category
  | merchant => exact hlabel .merchant
  | account =>
      rw [accountName]
      refine tracks_transaction ?_
      rw [hr.transaction]
      split
      · exact (restricts_accountOf hr hat.resolves.account).bind fun account w v hr =>
          tracks_pure _ hr
      · exact tracks_pure _ hr
  | tags =>
      rw [tagNames]
      refine tracks_transaction ?_
      rw [hr.transaction]
      cases hid : (w.transaction h).id with
      | none => exact tracks_pure _ hr
      | some id =>
          refine tracks_get_bind ?_
          rw [hat.tagsOf hid]
          exact tracks_pure _ hr
  | _ => exact tracks_pure _ hr

/-! ## Fields and conditions -/

theorem restricts_transaction (hat : RestrictedAt c h logged w v) :
    Tracks (RestrictedAt c h logged) (transaction h) (transaction h) w v := by
  refine ⟨?_, hat⟩
  rw [runOn_transaction, runOn_transaction, hat.transaction]

theorem restricts_report (hat : RestrictedAt c h logged w v) (e : Event) :
    Tracks (RestrictedAt c h logged) (report e) (report e) w v :=
  tracks_modify (hat.aside (fun w => { w with events := e :: w.events }) (fun _ _ _ => rfl)
    (fun _ => rfl) fun _ => rfl)

theorem restricts_fieldValue (hat : RestrictedAt c h logged w v) (field : Field) :
    Tracks (RestrictedAt c h logged) (fieldValue h field) (fieldValue h field) w v := by
  have hfields : v.fields = w.fields := by
    rw [hat.rest]
  -- The field cache is the same and changes in the same way.
  have hcache : ∀ {w v : Workspace} (f : FieldCache → FieldCache), RestrictedAt c h logged w v →
      Tracks (RestrictedAt c h logged) (modify fun w => { w with fields := f w.fields })
        (modify fun w => { w with fields := f w.fields }) w v := fun f hat =>
    tracks_modify (hat.aside (fun w => { w with fields := f w.fields }) (fun _ _ _ => rfl)
      (fun _ => rfl) fun _ => rfl)
  rw [fieldValue]
  refine tracks_transaction ?_
  rw [hat.transaction]
  refine tracks_get_bind ?_
  rw [hfields]
  cases w.fields.find? (w.transaction h).id field with
  | some value =>
      exact (hcache (fun f => { f with hits := f.hits + 1 }) hat).bind fun _ w v hat =>
        tracks_pure value hat
  | none =>
      refine (hcache (fun f => { f with misses := f.misses + 1 }) hat).bind fun _ w' v' hat' => ?_
      refine (restricts_resolveField hat' field).bind fun value w' v' hat' => ?_
      exact (hcache (·.keep (w.transaction h).id field value) hat').bind fun _ w v hat =>
        tracks_pure value hat

theorem restricts_conditionMatches [Host] (hat : RestrictedAt c h logged w v)
    (condition : Condition) :
    Tracks (RestrictedAt c h logged) (conditionMatches h condition) (conditionMatches h condition)
      w v := by
  have hevaluate : Tracks (RestrictedAt c h logged) (evaluateCondition h condition)
      (evaluateCondition h condition) w v := by
    rw [evaluateCondition]
    split
    · exact (restricts_fieldValue hat _).bind fun value w v hat => tracks_ofExcept _ hat
    · exact tracks_ofExcept _ hat
  rw [conditionMatches, checkCondition]
  refine Tracks.bind (hevaluate.bind fun outcome w v hat => ?_) fun outcome w v hat =>
    tracks_pure _ hat
  dsimp only
  split
  · refine tracks_transaction ?_
    rw [hat.transaction]
    exact (restricts_report hat _).bind fun _ w v hat => tracks_pure _ hat
  · exact tracks_pure _ hat

/-- Whether a rule matches is decided in the share. -/
theorem restricts_ruleMatches [Host] (hat : RestrictedAt c h logged w v) (r : RuleDefinition) :
    Tracks (RestrictedAt c h logged) (ruleMatches h r) (ruleMatches h r) w v := by
  refine tracks_allM (fun g w v hat => ?_) hat
  rw [groupMatches]
  split
  · exact tracks_pure true hat
  · split
    · exact tracks_allM (fun condition w v hat => restricts_conditionMatches hat condition) hat
    · exact tracks_anyM (fun condition w v hat => restricts_conditionMatches hat condition) hat

/-! ## Plans -/

/-- Of the labels with numbers only the user's count. -/
theorem restricts_ownedLabel (hat : RestrictedAt c h logged w v) (kind : LabelKind)
    (value : Option ActionValue) :
    Tracks (RestrictedAt c h logged) (ownedLabel kind value c.user) (ownedLabel kind value c.user)
      w v := by
  have hsame : Direct.ownedLabel v.store kind value c.user =
      Direct.ownedLabel w.store kind value c.user := by
    rw [Direct.ownedLabel.eq_def, Direct.ownedLabel.eq_def]
    split
    · next id =>
      rw [hat.labels, Store.labels_share, Table.find?_only]
      cases (w.store.labels kind).find? id with
      | none => rfl
      | some l => by_cases huser : l.user = c.user <;> simp [Option.filter, huser]
    · rfl
  obtain ⟨labels, hrun, hagree⟩ := runOn_ownedLabel hat.agree kind value c.user
  obtain ⟨labels', hrun', hagree'⟩ := runOn_ownedLabel hat.agree' kind value c.user
  refine hat.look ⟨?_, ?_⟩ (looks_ownedLabel kind value c.user) <;> rw [hrun, hrun']
  · rw [hsame]
  · exact hat.remember hagree hagree'

/-- The name of a label that is named is the same if the label cannot be somebody else's. -/
theorem restricts_labelText (hat : RestrictedAt c h logged w v) (kind : LabelKind)
    {value : Option ActionValue}
    (hnamed : c.texts → ∀ id, value = some (.identifier id) → c.named kind id) :
    Relates (fun text text' => c.texts → text' = text) (RestrictedAt c h logged)
      (labelText kind value) (labelText kind value) w v := by
  have hsame : c.texts →
      Direct.labelText v.store kind value = Direct.labelText w.store kind value := by
    intro htexts
    rw [Direct.labelText.eq_def, Direct.labelText.eq_def]
    split
    · next id =>
      rw [hat.find?_named (hnamed htexts id rfl)]
    · rfl
    · rfl
  obtain ⟨labels, hrun, hagree⟩ := runOn_labelText hat.agree kind value
  obtain ⟨labels', hrun', hagree'⟩ := runOn_labelText hat.agree' kind value
  have hlooks := looks_labelText (h := h) kind value v
  rw [hrun'] at hlooks
  refine Or.inl ⟨_, _, _, _, hrun, hrun', hsame, ?_⟩
  exact hat.follow hlooks.staysOwn (hat.remember hagree hagree')

/-- Whether texts count or not, describing an action takes the same course. -/
theorem restricts_describe [Host] (hat : RestrictedAt c h logged w v) {a : Action}
    (hnamed : c.texts → ∀ kind id, a.Names kind id → c.named kind id) :
    Relates (fun text text' => c.texts → text' = text) (RestrictedAt c h logged) (describe a)
      (describe a) w v := by
  rw [describe]
  split
  · exact relates_pure (fun _ => rfl) hat
  · next kind hkind =>
    refine (tracks_ofExcept a.typedValue hat).bind_relates fun value w v hvalue _ hat => ?_
    have hlabel : ∀ labelKind (f : String → String),
        (∀ id, value = some (.identifier id) → a.Names labelKind id) →
        Relates (fun text text' => c.texts → text' = text) (RestrictedAt c h logged)
          (do return f (← labelText labelKind value)) (do return f (← labelText labelKind value))
          w v := by
      intro labelKind f hnames
      have hname := restricts_labelText hat labelKind fun htexts id hid =>
        hnamed htexts labelKind id (hnames id hid)
      exact hname.bind fun text text' w v htext hat =>
        relates_pure (fun htexts => congrArg f (htext htexts)) hat
    have hnames : ∀ id, value = some (.identifier id) →
        a.typedValue = .ok (some (.identifier id)) := by
      rintro id rfl
      exact (runOn_ofExcept_eq_ok hvalue).1
    cases kind with
    | setCategory => exact hlabel .category _ fun id hid => ⟨hnames id hid, by rw [hkind]⟩
    | setMerchant => exact hlabel .merchant _ fun id hid => ⟨hnames id hid, by rw [hkind]⟩
    | addTag => exact hlabel .tag _ fun id hid => ⟨hnames id hid, by rw [hkind]⟩
    | removeTag => exact hlabel .tag _ fun id hid => ⟨hnames id hid, by rw [hkind]⟩
    | _ => exact relates_pure (fun _ => rfl) hat

theorem restricts_planKind (hat : RestrictedAt c h logged w v) (kind : ActionKind) (a : Action)
    (value : Option ActionValue) (t : LiveTransaction) :
    Tracks (RestrictedAt c h logged) (planKind kind a value t c.user)
      (planKind kind a value t c.user) w v := by
  have howned : ∀ labelKind (f : Option (Id × Label) → Option Effect),
      Tracks (RestrictedAt c h logged) (do return f (← ownedLabel labelKind value c.user))
        (do return f (← ownedLabel labelKind value c.user)) w v := fun labelKind f =>
    (restricts_ownedLabel hat labelKind value).bind fun label w v hat => tracks_pure _ hat
  cases kind with
  | setCategory => exact howned .category _
  | setMerchant => exact howned .merchant _
  | addTag => exact howned .tag _
  | removeTag => exact howned .tag _
  | removeAllTags => exact tracks_pure _ hat
  | markReconciled => exact tracks_pure _ hat
  | sendNotification => exact tracks_pure _ hat
  | _ => rcases value with _ | ⟨_ | _⟩ <;> exact tracks_pure _ hat

/-- What an action is planned to do is decided in the share. -/
theorem restricts_plan [Host] (hat : RestrictedAt c h logged w v) (kind : ActionKind) (a : Action) :
    Tracks (RestrictedAt c h logged) (plan kind a h) (plan kind a h) w v := by
  rw [plan]
  refine (tracks_ofExcept _ hat).bind fun value w v hat => ?_
  have howner : Tracks (RestrictedAt c h logged) (ownerOf h) (ownerOf h) w v :=
    hat.look (restricts_ownerOf hat.toRestricted hat.resolves.account) (looks_ownerOf h)
  refine howner.bind_run fun owner w' v' _ hrun hat' => ?_
  rw [hat.atWork.owned.runOn_ownerOf] at hrun
  cases hrun
  refine tracks_transaction ?_
  rw [hat'.transaction]
  exact restricts_planKind hat' kind a value _

/-! ## Effects -/

/-- A label that is added gets the same number. -/
theorem restricts_findOrAddLabel (hat : RestrictedAt c h logged w v) (kind : LabelKind)
    (name : String) :
    Tracks (RestrictedAt c h logged) (findOrAddLabel kind name c.user)
      (findOrAddLabel kind name c.user) w v := by
  have hchanging := hat.changing
  have hcache := labelsAgree_findOrAddLabel hat.agree kind name c.user hchanging
  have hcache' := labelsAgree_findOrAddLabel hat.agree' kind name c.user hat.atWork.changing
  have hrun := runOn_findOrAddLabel kind name c.user hchanging
  have hrun' := runOn_findOrAddLabel kind name c.user hat.atWork.changing
  have hnamed : v.store.labelNamed? kind c.user name = w.store.labelNamed? kind c.user name := by
    rw [hat.query (·.labelNamed? kind c.user name) fun _ => by cases kind <;> rfl]
    exact Store.labelNamed?_share _ _ _ _
  have hnext : (v.store.labels kind).nextId = (w.store.labels kind).nextId := by
    rw [hat.labels, Store.labels_share]
    rfl
  refine hat.after ?_ (staysOwn_findOrAddLabel kind name hat.atWork.changing)
  rw [hrun] at hcache
  rw [hrun'] at hcache'
  rw [hnamed] at hrun' hcache'
  rcases hlabel : w.store.labelNamed? kind c.user name with _ | ⟨id, label⟩ <;>
    rw [hlabel] at hrun hrun' hcache hcache'
  · have hadded := hat.toRestricted.change
      (Store.unlogged_addLabel kind ⟨c.user, name, createdDescription, none⟩)
      (Store.share_addLabel kind rfl) (Store.keepsTo_addLabel kind rfl rfl) hcache hcache'
    refine ⟨?_, ?_⟩ <;> rw [hrun, hrun']
    · dsimp only
      rw [hnext]
    · rw [hnext] at hadded ⊢
      generalize (w.store.labels kind).nextId = id at hadded ⊢
      exact hadded.aside
        (fun w => { w with events := .labelCreated kind id name c.user :: w.events })
        fun _ _ _ => rfl
  · exact tracks_of_runs hrun hrun' (hat.remember hcache hcache')

theorem restricts_putTag (hat : RestrictedAt c h logged w v) {tag : Id}
    (htag : v.store.IsLabelOf .tag c.user tag) :
    Tracks (RestrictedAt c h logged) (putTag h tag) (putTag h tag) w v := by
  have hlabels : ∀ {s : Store} (id : Id) kind, (s.addLink id tag).labels kind = s.labels kind := by
    intro s id kind
    rw [Store.addLink]
    split
    · rfl
    · cases kind <;> rfl
  have hrun := runOn_putTag h tag hat.changing
  have hrun' := runOn_putTag h tag hat.atWork.changing
  rw [hat.transaction] at hrun'
  refine hat.after ?_ (staysOwn_putTag hat.atWork.changing htag)
  rcases hid : (w.transaction h).id with _ | id <;> rw [hid] at hrun hrun'
  · exact tracks_of_runs hrun hrun' hat.toRestricted
  · refine tracks_of_runs hrun hrun' ?_
    have howns := hat.owns hid
    have hmine : w.store.IsLabelOf .tag c.user tag := by
      obtain ⟨l, hfind, huser⟩ := htag
      exact ⟨l, (hat.find?_label.1 hfind).1, huser⟩
    exact hat.toRestricted.change (Store.unlogged_addLink id tag) (Store.share_addLink howns)
      (Store.keepsTo_addLink (of_decide_eq_true howns) hmine)
      (labelsAgree_store hat.agree (hlabels id)) (labelsAgree_store hat.agree' (hlabels id))

theorem restricts_takeTags (hat : RestrictedAt c h logged w v) (test : Id → Bool) :
    Tracks (RestrictedAt c h logged) (takeTags h test) (takeTags h test) w v := by
  have hrun := runOn_takeTags h test hat.changing
  have hrun' := runOn_takeTags h test hat.atWork.changing
  rw [hat.transaction] at hrun'
  refine hat.after ?_ (staysOwn_takeTags test hat.atWork.changing)
  rcases hid : (w.transaction h).id with _ | id <;> rw [hid] at hrun hrun'
  · exact tracks_of_runs hrun hrun' hat.toRestricted
  · refine tracks_of_runs hrun hrun' ?_
    refine hat.toRestricted.change (Store.unlogged_removeLinks id test) (Store.share_removeLinks _)
      (Store.keepsTo_removeLinks (of_decide_eq_true (hat.owns hid)) test)
      (labelsAgree_store hat.agree fun kind => ?_) (labelsAgree_store hat.agree' fun kind => ?_) <;>
      cases kind <;> rfl

/-- An effect that uses labels of the user only is carried out in the share as in the store. -/
theorem restricts_perform (hat : RestrictedAt c h logged w v) {effect : Effect}
    (heffect : effect.IsOwn v.store c.user) :
    Tracks (RestrictedAt c h logged) (effect.perform h) (effect.perform h) w v := by
  have hchange : ∀ {w v : Workspace} (f : LiveTransaction → LiveTransaction)
      (fields : List TransactionField), Restricted c w v →
      Tracks (Restricted c) (do change h f; return fields) (do change h f; return fields) w v := by
    intro w v f fields hr
    have hchanged : Tracks (Restricted c) (change h f) (change h f) w v :=
      tracks_modify (hr.edit h f)
    exact hchanged.bind fun _ w v hr => tracks_pure fields hr
  have hlink : ∀ {w v : Workspace} {x : Operation Unit},
      Tracks (RestrictedAt c h logged) x x w v →
      Tracks (Restricted c) (x >>= fun _ => pure ([] : List TransactionField))
        (x >>= fun _ => pure []) w v := fun hx =>
    (hx.mono fun _ _ hat => hat.toRestricted).bind fun _ w v hr => tracks_pure [] hr
  have hperform : Tracks (Restricted c) (effect.perform h) (effect.perform h) w v := by
    cases effect with
    | setLabel role id label => exact hchange _ _ hat.toRestricted
    | setNamedLabel role name owner =>
        cases heffect
        have hlabel := restricts_findOrAddLabel hat role.kind name
        exact (hlabel.mono fun _ _ hat => hat.toRestricted).bind fun label w v hr => hchange _ _ hr
    | attachTag tag => exact hlink (restricts_putTag hat heffect)
    | attachNamedTag name owner =>
        cases heffect
        have hadd : Tracks (RestrictedAt c h logged)
            (findOrAddLabel .tag name c.user >>= fun label => putTag h label.1)
            (findOrAddLabel .tag name c.user >>= fun label => putTag h label.1) w v := by
          refine (restricts_findOrAddLabel hat .tag name).bind_run fun label w v' _ hrun hat' => ?_
          obtain ⟨hstored, huser, -⟩ :=
            labelNamed?_eq_some (findOrAddLabel_eq_ok hat.atWork.changing hrun).1
          exact restricts_putTag hat' ⟨label.2, hstored, huser⟩
        have hlinked := hlink hadd
        rw [bind_assoc] at hlinked
        exact hlinked
    | detachTag tag => exact hlink (restricts_takeTags hat _)
    | detachAllTags => exact hlink (restricts_takeTags hat _)
    | setDescription words => exact hchange _ _ hat.toRestricted
    | setNote words => exact hchange _ _ hat.toRestricted
    | setType words => exact hchange _ _ hat.toRestricted
    | markReconciled =>
        have hnow : v.now = w.now := by
          rw [hat.rest]
        refine tracks_get_bind ?_
        rw [hnow]
        exact hchange _ _ hat.toRestricted
    | notify rule message =>
        have hsend : Tracks (Restricted c) (sendNotification h rule message)
            (sendNotification h rule message) w v := by
          refine ⟨rfl, ?_⟩
          exact hat.toRestricted.aside (fun w => { w with
            notifications := ⟨rule, (w.transaction h).id, message⟩ :: w.notifications
            receivers := w.receivers.map (·.tell ⟨rule, (w.transaction h).id, message⟩)
            events := (w.receivers.filter (·.fails ⟨rule, (w.transaction h).id, message⟩)).map
              (fun _ => .receiverFailed) ++
                .notified rule (w.transaction h).id message :: w.events }) fun _ _ _ => rfl
        exact hsend.bind fun _ w v hr => tracks_pure [] hr
  -- Within a change an effect is always carried out, and what is changed is the user's.
  obtain ⟨fields, u, hrun, -⟩ := succeeds_perform h effect v hat.atWork.changing
  have hkept : StaysOwn h c.user logged fields v ((effect.perform h).runOn v).2 := by
    rw [hrun]
    exact staysOwn_perform hat.atWork.changing heffect hrun
  exact ⟨hperform.result, hat.follow hkept hperform.state⟩

/-! ## Actions -/

/-- An action has the same outcome in the share, perhaps apart from its description. -/
theorem restricts_runAction [Host] (hat : RestrictedAt c h logged w v) {a : Action} (dryRun : Bool)
    (hnamed : c.texts → ∀ kind id, a.Names kind id → c.named kind id) :
    Relates (ActionOutcome.Alike c.texts) (RestrictedAt c h logged) (runAction a h dryRun)
      (runAction a h dryRun) w v := by
  have hdone : ∀ {w v : Workspace} (e : Event) (outcome : ActionOutcome),
      RestrictedAt c h logged w v →
      Relates (ActionOutcome.Alike c.texts) (RestrictedAt c h logged)
        (do report e; return outcome) (do report e; return outcome) w v := by
    intro w v e outcome hat
    refine (restricts_report hat e).bind_relates fun _ w v _ _ hat => ?_
    exact relates_pure (ActionOutcome.Alike.refl outcome) hat
  rw [runAction]
  refine (restricts_transaction hat).bind_relates fun t w v _ _ hat => ?_
  dsimp only
  split
  · exact hdone _ _ hat
  · next kind _ =>
    refine Relates.tryCatch ?_ fun _ w v hat => hdone _ _ hat
    rw [attemptAction]
    refine (restricts_describe hat hnamed).bind fun text text' w v htext hat => ?_
    refine (restricts_plan hat kind a).bind_relates fun effect w' v' _ hplan hat' => ?_
    cases effect with
    | none => exact relates_pure ⟨rfl, rfl, rfl, htext⟩ hat'
    | some effect =>
        have hperform := restricts_perform hat' (isOwn_of_planned hat.atWork hplan)
        dsimp only
        split
        · refine (tracks_pure [] hat').bind_relates fun changes w v _ _ hat => ?_
          exact relates_pure ⟨rfl, rfl, rfl, htext⟩ hat
        · refine hperform.bind_relates fun changes w v _ _ hat => ?_
          exact relates_pure ⟨rfl, rfl, rfl, htext⟩ hat

namespace Engine

theorem restricts_runActions [Host] (hat : RestrictedAt c h logged w v) (r : RuleDefinition)
    (dryRun : Bool) {actions : List Action}
    (hnamed : c.texts → ∀ a ∈ actions, ∀ kind id, a.Names kind id → c.named kind id) :
    Relates (List.Forall₂ (ActionOutcome.Alike c.texts)) (RestrictedAt c h logged)
      (runActions h r dryRun actions) (runActions h r dryRun actions) w v := by
  induction actions generalizing w v with
  | nil => exact relates_pure .nil hat
  | cons a rest ih =>
      rw [runActions]
      refine (restricts_runAction hat dryRun fun htexts => hnamed htexts a List.mem_cons_self).bind
        fun outcome outcome' w v houtcome hat => ?_
      rw [houtcome.succeeded, houtcome.kind]
      split
      · refine (restricts_transaction hat).bind_relates fun t w v _ _ hat => ?_
        refine (restricts_report hat _).bind_relates fun _ w v _ _ hat => ?_
        exact relates_pure (.cons houtcome .nil) hat
      · refine (ih hat fun htexts a ha => hnamed htexts a (List.mem_cons_of_mem _ ha)).bind
          fun outcomes outcomes' w v houtcomes hat => ?_
        exact relates_pure (.cons houtcome houtcomes) hat

/-- A rule has the same outcome in the share, perhaps apart from texts. -/
theorem restricts_runRule [Host] (hat : RestrictedAt c h logged w v) {r : RuleDefinition}
    (dryRun : Bool)
    (hnamed : c.texts → ∀ a ∈ r.actions, ∀ kind id, a.Names kind id → c.named kind id) :
    Relates (RuleOutcome.Alike c.texts) (RestrictedAt c h logged) (runRule h r dryRun)
      (runRule h r dryRun) w v := by
  rw [runRule]
  refine (restricts_ruleMatches hat r).bind_relates fun matched w v _ _ hat => ?_
  split
  · refine (restricts_runActions hat r dryRun hnamed).bind
      fun outcomes outcomes' w v houtcomes hat => ?_
    dsimp only
    rw [any_succeeded_eq houtcomes]
    split
    · have hinvalidate : Tracks (RestrictedAt c h logged) (invalidate h) (invalidate h) w v := by
        refine (restricts_transaction hat).bind fun t w v hat => tracks_modify ?_
        exact hat.aside (fun w => { w with fields := w.fields.forget t.id }) (fun _ _ _ => rfl)
          (fun _ => rfl) fun _ => rfl
      refine hinvalidate.bind_relates fun _ w v _ _ hat => ?_
      exact relates_pure ⟨rfl, rfl, rfl, rfl, houtcomes⟩ hat
    · exact relates_pure ⟨rfl, rfl, rfl, rfl, houtcomes⟩ hat
  · exact relates_pure ⟨rfl, rfl, rfl, rfl, .nil⟩ hat

end Engine

end Restricted

end Rulebook
