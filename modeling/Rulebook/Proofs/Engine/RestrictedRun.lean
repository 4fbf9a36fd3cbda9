import Rulebook.Proofs.Engine.Restriction

/-!
# Running in a user's share of the store

`Restriction` compares the work on a transaction of the user with the same work in the user's share
of the store, up to the outcome of a single rule.  Here the comparison is carried on to a whole run:
outcomes are logged, changes are saved, the change for a transaction is kept or taken back, and the
run goes on with the next transaction.

Two things can end a change that are not the work itself.  One is the writing of a log that is made
to fail, which depends on a count only, and the count is the same on both sides.  The other is a
reference that dangles when the change is to be kept.  Whether one does in the whole store depends
on the data of everybody, so that it has to be excluded: a store in which nothing dangles stays so
when a user changes what the user owns, and this is true of the share as well (`Engine.Provided`).

After a failure the label cache has to be emptied before the two sides can be compared again,
because it may remember labels that were taken back.  This is what dropping the change does
(`Workspace.Restricted.takeBack`).

## Main definitions

* `Engine.Provided` — all that a run for a user needs is there.
* `TransactionSummary.Alike`, `RunSummary.Alike` — the same, perhaps apart from texts.

## Main statements

* `Engine.restricts_processOne` — a transaction has the same entry in the share.
* `Engine.restricts_process` — a run has the same summary and the same logs in the share.
-/

namespace Rulebook

open Program Workspace

section Restricted

variable {c : Restriction} {h : Handle} {logged : List RuleDefinition} {w v : Workspace}

/-! ## Saving and logging -/

theorem restricts_prepareSaving (hr : Restricted c w v) (fields : List TransactionField) :
    Tracks (Restricted c) (prepareSaving h fields) (prepareSaving h fields) w v := by
  have hnow : v.now = w.now := by
    rw [hr.rest]
  rw [prepareSaving]
  refine tracks_get_bind ?_
  rw [hnow]
  have hstamped : Tracks (Restricted c) (change h fun t => { t with updatedAt := some w.now })
      (change h fun t => { t with updatedAt := some w.now }) w v :=
    tracks_modify (hr.edit h _)
  refine hstamped.bind fun _ w v hr => tracks_transaction ?_
  rw [hr.transaction]
  exact tracks_ofExcept _ hr

/-- The fields of a transaction are saved in the share as in the store. -/
theorem restricts_saveFields (hat : RestrictedAt c h logged w v) {fields : List TransactionField}
    (hsave : v.MaySave h c.user fields) :
    Tracks (RestrictedAt c h logged) (saveFields h fields) (saveFields h fields) w v := by
  refine hat.after ?_ (staysOwn_saveFields hsave)
  rw [saveFields]
  refine tracks_transaction ?_
  rw [hat.transaction]
  split
  · exact tracks_throw _ hat.toRestricted
  · next id hid =>
    refine (restricts_prepareSaving hat.toRestricted fields).bind_run
      fun content u x hrun hrun' hr => ?_
    rw [runOn_prepareSaving] at hrun hrun'
    injection hrun with hcontent hu
    injection hrun' with _ hx
    have hcopied : ∀ row : Transaction,
        row.KeepsTo c.user w.store True (copyFields content fields row) := by
      intro row
      refine keepsTo_copyFields hcontent hsave.settable fun role hmem => ?_
      obtain ⟨n, l, hknown, hfind, huser⟩ := hsave.owned role hmem
      rw [hat.transaction] at hknown
      rw [transaction_update_self (live_has_of_id hid)]
      refine ⟨n, ?_, l, (hat.find?_label.1 hfind).1, huser⟩
      have hnumber := congrArg Reference.id hknown
      cases role <;> exact hnumber
    -- Putting the content together has not touched the stores.
    have howner : u.store.transactionOwner? id = some c.user := by
      rw [← hu]
      exact of_decide_eq_true (hat.owns hid)
    have howner' : x.store.transactionOwner? id = some c.user := by
      rw [← hx]
      exact hat.atWork.row id ((hat.transaction h).symm ▸ hid)
    have hsaved := hr.change (Store.unlogged_updateTransaction id (copyFields content fields))
      (Store.share_updateTransaction fun row _ => (hcopied row).account)
      (Store.keepsTo_updateTransaction howner fun row _ => hu ▸ hcopied row)
      (labelsAgree_store hr.agree fun kind => by cases kind <;> rfl)
      (labelsAgree_store hr.agree' fun kind => by cases kind <;> rfl)
    have hchanging : u.isChanging = true := by
      rw [← hu]
      exact hat.changing
    refine ⟨?_, ?_⟩ <;>
      rw [runOn_writeResult_of_changing _ hchanging,
        runOn_writeResult_of_changing _ (hr.isChanging.trans hchanging),
        if_pos (Store.has_of_transactionOwner? howner),
        if_pos (Store.has_of_transactionOwner? howner')]
    exact hsaved

/-- The observer is told of the same changes and saves the same. -/
theorem Engine.restricts_tellObserver {e : Engine} (hsaving : e.IsSaving)
    (hat : RestrictedAt c h logged w v) {summary summary' : TransactionSummary} {dryRun : Bool}
    (hchanges : summary'.changes = summary.changes)
    (hsave : dryRun = false → v.MaySave h c.user summary.changes) :
    Tracks (RestrictedAt c h logged) (e.tellObserver h summary dryRun)
      (e.tellObserver h summary' dryRun) w v := by
  have hpersist : dryRun = false → Tracks (RestrictedAt c h logged) (persistChanges h summary)
      (persistChanges h summary') w v := by
    intro hlive
    rw [persistChanges, persistChanges, hchanges]
    split
    · exact tracks_pure () hat
    · exact restricts_saveFields hat (hsave hlive)
  rw [tellObserver, tellObserver]
  split
  · next observer hsome =>
    split
    · exact tracks_pure () hat
    · next hlive =>
      rw [Bool.not_eq_true] at hlive
      rcases hsaving observer hsome with rfl | ⟨refuses, rfl⟩
      · exact hpersist hlive
      · rw [savingUnless, savingUnless]
        refine tracks_transaction ?_
        rw [hat.transaction]
        split
        · exact tracks_throw _ hat
        · exact hpersist hlive
  · exact tracks_pure () hat

/-- Logs that are alike are added. -/
theorem Workspace.Restricted.addLog (hr : Restricted c w v) {log log' : Log}
    (halike : log.Alike c.texts log') :
    Restricted c { w with store := { w.store with logs := w.store.logs.insert log } }
      { v with store := { v.store with logs := v.store.logs.insert log' } } where
  rest := by
    rw [hr.rest]
  store := hr.store
  logs := by
    obtain ⟨added, added', hadded, hlogs, hlogs'⟩ := hr.logs
    have hboth := List.rel_append hadded (List.Forall₂.cons halike .nil)
    refine ⟨added ++ [log], added' ++ [log'], hboth, ?_, ?_⟩ <;> rw [Table.insertAll_append]
    · rw [← hlogs]
      rfl
    · rw [← hlogs']
      rfl
  named kind := by
    have hlabels := hr.named kind
    cases kind <;> exact hlabels
  agree := labelsAgree_store hr.agree fun kind => by cases kind <;> rfl
  agree' := labelsAgree_store hr.agree' fun kind => by cases kind <;> rfl

variable [Host]

namespace Engine

variable {e : Engine} {trigger : Trigger} {dryRun : Bool}

omit [Host] in
/-- Logs that are alike are written to the store and to the share. -/
theorem restricts_writeLog (hat : RestrictedAt c h logged w v) {log log' : Log}
    (halike : log.Alike c.texts log') (hrule : v.store.IsRuleOf c.user log.rule)
    (hn : v.store.transactionOwner? log.transaction = some c.user) :
    Tracks (RestrictedAt c h logged) (e.writeLog log) (e.writeLog log') w v := by
  have hkept : StaysOwn h c.user logged [] v ((e.writeLog log').runOn v).2 := by
    refine staysOwn_writeLog ?_ ?_
    · rw [halike.rule]
      exact hrule
    · rw [halike.transaction]
      exact hn
  have hwrites : v.logWrites = w.logWrites := by
    rw [hat.rest]
  have hcounted := hat.toRestricted.aside
    (fun x => { x with logWrites := x.logWrites + 1 }) fun _ _ _ => rfl
  have hwritten : Tracks (Restricted c) (e.writeLog log) (e.writeLog log') w v := by
    refine ⟨?_, ?_⟩ <;>
      rw [runOn_writeLog e log hat.changing, runOn_writeLog e log' hat.atWork.changing] <;>
      dsimp only <;> rw [hwrites] <;> split
    · rfl
    · rfl
    · rw [hwrites] at hcounted
      exact hcounted
    · have hlogged := hcounted.addLog halike
      rw [hwrites] at hlogged
      exact hlogged
  exact ⟨hwritten.result, hat.follow hkept hwritten.state⟩

omit [Host] in
/-- An outcome is logged for the share as for the store. -/
theorem restricts_logOutcome (hat : RestrictedAt c h logged w v) {outcome outcome' : RuleOutcome}
    (halike : outcome.Alike c.texts outcome')
    (hrule : ∀ n, outcome.rule = .int n → v.store.IsRuleOf c.user n) :
    Tracks (RestrictedAt c h logged) (e.logOutcome h outcome trigger dryRun)
      (e.logOutcome h outcome' trigger dryRun) w v := by
  have hnow : v.now = w.now := by
    rw [hat.rest]
  rw [logOutcome, logOutcome]
  refine tracks_transaction ?_
  rw [hat.transaction, halike.rule]
  split
  · next n id hn hid =>
    split
    · refine tracks_get_bind ?_
      rw [hnow]
      refine restricts_writeLog hat (logOf_alike halike n id trigger dryRun w.now) (hrule n hn) ?_
      exact hat.atWork.row id ((hat.transaction h).symm ▸ hid)
    · exact tracks_pure () hat
  · exact tracks_pure () hat

/-- Rules have the same outcomes in the share, perhaps apart from texts, and the same logs. -/
theorem restricts_runRules (hat : RestrictedAt c h logged w v) {log : Bool}
    {rules : List RuleDefinition} (hlogged : log = true → rules ⊆ logged)
    (hnamed : c.texts → ∀ r ∈ rules, ∀ a ∈ r.actions, ∀ kind id, a.Names kind id →
      c.named kind id) :
    Relates (List.Forall₂ (RuleOutcome.Alike c.texts)) (RestrictedAt c h logged)
      (e.runRules h trigger dryRun log rules) (e.runRules h trigger dryRun log rules) w v := by
  induction rules generalizing w v with
  | nil => exact relates_pure .nil hat
  | cons r rest ih =>
      rw [runRules_cons]
      have hfirst := restricts_runRule hat dryRun fun htexts => hnamed htexts r List.mem_cons_self
      refine hfirst.bind_run fun outcome outcome' w v hrun _ halike hat => ?_
      have hlogs : Tracks (RestrictedAt c h logged)
          (if log then e.logOutcome h outcome trigger dryRun else return () : Operation Unit)
          (if log then e.logOutcome h outcome' trigger dryRun else return ()) w v := by
        split
        · next hlog =>
          refine restricts_logOutcome hat halike fun n hn => ?_
          exact hat.atWork.rules r (hlogged hlog List.mem_cons_self) n
            ((gives_runRule h r _ _ _ hrun).symm.trans hn)
        · exact tracks_pure () hat
      refine hlogs.bind_relates fun _ w v _ _ hat => ?_
      rw [halike.matched]
      split
      · exact relates_pure (.cons halike .nil) hat
      · have hrest := ih hat (fun hlog => List.subset_of_cons_subset (hlogged hlog))
          fun htexts r hr => hnamed htexts r (List.mem_cons_of_mem _ hr)
        exact hrest.bind fun outcomes outcomes' w v hrest hat =>
          relates_pure (.cons halike hrest) hat

end Engine

/-! ## Summaries -/

/-- The entries are the same, perhaps apart from the descriptions of the actions. -/
structure TransactionSummary.Alike (texts : Prop) (t t' : TransactionSummary) : Prop where
  transaction : t'.transaction = t.transaction
  rules : List.Forall₂ (RuleOutcome.Alike texts) t.rules t'.rules
  changes : t'.changes = t.changes
  error : t'.error = t.error

omit [Host] in
theorem TransactionSummary.alike_ofOutcomes {texts : Prop} {outcomes outcomes' : List RuleOutcome}
    (halike : List.Forall₂ (RuleOutcome.Alike texts) outcomes outcomes') (id : Option Id) :
    (ofOutcomes id outcomes).Alike texts (ofOutcomes id outcomes') := by
  have hmerged : ∀ done : List TransactionField,
      outcomes'.foldl (fun done outcome => mergeChanges done outcome.changes) done =
        outcomes.foldl (fun done outcome => mergeChanges done outcome.changes) done := by
    induction halike with
    | nil => exact fun _ => rfl
    | cons hfirst _ ih =>
        intro done
        rw [List.foldl_cons, List.foldl_cons, hfirst.changes]
        exact ih _
  exact ⟨rfl, halike, hmerged [], rfl⟩

/-- The summaries are the same, perhaps apart from the descriptions of the actions. -/
structure RunSummary.Alike (texts : Prop) (s s' : RunSummary) : Prop where
  isDryRun : s'.isDryRun = s.isDryRun
  trigger : s'.trigger = s.trigger
  transactions : List.Forall₂ (TransactionSummary.Alike texts) s.transactions s'.transactions

/-! ## What runs need -/

namespace Engine

variable {e : Engine} {trigger : Trigger} {dryRun log : Bool} {rules : List RuleDefinition}

/-- All that a run for the user needs is there: no reference dangles in the store, and what the
transactions of the run refer to is stored, unless it was looked up before. -/
structure Provided (e : Engine) (rules : List RuleDefinition) (log : Bool) (handles : List Handle)
    (w : Workspace) : Prop extends e.MayRun rules log handles w where
  closed : w.store.IsClosed
  user : w.store.users.has e.user = true
  resolves : ∀ h ∈ handles, (w.transaction h).ResolvesIn w.store

section Provided

variable {handles : List Handle} {h : Handle} {w v : Workspace}

/-- As nothing dangles, the change for a transaction is kept unless something fails within it. -/
theorem runOn_attempt (hsaving : e.IsSaving) (hw : e.Provided rules log handles w)
    (hh : h ∈ handles) :
    (atomically (e.runTransaction h rules trigger dryRun log)).runOn w =
      match (e.runTransaction h rules trigger dryRun log).runOn { w with isChanging := true } with
      | (.ok t, v) => (.ok t, { v with isChanging := w.isChanging })
      | (.error failure, v) =>
        (.error failure, { v with store := w.store, isChanging := w.isChanging }) := by
  obtain ⟨-, hconfined⟩ := confined_runTransaction trigger dryRun { w with isChanging := true }
    hsaving rfl hw.agree (hw.accounts h hh) hw.rules
  rw [runOn_atomically]
  rcases hrun : (e.runTransaction h rules trigger dryRun log).runOn { w with isChanging := true }
    with ⟨failure | t, v⟩ <;> rw [hrun] at hconfined
  · rfl
  · have hholds : v.store.referencesHold = true :=
      Store.isClosed_iff.1 (hconfined.store.isClosed hw.closed hw.user)
    dsimp only [settle]
    rw [hholds, Bool.or_true]
    rfl

omit [Host] in
theorem resolves_discard (hclosed : w.store.IsClosed) (hw : (w.transaction h).ResolvesIn w.store) :
    (((discard h).runOn w).2.transaction h).ResolvesIn ((discard h).runOn w).2.store := by
  rw [runOn_discard, runOn_refresh]
  split
  · exact hw
  · next n hn =>
    split
    · next row hrow =>
      have hread := transaction_update_self
        (w := { w with labels := [], fields := w.fields.forget (w.transaction h).id })
        (live_has_of_id hn) fun _ => LiveTransaction.ofRow n row
      rw [hread]
      refine ⟨fun _ id hid => ?_, fun role _ id hid => ?_⟩
      · cases hid
        exact hclosed.transactions n row hrow
      · refine hclosed.roles n row hrow role id ?_
        cases role <;> exact hid
    · exact hw

/-- After a turn everything that the run needs is still there. -/
theorem provided_processOne (hsaving : e.IsSaving) (hh : h ∈ handles)
    (hw : e.Provided rules log handles w) :
    e.Provided rules log handles ((e.processOne rules trigger dryRun log h).runOn w).2 := by
  have hturn : Under (e.MayRun rules log handles) (Workspace.KeepsTo e.user) w
      ((e.processOne rules trigger dryRun log h).runOn w).2 := keepsTo_processOne hsaving hh w
  obtain ⟨hmayRun, hkept⟩ := hturn hw.toMayRun
  have hworks : Works AnyLogs h w ((e.processOne rules trigger dryRun log h).runOn w).2 :=
    works_processOne_saving hsaving h w
  refine { hmayRun with
    closed := hkept.store.isClosed hw.closed hw.user
    user := hkept.store.users ▸ hw.user
    resolves := fun k hk => ?_ }
  by_cases hkh : k = h
  · subst hkh
    obtain ⟨-, hconfined⟩ := confined_runTransaction trigger dryRun { w with isChanging := true }
      hsaving rfl hw.agree (hw.accounts k hk) hw.rules
    have hafter := LiveTransaction.ResolvesIn.of_confined (w := { w with isChanging := true })
      (hw.resolves k hk) hconfined
    rw [runOn_processOne, runOn_attempt hsaving hw hk]
    rcases hrun : (e.runTransaction k rules trigger dryRun log).runOn { w with isChanging := true }
      with ⟨failure | t, v⟩ <;> rw [hrun] at hconfined hafter
    · have hdiscarded := resolves_discard
        (w := { v with store := w.store, isChanging := w.isChanging }) hw.closed hafter
      dsimp only
      rcases hdiscard : (discard k).runOn { v with store := w.store, isChanging := w.isChanging }
        with ⟨failure' | _, u⟩ <;> rw [hdiscard] at hdiscarded
      · exact hdiscarded
      · exact hdiscarded
    · exact hafter.of_keepsTo hconfined.store
  · rw [hworks.others k hkh]
    exact (hw.resolves k hk).of_keepsTo hkept.store

omit [Host] in
/-- What is there for a run in the share is there for a run in the store. -/
theorem Provided.of_restricted (hv : e.Provided rules log handles v) (huser : e.user = c.user)
    (hr : Restricted c w v) (hclosed : w.store.IsClosed) : e.Provided rules log handles w := by
  have haccounts := hr.query (·.accounts) fun _ => rfl
  have hrows := hr.query (·.transactions) fun _ => rfl
  refine ⟨⟨hr.agree, fun h hh id hid => ?_, fun hlog r hr' n hn => ?_⟩, hclosed, ?_, fun h hh => ?_⟩
  · have ht := hv.accounts h hh
    rw [hr.transaction] at ht
    obtain ⟨row, hrow, haccount, hloaded⟩ := ht id hid
    rw [hrows, Store.find?_transactions_share] at hrow
    refine ⟨row, hrow.1, haccount, fun a ha => ?_⟩
    have hstored := hloaded a ha
    rw [haccounts, Store.find?_accounts_share] at hstored
    exact hstored.1
  · have hrule := hv.rules hlog r hr' n hn
    rw [hr.query (·.IsRuleOf e.user n) fun _ => rfl, huser] at hrule
    rw [huser]
    exact Store.isRuleOf_share.1 hrule
  · have hthere := hv.user
    rwa [hr.query (·.users.has e.user) fun _ => rfl, huser, Store.has_users_share, ← huser]
      at hthere
  · have ht := hv.resolves h hh
    rw [hr.transaction] at ht
    refine ⟨fun hloaded id hid => ?_, fun role hloaded id hid => ?_⟩
    · obtain ⟨a, ha⟩ := Option.isSome_iff_exists.1 (ht.account hloaded id hid)
      rw [haccounts, Store.find?_accounts_share] at ha
      exact Table.has_of_find? ha.1
    · obtain ⟨l, hl⟩ := Option.isSome_iff_exists.1 (ht.labels role hloaded id hid)
      exact Table.has_of_find? (hr.find?_label.1 hl).1

end Provided

end Engine

/-! ## A transaction of a run -/

omit [Host] in
/-- Programs that read the transaction at hand go on with the two transactions. -/
theorem relates_transaction {α β : Type} {E : α → β → Prop} {R : Workspace → Workspace → Prop}
    {f : LiveTransaction → Operation α} {g : LiveTransaction → Operation β}
    (hfg : Relates E R (f (w.transaction h)) (g (v.transaction h)) w v) :
    Relates E R (transaction h >>= f) (transaction h >>= g) w v := hfg

omit [Host] in
/-- A change is taken back in both, and what was remembered of labels is forgotten. -/
theorem Workspace.Restricted.takeBack (hr : Restricted c w v) {u x : Workspace}
    (hux : Restricted c u x) :
    Restricted c { u with store := w.store, isChanging := w.isChanging, labels := [] }
      { x with store := v.store, isChanging := v.isChanging, labels := [] } where
  rest := by
    rw [hux.rest, hr.isChanging]
  store := hr.store
  logs := hr.logs
  named := hr.named
  agree := labelsAgree_nil _
  agree' := labelsAgree_nil _

omit [Host] in
/-- A transaction of the user is read again from the same row. -/
theorem restricts_refresh (hr : Restricted c w v)
    (hrow : ∀ n, (w.transaction h).id = some n → v.store.transactions.has n = true) :
    Tracks (Restricted c) (refresh h) (refresh h) w v := by
  have hrows := hr.query (·.transactions) fun _ => rfl
  have hrun := runOn_refresh h w
  have hrun' := runOn_refresh h v
  rw [hr.transaction] at hrun'
  cases hid : (w.transaction h).id with
  | none =>
      rw [hid] at hrun hrun'
      exact tracks_of_runs hrun hrun' hr
  | some n =>
      obtain ⟨row, hshared⟩ := Option.isSome_iff_exists.1 (hrow n hid)
      have hstored : w.store.transactions.find? n = some row := by
        rw [hrows, Store.find?_transactions_share] at hshared
        exact hshared.1
      rw [hid] at hrun hrun'
      dsimp only at hrun hrun'
      rw [hstored] at hrun
      rw [hshared] at hrun'
      exact tracks_of_runs hrun hrun' (hr.edit h _)

omit [Host] in
/-- Dropping a change leaves the two alike, if they are alike once labels are forgotten. -/
theorem Engine.restricts_discard (hr : Restricted c { w with labels := [] } { v with labels := [] })
    (hrow : ∀ n, (w.transaction h).id = some n → v.store.transactions.has n = true) :
    Tracks (Restricted c) (discard h) (discard h) w v := by
  have hsame : v.transaction h = w.transaction h := hr.transaction h
  have hread := restricts_refresh (hr.aside
    (fun x => { x with fields := x.fields.forget (w.transaction h).id }) fun _ _ _ => rfl) hrow
  refine ⟨?_, ?_⟩ <;> rw [runOn_discard, runOn_discard, hsame]
  · exact hread.result
  · exact hread.state

namespace Engine

section Run

variable {e : Engine} {trigger : Trigger} {dryRun log : Bool} {rules : List RuleDefinition}
  {handles : List Handle} (hsaving : e.IsSaving) (huser : e.user = c.user)
  (hnamed : c.texts → ∀ r ∈ rules, ∀ a ∈ r.actions, ∀ kind id, a.Names kind id → c.named kind id)

include hsaving huser hnamed

variable (trigger dryRun) in
/-- A transaction of the user is worked on in the same way; one of somebody else is refused in the
same way. -/
theorem restricts_runTransaction (hr : Restricted c w v) (hchanging : w.isChanging = true)
    (hv : e.Provided rules log handles v) (hh : h ∈ handles) :
    Relates (TransactionSummary.Alike c.texts) (Restricted c)
      (e.runTransaction h rules trigger dryRun log) (e.runTransaction h rules trigger dryRun log)
      w v := by
  rw [runTransaction_eq]
  refine relates_transaction ?_
  rw [hr.transaction]
  generalize (w.transaction h).id = id
  refine (restricts_ownerOf hr (hv.resolves h hh).account).bind_relates
    fun owner u x _ howner hux => ?_
  by_cases hmine : owner = some e.user
  · rw [if_neg (not_not.2 hmine)]
    refine (tracks_pure () hux).bind_relates ?_
    rintro _ _ _ ⟨⟩ ⟨⟩ -
    have hlooks := looks_ownerOf h v
    rw [howner] at hlooks
    have hconfined : Confined h c.user [] v x := hlooks.confined
    have hlogged : log = true → rules ⊆ if log then rules else [] := by
      rintro rfl
      exact List.Subset.refl rules
    have hatWork : x.IsAtWork h c.user (if log then rules else []) := by
      rw [hmine] at howner
      rw [← huser]
      exact isAtWork_of_ownerOf (hr.isChanging.trans hchanging) hv.agree (hv.accounts h hh) hv.rules
        howner
    have hlinks := Store.linksResolve_of_referencesHold (Store.isClosed_iff.1 hv.closed)
    -- From here on a transaction of the user is worked on.
    have hat : RestrictedAt c h (if log then rules else []) u x :=
      { hux with
        atWork := hatWork
        links := hlooks.store ▸ hlinks
        resolves := ((hv.resolves h hh).of_confined hconfined).of_keepsTo hconfined.store }
    refine Relates.mono (R := RestrictedAt c h (if log then rules else [])) ?_
      fun _ _ hat => hat.toRestricted
    refine (restricts_runRules hat hlogged hnamed).bind_run
      fun outcomes outcomes' w' v' _ hrun halike hat' => ?_
    have hentry := TransactionSummary.alike_ofOutcomes halike id
    have htell : Tracks (RestrictedAt c h (if log then rules else []))
        (e.tellObserver h (.ofOutcomes id outcomes) dryRun)
        (e.tellObserver h (.ofOutcomes id outcomes') dryRun) w' v' := by
      refine restricts_tellObserver hsaving hat' hentry.changes ?_
      rintro rfl
      rw [← hentry.changes]
      exact maySave_runRules hatWork id hrun
    exact htell.bind_relates fun _ _ _ _ _ hat => relates_pure hentry hat
  · rw [if_pos hmine]
    exact (tracks_throw _ hux).bind_relates fun _ _ _ hrun => nomatch hrun

variable (trigger dryRun) in
/-- A transaction has the same entry in the share, perhaps apart from texts. -/
theorem restricts_processOne (hr : Restricted c w v) (hw : e.Provided rules log handles w)
    (hv : e.Provided rules log handles v) (hh : h ∈ handles) :
    Relates (TransactionSummary.Alike c.texts) (Restricted c)
      (e.processOne rules trigger dryRun log h) (e.processOne rules trigger dryRun log h) w v := by
  have hinside := hr.aside (fun x => { x with isChanging := true }) fun _ _ _ => rfl
  have hv' : e.Provided rules log handles { v with isChanging := true } := { hv with }
  have hrun : (e.processOne rules trigger dryRun log h).runOn w = _ :=
    runOn_processOne rules log h w
  have hrun' : (e.processOne rules trigger dryRun log h).runOn v = _ :=
    runOn_processOne rules log h v
  rw [runOn_attempt hsaving hw hh] at hrun
  rw [runOn_attempt hsaving hv hh] at hrun'
  rcases restricts_runTransaction trigger dryRun hsaving huser hnamed hinside rfl hv' hh with
    ⟨t, t', u, x, hu, hx, halike, hux⟩ | ⟨failure, u, x, hu, hx, hux⟩ <;>
    rw [hu] at hrun <;> rw [hx] at hrun' <;> dsimp only at hrun hrun'
  · refine Or.inl ⟨t, t', _, _, hrun, hrun', halike, ?_⟩
    rw [hr.isChanging]
    exact hux.aside (fun x => { x with isChanging := w.isChanging }) fun _ _ _ => rfl
  · have hattempt := (keepsTo_attempt trigger dryRun hsaving hv.toMayRun hh).2
    rw [runOn_attempt hsaving hv hh, hx] at hattempt
    have hthere := hattempt.accounts h (hv.accounts h hh)
    have hdiscard : Tracks (Restricted c) (discard h) (discard h)
        { u with store := w.store, isChanging := w.isChanging }
        { x with store := v.store, isChanging := v.isChanging } := by
      have hback := hr.takeBack hux
      refine restricts_discard hback fun n hn => ?_
      obtain ⟨row, hrow, -⟩ := hthere n (congrArg LiveTransaction.id (hux.transaction h) ▸ hn)
      exact Table.has_of_find? hrow
    rw [hr.transaction] at hrun'
    rcases hdiscard.cases with ⟨_, y, z, hy, hz, hyz⟩ | ⟨failure', y, z, hy, hz, hyz⟩ <;>
      rw [hy] at hrun <;> rw [hz] at hrun' <;> dsimp only at hrun hrun'
    · refine Or.inl ⟨_, _, _, _, hrun, hrun', ⟨rfl, .nil, rfl, rfl⟩, ?_⟩
      exact hyz.aside (fun x => { x with
        events := .transactionFailed e.user (rules.map (·.id)) (w.transaction h).id dryRun ::
          x.events }) fun _ _ _ => rfl
    · exact Or.inr ⟨failure', y, z, hrun, hrun', hyz⟩

/-! ## Runs -/

variable (trigger dryRun) in
/-- A pass over transactions has the same entries in the share, perhaps apart from texts. -/
theorem restricts_mapM (hr : Restricted c w v) (hw : e.Provided rules log handles w)
    (hv : e.Provided rules log handles v) :
    Relates (List.Forall₂ (TransactionSummary.Alike c.texts)) (Restricted c)
      (handles.mapM (e.processOne rules trigger dryRun log))
      (handles.mapM (e.processOne rules trigger dryRun log)) w v := by
  have hpass := relates_mapM
    (R := fun w v => Restricted c w v ∧ e.Provided rules log handles w ∧
      e.Provided rules log handles v)
    (f := e.processOne rules trigger dryRun log) (g := e.processOne rules trigger dryRun log)
    (E := TransactionSummary.Alike c.texts) (l := handles) ?_ ⟨hr, hw, hv⟩
  · exact hpass.mono fun _ _ hboth => hboth.1
  · rintro h hh w v ⟨hr, hw, hv⟩
    have hturn := restricts_processOne trigger dryRun hsaving huser hnamed hr hw hv hh
    exact hturn.of_state ⟨hturn.state, provided_processOne hsaving hh hw,
      provided_processOne hsaving hh hv⟩

/-- A run has the same summary in the share, perhaps apart from texts, and the same logs. -/
theorem restricts_process {source : Source} (hhandles : source.handles e v = source.handles e w)
    (hr : Restricted c (source.opened e w) (source.opened e v))
    (hw : e.Provided rules log (source.handles e w) (source.opened e w))
    (hv : e.Provided rules log (source.handles e w) (source.opened e v)) :
    Relates (RunSummary.Alike c.texts) (fun w v => c.LogsAlike w.store.logs v.store.logs)
      (e.process (source.batch e) rules trigger dryRun log)
      (e.process (source.batch e) rules trigger dryRun log) w v := by
  rw [Relates, runOn_process, runOn_process, hhandles]
  rcases restricts_mapM trigger dryRun hsaving huser hnamed hr hw hv with
    ⟨entries, entries', u, x, hu, hx, halike, hux⟩ | ⟨failure, u, x, hu, hx, hux⟩ <;>
    rw [hu, hx]
  · exact Or.inl ⟨_, _, _, _, rfl, rfl, ⟨rfl, rfl, halike⟩, hux.logs⟩
  · exact Or.inr ⟨failure, u, x, rfl, rfl, hux.logs⟩

end Run

end Engine

end Restricted

end Rulebook
