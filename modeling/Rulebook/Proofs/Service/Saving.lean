import Rulebook.Proofs.Engine.Edits
import Rulebook.Proofs.Engine.Turns

/-!
# What a run saves

The runs on behalf of a user save what they change.  The entry of a transaction names the fields,
and exactly these columns of its row are written, with what the transaction in memory has in them.
The transaction may have been in memory for long and be out of date in its other fields; none of
them finds its way into the row.

The proof has two halves.  `Engine.edits_runRules` says that the rules leave every field alone that
the entry does not name, and `saveFields_eq_ok` says what the observer does with the entry.  What
one turn does is what the run does (`Engine.forall₂_turns`), so it remains to see that each service
is such a run over transactions that are apart: those that are loaded for the run come from
different rows, and a single one is on its own.

## Main definitions

* `LiveTransaction.ChangedIn`, `Transaction.ReplacedIn` — a transaction in memory, or its row,
  differs from before in the given fields only.
* `TransactionSummary.Persisted` — what the entry names is what was changed and saved.
* `SavesReported` — a run saves what it reports of the transactions that it takes.

## Main statements

* `saves_applyRules`, `savesReported_processSingle` — the runs on behalf of a user do so.
-/

namespace Rulebook

open Program Workspace Calendar

/-- The transaction after a change of the given fields, which is saved if there are any. -/
structure LiveTransaction.ChangedIn (fields : List TransactionField) (now : Instant)
    (before after : LiveTransaction) : Prop where
  id : after.id = before.id
  content : ∀ field ∉ fields, after.content field = before.content field
  updatedAt : after.updatedAt = if fields = [] then before.updatedAt else some now

/-- The row after the given fields of the transaction were saved. -/
structure Transaction.ReplacedIn (fields : List TransactionField) (now : Instant)
    (t : LiveTransaction) (before after : Transaction) : Prop where
  content : ∀ field,
    after.content field = if field ∈ fields then t.content field else before.content field
  updatedAt : after.updatedAt = if fields = [] then before.updatedAt else now

/-- What an entry says about the changes to a transaction, which was `before` in memory, is what has
changed and was saved. -/
structure TransactionSummary.Persisted (t : TransactionSummary) (now : Instant)
    (before after : LiveTransaction) (s s' : Store) : Prop where
  nodup : t.changes.Nodup
  object : before.ChangedIn t.changes now after
  row : ∀ id, before.id = some id → ∀ row, s.transactions.find? id = some row →
    ∃ row', s'.transactions.find? id = some row' ∧ row.ReplacedIn t.changes now after row'

/-- Only the values of fields matter, and of the stores only the row of the transaction. -/
theorem TransactionSummary.Persisted.congr {t : TransactionSummary} {now : Instant}
    {before after before' after' : LiveTransaction} {s s' u u' : Store}
    (ht : t.Persisted now before after s s') (hbefore : before'.bare = before.bare)
    (hafter : after'.bare = after.bare)
    (hs : ∀ id, before'.id = some id → s.transactions.find? id = u.transactions.find? id)
    (hs' : ∀ id, before'.id = some id → u'.transactions.find? id = s'.transactions.find? id) :
    t.Persisted now before' after' u u' := by
  have hid : before'.id = before.id := by
    have hbare := congrArg LiveTransaction.id hbefore
    exact hbare
  have hid' : after'.id = after.id := by
    have hbare := congrArg LiveTransaction.id hafter
    exact hbare
  have hupdated : before'.updatedAt = before.updatedAt := by
    have hbare := congrArg LiveTransaction.updatedAt hbefore
    exact hbare
  have hupdated' : after'.updatedAt = after.updatedAt := by
    have hbare := congrArg LiveTransaction.updatedAt hafter
    exact hbare
  have hcontent : ∀ field, before'.content field = before.content field := by
    intro field
    rw [← LiveTransaction.content_bare, hbefore, LiveTransaction.content_bare]
  have hcontent' : ∀ field, after'.content field = after.content field := by
    intro field
    rw [← LiveTransaction.content_bare, hafter, LiveTransaction.content_bare]
  refine ⟨ht.nodup, ⟨?_, fun field hfield => ?_, ?_⟩, fun id hnumber row hrow => ?_⟩
  · rw [hid', hid, ht.object.id]
  · rw [hcontent', hcontent, ht.object.content field hfield]
  · rw [hupdated', hupdated, ht.object.updatedAt]
  · rw [← hs id hnumber] at hrow
    obtain ⟨row', hrow', hreplaced⟩ := ht.row id (hid ▸ hnumber) row hrow
    rw [← hs' id hnumber] at hrow'
    refine ⟨row', hrow', fun field => ?_, hreplaced.updatedAt⟩
    rw [hreplaced.content, hcontent']

/-! ## Saving -/

/-- How some fields of a transaction are saved: it is stamped with the time in memory, and the
fields of its row are replaced. -/
theorem saveFields_eq_ok {h : Handle} {fields : List TransactionField} {w v : Workspace} {id : Id}
    (hid : (w.transaction h).id = some id) (hrun : (saveFields h fields).runOn w = (.ok (), v)) :
    ∃ content, (v.transaction h).contentOf fields w.now = .ok content ∧
      v.transaction h = { w.transaction h with updatedAt := some w.now } ∧
      v.store =
        { w.store with
          transactions := w.store.transactions.update id (copyFields content fields) } := by
  rw [saveFields, runOn_bind, runOn_transaction] at hrun
  dsimp only at hrun
  rw [hid] at hrun
  obtain ⟨content, u, hprepare, hrun⟩ := runOn_bind_eq_ok hrun
  rw [prepareSaving, runOn_bind, runOn_get] at hprepare
  dsimp only at hprepare
  rw [runOn_bind, runOn_change] at hprepare
  dsimp only at hprepare
  rw [runOn_bind, runOn_transaction] at hprepare
  dsimp only at hprepare
  rw [runOn_ofExcept] at hprepare
  have hu := congrArg Prod.snd hprepare
  have hcontent := congrArg Prod.fst hprepare
  dsimp only at hu hcontent
  subst hu
  have hstamped := transaction_update_self (live_has_of_id hid) fun t =>
    { t with updatedAt := some w.now }
  rw [runOn_writeResult] at hrun
  dsimp only at hrun
  split at hrun
  · next a s hs =>
    split at hs
    · cases hs
      split at hrun
      · cases hrun
        exact ⟨content, hcontent, hstamped, rfl⟩
      · cases hrun
    · cases hs
  · cases hrun

/-- Stamping a transaction with a time changes none of its fields. -/
theorem content_stamp (t : LiveTransaction) (now : Option Instant) (field : TransactionField) :
    { t with updatedAt := now }.content field = t.content field := by
  cases field <;> rfl

/-- Saving what an entry names replaces these fields of the row and stamps the transaction. -/
theorem persistChanges_eq_ok {h : Handle} {t : TransactionSummary} {w v : Workspace}
    (hsettable : t.changes ⊆ TransactionField.settable)
    (hrun : (persistChanges h t).runOn w = (.ok (), v)) :
    (v.transaction h).id = (w.transaction h).id ∧
      (∀ field, (v.transaction h).content field = (w.transaction h).content field) ∧
      (v.transaction h).updatedAt =
        (if t.changes = [] then (w.transaction h).updatedAt else some w.now) ∧
      ∀ id, (w.transaction h).id = some id → ∀ row, w.store.transactions.find? id = some row →
        ∃ row', v.store.transactions.find? id = some row' ∧
          row.ReplacedIn t.changes w.now (v.transaction h) row' := by
  rw [persistChanges] at hrun
  split at hrun
  · next hnone =>
    rw [List.isEmpty_iff] at hnone
    cases hrun
    rw [hnone]
    exact ⟨rfl, fun _ => rfl, rfl, fun _ _ row hrow => ⟨row, hrow, fun _ => rfl, rfl⟩⟩
  · next hsome =>
    rw [List.isEmpty_iff] at hsome
    cases hid : (w.transaction h).id with
    | none =>
        -- Something without a row cannot be saved.
        rw [saveFields, runOn_bind, runOn_transaction] at hrun
        dsimp only at hrun
        rw [hid] at hrun
        cases hrun
    | some id =>
        obtain ⟨content, hcontent, hobject, hstore⟩ := saveFields_eq_ok hid hrun
        obtain ⟨hupdated, hfields⟩ := content_of_contentOf hcontent
        rw [hobject]
        refine ⟨hid, fun _ => content_stamp _ _ _, (if_neg hsome).symm, ?_⟩
        rintro _ ⟨⟩ row hrow
        refine ⟨copyFields content t.changes row, ?_, ?_, ?_⟩
        · rw [hstore, Table.find?_update, if_pos rfl, hrow]
          rfl
        · intro field
          rw [content_copyFields]
          split
          · next hfield =>
            rw [hfields field hfield (hsettable hfield), hobject]
          · rfl
        · rw [updatedAt_copyFields, hupdated, if_neg hsome]

/-! ## A transaction of a run -/

variable [Host]

/-- The rules change what the entry names, and the observer saves it. -/
theorem Engine.persisted_runTransaction {e : Engine} (hsaves : e.observer = some persistChanges)
    {h : Handle} {rules : List RuleDefinition} {trigger : Trigger} {log : Bool}
    {t : TransactionSummary} {w v : Workspace} (hw : w.isChanging = true)
    (hrun : (e.runTransaction h rules trigger false log).runOn w = (.ok t, v)) :
    t.Persisted w.now (w.transaction h) (v.transaction h) w.store v.store := by
  obtain ⟨u, outcomes, u', howner, hrules, htell, rfl⟩ := runTransaction_eq_ok hrun
  have hlooks := looks_ownerOf h w
  rw [howner] at hlooks
  have hchanging : u.isChanging = true := hlooks.isChanging.trans hw
  have hedits : Edits h ([] ++ outcomes.flatMap (·.changes)) w u' :=
    hlooks.edits.trans (edits_runRules hchanging hrules)
  rw [List.nil_append] at hedits
  have hnow : u'.now = w.now := by
    have hworks : Works AnyLogs h u ((e.runRules h trigger false log rules).runOn u).2 :=
      works_runRules (fun _ _ _ _ _ => trivial) h log rules u
    rw [hrules] at hworks
    exact hworks.now.trans hlooks.now
  generalize hsummary : TransactionSummary.ofOutcomes (w.transaction h).id outcomes = t at htell
  have hmem : ∀ field, field ∈ t.changes ↔ field ∈ outcomes.flatMap (·.changes) := by
    rw [← hsummary]
    exact fun _ => TransactionSummary.mem_changes_ofOutcomes
  have hsave : (persistChanges h t).runOn u' = (.ok (), v) := by
    rw [tellObserver, hsaves] at htell
    exact htell
  obtain ⟨hid, hcontent, hupdated, hrow⟩ :=
    persistChanges_eq_ok (fun field hfield => hedits.settable ((hmem field).1 hfield)) hsave
  rw [hnow] at hupdated hrow
  rw [hedits.id, hedits.rows] at hrow
  rw [hedits.updatedAt] at hupdated
  refine ⟨?_, ⟨hid.trans hedits.id, fun field hfield => ?_, hupdated⟩, hrow⟩
  · rw [← hsummary]
    exact TransactionSummary.nodup_changes_ofOutcomes
  · exact (hcontent field).trans (hedits.content field (mt (hmem field).2 hfield))

/-! ## A run -/

/-- What holds of a run that takes the given transactions, with their state before: it saves what it
reports, and it leaves the rows of other transactions alone. -/
structure SavesReported (objects : List (Handle × LiveTransaction)) (w : Workspace)
    (run : Except Failure RunSummary × Workspace) : Prop where
  reported : ∀ summary, run.1 = .ok summary →
    List.Forall₂
      (fun o t => t.transaction = o.2.id ∧
        (t.error = none → t.Persisted w.now o.2 (run.2.transaction o.1) w.store run.2.store))
      objects summary.transactions
  others : ∀ id, (∀ o ∈ objects, o.2.id ≠ some id) →
    run.2.store.transactions.find? id = w.store.transactions.find? id

/-- The transactions of a source and their state when the run begins. -/
def Source.objects (e : Engine) (w : Workspace) (source : Source) :
    List (Handle × LiveTransaction) :=
  (source.handles e w).map fun h => (h, (source.opened e w).transaction h)

/-- A live run whose observer saves, over transactions that are apart. -/
theorem Engine.savesReported_process {e : Engine} (hsaves : e.observer = some persistChanges)
    (source : Source) (rules : List RuleDefinition) (trigger : Trigger) (log : Bool) {w : Workspace}
    (hapart : (source.handles e w).Pairwise (source.opened e w).Apart) :
    SavesReported (source.objects e w) w
      ((e.process (source.batch e) rules trigger false log).runOn w) := by
  have hobserver : ∀ observer, e.observer = some observer →
      ∀ h summary, Keeps (Works AnyLogs h) (observer h summary) := by
    intro observer hsome h summary
    rw [hsaves] at hsome
    cases hsome
    exact works_persistChanges h summary
  have hamong : WorksAmong (source.handles e w) (source.opened e w)
      (((source.handles e w).mapM (e.processOne rules trigger false log)).runOn
        (source.opened e w)).2 := worksAmong_mapM hobserver _ _
  rw [runOn_process]
  rcases hrun : ((source.handles e w).mapM (e.processOne rules trigger false log)).runOn
    (source.opened e w) with ⟨failure | transactions, v⟩ <;> rw [hrun] at hamong
  · refine ⟨fun _ hfailed => (nomatch hfailed), fun id hothers => hamong.rows id fun h hh => ?_⟩
    exact hothers _ (List.mem_map_of_mem hh)
  · refine ⟨fun summary hsummary => ?_, fun id hothers => hamong.rows id fun h hh => ?_⟩
    · cases hsummary
      refine List.forall₂_map_left_iff.2 ((forall₂_turns hobserver hapart hrun).imp ?_)
      rintro h t ⟨u, u', hbefore, hturn, hafter⟩
      refine ⟨?_, fun ht => ?_⟩
      · rw [transaction_processOne hturn, hbefore.transaction]
      · obtain ⟨x, hinside, rfl⟩ := processOne_eq_ok hturn ht
        have hsaved := persisted_runTransaction hsaves (w := { u with isChanging := true }) rfl
          hinside
        have hnow : u.now = w.now := hbefore.now
        have hobject : (v.transaction h).bare = (x.transaction h).bare :=
          congrArg LiveTransaction.bare hafter.transaction
        have hid : (x.transaction h).id = ((source.opened e w).transaction h).id :=
          hsaved.object.id.trans (congrArg LiveTransaction.id hbefore.transaction)
        rw [← hnow]
        refine hsaved.congr ?_ hobject (fun id hid' => hbefore.row id hid') fun id hid' => ?_
        · exact congrArg LiveTransaction.bare hbefore.transaction.symm
        · exact hafter.row id (hid.trans hid')
    · exact hothers _ (List.mem_map_of_mem hh)

/-! ## Before a run -/

/-- Nothing was stored, and no field of a transaction in memory was changed. -/
structure Workspace.Unedited (w v : Workspace) : Prop where
  store : v.store = w.store
  now : v.now = w.now
  bare : ∀ h, (v.transaction h).bare = (w.transaction h).bare

namespace Workspace

instance : IsPreorder Workspace Unedited where
  refl _ := ⟨rfl, rfl, fun _ => rfl⟩
  trans _ _ _ hv hu :=
    ⟨hu.store.trans hv.store, hu.now.trans hv.now, fun h => (hu.bare h).trans (hv.bare h)⟩

omit [Host] in
theorem Looks.unedited {h : Handle} {w v : Workspace} (hl : Looks h w v) : Unedited w v := by
  refine ⟨hl.store, hl.now, fun k => ?_⟩
  by_cases hk : k = h
  · rw [hk, hl.own.bare]
  · rw [hl.others k hk]

end Workspace

omit [Host] in
/-- Who owns a transaction is found out without changing it. -/
theorem unedited_requireOwner (h : Handle) : Keeps Unedited (requireOwner h) := by
  rw [requireOwner]
  refine ((looks_accountOf h).mono fun _ _ hl => hl.unedited).bind fun account => ?_
  cases account with
  | none => exact keeps_throw _
  | some account =>
      dsimp only
      split
      · refine Keeps.bind ?_ fun _ => Keeps.bind ?_ fun _ => keeps_pure _
        · intro w
          rw [runOn_row]
          split <;> exact Std.Refl.refl w
        · intro w
          refine ⟨rfl, rfl, fun k => ?_⟩
          by_cases hk : k = h
          · subst hk
            by_cases hlive : w.live.has k = true
            · rw [runOn_change, transaction_update_self hlive]
              rfl
            · rw [runOn_change, Table.update_of_not_has (Bool.not_eq_true _ ▸ hlive)]
          · rw [runOn_change, transaction_update_of_ne hk]
      · exact keeps_pure _

omit [Host] in
theorem unedited_persistingEngine (user : Id) : Keeps Unedited (persistingEngine user) := by
  have hsetting : Keeps Unedited (setting .executionLogging) :=
    Keeps.bind keeps_get fun w => keeps_ofExcept _
  exact hsetting.bind fun _ => keeps_pure _

omit [Host] in
theorem gives_persistingEngine (user : Id) :
    Gives (fun e => e.observer = some persistChanges) (persistingEngine user) :=
  gives_bind fun _ => gives_pure rfl

/-! ## Which transactions a run takes -/

/-- A choice of transactions, with their state, that what is only read does not change. -/
structure IsChoice (takes : Workspace → List (Handle × LiveTransaction) → Prop) : Prop where
  nonempty : ∀ w, ∃ objects, takes w objects
  of_unedited : ∀ w v objects, Unedited w v → takes v objects → takes w objects

/-- The transactions are in memory as they are loaded from their rows. -/
def AreLoaded (w : Workspace) (objects : List (Handle × LiveTransaction)) : Prop :=
  ∀ o ∈ objects, ∃ id row, w.store.transactions.find? id = some row ∧
    o.2 = .ofRowWithReferences w.store id row

/-- There is one transaction, and it has these values in its fields. -/
def IsOnly (h : Handle) (w : Workspace) (objects : List (Handle × LiveTransaction)) : Prop :=
  ∃ t, objects = [(h, t)] ∧ t.bare = (w.transaction h).bare

omit [Host] in
theorem isChoice_areLoaded : IsChoice AreLoaded where
  nonempty _ := ⟨[], fun _ ho => nomatch ho⟩
  of_unedited w v objects hv hloaded := by
    rw [AreLoaded, hv.store] at hloaded
    exact hloaded

omit [Host] in
theorem isChoice_isOnly (h : Handle) : IsChoice (IsOnly h) where
  nonempty w := ⟨_, w.transaction h, rfl, rfl⟩
  of_unedited _ _ _ hv := by
    rintro ⟨t, rfl, ht⟩
    exact ⟨t, rfl, ht.trans (hv.bare h)⟩

/-- The operation is a run over such transactions and saves what it reports, or it does not come to
a run. -/
def Saves (takes : Workspace → List (Handle × LiveTransaction) → Prop)
    (x : Operation RunSummary) : Prop :=
  ∀ w, ∃ objects, takes w objects ∧ SavesReported objects w (x.runOn w)

section Saves

variable {α : Type} {takes : Workspace → List (Handle × LiveTransaction) → Prop}
  {x : Operation α} {f : α → Operation RunSummary}

omit [Host] in
/-- Where there is no run there is nothing to save. -/
theorem savesReported_of_failure {w v : Workspace} {failure : Failure} (hv : Unedited w v)
    (objects : List (Handle × LiveTransaction)) :
    SavesReported objects w (.error failure, v) where
  reported _ hfailed := nomatch hfailed
  others _ _ := congrArg (fun s : Store => s.transactions.find? _) hv.store

omit [Host] in
/-- What is only read before a run does not matter. -/
theorem saves_bind (htakes : IsChoice takes) {P : α → Prop} (hx : Keeps Unedited x)
    (hP : Gives P x) (hf : ∀ a, P a → Saves takes (f a)) : Saves takes (x >>= f) := by
  intro w
  have hread := hx w
  rw [runOn_bind]
  rcases hrun : x.runOn w with ⟨failure | a, v⟩ <;> rw [hrun] at hread
  · obtain ⟨objects, hobjects⟩ := htakes.nonempty w
    exact ⟨objects, hobjects, savesReported_of_failure hread objects⟩
  · obtain ⟨objects, hobjects, hsaves⟩ := hf a (hP _ _ _ hrun) v
    refine ⟨objects, htakes.of_unedited w v objects hread hobjects, fun summary hsummary => ?_,
      fun id hothers => ?_⟩
    · rw [← hread.store, ← hread.now]
      exact hsaves.reported summary hsummary
    · rw [← hread.store]
      exact hsaves.others id hothers

omit [Host] in
theorem saves_read (htakes : IsChoice takes) (hx : Keeps Unedited x)
    (hf : ∀ a, Saves takes (f a)) : Saves takes (x >>= f) :=
  saves_bind htakes hx (gives_true x) fun a _ => hf a

omit [Host] in
theorem saves_withFreshCaches (htakes : IsChoice takes) {x : Operation RunSummary}
    (hx : Saves takes x) : Saves takes (withFreshCaches x) := by
  intro w
  obtain ⟨objects, hobjects, hsaves⟩ := hx { w with fields := {}, labels := [] }
  have hread : Unedited w { w with fields := {}, labels := [] } := ⟨rfl, rfl, fun _ => rfl⟩
  exact ⟨objects, htakes.of_unedited w _ objects hread hobjects, hsaves.reported, hsaves.others⟩

end Saves

/-! ## Runs over loaded transactions -/

omit [Host] in
theorem saves_nothing (dryRun : Bool) (trigger : String) :
    Saves AreLoaded (pure ⟨dryRun, trigger, []⟩) := by
  refine fun w => ⟨[], fun _ ho => (nomatch ho), fun summary hsummary => ?_, fun _ _ => rfl⟩
  cases hsummary
  exact .nil

namespace Engine

variable {e : Engine} (hsaves : e.observer = some persistChanges)

include hsaves

theorem saves_process (test : Id → Transaction → Bool) (rules : List RuleDefinition)
    (trigger : Trigger) (log : Bool) :
    Saves AreLoaded (e.process (e.transactionsWhere test) rules trigger false log) := by
  intro w
  refine ⟨(Source.stored test).objects e w, ?_,
    savesReported_process hsaves (.stored test) rules trigger log (apart_opened e test w)⟩
  intro o ho
  obtain ⟨h, hh, rfl⟩ := List.mem_map.1 ho
  obtain ⟨id, row, hrow, hloaded⟩ := Source.transaction_opened_stored hh
  exact ⟨id, row, Table.find?_eq_some_of_mem hrow, hloaded⟩

/-- Numbers that no row can have are refused before anything is loaded. -/
theorem saves_processWithIds (ids : List Id) (rules : List RuleDefinition)
    (trigger : Trigger) (log : Bool) :
    Saves AreLoaded (e.process (e.transactionsWithIds ids) rules trigger false log) := by
  cases hfit : Column.allFit ids with
  | ok fit =>
      have hbatch : e.transactionsWithIds ids =
          e.transactionsWhere fun id _ => fit.contains id := by
        rw [transactionsWithIds, hfit]
        rfl
      rw [hbatch]
      exact saves_process hsaves _ rules trigger log
  | error failure =>
      intro w
      have hrun : (e.process (e.transactionsWithIds ids) rules trigger false log).runOn w =
          (.error failure, { w with fields := w.fields.clear, labels := [] }) := by
        rw [transactionsWithIds, hfit]
        rfl
      have hread : Unedited w { w with fields := w.fields.clear, labels := [] } :=
        ⟨rfl, rfl, fun _ => rfl⟩
      rw [hrun]
      exact ⟨[], fun _ ho => (nomatch ho), savesReported_of_failure hread []⟩

omit hsaves in
theorem unedited_rulesWithIds (ids : Json) : Keeps Unedited (e.rulesWithIds ids) :=
  keeps_of_runOn fun w => by rw [EntryPoint.runOn_rulesWithIds]

omit hsaves in
theorem unedited_rulesForTrigger (trigger : Json) : Keeps Unedited (e.rulesForTrigger trigger) :=
  keeps_of_runOn fun w => by
    rw [EntryPoint.runOn_rulesForTrigger]
    split <;> rfl

omit hsaves in
theorem saves_processForRules {batch : Batch} (rules : Json)
    (hbatch : ∀ rules trigger log, Saves AreLoaded (e.process batch rules trigger false log)) :
    Saves AreLoaded (e.processForRules batch rules false) :=
  saves_read isChoice_areLoaded (unedited_rulesWithIds rules) fun rules => hbatch rules .manual true

omit hsaves in
theorem saves_processForTrigger {batch : Batch} (trigger : Json)
    (hbatch : ∀ rules trigger log, Saves AreLoaded (e.process batch rules trigger false log)) :
    Saves AreLoaded (e.processForTrigger batch trigger false) :=
  saves_read isChoice_areLoaded (keeps_ofExcept _) fun known =>
    saves_read isChoice_areLoaded (unedited_rulesForTrigger trigger) fun rules =>
      hbatch rules known true

theorem saves_processRange (first last : Date) (ids : Option Json) :
    Saves AreLoaded (e.processRange first last ids false) := by
  have hsetting : Keeps Unedited (setting .batchSize) :=
    Keeps.bind keeps_get fun w => keeps_ofExcept _
  have hrun : ∀ rules : List RuleDefinition, Saves AreLoaded (do
      .ofExcept (checkBatchSize (← setting .batchSize))
      e.process (e.transactionsWhere fun _ t => first.le t.bookedDate && t.bookedDate.le last)
        rules .manual false) := fun rules =>
    saves_read isChoice_areLoaded hsetting fun size =>
      saves_read isChoice_areLoaded (keeps_ofExcept _) fun _ =>
        saves_process hsaves _ rules .manual true
  unfold processRange
  cases ids with
  | some ids => exact saves_read isChoice_areLoaded (unedited_rulesWithIds ids) hrun
  | none => exact saves_read isChoice_areLoaded (unedited_rulesForTrigger _) hrun

end Engine

/-- Rules are run on chosen transactions, which are loaded for the run. -/
theorem saves_applyRules (user : Id) (transactions rules : Json)
    (first last : Option Date) (trigger : Json) :
    Saves AreLoaded (applyRules user transactions rules first last trigger false) := by
  refine saves_withFreshCaches isChoice_areLoaded ?_
  refine saves_bind isChoice_areLoaded (unedited_persistingEngine user)
    (gives_persistingEngine user) ?_
  intro e hsaves
  refine saves_read isChoice_areLoaded (keeps_ofExcept _) fun ruleEntries => ?_
  refine saves_read isChoice_areLoaded (keeps_ofExcept _) fun entries => ?_
  refine saves_read isChoice_areLoaded (fun w => ⟨rfl, rfl, fun _ => rfl⟩) fun _ => ?_
  split
  · refine saves_read isChoice_areLoaded (keeps_ofExcept _) fun ids => ?_
    dsimp only
    split
    · exact e.saves_processForRules rules (e.saves_processWithIds hsaves ids)
    · exact e.saves_processForTrigger trigger (e.saves_processWithIds hsaves ids)
  · split
    · exact e.saves_processRange hsaves _ _ _
    · split
      · exact e.saves_processForRules rules (e.saves_process hsaves _)
      · exact saves_read isChoice_areLoaded (keeps_ofExcept _) fun known => saves_nothing _ _

/-! ## Runs for a single transaction -/

/-- Rules are run on a single transaction, which is apart from others because there are none. -/
theorem saves_processSingle (h : Handle) (trigger : Trigger) :
    Saves (IsOnly h) (processSingle h trigger) := by
  have htakes := isChoice_isOnly h
  refine saves_withFreshCaches htakes ?_
  refine saves_read htakes (unedited_requireOwner h) fun user => ?_
  refine saves_bind htakes (unedited_persistingEngine user) (gives_persistingEngine user) ?_
  intro e hsaves
  refine saves_read htakes (keeps_ofExcept _) fun known => ?_
  refine saves_read htakes (Engine.unedited_rulesForTrigger _) fun rules => ?_
  intro w
  exact ⟨(Source.held [h]).objects e w, ⟨w.transaction h, rfl, rfl⟩,
    e.savesReported_process hsaves (.held [h]) rules known true (List.pairwise_singleton _ _)⟩

/-- What the transaction is before the run is read off the workspace. -/
theorem savesReported_processSingle (h : Handle) (trigger : Trigger) (w : Workspace) :
    SavesReported [(h, w.transaction h)] w ((processSingle h trigger).runOn w) := by
  obtain ⟨_, ⟨t, rfl, ht⟩, hsaves⟩ := saves_processSingle h trigger w
  have hid : (w.transaction h).id = t.id := by
    have hbare := congrArg LiveTransaction.id ht
    exact hbare.symm
  refine ⟨fun summary hsummary => ?_, fun id hothers => hsaves.others id fun o ho => ?_⟩
  · obtain ⟨entry, rest, ⟨hnumber, hsaved⟩, hrest, hentries⟩ :=
      List.forall₂_cons_left_iff.1 (hsaves.reported summary hsummary)
    rw [hentries, List.forall₂_nil_left_iff.1 hrest]
    refine .cons ⟨hnumber.trans hid.symm, fun hok => ?_⟩ .nil
    exact (hsaved hok).congr ht.symm rfl (fun _ _ => rfl) fun _ _ => rfl
  · rw [List.mem_singleton.1 ho, ← hid]
    exact hothers _ (List.mem_singleton_self _)

end Rulebook
