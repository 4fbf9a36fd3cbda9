import Rulebook.Proofs.Engine.Working
import Rulebook.Proofs.Ledger.Change

/-!
# What operations commit

An operation leads from one store to another by changes of known kinds, also when it fails on the
way.  That alone says nothing about references, which may dangle in the middle of a change.  They are
checked when the outermost change is made final, and what does not pass is taken back; so a store
whose references hold has references that hold after any operation, as long as no larger change is
under way (`Workspace.Commits`).

Nothing has to be known about a change for its references to hold afterwards, and little for the
rest: most tables may change as they like.  This makes the judgement easy to carry through whole
runs.  All that is asked of an observer is that it commits, too.

## Main definitions

* `Workspace.Commits` — the later workspace came from the earlier one by changes that were made
  final.
* `Engine.ObserverCommits` — the observer of a run commits.

## Main statements

* `commits_atomically`, `commits_writeResult` — changes commit.
* `Engine.commits_process` — a run commits.
-/

namespace Rulebook

open Program Workspace

/-- The later store came from the earlier one by changes; unless a larger change is under way, its
references hold if those of the earlier one did. -/
structure Workspace.Commits (deletes : Bool) (w v : Workspace) : Prop where
  isChanging : v.isChanging = w.isChanging
  becomes : Store.Becomes deletes w.store v.store
  isClosed : w.isChanging = false → w.store.IsClosed → v.store.IsClosed

instance {deletes : Bool} : IsPreorder Workspace (Commits deletes) where
  refl _ := ⟨rfl, Std.Refl.refl _, fun _ => id⟩
  trans _ _ _ h k :=
    { isChanging := k.isChanging.trans h.isChanging
      becomes := IsTrans.trans _ _ _ h.becomes k.becomes
      isClosed := fun hfinal hw =>
        k.isClosed (h.isChanging.trans hfinal) (h.isClosed hfinal hw) }

section Commits

variable {deletes : Bool} {h : Handle} {w v : Workspace} {α : Type}

/-- What does not touch the store commits. -/
theorem commits_of_store (hstore : v.store = w.store) (hchanging : v.isChanging = w.isChanging) :
    Commits deletes w v where
  isChanging := hchanging
  becomes := by
    rw [hstore]
    exact Std.Refl.refl _
  isClosed _ hw := by
    rw [hstore]
    exact hw

theorem Workspace.Looks.commits (hl : Looks h w v) : Commits deletes w v :=
  commits_of_store hl.store hl.isChanging

theorem commits_of_looks {x : Operation α} (hx : Keeps (Looks h) x) : Keeps (Commits deletes) x :=
  hx.mono fun _ _ hl => hl.commits

theorem Workspace.Commits.deleting (hc : Commits false w v) : Commits deletes w v :=
  ⟨hc.isChanging, hc.becomes.deleting, hc.isClosed⟩

/-- Changing anything but the store commits. -/
theorem commits_modify {f : Workspace → Workspace} (hstore : ∀ w, (f w).store = w.store)
    (hchanging : ∀ w, (f w).isChanging = w.isChanging) :
    Keeps (Commits deletes) (modify f : Operation PUnit) := fun w =>
  commits_of_store (hstore w) (hchanging w)

theorem commits_report (e : Event) : Keeps (Commits deletes) (report e) :=
  commits_modify (fun _ => rfl) fun _ => rfl

theorem commits_transaction (h : Handle) : Keeps (Commits deletes) (transaction h) :=
  keeps_of_runOn fun _ => rfl

theorem commits_change (h : Handle) (f : LiveTransaction → LiveTransaction) :
    Keeps (Commits deletes) (change h f) :=
  commits_modify (fun _ => rfl) fun _ => rfl

theorem commits_row {β : Type} (e : Entity) (table : Store → Table β) (id : Id) :
    Keeps (Commits deletes) (row e table id) := by
  refine keeps_of_runOn fun w => ?_
  rw [runOn_row]
  split <;> rfl

theorem commits_hold (t : LiveTransaction) : Keeps (Commits deletes) (hold t) := fun _ =>
  commits_of_store rfl rfl

/-! ## Changes -/

/-- A larger change commits if its parts do; whether it is kept or taken back, its references
hold. -/
theorem commits_atomically {x : Operation α} (hx : Keeps (Commits deletes) x) :
    Keeps (Commits deletes) (atomically x) := by
  intro w
  have hinner := hx { w with isChanging := true }
  rw [runOn_atomically]
  rcases hrun : x.runOn { w with isChanging := true } with ⟨failure | a, v⟩
  · exact commits_of_store rfl rfl
  · rw [hrun] at hinner
    unfold settle
    dsimp only
    split
    · next hpasses =>
      -- The parts of the change may have left references open; the check at its end has passed.
      refine ⟨rfl, hinner.becomes, fun hfinal _ => ?_⟩
      rw [hfinal, Bool.false_or] at hpasses
      exact Store.isClosed_iff.2 hpasses
    · exact commits_of_store rfl rfl

theorem commits_writeResult {change : Store → Except Failure (α × Store)}
    (hchange : ∀ s a t, change s = .ok (a, t) → Store.Becomes deletes s t) :
    Keeps (Commits deletes) (writeResult change) := by
  intro w
  rw [runOn_writeResult]
  split
  · next a s hrun =>
    split
    · next hpasses =>
      refine ⟨rfl, hchange _ a s hrun, fun hfinal _ => ?_⟩
      rw [hfinal, Bool.false_or] at hpasses
      exact Store.isClosed_iff.2 hpasses
    · exact Std.Refl.refl w
  · exact Std.Refl.refl w

theorem commits_write {change : Store → Store}
    (hchange : ∀ s, Store.Becomes deletes s (change s)) :
    Keeps (Commits deletes) (write change) :=
  commits_writeResult fun s _ t hrun => by
    cases hrun
    exact hchange s

/-- Changing rows without keys commits, whatever becomes of them. -/
theorem commits_write_rows {change : Store → Store}
    (hguarded : ∀ s, (change s).guarded = s.guarded) : Keeps (Commits deletes) (write change) :=
  commits_write fun s => Store.Change.becomes (.rows (hguarded s))

theorem commits_insertRow {β : Type} {table : Store → Table β}
    {setTable : Store → Table β → Store} {row : β}
    (hchange : ∀ s, Store.Change deletes s (setTable s ((table s).insert row))) :
    Keeps (Commits deletes) (insertRow table setTable row) :=
  commits_writeResult fun s _ t hrun => by
    cases hrun
    exact (hchange s).becomes

theorem commits_withFreshCaches {x : Operation α} (hx : Keeps (Commits deletes) x) :
    Keeps (Commits deletes) (withFreshCaches x) := by
  intro w
  have hinner := hx { w with fields := {}, labels := [] }
  exact ⟨hinner.isChanging, hinner.becomes, hinner.isClosed⟩

/-! ## Effects -/

theorem commits_findOrAddLabel (kind : LabelKind) (name : String) (owner : Id) :
    Keeps (Commits deletes) (findOrAddLabel kind name owner) := by
  have hcache : ∀ labels : Workspace → LabelCache,
      Keeps (Commits deletes) (modify fun w => { w with labels := labels w } : Operation PUnit) :=
    fun _ => commits_modify (fun _ => rfl) fun _ => rfl
  rw [findOrAddLabel]
  refine Keeps.bind keeps_get fun w => ?_
  split
  · exact (keeps_pure _).bind fun found => (hcache _).bind fun _ => keeps_pure _
  · -- Nobody has looked for the label in the store, but adding it fails if it is there.
    refine Keeps.bind (commits_writeResult fun s id t hadd => ?_) fun id => ?_
    · exact Store.Change.becomes (.addLabel hadd)
    · refine (commits_report _).bind fun _ => ?_
      exact (keeps_pure _).bind fun found => (hcache _).bind fun _ => keeps_pure _

theorem commits_putTag (tag : Id) : Keeps (Commits deletes) (putTag h tag) := by
  rw [putTag]
  refine (commits_transaction h).bind fun t => ?_
  split
  · exact commits_write fun s => (Store.Change.addLink s _ tag).becomes
  · exact keeps_pure ()

theorem commits_takeTags (test : Id → Bool) : Keeps (Commits deletes) (takeTags h test) := by
  rw [takeTags]
  refine (commits_transaction h).bind fun t => ?_
  split
  · exact commits_write fun s => (Store.Change.removeLinks s _).becomes
  · exact keeps_pure ()

theorem commits_perform (effect : Effect) : Keeps (Commits deletes) (effect.perform h) := by
  have hset : ∀ (f : LiveTransaction → LiveTransaction) (fields : List TransactionField),
      Keeps (Commits deletes) (do change h f; return fields) :=
    fun f fields => (commits_change h f).bind fun _ => keeps_pure fields
  cases effect with
  | setLabel role n label => exact hset _ _
  | setNamedLabel role name owner =>
      exact (commits_findOrAddLabel _ _ _).bind fun label => hset _ _
  | attachTag tag => exact (commits_putTag tag).bind fun _ => keeps_pure _
  | attachNamedTag name owner =>
      refine (commits_findOrAddLabel _ _ _).bind fun label => ?_
      exact (commits_putTag label.1).bind fun _ => keeps_pure _
  | detachTag tag => exact (commits_takeTags _).bind fun _ => keeps_pure _
  | detachAllTags => exact (commits_takeTags _).bind fun _ => keeps_pure _
  | setDescription words => exact hset _ _
  | setNote words => exact hset _ _
  | setType words => exact hset _ _
  | markReconciled => exact Keeps.bind keeps_get fun w => hset _ _
  | notify rule message => exact fun _ => commits_of_store rfl rfl

variable [Host]

theorem commits_runAction (a : Action) (h : Handle) (dryRun : Bool) :
    Keeps (Commits deletes) (runAction a h dryRun) :=
  keeps_runAction (fun _ _ hl => hl.commits) commits_perform a dryRun

/-! ## Saving -/

omit [Host] in
theorem commits_prepareSaving (h : Handle) (fields : List TransactionField) :
    Keeps (Commits deletes) (prepareSaving h fields) := by
  rw [prepareSaving]
  refine Keeps.bind keeps_get fun w => (commits_change h _).bind fun _ => ?_
  exact (commits_transaction h).bind fun t => keeps_ofExcept _

omit [Host] in
/-- Saving some fields of a transaction commits, also if it is out of date. -/
theorem commits_saveFields (h : Handle) (fields : List TransactionField) :
    Keeps (Commits deletes) (saveFields h fields) := by
  rw [saveFields]
  refine (commits_transaction h).bind fun t => ?_
  split
  · exact keeps_throw _
  · refine (commits_prepareSaving h fields).bind fun content => ?_
    refine commits_writeResult fun s _ u hrun => ?_
    split at hrun
    · cases hrun
      exact Store.Change.becomes (.rows rfl)
    · cases hrun

omit [Host] in
/-- Saving a transaction commits, also if its row was deleted and comes back. -/
theorem commits_saveAll (h : Handle) : Keeps (Commits deletes) (saveAll h) := by
  rw [saveAll]
  refine (commits_transaction h).bind fun t => ?_
  split
  · refine (commits_prepareSaving h _).bind fun content => ?_
    exact commits_write_rows fun _ => rfl
  · refine (keeps_ofExcept _).bind fun amount => (commits_prepareSaving h _).bind fun content => ?_
    refine (commits_insertRow fun s => .rows rfl).bind fun id => ?_
    exact commits_change h _

omit [Host] in
theorem commits_refresh (h : Handle) : Keeps (Commits deletes) (refresh h) := by
  rw [refresh]
  refine (commits_transaction h).bind fun t => ?_
  split
  · exact keeps_pure ()
  · exact (commits_row _ _ _).bind fun stored => commits_change h _

omit [Host] in
theorem commits_persistChanges (h : Handle) (summary : TransactionSummary) :
    Keeps (Commits deletes) (persistChanges h summary) := by
  rw [persistChanges]
  split
  · exact keeps_pure ()
  · exact commits_saveFields h _

namespace Engine

/-! ## Runs -/

/-- Whatever the observer of a run does, it commits. -/
def ObserverCommits (deletes : Bool) (e : Engine) : Prop :=
  ∀ observer, e.observer = some observer →
    ∀ h summary, Keeps (Commits deletes) (observer h summary)

variable {e : Engine} {batch : Batch} {trigger : Trigger} {dryRun log : Bool}
  {rules : List RuleDefinition}

omit [Host] in
theorem commits_writeLog (log : Log) : Keeps (Commits deletes) (e.writeLog log) := by
  have hinsert : Keeps (Commits deletes) (do
      let _ ← insertRow Store.logs (fun s t => { s with logs := t }) log
      return ()) :=
    (commits_insertRow fun s => .addLog s log).bind fun _ => keeps_pure ()
  rw [writeLog]
  refine Keeps.bind (commits_modify (fun _ => rfl) fun _ => rfl) fun _ => ?_
  refine Keeps.bind keeps_get fun w => ?_
  dsimp only
  split
  · exact (keeps_throw _).bind fun _ => hinsert
  · exact hinsert

omit [Host] in
theorem commits_logOutcome (h : Handle) (outcome : RuleOutcome) :
    Keeps (Commits deletes) (e.logOutcome h outcome trigger dryRun) := by
  rw [logOutcome]
  refine (commits_transaction h).bind fun t => ?_
  split
  · split
    · exact Keeps.bind keeps_get fun w => commits_writeLog _
    · exact keeps_pure ()
  · exact keeps_pure ()

theorem commits_runTransaction (he : e.ObserverCommits deletes) (h : Handle) :
    Keeps (Commits deletes) (e.runTransaction h rules trigger dryRun log) := by
  have hlooks : ∀ w v, Looks h w v → Commits deletes w v := fun _ _ hl => hl.commits
  refine keeps_runTransaction hlooks ?_ fun observer summary hobserver _ =>
    he observer hobserver h summary
  exact keeps_runRules hlooks (commits_runAction · h dryRun) fun _ _ outcome _ _ =>
    commits_logOutcome h outcome

omit [Host] in
theorem commits_discard (h : Handle) : Keeps (Commits deletes) (discard h) := by
  rw [discard]
  refine Keeps.bind (commits_modify (fun _ => rfl) fun _ => rfl) fun _ => ?_
  exact (commits_of_looks (looks_invalidate h)).bind fun _ => commits_refresh h

/-- What a run does with one transaction commits, whether it is kept or dropped. -/
theorem commits_processOne (he : e.ObserverCommits deletes) (h : Handle) :
    Keeps (Commits deletes) (e.processOne rules trigger dryRun log h) := by
  rw [processOne]
  refine (commits_transaction h).bind fun t => ?_
  refine (commits_atomically (commits_runTransaction he h)).tryCatch fun failure => ?_
  exact (commits_discard h).bind fun _ => (commits_report _).bind fun _ => keeps_pure _

/-- A run commits, over any batch and with any rules. -/
theorem commits_process (he : e.ObserverCommits deletes) (hbatch : Keeps (Commits deletes) batch) :
    Keeps (Commits deletes) (e.process batch rules trigger dryRun log) := by
  rw [process]
  refine Keeps.bind (commits_modify (fun _ => rfl) fun _ => rfl) fun _ => ?_
  refine Keeps.bind (commits_modify (fun _ => rfl) fun _ => rfl) fun _ => hbatch.bind fun handles => ?_
  refine (keeps_mapM fun h _ => commits_processOne he h).bind fun transactions => ?_
  exact (commits_report _).bind fun _ => keeps_pure _

theorem commits_rulesForTrigger (e : Engine) (trigger : Json) :
    Keeps (Commits deletes) (e.rulesForTrigger trigger) := by
  rw [rulesForTrigger]
  exact Keeps.bind keeps_get fun w => (keeps_ofExcept _).bind fun _ => keeps_pure _

theorem commits_rulesWithIds (e : Engine) (ids : Json) :
    Keeps (Commits deletes) (e.rulesWithIds ids) := by
  rw [rulesWithIds]
  refine (keeps_ofExcept _).bind fun _ => Keeps.bind keeps_get fun w => ?_
  exact (keeps_ofExcept _).bind fun _ => keeps_pure _

theorem commits_processForTrigger (he : e.ObserverCommits deletes)
    (hbatch : Keeps (Commits deletes) batch) (trigger : Json) :
    Keeps (Commits deletes) (e.processForTrigger batch trigger dryRun) := by
  rw [processForTrigger]
  refine (keeps_ofExcept _).bind fun known => (commits_rulesForTrigger e trigger).bind fun rules => ?_
  exact commits_process he hbatch

theorem commits_processForRules (he : e.ObserverCommits deletes)
    (hbatch : Keeps (Commits deletes) batch) (ids : Json) :
    Keeps (Commits deletes) (e.processForRules batch ids dryRun) := by
  rw [processForRules]
  exact (commits_rulesWithIds e ids).bind fun rules => commits_process he hbatch

omit [Host] in
theorem commits_holdRows (rows : List (Id × Transaction)) :
    Keeps (Commits deletes) (holdRows rows) := by
  rw [holdRows]
  exact Keeps.bind keeps_get fun w => keeps_mapM fun row _ => commits_hold _

omit [Host] in
theorem commits_transactionsWhere (e : Engine) (test : Id → Transaction → Bool) :
    Keeps (Commits deletes) (e.transactionsWhere test) := by
  rw [transactionsWhere]
  exact Keeps.bind keeps_get fun w => commits_holdRows _

theorem commits_processRange (he : e.ObserverCommits deletes) (start finish : Calendar.Date)
    (ids : Option Json) : Keeps (Commits deletes) (e.processRange start finish ids dryRun) := by
  have hrun : ∀ rules, Keeps (Commits deletes) (do
      .ofExcept (checkBatchSize (← setting .batchSize))
      e.process (e.transactionsWhere fun _ t => start.le t.bookedDate && t.bookedDate.le finish)
        rules .manual dryRun) := by
    intro rules
    refine Keeps.bind (keeps_of_runOn fun _ => rfl) fun size => (keeps_ofExcept _).bind fun _ => ?_
    exact commits_process he (commits_transactionsWhere e _)
  unfold processRange
  cases ids with
  | none => exact (commits_rulesForTrigger e _).bind hrun
  | some ids => exact (commits_rulesWithIds e ids).bind hrun

theorem commits_preview (he : e.ObserverCommits deletes) (hbatch : Keeps (Commits deletes) batch)
    (definition : RuleDefinition) : Keeps (Commits deletes) (e.preview batch definition) :=
  commits_process he hbatch

end Engine

end Commits

end Rulebook
