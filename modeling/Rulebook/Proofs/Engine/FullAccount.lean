import Rulebook.Proofs.Engine.Account
import Rulebook.Proofs.Ledger.Change
import Rulebook.Proofs.Service.Saving

/-!
# A summary is a full account

What a live run reports for a transaction is all that it did to it.  The outcomes of the rules give
the transaction its new standing, the other fields stay as they are, and no tag is put on a
transaction twice.

The observer of the run is told about the transaction when the rules are done with it, and what it
does is not in the summary.  Here it is assumed to leave alone what the summary accounts for
(`Engine.ObserverRespects`).  The one that saves what was changed does so; all that it does to the
transaction in memory is to stamp it with the time.

## Main definitions

* `Engine.ObserverRespects` — the observer leaves alone what the summary accounts for.

## Main statements

* `Engine.run_is_accounted` — what the summary reports is what was done.
-/

namespace Rulebook

open Program Workspace Calendar

section

/-! ## Tags that are there once -/

/-- If no tag was twice on a transaction, then none is afterwards. -/
def Workspace.KeepsTagsOnce (w v : Workspace) : Prop := w.store.TagsOnce → v.store.TagsOnce

instance : IsPreorder Workspace KeepsTagsOnce where
  refl _ := id
  trans _ _ _ hv hu := hu ∘ hv

section TagsOnce

variable {h : Handle} {w v : Workspace}

theorem Workspace.Looks.keepsTagsOnce (hl : Looks h w v) : KeepsTagsOnce w v := by
  intro hw
  rw [hl.store]
  exact hw

theorem keepsTagsOnce_writeResult {α : Type} {change : Store → Except Failure (α × Store)}
    (hchange : ∀ s a t, change s = .ok (a, t) → s.TagsOnce → t.TagsOnce) :
    Keeps KeepsTagsOnce (writeResult change) := by
  intro w
  rw [runOn_writeResult]
  split
  · next a s hrun =>
    split
    · exact hchange _ a s hrun
    · exact id
  · exact id

theorem keepsTagsOnce_perform (effect : Effect) : Keeps KeepsTagsOnce (effect.perform h) := by
  have hput : ∀ tag, Keeps KeepsTagsOnce (putTag h tag) := by
    intro tag
    rw [putTag]
    refine Keeps.bind (fun w => id) fun t => ?_
    split
    · refine keepsTagsOnce_writeResult fun s _ t hrun hs => ?_
      cases hrun
      exact hs.addLink _ _
    · exact keeps_pure ()
  have htake : ∀ test, Keeps KeepsTagsOnce (takeTags h test) := by
    intro test
    rw [takeTags]
    refine Keeps.bind (fun w => id) fun t => ?_
    split
    · refine keepsTagsOnce_writeResult fun s _ t hrun hs => ?_
      cases hrun
      exact hs.removeLinks _
    · exact keeps_pure ()
  have hname : ∀ kind name owner, Keeps KeepsTagsOnce (findOrAddLabel kind name owner) := by
    intro kind name owner
    have hcache : ∀ labels : Workspace → LabelCache,
        Keeps KeepsTagsOnce (modify fun w => { w with labels := labels w }) := fun _ _ => id
    rw [findOrAddLabel]
    refine Keeps.bind keeps_get fun w => ?_
    split
    · exact (keeps_pure _).bind fun found => (hcache _).bind fun _ => keeps_pure _
    · refine Keeps.bind (keepsTagsOnce_writeResult fun s _ t hadd hs => hs.of_links ?_)
        fun id => ?_
      · rw [Store.addLabel] at hadd
        split at hadd <;> cases hadd
        cases kind <;> rfl
      · refine Keeps.bind (fun v hv => hv) fun _ => ?_
        exact (keeps_pure _).bind fun found => (hcache _).bind fun _ => keeps_pure _
  have hchange : ∀ (f : LiveTransaction → LiveTransaction) (fields : List TransactionField),
      Keeps KeepsTagsOnce (do change h f; return fields) := fun f fields _ => id
  cases effect with
  | setLabel role n label => exact hchange _ _
  | setNamedLabel role name owner => exact (hname _ _ _).bind fun label => hchange _ _
  | attachTag tag => exact (hput tag).bind fun _ => keeps_pure _
  | attachNamedTag name owner =>
      exact (hname _ _ _).bind fun label => (hput label.1).bind fun _ => keeps_pure _
  | detachTag tag => exact (htake _).bind fun _ => keeps_pure _
  | detachAllTags => exact (htake _).bind fun _ => keeps_pure _
  | setDescription words => exact hchange _ _
  | setNote words => exact hchange _ _
  | setType words => exact hchange _ _
  | markReconciled => exact Keeps.bind keeps_get fun w => hchange _ _
  | notify rule message => exact fun _ => id

variable {e : Engine} {rules : List RuleDefinition} {trigger : Trigger} {dryRun log : Bool}

end TagsOnce

/-! ## Observers -/

/-- What a summary accounts for was left alone, and the transaction was at most stamped with the
time. -/
structure Workspace.Respects (h : Handle) (w v : Workspace) : Prop where
  standing : v.standing h = w.standing h
  content : ∀ field ∉ TransactionField.settable,
    (v.transaction h).content field = (w.transaction h).content field
  updatedAt : (v.transaction h).updatedAt = (w.transaction h).updatedAt ∨
    (v.transaction h).updatedAt = some w.now
  tagsOnce : KeepsTagsOnce w v

namespace Engine

/-- The observer works on the transaction it is told about, and if it does not object, it leaves
alone what the summary accounts for. -/
structure ObserverRespects (e : Engine) : Prop where
  works : ∀ observer, e.observer = some observer →
    ∀ h summary, Keeps (Works AnyLogs h) (observer h summary)
  respects : ∀ observer, e.observer = some observer →
    ∀ h summary w v, (observer h summary).runOn w = (.ok (), v) → Respects h w v

end Engine

/-- Saving what was changed respects the summary. -/
theorem respects_persistChanges {h : Handle} {t : TransactionSummary} {w v : Workspace}
    (hrun : (persistChanges h t).runOn w = (.ok (), v)) : Respects h w v := by
  rw [persistChanges] at hrun
  split at hrun
  · cases hrun
    exact ⟨rfl, fun _ _ => rfl, Or.inl rfl, id⟩
  · cases hid : (w.transaction h).id with
    | none =>
        rw [saveFields, runOn_bind, runOn_transaction] at hrun
        dsimp only at hrun
        rw [hid] at hrun
        cases hrun
    | some id =>
        obtain ⟨content, -, hobject, hstore⟩ := saveFields_eq_ok hid hrun
        have hlinks : v.store.links = w.store.links := by rw [hstore]
        refine ⟨?_, fun field _ => ?_, Or.inr ?_, fun hw => hw.of_links hlinks⟩
        · rw [standing, standing_of_links hlinks, hobject]
          rfl
        · rw [hobject, content_stamp]
        · rw [hobject]

/-- So an engine that saves what it changes has an observer that respects the summary. -/
theorem Engine.observerRespects_persistChanges {e : Engine}
    (hsaves : e.observer = some persistChanges) : e.ObserverRespects where
  works observer hsome h summary := by
    rw [hsaves] at hsome
    cases hsome
    exact works_persistChanges h summary
  respects observer hsome h summary w v hrun := by
    rw [hsaves] at hsome
    cases hsome
    exact respects_persistChanges hrun

/-! ## A run -/

namespace Engine

variable [Host]

section Turn

variable {e : Engine} {rules : List RuleDefinition} {trigger : Trigger} {log : Bool} {h : Handle}
  {w v : Workspace} (hobserver : e.ObserverRespects)

include hobserver

omit [Host] in
/-- What the observer does to a transaction once the rules are done with it. -/
theorem respects_tellObserver {t : TransactionSummary} {dryRun : Bool}
    (hrun : (e.tellObserver h t dryRun).runOn w = (.ok (), v)) : Respects h w v := by
  have hnone : w = v → Respects h w v := by
    rintro rfl
    exact ⟨rfl, fun _ _ => rfl, Or.inl rfl, id⟩
  rw [tellObserver] at hrun
  split at hrun
  · next observer hsome =>
    split at hrun
    · exact hnone (congrArg Prod.snd hrun)
    · exact hobserver.respects observer hsome h t w v hrun
  · exact hnone (congrArg Prod.snd hrun)

omit [Host] in
theorem works_tellObserver (t : TransactionSummary) (dryRun : Bool) :
    Keeps (Works AnyLogs h) (e.tellObserver h t dryRun) := by
  rw [tellObserver]
  split
  · next observer hsome =>
    split
    · exact keeps_pure ()
    · exact hobserver.works observer hsome h t
  · exact keeps_pure ()

/-- No tag is put on a transaction twice in its turn. -/
theorem keepsTagsOnce_processOne {dryRun : Bool} (h : Handle) :
    Keeps KeepsTagsOnce (e.processOne rules trigger dryRun log h) := by
  intro w
  rw [runOn_processOne]
  rcases hattempt : (atomically (e.runTransaction h rules trigger dryRun log)).runOn w with
    ⟨failure | t, v⟩
  · -- What was written is taken back, and dropping the rest writes nothing.
    have hstore : v.store = w.store := by
      have hback := store_atomically_of_error (congrArg Prod.fst hattempt)
      rwa [hattempt] at hback
    have hdropped : ((discard h).runOn v).2.store = v.store := by
      rw [runOn_discard, runOn_refresh]
      dsimp only
      split
      · rfl
      · split <;> rfl
    have hkept : KeepsTagsOnce w ((discard h).runOn v).2 := by
      rw [KeepsTagsOnce, hdropped, hstore]
      exact id
    dsimp only
    rcases hdiscard : (discard h).runOn v with ⟨failure' | _, u⟩ <;> rw [hdiscard] at hkept
    · exact hkept
    · exact hkept
  · obtain ⟨u, hinside, rfl, -⟩ := atomically_eq_ok hattempt
    obtain ⟨x, outcomes, x', howner, hrules, htell, -⟩ := runTransaction_eq_ok hinside
    have hlooks := looks_ownerOf h { w with isChanging := true }
    rw [howner] at hlooks
    have hkept : KeepsTagsOnce x ((e.runRules h trigger dryRun log rules).runOn x).2 := by
      refine keeps_runRules (fun _ _ hl => hl.keepsTagsOnce)
        (keeps_runAction (fun _ _ hl => hl.keepsTagsOnce) keepsTagsOnce_perform · dryRun)
        (fun _ _ outcome _ _ => ?_) x
      refine (logged_logOutcome h outcome).mono fun w v hv hw => hw.of_links ?_
      rw [hv.store]
    rw [hrules] at hkept
    intro hw
    exact (respects_tellObserver hobserver htell).tagsOnce (hkept (hlooks.keepsTagsOnce hw))

/-- What the turn of a stored transaction does to it. -/
theorem accounted_runTransaction {t : TransactionSummary} {id : Id} (hw : w.isChanging = true)
    (hid : (w.transaction h).id = some id)
    (hrun : (e.runTransaction h rules trigger false log).runOn w = (.ok t, v)) :
    (∀ s : Store, (∀ kind, (v.store.labels kind).Grows (s.labels kind)) →
        v.standing h = accounted s e.user w.now rules t.rules (w.standing h)) ∧
      (∀ field ∉ TransactionField.settable,
        (v.transaction h).content field = (w.transaction h).content field) ∧
      ((v.transaction h).updatedAt = (w.transaction h).updatedAt ∨
        (v.transaction h).updatedAt = some w.now) := by
  obtain ⟨u, outcomes, u', howner, hrules, htell, rfl⟩ := runTransaction_eq_ok hrun
  have hlooks := looks_ownerOf h w
  rw [howner] at hlooks
  have hu : u.IsWorkedOn h id e.user :=
    ⟨hlooks.isChanging.trans hw, hlooks.own.id_eq.trans hid, ownedBy_of_ownerOf howner⟩
  have hyields := yields_runRules hu hrules
  have hedits := hlooks.edits.trans (edits_runRules hu.changing hrules)
  have hrespects := respects_tellObserver hobserver htell
  have hnow : u'.now = w.now := hyields.now.trans hlooks.now
  refine ⟨fun s hs => ?_, fun field hfield => ?_, ?_⟩
  · have hlabels : ∀ kind, (u'.store.labels kind).Grows (s.labels kind) := by
      have hworks := works_tellObserver hobserver
        (h := h) (.ofOutcomes (w.transaction h).id outcomes) false u'
      rw [htell] at hworks
      exact fun kind => IsTrans.trans _ _ _ (hworks.store.labels kind) (hs kind)
    rw [hrespects.standing, hyields.standing s hlabels, hlooks.standing, hlooks.now]
    rfl
  · rw [hrespects.content field hfield]
    exact hedits.content field fun hmem => hfield (hedits.settable hmem)
  · rw [← hedits.updatedAt, ← hnow]
    exact hrespects.updatedAt

end Turn

/-- The summary of a live run is a full account of it.  Let the transactions of the run be apart,
and no tag be twice on a transaction.  Then a stored transaction without a reported error has
afterwards the standing that the reported outcomes give to the one it had before, with names of
labels read in the store that the run leaves behind; its other fields are what they were, but for
the time at which it was saved; and no tag is twice on a transaction. -/
theorem run_is_accounted {e : Engine} (hobserver : e.ObserverRespects) (source : Source)
    (rules : List RuleDefinition) (trigger : Trigger) (log : Bool) {w v : Workspace}
    {summary : RunSummary} (hapart : (source.handles e w).Pairwise (source.opened e w).Apart)
    (honce : w.store.TagsOnce)
    (hrun : (e.process (source.batch e) rules trigger false log).runOn w = (.ok summary, v)) :
    v.store.TagsOnce ∧
      List.Forall₂
        (fun h t =>
          ((source.opened e w).transaction h).id.isSome = true → t.error = none →
            v.standing h =
              accounted v.store e.user w.now rules t.rules ((source.opened e w).standing h) ∧
            (∀ field ∉ TransactionField.settable, (v.transaction h).content field =
              ((source.opened e w).transaction h).content field) ∧
            ((v.transaction h).updatedAt = ((source.opened e w).transaction h).updatedAt ∨
              (v.transaction h).updatedAt = some w.now))
        (source.handles e w) summary.transactions := by
  rw [runOn_process] at hrun
  rcases hpass : ((source.handles e w).mapM (e.processOne rules trigger false log)).runOn
    (source.opened e w) with ⟨failure | transactions, u⟩ <;> rw [hpass] at hrun <;> cases hrun
  refine ⟨?_, (forall₂_turns hobserver.works hapart hpass).imp ?_⟩
  · have hkept : KeepsTagsOnce (source.opened e w)
        (((source.handles e w).mapM (e.processOne rules trigger false log)).runOn
          (source.opened e w)).2 :=
      keeps_mapM (fun h _ => keepsTagsOnce_processOne hobserver h) _
    rw [hpass] at hkept
    exact hkept honce
  · rintro h t ⟨x, x', hbefore, hturn, hafter⟩ hsome ht
    obtain ⟨id, hid⟩ := Option.isSome_iff_exists.1 hsome
    obtain ⟨y, hinside, rfl⟩ := processOne_eq_ok hturn ht
    have hid' : (x.transaction h).id = some id := by rw [hbefore.transaction, hid]
    obtain ⟨hstanding, hfields, hupdated⟩ :=
      accounted_runTransaction hobserver (w := { x with isChanging := true }) rfl hid' hinside
    have hstart : x.standing h = (source.opened e w).standing h :=
      standing_congr (congrArg LiveTransaction.bare hbefore.transaction) hbefore.links
    have hfinish : u.standing h = y.standing h :=
      standing_congr (congrArg LiveTransaction.bare hafter.transaction) hafter.links
    have hnow : x.now = w.now := hbefore.now
    have hobject : u.transaction h = y.transaction h := hafter.transaction
    have hbegun : x.transaction h = (source.opened e w).transaction h := hbefore.transaction
    rw [← hstart, ← hbegun, ← hnow]
    refine ⟨hfinish.trans (hstanding u.store hafter.labels), ?_, ?_⟩
    · exact fun field hfield =>
        (congrArg (LiveTransaction.content · field) hobject).trans (hfields field hfield)
    · exact hupdated.imp (congrArg LiveTransaction.updatedAt hobject).trans
        (congrArg LiveTransaction.updatedAt hobject).trans

end Engine

end

namespace Engine

/-- A run that sets the category of two transactions and saves it. -/
theorem accounted_in_smallLedger :
    ∃ summary v,
      (Engine.process { user := 1, isLogging := true, observer := some persistChanges }
          (return [1, 2]) (SmallLedger.store.rulesForTrigger 1 .manual) .manual false).runOn
        SmallLedger.workspace = (.ok summary, v) ∧
      v.store.TagsOnce ∧
      List.Forall₂
        (fun h t =>
          (SmallLedger.workspace.transaction h).id.isSome = true → t.error = none →
            v.standing h =
              accounted v.store 1 startInstant (SmallLedger.store.rulesForTrigger 1 .manual) t.rules
                (SmallLedger.workspace.standing h) ∧
            (∀ field ∉ TransactionField.settable, (v.transaction h).content field =
              (SmallLedger.workspace.transaction h).content field) ∧
            ((v.transaction h).updatedAt = (SmallLedger.workspace.transaction h).updatedAt ∨
              (v.transaction h).updatedAt = some startInstant))
        [1, 2] summary.transactions := by
  have hobserver : ObserverRespects
      { user := 1, isLogging := true, observer := some persistChanges } :=
    observerRespects_persistChanges rfl
  have hrows : (Source.held [1, 2]).RowsExist SmallLedger.workspace := by
    intro h hh id hid
    rcases List.mem_pair.1 hh with rfl | rfl <;> cases hid <;> rfl
  obtain ⟨v, hrun⟩ := process_gives_entries
    (fun observer hsome h summary =>
      (hobserver.works observer hsome h summary).mono fun _ _ hw => hw.stillThere)
    (.held [1, 2]) (SmallLedger.store.rulesForTrigger 1 .manual) .manual false true hrows
  refine ⟨_, v, hrun, ?_⟩
  refine run_is_accounted hobserver (.held [1, 2]) _ .manual true (w := SmallLedger.workspace) ?_
    List.nodup_nil hrun
  refine List.pairwise_pair.2 ⟨by decide, fun id hid hid' => ?_⟩
  have hnumbers : some (1 : Id) = some 2 := hid.trans hid'.symm
  exact absurd hnumbers (by decide)

/-- A rule that leaves a note. -/
def notingRule : RuleDefinition where
  id := .int 1
  name := .text "Seen"
  trigger := .text "manual"
  stopProcessing := .bool false
  groups := []
  actions := [{
    id := none
    rule := none
    kind := .text "set_note"
    value := .text "seen"
    order := .int 0
    stopProcessing := .bool false }]

/-- What the summary does not account for.  A run a minute later that saves its changes stamps the
transaction, and an observer may do to it whatever it likes. -/
theorem unaccounted_by_summary :
    (∃ summary v,
      (Engine.process { user := 1, isLogging := false, observer := some persistChanges }
          (return [1]) [notingRule] .manual false).runOn
        { SmallLedger.workspace with now := ⟨startInstant.microseconds + 60000000⟩ } =
          (.ok summary, v) ∧
      summary.transactions.map (·.error) = [none] ∧
      (v.transaction 1).updatedAt ≠ (SmallLedger.workspace.transaction 1).updatedAt) ∧
    (∃ summary v,
      (Engine.process
          { user := 1, isLogging := false
            observer := some fun h _ => change h fun t => { t with place := some "Elsewhere" } }
          (return [1]) [notingRule] .manual false).runOn SmallLedger.workspace = (.ok summary, v) ∧
      summary.transactions.map (·.error) = [none] ∧
      (v.transaction 1).place ≠ (SmallLedger.workspace.transaction 1).place) := by
  refine ⟨⟨_, _, rfl, rfl, ?_⟩, ⟨_, _, rfl, rfl, ?_⟩⟩
  · decide
  · decide

end Engine

end Rulebook
