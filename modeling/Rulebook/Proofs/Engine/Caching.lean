import Rulebook.Proofs.Engine.EntryPoint
import Rulebook.Proofs.Engine.Shadowing

/-!
# Caches are invisible

The engine and the engine without caches (`Direct.process`) start in the same workspace and take the
same steps.  In the end their workspaces differ in nothing but the caches, which the engine without
caches has never touched.

Between transactions the caches of the first engine are right (`Workspace.Coherent`).  The fields
of other transactions than the one at hand are not touched, except that a tag of theirs might come
to life if a link dangled.  When a transaction fails, its change is taken back, and then the label
cache may hold labels that are not stored any more, so it is emptied, and the fields of the
transaction are forgotten, whether or not its row can be read again.

## Main definitions

* `Workspace.Coherent` — the caches are right about the transactions of a batch.
* `Workspace.Follows` — the workspaces of the two engines between transactions.

## Main statements

* `Engine.process_eq_direct` — a run is that of the engine without caches.
-/

namespace Rulebook

open Program Workspace

section

/-! ## A transaction of a run -/

variable [Host]

namespace Engine

section Transaction

variable {e : Engine} {trigger : Trigger} {dryRun log : Bool} {f : FieldCache} {l : LabelCache}
  {h : Handle} {w s : Workspace}

theorem direct_runRules_cons (r : RuleDefinition) (rest : List RuleDefinition) :
    Direct.runRules e h trigger dryRun log (r :: rest) = (do
      let outcome ← Direct.runRule h r dryRun
      let _ ← (if log then e.logOutcome h outcome trigger dryRun else return () : Operation Unit)
      if outcome.matched && r.stopProcessing.isTruthy then return [outcome]
      else return outcome :: (← Direct.runRules e h trigger dryRun log rest)) := by
  cases log <;> rfl

theorem direct_runTransaction_eq (rules : List RuleDefinition) :
    Direct.runTransaction e h rules trigger dryRun log = (do
      let t ← transaction h
      let owner ← ownerOf h
      let _ ← (if owner ≠ some e.user then throw (.foreignTransaction t.id e.user) else return () :
        Operation Unit)
      let outcomes ← Direct.runRules e h trigger dryRun log rules
      let _ ← e.tellObserver h (.ofOutcomes t.id outcomes) dryRun
      return .ofOutcomes t.id outcomes) := by
  unfold Direct.runTransaction
  refine bind_congr fun t => bind_congr fun owner => ?_
  dsimp only
  split <;> rfl

theorem shadows_runRules (hs : Shadowed f l (·.FieldsAgree h) w s) (rules : List RuleDefinition) :
    Tracks (Shadowed f l (·.FieldsAgree h)) (e.runRules h trigger dryRun log rules)
      (Direct.runRules e h trigger dryRun log rules) w s := by
  induction rules generalizing w s with
  | nil => exact tracks_pure [] hs
  | cons r rest ih =>
      rw [runRules_cons, direct_runRules_cons]
      refine (shadows_runRule hs r dryRun).bind fun outcome v s hv => Tracks.bind ?_ ?_
      · split
        · exact tracks_unseen hv (unnoticed_logOutcome h outcome)
        · exact tracks_pure () hv
      · intro _ u s hu
        split
        · exact tracks_pure _ hu
        · exact (ih hu).bind fun outcomes v s hv => tracks_pure _ hv

theorem shadows_runTransaction (hsaving : e.IsSaving) (hs : Shadowed f l (·.FieldsAgree h) w s)
    (rules : List RuleDefinition) :
    Tracks (Shadowed f l (·.FieldsAgree h)) (e.runTransaction h rules trigger dryRun log)
      (Direct.runTransaction e h rules trigger dryRun log) w s := by
  rw [runTransaction_eq, direct_runTransaction_eq]
  refine (tracks_unseen hs (unnoticed_transaction h h)).bind fun t v s hv => ?_
  refine (tracks_unseen hv (unnoticed_ownerOf h)).bind fun owner u s hu => Tracks.bind ?_ ?_
  · split
    · exact tracks_throw _ hu
    · exact tracks_pure () hu
  · intro _ v s hv
    refine (shadows_runRules hv rules).bind fun outcomes u s hu => ?_
    refine (tracks_unseen hu (unnoticed_tellObserver hsaving h _)).bind fun _ v s hv => ?_
    exact tracks_pure _ hv

end Transaction

end Engine

/-! ## Transactions one after the other -/

/-- What the caches know is true of the given transactions.  No two of these have the same number,
and no link dangles. -/
structure Workspace.Coherent (handles : List Handle) (w : Workspace) : Prop where
  agree : w.LabelsAgree
  links : w.store.LinksResolve
  fields : ∀ h ∈ handles, w.FieldsAgree h
  distinct : ∀ h ∈ handles, ∀ k ∈ handles, ∀ id, (w.transaction h).id = some id →
    (w.transaction k).id = some id → k = h

section Coherent

variable {handles : List Handle} {h : Handle} {w v : Workspace} {L : Table Log → Table Log → Prop}

omit [Host] in
/-- After work on one of the transactions the caches need to be right about that one only. -/
theorem Workspace.Coherent.of_works (hc : Coherent handles w) (hh : h ∈ handles)
    (hw : Works L h w v) (hagree : v.LabelsAgree) (hlinks : v.store.LinksResolve)
    (hown : v.FieldsAgree h) :
    Coherent handles v where
  agree := hagree
  links := hlinks
  fields k hk := by
    by_cases hkh : k = h
    · rw [hkh]
      exact hown
    · intro id hid field value hvalue
      rw [hw.id_eq] at hid
      have hne : some id ≠ (w.transaction h).id := fun heq =>
        hkh (hc.distinct h hh k hk id heq.symm hid)
      rw [hw.entries id field hne] at hvalue
      have hshown := hc.fields k hk id hid field value hvalue
      rw [hw.others k hkh]
      cases field with
      | tags =>
          -- A tag could only come to life through a link that dangled.
          simp only [LiveTransaction.shown?, hid] at hshown ⊢
          rw [hw.store.tagsOf_eq hc.links hne]
          exact hshown
      | _ => exact hshown
  distinct k hk n hn id hkid hnid := by
    rw [hw.id_eq] at hkid hnid
    exact hc.distinct k hk n hn id hkid hnid

omit [Host] in
/-- Nothing is wrong about a transaction of which nothing is known, when the store is as it was. -/
theorem Workspace.Coherent.of_forgotten (hc : Coherent handles w) (hh : h ∈ handles)
    (hw : Works L h w v) (hlabels : v.labels = []) (hstore : v.store = w.store)
    {fields : FieldCache} (hfields : v.fields = fields.forget (v.transaction h).id) :
    Coherent handles v := by
  refine hc.of_works hh hw ?_ ?_ ?_
  · intro kind id found hfound
    rw [hlabels] at hfound
    cases hfound
  · rw [hstore]
    exact hc.links
  · intro id hown field value hvalue
    rw [hfields, lookup_forget, if_pos hown.symm] at hvalue
    cases hvalue

end Coherent

/-- The second workspace is the first one with the given caches, and these of the first one are
right. -/
def Workspace.Follows (handles : List Handle) (fields : FieldCache) (labels : LabelCache)
    (w s : Workspace) : Prop :=
  s = w.withCaches fields labels ∧ Coherent handles w

section Follows

variable {f : FieldCache} {l : LabelCache} {h : Handle} {w : Workspace}

omit [Host] in
theorem store_refresh (h : Handle) (w : Workspace) : ((refresh h).runOn w).2.store = w.store := by
  rw [runOn_refresh]
  split
  · rfl
  · split <;> rfl

namespace Engine

variable {e : Engine} {trigger : Trigger} {dryRun log : Bool} {handles : List Handle}

theorem runOn_direct_processOne (rules : List RuleDefinition) (h : Handle) (w : Workspace) :
    (Direct.processOne e rules trigger dryRun log h).runOn w =
      match (atomically (Direct.runTransaction e h rules trigger dryRun log)).runOn w with
      | (.ok t, v) => (.ok t, v)
      | (.error failure, v) =>
        match (refresh h).runOn v with
        | (.ok _, u) =>
          (.ok { transaction := (w.transaction h).id, error := some failure.message },
            { u with
              events := .transactionFailed e.user (rules.map (·.id)) (w.transaction h).id dryRun ::
                u.events })
        | (.error failure, u) => (.error failure, u) := by
  rw [Direct.processOne, runOn_bind, runOn_transaction]
  dsimp only
  rw [runOn_tryCatch]
  rcases (atomically (Direct.runTransaction e h rules trigger dryRun log)).runOn w with
    ⟨failure | t, v⟩
  · dsimp only
    rw [runOn_bind]
    rcases (refresh h).runOn v with ⟨failure | _, u⟩
    · rfl
    · rfl
  · rfl

omit [Host] in
/-- A change is kept by both engines or by neither. -/
theorem shadows_atomically {α : Type} {x y : Operation α} {P : Workspace → Prop}
    (hxy : Tracks (Shadowed f l P) x y { w with isChanging := true }
      { w.withCaches f l with isChanging := true }) :
    (∃ a v, (atomically x).runOn w = (.ok a, v) ∧
      (atomically y).runOn (w.withCaches f l) = (.ok a, v.withCaches f l) ∧
      Shadowed f l P { v with isChanging := true } ({ v with isChanging := true }.withCaches f l)) ∨
    (∃ failure v, (atomically x).runOn w = (.error failure, v) ∧
      (atomically y).runOn (w.withCaches f l) = (.error failure, v.withCaches f l)) := by
  rw [runOn_atomically, runOn_atomically]
  rcases hxy.cases with ⟨a, v, v', hx, hy, hv⟩ | ⟨failure, v, v', hx, hy, hv⟩
  · have hsame := hv.same
    subst hsame
    have hcommit : (w.withCaches f l).isChanging = w.isChanging := rfl
    have hstore : (v.withCaches f l).store = v.store := rfl
    rw [hx, hy]
    dsimp only [settle]
    rw [hcommit, hstore]
    split
    · refine Or.inl ⟨a, _, rfl, rfl, ?_⟩
      have hchanging : ({ v with isChanging := true } : Workspace) = v := by
        rw [← hv.changing]
      exact hchanging ▸ hv
    · exact Or.inr ⟨_, _, rfl, rfl⟩
  · have hsame := hv.same
    subst hsame
    rw [hx, hy]
    exact Or.inr ⟨_, _, rfl, rfl⟩

/-- The caches are right again after a transaction, whether it went through or failed. -/
theorem follows_processOne (hsaving : e.IsSaving) (rules : List RuleDefinition)
    (hc : Coherent handles w) (hh : h ∈ handles) :
    Tracks (Follows handles f l) (e.processOne rules trigger dryRun log h)
      (Direct.processOne e rules trigger dryRun log h) w (w.withCaches f l) := by
  have hworks : Works AnyLogs h w ((e.processOne rules trigger dryRun log h).runOn w).2 :=
    works_processOne_saving hsaving h w
  have hstart : Shadowed f l (·.FieldsAgree h) { w with isChanging := true }
      { w.withCaches f l with isChanging := true } :=
    ⟨rfl, rfl, hc.agree, hc.links, hc.fields h hh⟩
  have hinside : Tracks (Shadowed f l (·.FieldsAgree h))
      (e.runTransaction h rules trigger dryRun log)
      (Direct.runTransaction e h rules trigger dryRun log)
      { w with isChanging := true } { w.withCaches f l with isChanging := true } :=
    shadows_runTransaction hsaving hstart rules
  have hrun := @runOn_processOne _ e trigger dryRun rules log h w
  have hdirect := @runOn_direct_processOne _ e trigger dryRun log rules h (w.withCaches f l)
  rcases shadows_atomically hinside with ⟨t, v, hx, hy, hv⟩ | ⟨failure, v, hx, hy⟩
  · rw [hx] at hrun
    rw [hy] at hdirect
    rw [hrun] at hworks
    refine ⟨?_, ?_⟩ <;> rw [hrun, hdirect]
    exact ⟨rfl, hc.of_works hh hworks hv.agree hv.links hv.rest⟩
  · -- The change is taken back, and with it the labels that the cache remembers.
    have hstore : v.store = w.store := by
      have hback := store_atomically_of_error (congrArg Prod.fst hx)
      rw [hx] at hback
      exact hback
    have hreread := ignores_refresh h v (v.fields.forget (v.transaction h).id) []
    have hreread' := ignores_refresh h v f l
    have hkept := (store_refresh h v).trans hstore
    have hid := (works_refresh (L := Eq) h v).ownId
    have hforgotten : ∀ (fields : FieldCache) {id : Option Id}, id = (v.transaction h).id →
        fields.forget (v.transaction h).id = fields.forget id := fun fields _ heq => by rw [heq]
    -- Whether or not the row is still there, nothing is known about the transaction any more.
    rw [hx] at hrun
    rw [hy] at hdirect
    dsimp only at hrun hdirect
    rw [runOn_discard] at hrun
    rw [hreread'] at hdirect
    dsimp only [Workspace.withCaches] at hreread
    rw [hreread] at hrun
    rcases hrefresh : (refresh h).runOn v with ⟨later | _, u⟩ <;>
      rw [hrefresh] at hrun hdirect hid hkept <;> dsimp only at hrun hdirect hid hkept <;>
      rw [hrun] at hworks <;> refine ⟨?_, ?_⟩ <;> rw [hrun, hdirect]
    · exact ⟨rfl, hc.of_forgotten hh hworks rfl hkept (hforgotten v.fields hid)⟩
    · rfl
    · exact ⟨rfl, hc.of_forgotten hh hworks rfl hkept (hforgotten v.fields hid)⟩

theorem follows_mapM (hsaving : e.IsSaving) (rules : List RuleDefinition) {batch : List Handle}
    (hbatch : ∀ h ∈ batch, h ∈ handles) (hc : Coherent handles w) :
    Tracks (Follows handles f l) (batch.mapM (e.processOne rules trigger dryRun log))
      (batch.mapM (Direct.processOne e rules trigger dryRun log)) w (w.withCaches f l) := by
  induction batch generalizing w with
  | nil => exact tracks_pure [] ⟨rfl, hc⟩
  | cons h rest ih =>
      rw [List.mapM_cons, List.mapM_cons]
      refine (follows_processOne hsaving rules hc (hbatch h List.mem_cons_self)).bind ?_
      rintro t v _ ⟨rfl, hv⟩
      refine (ih (fun k hk => hbatch k (List.mem_cons_of_mem h hk)) hv).bind fun later u s hu => ?_
      exact tracks_pure _ hu

theorem runOn_direct_process (e : Engine) (source : Source) (rules : List RuleDefinition)
    (trigger : Trigger) (dryRun log : Bool) (w : Workspace) :
    (Direct.process e (source.batch e) rules trigger dryRun log).runOn w =
      match ((source.handles e w).mapM (Direct.processOne e rules trigger dryRun log)).runOn
        ((source.opened e w).withCaches w.fields w.labels) with
      | (.ok transactions, v) =>
        let summary : RunSummary := ⟨dryRun, Vocabulary.code trigger, transactions⟩
        (.ok summary,
          { v with
            events := .runCompleted e.user summary.trigger dryRun summary.totalProcessed
              summary.totalMatched summary.failed.length :: v.events })
      | (.error failure, v) => (.error failure, v) := by
  have hopened : { w with live := w.live.insertAll (source.loaded e w.store) } =
      (source.opened e w).withCaches w.fields w.labels := rfl
  rw [Direct.process, runOn_bind, Source.runOn_batch]
  dsimp only
  rw [hopened, runOn_bind]
  generalize runOn (List.mapM (Direct.processOne e rules trigger dryRun log) _) _ = run
  rcases run with ⟨failure | transactions, v⟩
  · rfl
  · rfl

/-- Caches are invisible.  Whatever they hold at first, and whichever transactions fail on the way,
a run gives the summary of the engine without caches and leaves the same workspace apart from the
caches, which that engine does not touch: the same store, the same transactions in memory, the same
notifications.  The batch holds no number twice, other than for the same transaction, and the links
of the ledger name tags that are there. -/
theorem process_eq_direct {e : Engine} (hsaving : e.IsSaving) (source : Source)
    (rules : List RuleDefinition) (trigger : Trigger) (dryRun log : Bool) {w : Workspace}
    (hlinks : w.store.LinksResolve)
    (hsame : ∀ h ∈ source.handles e w, ∀ k ∈ source.handles e w, ∀ id,
      ((source.opened e w).transaction h).id = some id →
        ((source.opened e w).transaction k).id = some id → k = h) :
    (Direct.process e (source.batch e) rules trigger dryRun log).runOn w =
      (((e.process (source.batch e) rules trigger dryRun log).runOn w).1,
        ((e.process (source.batch e) rules trigger dryRun log).runOn w).2.withCaches w.fields
          w.labels) := by
  have hc : Coherent (source.handles e w) (source.opened e w) := by
    refine ⟨?_, hlinks, ?_, hsame⟩
    · rintro kind id found ⟨⟩
    · rintro h hh id hid field value ⟨⟩
  have hpass : Tracks (Follows (source.handles e w) w.fields w.labels)
      ((source.handles e w).mapM (e.processOne rules trigger dryRun log))
      ((source.handles e w).mapM (Direct.processOne e rules trigger dryRun log))
      (source.opened e w) ((source.opened e w).withCaches w.fields w.labels) :=
    follows_mapM hsaving rules (fun _ hh => hh) hc
  rw [runOn_process, runOn_direct_process]
  rcases hpass.cases with ⟨entries, v, _, hrun, hdirect, rfl, -⟩ |
    ⟨failure, v, _, hrun, hdirect, rfl, -⟩ <;> rw [hrun, hdirect]
  rfl

/-- An engine that saves what it changes and refuses the second transaction. -/
def refusing : Engine where
  user := 1
  isLogging := true
  observer := some (savingUnless fun t => if t.id = some 2 then some .hookFailed else none)

/-- The small ledger with caches that are wrong about the first transaction and its category. -/
def misled : Workspace :=
  SmallLedger.workspace.withCaches { values := [((1, .tags), .absent)] } [((.category, 1), none)]

end Engine

end Follows

end

namespace Engine

/-- A run over two transactions, the second of which is refused, from caches that are wrong. -/
theorem direct_of_smallLedger :
    (Direct.process refusing (return [1, 2]) (SmallLedger.store.rulesForTrigger 1 .manual) .manual
        false true).runOn misled =
      (((refusing.process (return [1, 2]) (SmallLedger.store.rulesForTrigger 1 .manual) .manual
          false).runOn misled).1,
        ((refusing.process (return [1, 2]) (SmallLedger.store.rulesForTrigger 1 .manual) .manual
          false).runOn misled).2.withCaches misled.fields misled.labels) := by
  refine process_eq_direct (e := refusing) ?_ (.held [1, 2]) _ .manual false true (w := misled)
    ?_ ?_
  · rintro _ ⟨⟩
    exact Or.inr ⟨_, rfl⟩
  · exact Store.linksResolve_of_referencesHold rfl
  · intro h hh k hk id hid hkid
    rcases List.mem_pair.1 hh with rfl | rfl <;> rcases List.mem_pair.1 hk with rfl | rfl <;>
      cases hid <;> cases hkid <;> rfl

end Engine

end Rulebook
