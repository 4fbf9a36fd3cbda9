import Mathlib
import Rulebook.Proofs.Definition.Reading
import Rulebook.Proofs.Engine.DryRun
import Rulebook.Proofs.Service.Scope

/-!
# Trying a definition

A definition can be tried on stored transactions before it is stored itself.  It is checked, the
transactions are loaded, and its rule is run on them without consequences.

A transaction that is loaded agrees with its row.  Therefore the run goes through whatever the rule
is: what fails for a transaction becomes its entry, and the transaction can be read again
(`previewDefinition_of_checked`).  So a trial can fail in front of the run only, and whether it does
is up to the check of the definition and to reading it.

Nothing is stored and nothing is printed, however a trial ends.  This needs no assumption at all on
the transactions, because logs are not written and a transaction that is read again is only read.

## Main definitions

* `Workspace.SameRecord` — nothing was stored and nothing printed.
* `Store.looksAt` — the transactions on which a definition is tried.

## Main statements

* `sameRecord_previewDefinition` — a trial leaves nothing behind.
* `previewDefinition_of_checked` — a checked definition that can be read is run on all these
  transactions.
-/

namespace Rulebook

open Program Workspace

/-! ## Nothing is stored -/

/-- The later workspace has the same rows, and nothing was printed since. -/
structure Workspace.SameRecord (w v : Workspace) : Prop where
  store : v.store = w.store
  printed : v.printed = w.printed

instance : IsPreorder Workspace SameRecord where
  refl _ := ⟨rfl, rfl⟩
  trans _ _ _ h k := ⟨k.store.trans h.store, k.printed.trans h.printed⟩

/-- A rehearsal without logs leaves no trace. -/
theorem Workspace.Rehearsed.sameRecord {w v : Workspace} (hr : Rehearsed false w v) :
    SameRecord w v where
  store := by
    obtain ⟨added, hadded, -, hnone⟩ := hr.logs
    rw [hr.store, hadded, hnone rfl]
    rfl
  printed := by
    have hprinted := congrArg Workspace.printed hr.quiet
    exact hprinted

/-- The value of a switch is read, and nothing else happens. -/
theorem runOn_setting (s : Setting) (w : Workspace) :
    (setting s).runOn w = (w.settings.findOr s.name s.standard, w) := by
  rw [setting, runOn_bind, runOn_get]
  rfl

theorem sameRecord_holdRows (rows : List (Id × Transaction)) :
    Keeps SameRecord (Engine.holdRows rows) := by
  intro w
  rw [Engine.runOn_holdRows]
  exact ⟨rfl, rfl⟩

theorem sameRecord_limitedTransactions (e : Engine) (ids : List Id) (limit : Option Nat) :
    Keeps SameRecord (e.limitedTransactions ids limit) := by
  rw [Engine.limitedTransactions]
  split
  · exact keeps_pure _
  · exact (keeps_ofExcept _).bind fun _ => keeps_get.bind fun _ => sameRecord_holdRows _

variable [Host]

/-- What fails in a preview is read again and reported. -/
theorem sameRecord_processOne (e : Engine) (rules : List RuleDefinition) (trigger : Trigger)
    (h : Handle) : Keeps SameRecord (e.processOne rules trigger true false h) := by
  have hattempt : Keeps (Rehearsed false)
      (atomically (e.runTransaction h rules trigger true false)) :=
    Engine.rehearsed_attempt h rules false
  have hdiscard : Keeps SameRecord (Engine.discard h) := by
    intro w
    rw [runOn_discard, runOn_refresh]
    split
    · exact ⟨rfl, rfl⟩
    · split <;> exact ⟨rfl, rfl⟩
  have hreport : ∀ event, Keeps SameRecord (report event) := fun event w => ⟨rfl, rfl⟩
  refine (keeps_of_runOn fun _ => rfl).bind fun t => ?_
  refine (hattempt.mono fun _ _ hr => hr.sameRecord).tryCatch fun failure => ?_
  exact hdiscard.bind fun _ => (hreport _).bind fun _ => keeps_pure _

theorem sameRecord_preview (e : Engine) {batch : Batch} (hbatch : Keeps SameRecord batch)
    (r : RuleDefinition) : Keeps SameRecord (e.preview batch r) := by
  rw [Engine.preview, Engine.process]
  refine Keeps.bind (fun _ => ⟨rfl, rfl⟩) fun _ => Keeps.bind (fun _ => ⟨rfl, rfl⟩) fun _ => ?_
  refine hbatch.bind fun handles => ?_
  refine (keeps_mapM fun h _ => sameRecord_processOne e [r] .manual h).bind fun entries => ?_
  exact Keeps.bind (fun _ => ⟨rfl, rfl⟩) fun _ => keeps_pure _

omit [Host] in
theorem sameRecord_withFreshCaches {α : Type} {x : Operation α} (hx : Keeps SameRecord x) :
    Keeps SameRecord (withFreshCaches x) := by
  intro w
  have hinside := hx { w with fields := {}, labels := [] }
  exact ⟨hinside.store, hinside.printed⟩

/-- A preview stores and prints nothing, however it ends. -/
theorem sameRecord_previewDefinition (user : Id) (transactions definition : Json) :
    Keeps SameRecord (previewDefinition user transactions definition) := by
  have hsetting : ∀ s, Keeps SameRecord (setting s) := fun s =>
    keeps_of_runOn fun w => by rw [runOn_setting]
  refine sameRecord_withFreshCaches ((keeps_ofExcept _).bind fun _ => ?_)
  refine (hsetting _).bind fun standard => (keeps_ofExcept _).bind fun ids => ?_
  refine (keeps_ofExcept _).bind fun limit => ?_
  refine ((hsetting _).bind fun _ => keeps_pure _).bind fun e => ?_
  refine (sameRecord_limitedTransactions e ids limit).bind fun handles => ?_
  exact (keeps_ofExcept _).bind fun r => sameRecord_preview e (keeps_pure handles) r

/-! ## The run of a checked definition -/

omit [Host] in
/-- The settings can be read if one of them can. -/
theorem runOn_persistingEngine_of_setting {s : Setting} {value : Json} {w : Workspace}
    (hset : w.settings.findOr s.name s.standard = .ok value) (user : Id) :
    ∃ e, (persistingEngine user).runOn w = (.ok e, w) ∧ e.user = user ∧
      e.observer = some persistChanges := by
  rw [RunRequest.runOn_persistingEngine]
  cases hsettings : w.settings with
  | object members => exact ⟨_, rfl, rfl, rfl⟩
  | _ =>
      rw [hsettings] at hset
      cases hset

/-- Numbers of rows are read as they are. -/
theorem Column.references_ints (column : String) (ids : List Id) :
    references column (.list (ids.map .int)) = .ok ids := by
  have hread : (ids.map Json.int).mapM (reference column) = .ok (ids.map some) := by
    induction ids with
    | nil => rfl
    | cons id rest ih =>
        rw [List.map_cons, List.mapM_cons, ih]
        rfl
  rw [references, Json.entries, bind_of_eq_ok rfl, bind_of_eq_ok hread, List.filterMap_map]
  exact congrArg Except.ok List.filterMap_some

omit [Host] in
/-- What is taken of a list is in the list. -/
theorem mem_of_mem_takeLimit {α : Type} {limit : Option Nat} {l : List α} {a : α}
    (h : a ∈ takeLimit limit l) : a ∈ l := by
  cases limit with
  | none => exact h
  | some n => exact List.mem_of_mem_take h

/-- The numbers of the transactions that a preview looks at: those of the user among the given
ones, by date, as many as the limit allows. -/
def Store.looksAt (s : Store) (user : Id) (ids : List Id) (limit : Option Nat) : List Id :=
  (takeLimit limit (s.transactionsInOrder user fun id _ => ids.contains id)).map (·.1)

section Loaded

variable {rows : List (Id × Transaction)} {w : Workspace}

omit [Host] in
/-- Rows that are held are in memory under their numbers and agree with what is stored. -/
theorem Engine.holdRows_of_stored (hrows : ∀ row ∈ rows, row ∈ w.store.transactions.rows) :
    ∃ handles v, (holdRows rows).runOn w = (.ok handles, v) ∧
      (handles.map fun h => (v.transaction h).id) = rows.map (some ·.1) ∧
      ∀ h ∈ handles, v.live.has h = true ∧ (v.transaction h).IsCurrent v.store := by
  let loaded := rows.map fun row => LiveTransaction.ofRowWithReferences w.store row.1 row.2
  let v : Workspace := { w with live := w.live.insertAll loaded }
  have hheld : ((List.range rows.length).map fun (i : Nat) => v.transaction (w.live.nextId + i)) =
      loaded := by
    refine List.ext_getElem ?_ fun i hi hi' => ?_
    · rw [List.length_map, List.length_range, List.length_map]
    · rw [List.getElem_map, List.getElem_range, Workspace.transaction,
        Table.find?_insertAll_new _ _ hi']
      rfl
  refine ⟨_, v, Engine.runOn_holdRows rows w, ?_, fun h hh => ?_⟩
  · rw [List.map_map]
    have hids := congrArg (List.map LiveTransaction.id) hheld
    rw [List.map_map, List.map_map] at hids
    exact hids
  · obtain ⟨i, hi, rfl⟩ := List.mem_map.1 hh
    have hmem : v.transaction (w.live.nextId + i) ∈ loaded := by
      rw [← hheld]
      exact List.mem_map_of_mem hi
    obtain ⟨⟨id, t⟩, hrow, hloaded⟩ := List.mem_map.1 hmem
    have hid : (v.transaction (w.live.nextId + i)).id = some id := by
      rw [← hloaded]
      rfl
    refine ⟨live_has_of_id hid, ?_⟩
    rw [← hloaded]
    exact Source.isCurrent_ofRowWithReferences (hrows _ hrow)

/-- A preview over transactions that agree with their rows goes through, with an entry for each of
them. -/
theorem Engine.preview_of_current {e : Engine} (hsaves : e.observer = some persistChanges)
    {handles : List Handle}
    (hcurrent : ∀ h ∈ handles, w.live.has h = true ∧ (w.transaction h).IsCurrent w.store)
    (r : RuleDefinition) :
    ∃ summary v, (e.preview (return handles) r).runOn w = (.ok summary, v) ∧
      summary.transactions.map (·.transaction) = handles.map fun h => (w.transaction h).id := by
  have hobserver : ∀ observer, e.observer = some observer →
      ∀ h summary, Keeps StillThere (observer h summary) := by
    intro observer hsome h summary
    rw [hsaves] at hsome
    cases hsome
    exact (works_persistChanges (L := AnyLogs) h summary).mono fun _ _ hw => hw.stillThere
  let start := (Source.held handles).opened e w
  have hstart : ∀ h ∈ handles, start.live.has h = true ∧ (start.transaction h).IsCurrent start.store :=
    hcurrent
  have hrows : ∀ h ∈ handles, start.HasRowIfSaved h := by
    intro h hh id hid
    obtain ⟨row, hrow, -⟩ := (hstart h hh).2 id hid
    exact Table.has_of_find? hrow
  have hpass : ∃ transactions u,
      (handles.mapM (e.processOne [r] .manual true false)).runOn start = (.ok transactions, u) ∧
      Rehearsed false start u :=
    Engine.rehearsed_mapM [r] false hstart
  obtain ⟨transactions, u, hrun, -⟩ := hpass
  have hattempts : (e.attempts [r] .manual true false handles start).any Attempt.escapes = false ∧
      (e.attempts [r] .manual true false handles start).map (·.entry.transaction) =
        handles.map fun h => (start.transaction h).id :=
    Engine.escapes_attempts hobserver hrows
  obtain ⟨hnone, hnumbers⟩ := hattempts
  have hentries := @Engine.result_mapM _ e [r] .manual true false handles start
  rw [hrun, hnone, if_neg Bool.false_ne_true] at hentries
  have hwhole := Engine.runOn_process e (.held handles) [r] .manual true false w
  have hhandles : (Source.held handles).handles e w = handles := rfl
  rw [hhandles, hrun] at hwhole
  dsimp only at hwhole
  rw [Except.ok.inj hentries] at hwhole
  refine ⟨_, _, hwhole, ?_⟩
  rw [List.map_map]
  exact hnumbers

omit [Host] in
/-- The transactions with the given numbers are held, by date and as many as the limit allows. -/
theorem Engine.limitedTransactions_of_fits (e : Engine) {ids : List Id}
    (hfits : ∀ id ∈ ids, Column.fits id = true) (limit : Option Nat) (w : Workspace) :
    ∃ handles v, (e.limitedTransactions ids limit).runOn w = (.ok handles, v) ∧
      (handles.map fun h => (v.transaction h).id) =
        (w.store.looksAt e.user ids limit).map some ∧
      ∀ h ∈ handles, v.live.has h = true ∧ (v.transaction h).IsCurrent v.store := by
  rw [limitedTransactions]
  split
  · next hnone =>
    refine ⟨[], w, rfl, ?_, List.forall_mem_nil _⟩
    rw [Store.looksAt, hnone, takeLimit, List.take_zero]
    rfl
  · have hrows : ∀ row ∈ takeLimit limit (w.store.transactionsInOrder e.user fun id _ =>
        ids.contains id), row ∈ w.store.transactions.rows := fun row hrow =>
      Source.mem_rows_of_mem_transactionsInOrder (mem_of_mem_takeLimit hrow)
    rw [runOn_bind, Column.allFit_eq_ok.2 ⟨rfl, hfits⟩, runOn_ofExcept]
    dsimp only
    rw [runOn_bind, runOn_get]
    dsimp only
    obtain ⟨handles, v, hrun, hids, hcurrent⟩ := holdRows_of_stored hrows
    refine ⟨handles, v, hrun, ?_, hcurrent⟩
    rw [hids, Store.looksAt, List.map_map]
    rfl

end Loaded

section Definition

variable {d : Json} {w : Workspace}

/-- What the check does not accept ends a preview before it begins. -/
theorem previewDefinition_of_rejected {failure : Failure} (hcheck : checkDefinition d = .error failure)
    (user : Id) (transactions : Json) (w : Workspace) :
    (previewDefinition user transactions d).runOn w = (.error failure, w) := by
  rw [previewDefinition, withFreshCaches, runOn_of, runOn_bind, runOn_ofExcept, hcheck]

/-- A checked definition that can be read is run on the transactions that a preview looks at, each
of which has its entry. -/
theorem previewDefinition_of_checked (user : Id) (hcheck : checkDefinition d = .ok ())
    {r : RuleDefinition} (hread : RuleDefinition.ofPayload d = .ok r) {standard : Json}
    (hset : w.settings.findOr Setting.previewLimit.name Setting.previewLimit.standard = .ok standard)
    {limit : Option Nat} (hlimit : readLimit standard = .ok limit) {ids : List Id}
    (hfits : ∀ id ∈ ids, Column.fits id = true) :
    ∃ summary v, (previewDefinition user (.list (ids.map .int)) d).runOn w = (.ok summary, v) ∧
      summary.transactions.map (·.transaction) = (w.store.looksAt user ids limit).map some := by
  have hsetting : (setting .previewLimit).runOn { w with fields := {}, labels := [] } =
      (.ok standard, { w with fields := {}, labels := [] }) := by
    rw [runOn_setting]
    exact congrArg (·, _) hset
  obtain ⟨e, hengine, rfl, hsaves⟩ := runOn_persistingEngine_of_setting
    (w := { w with fields := {}, labels := [] }) hset user
  obtain ⟨handles, u, hheld, hids, hcurrent⟩ :=
    e.limitedTransactions_of_fits hfits limit { w with fields := {}, labels := [] }
  obtain ⟨summary, v, hrun, hentries⟩ := Engine.preview_of_current hsaves hcurrent r
  refine ⟨summary, { v with fields := w.fields, labels := w.labels }, ?_, hentries.trans hids⟩
  rw [previewDefinition, withFreshCaches, runOn_of, runOn_bind, runOn_ofExcept, hcheck]
  dsimp only
  rw [runOn_bind, hsetting]
  dsimp only
  rw [runOn_bind, runOn_ofExcept, Column.references_ints]
  dsimp only
  rw [runOn_bind, runOn_ofExcept, hlimit]
  dsimp only
  rw [runOn_bind, hengine]
  dsimp only
  rw [runOn_bind, hheld]
  dsimp only
  rw [runOn_bind, runOn_ofExcept, hread]
  dsimp only
  rw [hrun]

end Definition

end Rulebook
