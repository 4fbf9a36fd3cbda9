import Rulebook.Proofs.Engine.Turns

/-!
# What a failed transaction is left as

That the change of a failed transaction is taken back is a matter of the store.  What actions set in
memory is a second matter: nothing takes it back by itself, and the transaction is read again from
its row instead.  This overwrites whatever the attempt did to it, whichever fields were set and
however far the rules had come.

It also needs a row.  A transaction that was never saved has none, so it is left as the attempt left
it, with everything that the actions set.  Among this may be a reference to a label that the attempt
added and that is gone again (`unsaved_keeps_lost_label`).

A batch may name a transaction more than once, and then its last turn decides.  The statement about
a run therefore takes the batch apart at one turn.

## Main definitions

* `Engine.reached` — the workspace with which a turn begins.

## Main statements

* `Engine.read_again_processOne` — what a failed turn leaves of its transaction.
* `Engine.failed_is_read_again` — the same, seen from the end of the run.
-/

namespace Rulebook

open Program Workspace

section

/-- Reading a transaction again leaves it as its row says, or as it was if it has no number. -/
theorem refresh_eq_ok {h : Handle} {w v : Workspace} (hrun : (refresh h).runOn w = (.ok (), v)) :
    v.store = w.store ∧
      (∀ id, (w.transaction h).id = some id →
        ∃ row, w.store.transactions.find? id = some row ∧ v.transaction h = .ofRow id row) ∧
      ((w.transaction h).id = none → v.transaction h = w.transaction h) := by
  rw [runOn_refresh] at hrun
  cases hid : (w.transaction h).id with
  | none =>
      rw [hid] at hrun
      cases hrun
      refine ⟨rfl, ?_, fun _ => rfl⟩
      rintro n ⟨⟩
  | some id =>
      rw [hid] at hrun
      dsimp only at hrun
      cases hrow : w.store.transactions.find? id with
      | none =>
          rw [hrow] at hrun
          cases hrun
      | some row =>
          rw [hrow] at hrun
          cases hrun
          refine ⟨rfl, fun n hn => ?_, fun hn => nomatch hn⟩
          cases hn
          exact ⟨row, hrow, transaction_update_self (live_has_of_id hid) _⟩

namespace Engine

variable {e : Engine} {rules : List RuleDefinition} {trigger : Trigger} {dryRun log : Bool}
  {h : Handle} {w v : Workspace}

variable [Host]

/-- A failed attempt ends with the store of its beginning. -/
theorem exists_of_failed (hfailed : (e.attempt rules trigger dryRun log h w).failed = true) :
    ∃ failure u, (atomically (e.runTransaction h rules trigger dryRun log)).runOn w =
      (.error failure, u) ∧ u.store = w.store := by
  rw [attempt] at hfailed
  rcases hrun : (atomically (e.runTransaction h rules trigger dryRun log)).runOn w with
    ⟨failure | t, u⟩ <;> rw [hrun] at hfailed
  · refine ⟨failure, u, rfl, ?_⟩
    have hback := store_atomically_of_error (congrArg Prod.fst hrun)
    rwa [hrun] at hback
  · cases hfailed

/-- The workspace with which the turn after the given ones begins. -/
def reached (e : Engine) (rules : List RuleDefinition) (trigger : Trigger) (dryRun log : Bool)
    (before : List Handle) (w : Workspace) : Workspace :=
  ((before.mapM (e.processOne rules trigger dryRun log)).runOn w).2

/-- A pass taken apart at one turn. -/
theorem runOn_mapM_append_cons {before after : List Handle} {entries : List TransactionSummary}
    (hrun : ((before ++ h :: after).mapM (e.processOne rules trigger dryRun log)).runOn w =
      (.ok entries, v)) :
    ∃ t u, (e.processOne rules trigger dryRun log h).runOn
        (e.reached rules trigger dryRun log before w) = (.ok t, u) ∧
      e.reached rules trigger dryRun log after u = v := by
  rw [List.mapM_append, List.mapM_cons] at hrun
  obtain ⟨first, u, hbefore, hrun⟩ := runOn_bind_eq_ok hrun
  obtain ⟨rest, v', hrest, hrun⟩ := runOn_bind_eq_ok hrun
  cases hrun
  obtain ⟨t, u', hturn, hrest⟩ := runOn_bind_eq_ok hrest
  obtain ⟨later, v', hafter, hrest⟩ := runOn_bind_eq_ok hrest
  cases hrest
  refine ⟨t, u', ?_, congrArg Prod.snd hafter⟩
  rw [reached, hbefore]
  exact hturn

section Observed

variable (hobserver : ∀ observer, e.observer = some observer →
  ∀ h summary, Keeps (Works AnyLogs h) (observer h summary))

include hobserver

/-- A failed turn leaves its transaction as the row says that it began with.  A transaction without
a row is left as the attempt left it. -/
theorem read_again_processOne {t : TransactionSummary}
    (hrun : (e.processOne rules trigger dryRun log h).runOn w = (.ok t, v))
    (hfailed : (e.attempt rules trigger dryRun log h w).failed = true) :
    (∀ id, (w.transaction h).id = some id →
        ∃ row, w.store.transactions.find? id = some row ∧ v.transaction h = .ofRow id row) ∧
      ((w.transaction h).id = none → v.transaction h =
        ((atomically (e.runTransaction h rules trigger dryRun log)).runOn w).2.transaction h) := by
  obtain ⟨failure, u, hattempt, hstore⟩ := exists_of_failed hfailed
  have hworks : Works AnyLogs h w
      ((atomically (e.runTransaction h rules trigger dryRun log)).runOn w).2 :=
    works_attempt (fun _ _ _ _ _ => trivial) rules log h
      (fun observer summary hsome _ => hobserver observer hsome h summary) w
  rw [runOn_processOne, hattempt] at hrun
  rw [hattempt] at hworks ⊢
  dsimp only at hrun
  rcases hdiscard : (discard h).runOn u with ⟨failure' | _, x⟩ <;> rw [hdiscard] at hrun <;>
    cases hrun
  obtain ⟨-, hsaved, hunsaved⟩ := refresh_eq_ok hdiscard
  rw [← hworks.ownId, ← hstore]
  exact ⟨hsaved, hunsaved⟩

/-- No edit of a failed attempt survives in memory if the transaction has a row.  Take any run whose
observer leaves other transactions alone, over any batch in which the transactions with numbers have
rows, and any turn in it that is the last one of its transaction.  If the attempt fails, at whatever
rule or action, then after the run the transaction is as it would be loaded from the row that its
turn began with, and this is the row before the run unless an earlier transaction of the batch has
the same number.  A transaction without a row is left as the attempt left it. -/
theorem failed_is_read_again (source : Source) (rules : List RuleDefinition) (trigger : Trigger)
    (dryRun log : Bool) {w : Workspace} (hrows : source.RowsExist w) :
    ∃ summary v,
      (e.process (source.batch e) rules trigger dryRun log).runOn w = (.ok summary, v) ∧
      ∀ before h after u, source.handles e w = before ++ h :: after → h ∉ after →
        e.reached rules trigger dryRun log before (source.opened e w) = u →
        (e.attempt rules trigger dryRun log h u).failed = true →
        (∀ id, ((source.opened e w).transaction h).id = some id →
          ∃ row, v.transaction h = .ofRow id row ∧ u.store.transactions.find? id = some row ∧
            ((∀ k ∈ before, ((source.opened e w).transaction k).id ≠ some id) →
              w.store.transactions.find? id = some row)) ∧
        (((source.opened e w).transaction h).id = none → v.transaction h =
          ((atomically (e.runTransaction h rules trigger dryRun log)).runOn u).2.transaction h) := by
  obtain ⟨summary, v, hrun, -⟩ := process_isolates
    (fun observer hsome h s => (hobserver observer hsome h s).mono fun _ _ hw => hw.stillThere)
    source rules trigger dryRun log hrows
  refine ⟨summary, v, hrun, ?_⟩
  rintro before h after _ hhandles hlast rfl hfailed
  rw [runOn_process] at hrun
  rcases hpass : ((source.handles e w).mapM (e.processOne rules trigger dryRun log)).runOn
      (source.opened e w) with ⟨failure | entries, x⟩ <;> rw [hpass] at hrun <;> cases hrun
  rw [hhandles] at hpass
  obtain ⟨t, u, hturn, rfl⟩ := runOn_mapM_append_cons hpass
  have hearlier : WorksAmong before (source.opened e w)
      (e.reached rules trigger dryRun log before (source.opened e w)) :=
    worksAmong_mapM hobserver before _
  have hlater : WorksAmong after u (e.reached rules trigger dryRun log after u) :=
    worksAmong_mapM hobserver after u
  obtain ⟨hsaved, hunsaved⟩ := read_again_processOne hobserver hturn hfailed
  rw [hearlier.ids] at hsaved hunsaved
  refine ⟨fun id hid => ?_, fun hid => (hlater.others h hlast).trans (hunsaved hid)⟩
  obtain ⟨row, hrow, hreread⟩ := hsaved id hid
  refine ⟨row, (hlater.others h hlast).trans hreread, hrow, fun hfirst => ?_⟩
  exact (hearlier.rows id hfirst).symm.trans hrow

end Observed

/-- A rule that asks for a category that is not there. -/
def addingRule : RuleDefinition where
  id := .int 1
  name := .text "New"
  trigger := .text "manual"
  stopProcessing := .bool false
  groups := []
  actions :=
    [⟨some 1, some 1, .text "create_category_if_not_exists", .text "New", .int 0, .bool false⟩]

end Engine

end

namespace Engine

/-- A run whose observer refuses every transaction leaves the first one as in its row. -/
theorem read_again_in_smallLedger :
    ∃ summary v,
      (Engine.process { user := 1, isLogging := true, observer := some (recorder true) }
          (return [1, 2]) [addingRule] .manual false).runOn SmallLedger.workspace =
        (.ok summary, v) ∧
      v.transaction 1 = .ofRow 1 SmallLedger.transaction := by
  have hrows : (Source.held [1, 2]).RowsExist SmallLedger.workspace := by
    intro h hh id hid
    rcases List.mem_pair.1 hh with rfl | rfl <;> cases hid <;> rfl
  obtain ⟨summary, v, hrun, hturns⟩ := failed_is_read_again
    (e := { user := 1, isLogging := true, observer := some (recorder true) })
    (by
      rintro _ ⟨⟩ h summary w
      exact ⟨rfl, rfl, fun _ _ => rfl, rfl, fun _ _ _ => rfl, Std.Refl.refl _⟩)
    (.held [1, 2]) [addingRule] .manual false true hrows
  obtain ⟨hsaved, -⟩ := hturns [] 1 [2] _ rfl (by decide) rfl (by decide +kernel)
  obtain ⟨row, hread, -, hfirst⟩ := hsaved 1 rfl
  have hrow : SmallLedger.store.transactions.find? 1 = some row := hfirst fun _ hk => nomatch hk
  cases hrow
  exact ⟨summary, v, hrun, hread⟩

/-- The same run over a transaction that was never saved.  Its category was added by the attempt and
is gone again, and the transaction still refers to it. -/
theorem unsaved_keeps_lost_label :
    let run := (Engine.process { user := 1, isLogging := true, observer := some (recorder true) }
        (return [1]) [addingRule] .manual false).runOn
      { SmallLedger.workspace with
        live := Table.insert {} { LiveTransaction.blank with account := .byId (some 1) } }
    run.1.toOption.map (fun summary => summary.transactions.map (·.error)) =
        some [some Failure.hookFailed.message] ∧
      (run.2.transaction 1).category = .known 2 ⟨1, "New", createdDescription, none⟩ ∧
      run.2.store.categories.find? 2 = none := by
  decide +kernel

end Engine

end Rulebook
