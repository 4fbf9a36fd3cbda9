import Rulebook.Proofs.Engine.AuditTrail
import Rulebook.Proofs.Engine.Inversion

/-!
# Attempts

What a run does for one transaction is an attempt: it goes through or it fails, and a run reports
the failure and goes on.  That the run goes on is not a matter of course, because reporting a
failure is work as well.  The transaction in memory is read again from its row, and when the row is
gone there is nothing to read.  Then the run as a whole ends, and no summary is left of the
transactions before.

`Engine.result_process` says exactly what a run gives, for every observer and every batch: the
entries of the attempts in order, or the failure of reading again as soon as one of them cannot be
reported.  `Engine.process_isolates` is what is left of it when rows are not lost.

There is a second gap between attempts and summaries.  A failure is remembered by its words, and a
summary lists a transaction as failed if there are words (`TransactionSummary.isFailed`).  A
failure without words has an entry like any other but is not listed.

## Main definitions

* `Attempt` — what became of the attempt at a transaction.
* `Engine.attempts` — the attempts of a pass, each from where the transaction before left things.
* `Workspace.StillThere` — rows of transactions are not lost.

## Main statements

* `Engine.result_process` — what a run gives.
* `Engine.process_isolates` — a run reports every transaction and lists those that failed.
-/

namespace Rulebook

open Program Workspace

section

/-! ## Attempts -/

/-- What became of the attempt at a transaction, before a failure is made an entry. -/
structure Attempt where
  /-- The number of the transaction. -/
  transaction : Option Id
  result : Except Failure TransactionSummary
  /-- Whether the transaction has a number afterwards, but no row. -/
  isLost : Bool

namespace Attempt

/-- Whether the attempt failed. -/
def failed (a : Attempt) : Bool :=
  match a.result with
  | .ok _ => false
  | .error _ => true

/-- Whether the failure of the attempt cannot be reported: there is no row to read again. -/
def escapes (a : Attempt) : Bool := a.failed && a.isLost

/-- Whether the attempt failed with words. -/
def complains (a : Attempt) : Bool :=
  match a.result with
  | .ok _ => false
  | .error failure => failure.message != ""

/-- The entry for the attempt. -/
def entry (a : Attempt) : TransactionSummary :=
  match a.result with
  | .ok t => t
  | .error failure => { transaction := a.transaction, error := some failure.message }

end Attempt

variable [Host]

namespace Engine

variable (e : Engine) (rules : List RuleDefinition) (trigger : Trigger) (dryRun log : Bool)

/-- The rules for a transaction and the observer, as one change. -/
def attempt (h : Handle) (w : Workspace) : Attempt :=
  let (result, v) := (atomically (e.runTransaction h rules trigger dryRun log)).runOn w
  ⟨(w.transaction h).id, result, (v.transaction h).id.any fun id => !v.store.transactions.has id⟩

/-- The attempts of a pass over transactions.  Each starts from the workspace that is left once the
one before was reported. -/
def attempts : List Handle → Workspace → List Attempt
  | [], _ => []
  | h :: rest, w =>
    e.attempt rules trigger dryRun log h w ::
      attempts rest ((e.processOne rules trigger dryRun log h).runOn w).2

@[simp] theorem length_attempts (handles : List Handle) (w : Workspace) :
    (e.attempts rules trigger dryRun log handles w).length = handles.length := by
  induction handles generalizing w with
  | nil => rfl
  | cons h rest ih => exact congrArg (· + 1) (ih _)

end Engine

/-! ## What a run gives -/

omit [Host] in
/-- Reading a transaction again fails exactly when it has a number but no row. -/
theorem result_refresh (h : Handle) (w : Workspace) :
    ((refresh h).runOn w).1 =
      if (w.transaction h).id.any fun id => !w.store.transactions.has id then
        .error (.missingRow .transaction)
      else .ok () := by
  rw [runOn_refresh]
  cases (w.transaction h).id with
  | none => rfl
  | some id =>
      rw [Option.any_some, Table.has]
      dsimp only
      cases w.store.transactions.find? id <;> rfl

namespace Engine

variable {e : Engine} {rules : List RuleDefinition} {trigger : Trigger} {dryRun log : Bool}

/-- An attempt that fails is reported, if it can be. -/
theorem result_processOne (h : Handle) (w : Workspace) :
    ((e.processOne rules trigger dryRun log h).runOn w).1 =
      if (e.attempt rules trigger dryRun log h w).escapes then .error (.missingRow .transaction)
      else .ok (e.attempt rules trigger dryRun log h w).entry := by
  rw [runOn_processOne, attempt]
  rcases (atomically (e.runTransaction h rules trigger dryRun log)).runOn w with ⟨failure | t, v⟩
  · have hdiscard : ((discard h).runOn v).1 = _ := result_refresh h _
    change _ = if (v.transaction h).id.any fun id => !v.store.transactions.has id then
      Except.error (Failure.missingRow .transaction) else .ok () at hdiscard
    simp only [Attempt.escapes, Attempt.failed, Attempt.entry, Bool.true_and]
    rcases hrun : (discard h).runOn v with ⟨failure' | _, u⟩ <;> rw [hrun] at hdiscard <;>
      split at hdiscard <;> cases hdiscard
    · next hlost => rw [if_pos hlost]
    · next hkept => rw [if_neg hkept]
  · rfl

/-- A pass over transactions ends with the first failure that cannot be reported. -/
theorem result_mapM (handles : List Handle) (w : Workspace) :
    ((handles.mapM (e.processOne rules trigger dryRun log)).runOn w).1 =
      if (e.attempts rules trigger dryRun log handles w).any Attempt.escapes then
        .error (.missingRow .transaction)
      else .ok ((e.attempts rules trigger dryRun log handles w).map Attempt.entry) := by
  induction handles generalizing w with
  | nil => rfl
  | cons h rest ih =>
      have hfirst := @result_processOne _ e rules trigger dryRun log h w
      rw [List.mapM_cons, runOn_bind, attempts, List.any_cons, List.map_cons]
      rcases hrun : (e.processOne rules trigger dryRun log h).runOn w with ⟨failure | t, u⟩ <;>
        rw [hrun] at hfirst <;> split at hfirst <;> cases hfirst
      · next hescapes => rw [hescapes, Bool.true_or, if_pos rfl]
      · next hkept =>
        have hrest := ih u
        rw [Bool.not_eq_true] at hkept
        rw [hkept, Bool.false_or]
        dsimp only
        rw [runOn_bind]
        rcases hlater : (rest.mapM (e.processOne rules trigger dryRun log)).runOn u with
          ⟨failure | later, v⟩ <;>
          rw [hlater] at hrest <;> split at hrest <;> cases hrest
        · next hescapes => rw [if_pos hescapes]
        · next hnone => rw [if_neg hnone]; rfl

/-- What a run gives, for every observer: the entries of all attempts in order, unless the failure
of one of them cannot be reported. -/
theorem result_process (e : Engine) (source : Source) (rules : List RuleDefinition)
    (trigger : Trigger) (dryRun log : Bool) (w : Workspace) :
    ((e.process (source.batch e) rules trigger dryRun log).runOn w).1 =
      if (e.attempts rules trigger dryRun log (source.handles e w) (source.opened e w)).any
          Attempt.escapes then
        .error (.missingRow .transaction)
      else
        .ok ⟨dryRun, Vocabulary.code trigger,
          (e.attempts rules trigger dryRun log (source.handles e w)
            (source.opened e w)).map Attempt.entry⟩ := by
  have hpass := @result_mapM _ e rules trigger dryRun log (source.handles e w) (source.opened e w)
  rw [runOn_process]
  rcases hrun : ((source.handles e w).mapM (e.processOne rules trigger dryRun log)).runOn
      (source.opened e w) with ⟨failure | transactions, v⟩ <;>
    rw [hrun] at hpass <;> split at hpass <;> cases hpass
  · next hescapes => rw [if_pos hescapes]
  · next hnone => rw [if_neg hnone]

end Engine

/-! ## Rows that are not lost -/

/-- Transactions in memory keep their numbers, and rows of transactions are still there. -/
structure Workspace.StillThere (w v : Workspace) : Prop where
  ids : ∀ k, (v.transaction k).id = (w.transaction k).id
  rows : ∀ id, w.store.transactions.has id = true → v.store.transactions.has id = true

namespace Workspace

instance : IsPreorder Workspace StillThere where
  refl _ := ⟨fun _ => rfl, fun _ => id⟩
  trans _ _ _ h k := ⟨fun n => (k.ids n).trans (h.ids n), fun id hid => k.rows id (h.rows id hid)⟩

omit [Host] in
theorem Works.stillThere {L : Table Log → Table Log → Prop} {h : Handle} {w v : Workspace}
    (hw : Works L h w v) : StillThere w v :=
  ⟨hw.sameNumbers.ids, hw.sameNumbers.rows⟩

/-- What a transaction needs for its failure to be reported. -/
def HasRowIfSaved (w : Workspace) (h : Handle) : Prop :=
  ∀ id, (w.transaction h).id = some id → w.store.transactions.has id = true

omit [Host] in
theorem StillThere.hasRowIfSaved {w v : Workspace} {h : Handle} (hv : StillThere w v)
    (hrow : w.HasRowIfSaved h) : v.HasRowIfSaved h := by
  intro id hid
  rw [hv.ids] at hid
  exact hv.rows id (hrow id hid)

omit [Host] in
/-- A change that fails as a whole leaves the rows of its beginning. -/
theorem stillThere_atomically {α : Type} {x : Operation α} (hx : Keeps StillThere x) :
    Keeps StillThere (atomically x) := by
  intro w
  have hinside : StillThere { w with isChanging := true }
      (x.runOn { w with isChanging := true }).2 :=
    hx _
  rw [runOn_atomically, settle.eq_def]
  split
  · split
    · exact ⟨hinside.ids, hinside.rows⟩
    · exact ⟨hinside.ids, fun _ => id⟩
  · exact ⟨hinside.ids, fun _ => id⟩

end Workspace

namespace Engine

/-- The entry for an attempt has the number of the transaction. -/
theorem transaction_entry_attempt {e : Engine} {rules : List RuleDefinition} {trigger : Trigger}
    {dryRun log : Bool} (h : Handle) (w : Workspace) :
    (e.attempt rules trigger dryRun log h w).entry.transaction = (w.transaction h).id := by
  rw [attempt]
  rcases hrun : (atomically (e.runTransaction h rules trigger dryRun log)).runOn w with
    ⟨failure | t, v⟩
  · rfl
  · obtain ⟨u, hinside, -, -⟩ := atomically_eq_ok hrun
    obtain ⟨_, outcomes, _, -, -, -, rfl⟩ := runTransaction_eq_ok hinside
    rfl

section Reported

variable {e : Engine} {rules : List RuleDefinition} {trigger : Trigger} {dryRun log : Bool}
  (hobserver : ∀ observer, e.observer = some observer →
    ∀ h summary, Keeps StillThere (observer h summary))

include hobserver

theorem stillThere_attempt (h : Handle) :
    Keeps StillThere (atomically (e.runTransaction h rules trigger dryRun log)) := by
  have hrules : Keeps (Works AnyLogs h) (e.runRules h trigger dryRun log rules) :=
    works_runRules (fun _ _ _ _ _ => trivial) h log rules
  refine stillThere_atomically (keeps_runTransaction ?_ (hrules.mono fun _ _ hw => hw.stillThere) ?_)
  · exact fun _ _ hl => (hl.works (L := AnyLogs)).stillThere
  · exact fun observer summary hsome _ => hobserver observer hsome h summary

theorem stillThere_processOne (h : Handle) :
    Keeps StillThere (e.processOne rules trigger dryRun log h) := by
  have hlooks : ∀ {w v : Workspace}, Looks h w v → StillThere w v :=
    fun hl => (hl.works (L := AnyLogs)).stillThere
  rw [processOne]
  refine ((looks_transaction h).mono fun _ _ => hlooks).bind fun t => ?_
  refine (stillThere_attempt hobserver h).tryCatch fun failure => ?_
  refine ((works_discard (L := AnyLogs) h).mono fun _ _ hw => hw.stillThere).bind fun _ => ?_
  exact ((looks_report _).mono fun _ _ => hlooks).bind fun _ => keeps_pure _

/-- The failure of an attempt at a transaction with a row can be reported. -/
theorem escapes_attempt {h : Handle} {w : Workspace} (hrow : w.HasRowIfSaved h) :
    (e.attempt rules trigger dryRun log h w).escapes = false := by
  have hkept : StillThere w
      ((atomically (e.runTransaction h rules trigger dryRun log)).runOn w).2 :=
    stillThere_attempt hobserver h w
  rw [attempt]
  rcases hrun : (atomically (e.runTransaction h rules trigger dryRun log)).runOn w with
    ⟨failure | t, v⟩ <;> rw [hrun] at hkept
  · have hthere := hkept.hasRowIfSaved hrow
    simp only [Attempt.escapes, Attempt.failed, Bool.true_and]
    rw [Option.any_eq_false]
    intro id hid
    rw [hthere id hid]
    rfl
  · rfl

/-- The same of all attempts of a pass; every entry has the number of its transaction. -/
theorem escapes_attempts {handles : List Handle} {w : Workspace}
    (hrows : ∀ h ∈ handles, w.HasRowIfSaved h) :
    (e.attempts rules trigger dryRun log handles w).any Attempt.escapes = false ∧
      (e.attempts rules trigger dryRun log handles w).map (·.entry.transaction) =
        handles.map fun h => (w.transaction h).id := by
  induction handles generalizing w with
  | nil => exact ⟨rfl, rfl⟩
  | cons h rest ih =>
      have hstep : StillThere w ((e.processOne rules trigger dryRun log h).runOn w).2 :=
        stillThere_processOne hobserver h w
      have hkept : (e.attempt rules trigger dryRun log h w).escapes = false :=
        escapes_attempt hobserver (hrows h List.mem_cons_self)
      obtain ⟨hrest, hentries⟩ := ih fun k hk =>
        hstep.hasRowIfSaved (hrows k (List.mem_cons_of_mem h hk))
      simp only [hstep.ids] at hentries
      rw [attempts, List.any_cons, List.map_cons, hkept, hrest,
        transaction_entry_attempt, hentries]
      exact ⟨rfl, rfl⟩

/-- A run over transactions whose rows are there gives the entries of all attempts. -/
theorem process_gives_entries (source : Source) (rules : List RuleDefinition) (trigger : Trigger)
    (dryRun log : Bool) {w : Workspace} (hrows : source.RowsExist w) :
    ∃ v, (e.process (source.batch e) rules trigger dryRun log).runOn w =
      (.ok ⟨dryRun, Vocabulary.code trigger,
        (e.attempts rules trigger dryRun log (source.handles e w) (source.opened e w)).map
          Attempt.entry⟩, v) := by
  have hopened : ∀ h ∈ source.handles e w, (source.opened e w).HasRowIfSaved h :=
    fun h hh id hid => Source.rows_opened hrows hh hid
  have hnone : (e.attempts rules trigger dryRun log (source.handles e w)
      (source.opened e w)).any Attempt.escapes = false := (escapes_attempts hobserver hopened).1
  have hresult := result_process e source rules trigger dryRun log w
  rw [hnone, if_neg Bool.false_ne_true] at hresult
  exact ⟨_, Prod.ext hresult rfl⟩

end Reported

/-- The entries that a summary lists as failed are those of attempts that failed with words. -/
theorem isFailed_entry_attempt {e : Engine} {rules : List RuleDefinition} {trigger : Trigger}
    {dryRun log : Bool} (h : Handle) (w : Workspace) :
    (e.attempt rules trigger dryRun log h w).entry.isFailed =
      (e.attempt rules trigger dryRun log h w).complains := by
  rw [attempt]
  rcases hrun : (atomically (e.runTransaction h rules trigger dryRun log)).runOn w with
    ⟨failure | t, v⟩
  · rfl
  · have hgives := gives_atomically (gives_runTransaction (gives_true _)) _ _ _ hrun
    simp [Attempt.entry, Attempt.complains, TransactionSummary.isFailed, hgives.2.1]

theorem failed_attempts {e : Engine} {rules : List RuleDefinition} {trigger : Trigger}
    {dryRun log : Bool} (handles : List Handle) (w : Workspace) :
    ((e.attempts rules trigger dryRun log handles w).map Attempt.entry).filter
        TransactionSummary.isFailed =
      ((e.attempts rules trigger dryRun log handles w).filter Attempt.complains).map
        Attempt.entry := by
  induction handles generalizing w with
  | nil => rfl
  | cons h rest ih =>
      rw [attempts, List.map_cons, List.filter_cons, List.filter_cons, isFailed_entry_attempt, ih]
      split <;> rfl

/-- A run reports every transaction.  If rows of transactions are there and the observer does not
remove them, then a run over any transactions, whoever owns them, gives a summary; it has one entry
for each transaction, in order, made of what became of the attempt at it.  Every transaction is
attempted, whatever became of those before, and the summary lists as failed those whose attempt
failed with words. -/
theorem process_isolates {e : Engine}
    (hobserver : ∀ observer, e.observer = some observer →
      ∀ h summary, Keeps StillThere (observer h summary))
    (source : Source) (rules : List RuleDefinition) (trigger : Trigger) (dryRun log : Bool)
    {w : Workspace} (hrows : source.RowsExist w) :
    ∃ summary v,
      (e.process (source.batch e) rules trigger dryRun log).runOn w = (.ok summary, v) ∧
      summary.transactions.map (·.transaction) =
        (source.handles e w).map (fun h => ((source.opened e w).transaction h).id) ∧
      summary.transactions =
        (e.attempts rules trigger dryRun log (source.handles e w) (source.opened e w)).map
          Attempt.entry ∧
      summary.failed =
        ((e.attempts rules trigger dryRun log (source.handles e w) (source.opened e w)).filter
          Attempt.complains).map Attempt.entry := by
  have hopened : ∀ h ∈ source.handles e w, (source.opened e w).HasRowIfSaved h :=
    fun h hh id hid => Source.rows_opened hrows hh hid
  have hnumbers : (e.attempts rules trigger dryRun log (source.handles e w)
      (source.opened e w)).map (·.entry.transaction) =
      (source.handles e w).map fun h => ((source.opened e w).transaction h).id :=
    (escapes_attempts hobserver hopened).2
  obtain ⟨v, hrun⟩ := process_gives_entries hobserver source rules trigger dryRun log hrows
  refine ⟨_, v, hrun, ?_, rfl, failed_attempts _ _⟩
  rw [List.map_map]
  exact hnumbers

end Engine

end

namespace Engine

/-- A run over two transactions, one of them of somebody else, whose observer only keeps count. -/
theorem isolates_in_smallLedger :
    ∃ summary v,
      (Engine.process { user := 2, isLogging := true, observer := some (recorder true) }
          (return [1, 2]) (SmallLedger.store.rulesForTrigger 1 .manual) .manual false).runOn
        SmallLedger.workspace = (.ok summary, v) ∧
      summary.transactions.map (·.transaction) = [some 1, some 2] ∧
      summary.transactions =
        (Engine.attempts { user := 2, isLogging := true, observer := some (recorder true) }
          (SmallLedger.store.rulesForTrigger 1 .manual) .manual false true [1, 2]
          ((Source.held [1, 2]).opened { user := 2, isLogging := true }
            SmallLedger.workspace)).map Attempt.entry ∧
      summary.failed =
        ((Engine.attempts { user := 2, isLogging := true, observer := some (recorder true) }
          (SmallLedger.store.rulesForTrigger 1 .manual) .manual false true [1, 2]
          ((Source.held [1, 2]).opened { user := 2, isLogging := true }
            SmallLedger.workspace)).filter Attempt.complains).map Attempt.entry := by
  refine process_isolates
    (e := { user := 2, isLogging := true, observer := some (recorder true) }) ?_ (.held [1, 2]) _
    .manual false true (w := SmallLedger.workspace) ?_
  · rintro _ ⟨⟩ h summary w
    exact ⟨fun _ => rfl, fun _ => id⟩
  · intro h hh id hid
    rcases List.mem_pair.1 hh with rfl | rfl <;> cases hid <;> rfl

/-- A rule without conditions and actions, so that all it does is to be logged. -/
def idleRule : RuleDefinition where
  id := .int 1
  name := .text "All"
  trigger := .text "manual"
  stopProcessing := .bool false
  groups := []
  actions := []

/-- The row of the first of two transactions was removed while somebody held it.  Its log entry
cannot be kept, the failure cannot be reported, and the second transaction is never reached. -/
theorem lost_row_ends_run :
    ((Engine.process { user := 1, isLogging := true } (return [1, 2]) [idleRule] .manual
        false).runOn
      { SmallLedger.workspace with
        store := { SmallLedger.store with
          transactions := SmallLedger.store.transactions.remove fun id _ => id = 1 } }).1 =
      .error (.missingRow .transaction) := by
  rfl

/-- An observer that fails without words: the entry says so, and the summary does not list it. -/
example :
    ∃ summary v,
      (Engine.process { user := 1, isLogging := true, observer := some fun _ _ => throw .usage }
        (return [1]) [] .manual false).runOn SmallLedger.workspace = (.ok summary, v) ∧
      summary.transactions.map (·.error) = [some ""] ∧ summary.failed = [] :=
  ⟨_, _, rfl, rfl, rfl⟩

end Engine

end Rulebook
