import Rulebook.Engine.Run
import Rulebook.Proofs.Ledger.Table
import Rulebook.Proofs.Program

/-!
# Starting a run

There are four ways to start a run, and they differ in which rules take part, where the transactions
come from, and whether evaluations are logged.  All of them first decide whether the request makes
sense, which only reads, and then run `Engine.process`.  `EntryPoint.runOn_start` separates the two,
so that what holds of a run over arbitrary rules holds of every way to start one.

Transactions that are loaded for a run are held under the next free names in the order of the query.
A source of transactions is therefore described by the names that it gives and the transactions that
it loads, and neither depends on anything but the store.

## Main definitions

* `Source` — where the transactions of a run come from.
* `EntryPoint` — a way to start a run; `EntryPoint.start` starts it.
* `EntryPoint.candidates` — the rules that take part, or why there is no run.
-/

namespace Rulebook

open Program Calendar

section

/-! ## Where transactions come from -/

/-- Where the transactions of a run come from. -/
inductive Source where
  /-- Transactions that somebody holds. -/
  | held (handles : List Handle)
  /-- The user's stored transactions that satisfy a test. -/
  | stored (test : Id → Transaction → Bool)

namespace Source

/-- The transactions as a run takes them. -/
def batch (e : Engine) : Source → Batch
  | held handles => return handles
  | stored test => e.transactionsWhere test

/-- The transactions that are loaded. -/
def loaded (e : Engine) (s : Store) : Source → List LiveTransaction
  | held _ => []
  | stored test =>
    (s.transactionsInOrder e.user test).map fun (id, t) => .ofRowWithReferences s id t

/-- The names of the transactions. -/
def handles (e : Engine) (w : Workspace) : Source → List Handle
  | held handles => handles
  | stored test =>
    (List.range ((stored test).loaded e w.store).length).map fun (i : Nat) => w.live.nextId + i

end Source

/-- Transactions are held under the next free names. -/
theorem runOn_holdAll (transactions : List LiveTransaction) (w : Workspace) :
    (transactions.mapM hold).runOn w =
      (.ok ((List.range transactions.length).map fun (i : Nat) => w.live.nextId + i),
        { w with live := w.live.insertAll transactions }) := by
  induction transactions generalizing w with
  | nil => rfl
  | cons t rest ih =>
      have hnames :
          ((List.range rest.length).map fun (i : Nat) => (w.live.insert t).nextId + (i : Int)) =
          (List.range rest.length).map fun (i : Nat) => w.live.nextId + ((i + 1 : Nat) : Int) := by
        refine List.map_congr_left fun i _ => ?_
        rw [Table.nextId_insert, Int.natCast_succ, Int.add_assoc, Int.add_comm 1]
      have hhold : (hold t).runOn w = (.ok w.live.nextId, { w with live := w.live.insert t }) := rfl
      rw [List.mapM_cons, runOn_bind, hhold]
      dsimp only
      rw [runOn_bind, ih]
      dsimp only
      rw [runOn_pure, List.length_cons, List.range_succ_eq_map, List.map_cons, List.map_map, hnames]
      simp [Function.comp_def]

/-- Rows are held under the next free names, with the rows that they reference. -/
theorem Engine.runOn_holdRows (rows : List (Id × Transaction)) (w : Workspace) :
    (holdRows rows).runOn w =
      (.ok ((List.range rows.length).map fun (i : Nat) => w.live.nextId + i),
        { w with
          live := w.live.insertAll
            (rows.map fun (id, t) => .ofRowWithReferences w.store id t) }) := by
  have hloads : rows.mapM (fun (id, t) => hold (.ofRowWithReferences w.store id t)) =
      (rows.map fun (id, t) => LiveTransaction.ofRowWithReferences w.store id t).mapM hold := by
    rw [List.mapM_map]
    rfl
  rw [holdRows, runOn_bind, runOn_get]
  dsimp only
  rw [hloads, runOn_holdAll, List.length_map]

namespace Source

/-- The workspace of a run that is about to begin. -/
def opened (e : Engine) (source : Source) (w : Workspace) : Workspace :=
  { w with
    live := w.live.insertAll (source.loaded e w.store)
    fields := w.fields.clear
    labels := [] }

theorem runOn_batch (e : Engine) (source : Source) (w : Workspace) :
    (source.batch e).runOn w =
      (.ok (source.handles e w),
        { w with live := w.live.insertAll (source.loaded e w.store) }) := by
  cases source with
  | held handles => rfl
  | stored test =>
      rw [batch, Engine.transactionsWhere, runOn_bind, runOn_get]
      dsimp only
      rw [Engine.runOn_holdRows, handles, loaded, List.length_map]

end Source

namespace Source

/-- Transactions that are held and have a number have a row. -/
def RowsExist (w : Workspace) : Source → Prop
  | held handles => ∀ h ∈ handles, ∀ id, (w.transaction h).id = some id →
      w.store.transactions.has id = true
  | stored _ => True

theorem mem_rows_of_mem_transactionsInOrder {s : Store} {user : Id}
    {test : Id → Transaction → Bool} {row : Id × Transaction}
    (h : row ∈ s.transactionsInOrder user test) : row ∈ s.transactions.rows := by
  have hsorted := List.mem_mergeSort.1 h
  have hmine := (List.mem_filter.1 hsorted).1
  exact (List.mem_filter.1 hmine).1

/-- The transactions that were loaded for the run are held under their names. -/
theorem transaction_opened {e : Engine} {test : Id → Transaction → Bool} {w : Workspace} {i : Nat}
    (hi : i < ((stored test).loaded e w.store).length) :
    ((stored test).opened e w).transaction (w.live.nextId + i) =
      ((stored test).loaded e w.store)[i] := by
  rw [Workspace.transaction, opened]
  dsimp only
  rw [Table.find?_insertAll_new _ _ hi]
  rfl

theorem transaction_opened_stored {e : Engine} {test : Id → Transaction → Bool} {w : Workspace}
    {h : Handle} (hh : h ∈ (stored test).handles e w) :
    ∃ id t, (id, t) ∈ w.store.transactions.rows ∧
      ((stored test).opened e w).transaction h = .ofRowWithReferences w.store id t := by
  obtain ⟨i, hi, rfl⟩ := List.mem_map.1 hh
  have hlt := List.mem_range.1 hi
  obtain ⟨⟨id, t⟩, hmem, heq⟩ := List.mem_map.1 (List.getElem_mem hlt)
  exact ⟨id, t, mem_rows_of_mem_transactionsInOrder hmem, (transaction_opened hlt).trans heq.symm⟩

/-- They have the numbers of their rows, in the order of the query. -/
theorem ids_opened_stored (e : Engine) (test : Id → Transaction → Bool) (w : Workspace) :
    (((stored test).handles e w).map fun h => (((stored test).opened e w).transaction h).id) =
      (w.store.transactionsInOrder e.user test).map fun row => some row.1 := by
  rw [handles, List.map_map]
  refine List.ext_getElem ?_ fun i hi _ => ?_
  · rw [List.length_map, List.length_range, loaded, List.length_map, List.length_map]
  · rw [List.length_map, List.length_range] at hi
    rw [List.getElem_map, List.getElem_range, Function.comp_apply, transaction_opened hi]
    simp only [loaded, List.getElem_map]
    rfl

theorem rows_opened {e : Engine} {source : Source} {w : Workspace} (hrows : source.RowsExist w)
    {h : Handle} (hh : h ∈ source.handles e w) {id : Id}
    (hid : ((source.opened e w).transaction h).id = some id) :
    w.store.transactions.has id = true := by
  cases source with
  | held handles => exact hrows h hh id hid
  | stored test =>
      obtain ⟨n, t, hmem, heq⟩ := transaction_opened_stored hh
      rw [heq] at hid
      cases hid
      exact Table.has_of_find? (Table.find?_eq_some_of_mem hmem)

end Source

variable [Host]

/-- A run is a pass over its transactions, with empty caches at first. -/
theorem Engine.runOn_process (e : Engine) (source : Source) (rules : List RuleDefinition)
    (trigger : Trigger) (dryRun log : Bool) (w : Workspace) :
    (e.process (source.batch e) rules trigger dryRun log).runOn w =
      match ((source.handles e w).mapM (e.processOne rules trigger dryRun log)).runOn
        (source.opened e w) with
      | (.ok transactions, v) =>
        let summary : RunSummary := ⟨dryRun, Vocabulary.code trigger, transactions⟩
        (.ok summary,
          { v with
            events := .runCompleted e.user summary.trigger dryRun summary.totalProcessed
              summary.totalMatched summary.failed.length :: v.events })
      | (.error failure, v) => (.error failure, v) := by
  have hhandles : source.handles e { w with fields := w.fields.clear, labels := [] } =
      source.handles e w := by
    cases source <;> rfl
  rw [Engine.process, clearFields, runOn_bind, runOn_modify]
  dsimp only
  rw [runOn_bind, runOn_modify]
  dsimp only
  rw [runOn_bind, Source.runOn_batch]
  dsimp only
  rw [hhandles, runOn_bind, Source.opened]
  generalize runOn (List.mapM (e.processOne rules trigger dryRun log) (source.handles e w)) _ = run
  rcases run with ⟨failure | transactions, v⟩
  · rfl
  · rfl

/-! ## Ways to start a run -/

/-- A rule as it comes from the rows of a store. -/
def RuleDefinition.IsStored (r : RuleDefinition) : Prop := ∃ s id row, r = .ofRow s id row

/-- A way to start a run. -/
inductive EntryPoint where
  | forTrigger (source : Source) (trigger : Json)
  | forRules (source : Source) (ids : Json)
  | inRange (start finish : Date) (ids : Option Json)
  | preview (source : Source) (definition : RuleDefinition)

namespace EntryPoint

/-- The transactions of the run. -/
def source : EntryPoint → Source
  | forTrigger source _ => source
  | forRules source _ => source
  | inRange start finish _ => .stored fun _ t => start.le t.bookedDate && t.bookedDate.le finish
  | preview source _ => source

/-- Whether evaluations are logged. -/
def isLogged : EntryPoint → Bool
  | preview .. => false
  | _ => true

/-- Whether the run is a dry one; a preview always is. -/
def isDry (dryRun : Bool) : EntryPoint → Bool
  | preview .. => true
  | _ => dryRun

/-- The stored rules with the numbers that a value lists. -/
def rulesListed (e : Engine) (s : Store) (ids : Json) : Except Failure (List RuleDefinition) := do
  let ids ← Column.references "id" ids
  return s.rulesWithIds e.user (← Column.allFit ids)

/-- The rules of a run over a range of dates: those listed, or those that are started by hand. -/
def rulesOfRange (e : Engine) (s : Store) : Option Json → Except Failure (List RuleDefinition)
  | some ids => rulesListed e s ids
  | none => .ok (s.rulesForTrigger e.user .manual)

/-- Whether transactions can be read in batches of the size that is set. -/
def checkedBatchSize (w : Workspace) : Except Failure Unit := do
  Engine.checkBatchSize (← w.settings.findOr Setting.batchSize.name Setting.batchSize.standard)

/-- The trigger and the rules that take part, or why there is no run. -/
def candidates (e : Engine) (w : Workspace) : EntryPoint →
    Except Failure (Trigger × List RuleDefinition)
  | forTrigger _ trigger => do
    let known ← Vocabulary.require trigger
    return (known, w.store.rulesForTrigger e.user known)
  | forRules _ ids => return (.manual, ← rulesListed e w.store ids)
  | inRange _ _ ids => do
    let rules ← rulesOfRange e w.store ids
    checkedBatchSize w
    return (.manual, rules)
  | preview _ definition => return (.manual, [definition])

/-- Starts the run. -/
def start (e : Engine) (dryRun : Bool) : EntryPoint → Operation RunSummary
  | forTrigger source trigger => e.processForTrigger (source.batch e) trigger dryRun
  | forRules source ids => e.processForRules (source.batch e) ids dryRun
  | inRange start finish ids => e.processRange start finish ids dryRun
  | preview source definition => e.preview (source.batch e) definition

omit [Host] in
/-- The rules that a trigger starts are among those of the user that take part. -/
theorem exists_of_rulesForTrigger {s : Store} {user : Id} {trigger : Trigger} {r : RuleDefinition}
    (hr : r ∈ s.rulesForTrigger user trigger) :
    ∃ id row, (id, row) ∈ s.candidates user ∧ r = .ofRow s id row := by
  obtain ⟨⟨id, row⟩, hmem, rfl⟩ := List.mem_map.1 hr
  exact ⟨id, row, (List.mem_filter.1 hmem).1, rfl⟩

theorem exists_of_rulesListed {e : Engine} {s : Store} {ids : Json} {rules : List RuleDefinition}
    (hrules : rulesListed e s ids = .ok rules) {r : RuleDefinition} (hr : r ∈ rules) :
    ∃ id row, (id, row) ∈ s.candidates e.user ∧ r = .ofRow s id row := by
  rw [rulesListed] at hrules
  obtain ⟨numbers, -, hrules⟩ := eq_ok_of_bind hrules
  obtain ⟨fit, -, hrules⟩ := eq_ok_of_bind hrules
  cases hrules
  obtain ⟨⟨id, row⟩, hmem, rfl⟩ := List.mem_map.1 hr
  exact ⟨id, row, (List.mem_filter.1 hmem).1, rfl⟩

/-- Every run that is logged is one of stored rules of the user. -/
theorem exists_of_candidates {e : Engine} {w : Workspace} {p : EntryPoint}
    (hlogged : p.isLogged = true) {trigger : Trigger} {rules : List RuleDefinition}
    (hcandidates : p.candidates e w = .ok (trigger, rules)) {r : RuleDefinition} (hr : r ∈ rules) :
    ∃ id row, (id, row) ∈ w.store.candidates e.user ∧ r = .ofRow w.store id row := by
  cases p with
  | preview source definition => cases hlogged
  | forTrigger source word =>
      rw [candidates] at hcandidates
      obtain ⟨known, -, hcandidates⟩ := eq_ok_of_bind hcandidates
      cases hcandidates
      exact exists_of_rulesForTrigger hr
  | forRules source ids =>
      rw [candidates] at hcandidates
      obtain ⟨listed, hlisted, hcandidates⟩ := eq_ok_of_bind hcandidates
      cases hcandidates
      exact exists_of_rulesListed hlisted hr
  | inRange first last ids =>
      rw [candidates] at hcandidates
      obtain ⟨listed, hlisted, hcandidates⟩ := eq_ok_of_bind hcandidates
      obtain ⟨_, -, hcandidates⟩ := eq_ok_of_bind hcandidates
      cases hcandidates
      cases ids with
      | none =>
          cases hlisted
          exact exists_of_rulesForTrigger hr
      | some ids => exact exists_of_rulesListed hlisted hr

theorem isStored_of_candidates {e : Engine} {w : Workspace} {p : EntryPoint}
    (hlogged : p.isLogged = true) {trigger : Trigger} {rules : List RuleDefinition}
    (hcandidates : p.candidates e w = .ok (trigger, rules)) {r : RuleDefinition} (hr : r ∈ rules) :
    r.IsStored := by
  obtain ⟨id, row, -, hrow⟩ := exists_of_candidates hlogged hcandidates hr
  exact ⟨w.store, id, row, hrow⟩

theorem runOn_rulesWithIds (e : Engine) (ids : Json) (w : Workspace) :
    (e.rulesWithIds ids).runOn w = (rulesListed e w.store ids, w) := by
  rw [Engine.rulesWithIds, runOn_bind, runOn_ofExcept, rulesListed]
  cases Column.references "id" ids with
  | error failure => rfl
  | ok ids =>
      dsimp only
      rw [runOn_bind, runOn_get]
      dsimp only
      rw [runOn_bind, runOn_ofExcept]
      change _ = ((Column.allFit ids).bind fun fit => .ok (w.store.rulesWithIds e.user fit), w)
      cases Column.allFit ids with
      | error failure => rfl
      | ok fit => rfl

theorem runOn_rulesForTrigger (e : Engine) (trigger : Json) (w : Workspace) :
    (e.rulesForTrigger trigger).runOn w =
      match Vocabulary.require trigger with
      | .ok known => (.ok (w.store.rulesForTrigger e.user known), w)
      | .error failure => (.error failure, w) := by
  rw [Engine.rulesForTrigger, runOn_bind, runOn_get]
  dsimp only
  rw [runOn_bind, runOn_ofExcept]
  cases (Vocabulary.require trigger : Except Failure Trigger) with
  | error failure => rfl
  | ok known => rfl

omit [Host] in
/-- What is left of a run over a range of dates once its rules are known. -/
theorem runOn_checkedProcess (run : Operation RunSummary) (w : Workspace) :
    (do
      .ofExcept (Engine.checkBatchSize (← setting .batchSize))
      run : Operation RunSummary).runOn w =
      match checkedBatchSize w with
      | .ok _ => run.runOn w
      | .error failure => (.error failure, w) := by
  rw [setting, runOn_bind, runOn_bind, runOn_get, checkedBatchSize]
  dsimp only
  rw [runOn_ofExcept]
  cases w.settings.findOr Setting.batchSize.name Setting.batchSize.standard with
  | error failure => rfl
  | ok size =>
      dsimp only
      rw [runOn_bind, runOn_ofExcept]
      change _ = match Engine.checkBatchSize size with
        | .ok _ => run.runOn w
        | .error failure => (.error failure, w)
      cases Engine.checkBatchSize size with
      | error failure => rfl
      | ok _ => rfl

/-- The rules of a range are known before its size is checked. -/
theorem runOn_rangeOf (e : Engine) (first last : Calendar.Date) (ids : Option Json) (dryRun : Bool)
    (w : Workspace) (rules : Except Failure (List RuleDefinition)) :
    (match rules with
      | .ok rules => (do
        .ofExcept (Engine.checkBatchSize (← setting .batchSize))
        e.process (e.transactionsWhere fun _ t =>
          first.le t.bookedDate && t.bookedDate.le last) rules .manual dryRun :
          Operation RunSummary).runOn w
      | .error failure => (.error failure, w)) =
    match (do
      let rules ← rules
      checkedBatchSize w
      return (Trigger.manual, rules)) with
    | .ok (trigger, rules) =>
      (e.process ((inRange first last ids).source.batch e) rules trigger
        ((inRange first last ids).isDry dryRun) (inRange first last ids).isLogged).runOn w
    | .error failure => (.error failure, w) := by
  cases rules with
  | error failure => rfl
  | ok rules =>
      dsimp only
      rw [runOn_checkedProcess]
      change _ = match (checkedBatchSize w).bind fun _ => .ok (Trigger.manual, rules) with
        | .ok (trigger, rules) => _
        | .error failure => _
      cases checkedBatchSize w with
      | error failure => rfl
      | ok _ => rfl

/-- Every way to start a run first settles which rules take part and then runs them. -/
theorem runOn_start (e : Engine) (dryRun : Bool) (p : EntryPoint) (w : Workspace) :
    (p.start e dryRun).runOn w =
      match p.candidates e w with
      | .ok (trigger, rules) =>
        (e.process (p.source.batch e) rules trigger (p.isDry dryRun) p.isLogged).runOn w
      | .error failure => (.error failure, w) := by
  cases p with
  | forTrigger source trigger =>
      rw [start, Engine.processForTrigger, candidates, runOn_bind, runOn_ofExcept]
      cases hknown : (Vocabulary.require trigger : Except Failure Trigger) with
      | error failure => rfl
      | ok known =>
          dsimp only
          rw [runOn_bind, runOn_rulesForTrigger, hknown]
          rfl
  | forRules source ids =>
      rw [start, Engine.processForRules, candidates, runOn_bind, runOn_rulesWithIds]
      cases rulesListed e w.store ids with
      | error failure => rfl
      | ok rules => rfl
  | inRange first last ids =>
      have hmanual : Vocabulary.require (.text (Vocabulary.code Trigger.manual)) =
          (.ok .manual : Except Failure Trigger) := rfl
      rw [start, candidates, ← runOn_rangeOf]
      unfold Engine.processRange
      cases ids with
      | none =>
          dsimp only
          rw [runOn_bind, runOn_rulesForTrigger, hmanual, rulesOfRange]
      | some ids =>
          dsimp only
          rw [runOn_bind, runOn_rulesWithIds, rulesOfRange]
          cases rulesListed e w.store ids with
          | error failure => rfl
          | ok rules => rfl
  | preview source definition => rfl

end EntryPoint

/-! ## A small ledger -/

end

namespace SmallLedger

/-- A transaction of twelve and a half without a category. -/
def transaction : Transaction where
  account := 1
  amount := -1250
  currency := "EUR"
  bookedDate := ⟨2024, 5, 1⟩
  description := some "Bakery"
  partner := none
  type := "CARD_PAYMENT"
  note := none
  recipientNote := none
  place := none
  targetIban := none
  sourceIban := none
  category := none
  merchant := none
  isReconciled := false
  reconciledAt := none
  updatedAt := startInstant

/-- A rule that is started by hand and asks for nothing. -/
def rule : Rule where
  user := 1
  group := 1
  name := "Food"
  description := ""
  trigger := "manual"
  order := 1
  isActive := true
  stopProcessing := true
  createdAt := startInstant
  updatedAt := startInstant

/-- The ledger of one user, with two transactions and a rule that sets their category. -/
def store : Store where
  users := Table.insert {} ⟨"Ada", "ada@example.org", true⟩
  accounts := Table.insert {} ⟨1, "Checking"⟩
  categories := Table.insert {} ⟨1, "Food", "", none⟩
  transactions := (Table.insert {} transaction).insert transaction
  groups := Table.insert {} ⟨1, "All", "", 1, true, startInstant⟩
  rules := Table.insert {} rule
  actions := Table.insert {} ⟨1, "set_category", some "1", 1, false⟩

/-- The two transactions of the ledger, held in memory. -/
def workspace : Workspace where
  store
  live := (Table.insert {} (.ofRow 1 transaction)).insert (.ofRow 2 transaction)
  now := startInstant
  settings := standardSettings

end SmallLedger

end Rulebook
