import Rulebook.Proofs.Engine.EntryPoint
import Rulebook.Proofs.Engine.Working

/-!
# The audit trail

A run leaves its summary twice: as its result, and as rows of the log.  The two are tied together
from the inside out.  `Covers` describes a loop that may end early: its outcomes are those of the
items in order, up to and including the first one that stops, and each item is taken up in the
workspace that the one before it has left.  All loops of a run are of this kind, the one over the
actions of a rule, the one over the rules for a transaction, and the one over the transactions,
which never ends early.  Each pass over a rule adds one row to the log, and a transaction that fails
takes its rows back together with the rest of its change, so what remains of a run is one row for
each outcome of its summary.

The observer of a run is code of somebody else.  All that is asked of it is that it keeps the trail
as it finds it (`Workspace.SameTrail`), which saving what was changed does.

## Main definitions

* `Covers` — outcomes of a loop that may end early, with the workspaces that it goes through.
* `ActionOutcome.ComesFrom`, `RuleOutcome.ComesFrom` — the outcome is that of an action or a rule.
* `TransactionSummary.logRows` — the rows for an entry of a summary.
* `TransactionSummary.Reports` — the entry is that of a transaction.

## Main statements

* `EntryPoint.logs_eq_summary` — the log of a run is its summary.
-/

namespace Rulebook

open Program Workspace

section

/-! ## Loops that end early -/

/-- The outcomes are those of the items in order, up to and including the first that stops.  Between
the two workspaces each item starts where the one before it has ended. -/
inductive Covers {α β : Type} (comes : α → β → Workspace → Workspace → Prop)
    (stops : α → β → Bool) : List α → List β → Workspace → Workspace → Prop
  | nil {w : Workspace} : Covers comes stops [] [] w w
  | stop {a : α} {rest : List α} {b : β} {w v : Workspace} (hcomes : comes a b w v)
      (hstops : stops a b = true) : Covers comes stops (a :: rest) [b] w v
  | next {a : α} {rest : List α} {b : β} {outcomes : List β} {w u v : Workspace}
      (hcomes : comes a b w u) (hgoes : stops a b = false)
      (hrest : Covers comes stops rest outcomes u v) :
      Covers comes stops (a :: rest) (b :: outcomes) w v

/-- Whether the actions of a rule end with this one. -/
def ActionOutcome.stops (a : Action) (outcome : ActionOutcome) : Bool :=
  !outcome.succeeded && a.stopProcessing.isTruthy

variable [Host]

/-- The outcome is what became of the action when it was run. -/
def ActionOutcome.ComesFrom (h : Handle) (dryRun : Bool) (a : Action) (outcome : ActionOutcome)
    (w v : Workspace) : Prop :=
  (runAction a h dryRun).runOn w = (.ok outcome, v)

/-- Whether the rules for a transaction end with this one. -/
def RuleOutcome.stops (r : RuleDefinition) (outcome : RuleOutcome) : Bool :=
  outcome.matched && r.stopProcessing.isTruthy

/-- The outcome is what became of the rule when it was run: the rule was evaluated, and if it matched
its actions were run in the workspace that the evaluation has left. -/
structure RuleOutcome.ComesFrom (h : Handle) (dryRun : Bool) (r : RuleDefinition)
    (outcome : RuleOutcome) (w v : Workspace) : Prop where
  ran : (Engine.runRule h r dryRun).runOn w = (.ok outcome, v)
  rule : outcome.rule = r.id
  name : outcome.name = r.name
  decided : ∃ u, (ruleMatches h r).runOn w = (.ok outcome.matched, u) ∧
    (outcome.matched = true → ∃ u',
      Covers (ActionOutcome.ComesFrom h dryRun) ActionOutcome.stops r.actions outcome.actions u u')
  idle : outcome.matched = false → outcome.actions = []
  stopped : outcome.stopped = .bool (outcome.stops r)

namespace Engine

theorem covers_runActions {h : Handle} {r : RuleDefinition} {dryRun : Bool} {actions : List Action}
    {outcomes : List ActionOutcome} {w v : Workspace}
    (hrun : (runActions h r dryRun actions).runOn w = (.ok outcomes, v)) :
    ∃ u, Covers (ActionOutcome.ComesFrom h dryRun) ActionOutcome.stops actions outcomes w u := by
  induction actions generalizing w outcomes with
  | nil =>
      cases hrun
      exact ⟨_, .nil⟩
  | cons a rest ih =>
      rw [runActions, runOn_bind] at hrun
      rcases hfirst : (runAction a h dryRun).runOn w with ⟨failure | outcome, u⟩ <;>
        rw [hfirst] at hrun <;> dsimp only at hrun
      · cases hrun
      · have hcomes : outcome.ComesFrom h dryRun a w u := hfirst
        split at hrun
        · next hstops =>
          cases hrun
          exact ⟨u, .stop hcomes hstops⟩
        · next hgoes =>
          rw [runOn_bind] at hrun
          rcases hrest : (runActions h r dryRun rest).runOn u with ⟨failure | later, u'⟩ <;>
            rw [hrest] at hrun <;> cases hrun
          obtain ⟨x, hcovers⟩ := ih hrest
          exact ⟨x, .next hcomes (Bool.not_eq_true _ ▸ hgoes) hcovers⟩

theorem comesFrom_runRule {h : Handle} {r : RuleDefinition} (hr : r.IsStored) {dryRun : Bool}
    {outcome : RuleOutcome} {w v : Workspace}
    (hrun : (runRule h r dryRun).runOn w = (.ok outcome, v)) :
    outcome.ComesFrom h dryRun r w v := by
  obtain ⟨s, id, row, rfl⟩ := hr
  have hran := hrun
  rw [runRule, runOn_bind] at hrun
  rcases hmatches : (ruleMatches h (.ofRow s id row)).runOn w with ⟨failure | matched, u⟩ <;>
    rw [hmatches] at hrun <;> dsimp only at hrun
  · cases hrun
  · cases matched with
    | false =>
        cases hrun
        exact ⟨hran, rfl, rfl, ⟨_, hmatches, fun hmatched => Bool.noConfusion hmatched⟩,
          fun _ => rfl, rfl⟩
    | true =>
        rw [if_pos rfl, runOn_bind] at hrun
        rcases hactions : (runActions h (.ofRow s id row) dryRun
            (RuleDefinition.ofRow s id row).actions).runOn u with ⟨failure | actions, u'⟩ <;>
          rw [hactions] at hrun <;> dsimp only at hrun
        · cases hrun
        · have hcovers := covers_runActions hactions
          have hout : outcome =
              ⟨.int id, .text row.name, true, actions, .bool row.stopProcessing⟩ := by
            split at hrun <;> cases hrun <;> rfl
          rw [hout] at hran ⊢
          exact ⟨hran, rfl, rfl, ⟨u, hmatches, fun _ => hcovers⟩,
            fun hidle => Bool.noConfusion hidle, rfl⟩

/-- The rule was run with this outcome, and the outcome was logged. -/
def Evaluates (e : Engine) (h : Handle) (trigger : Trigger) (dryRun : Bool) (r : RuleDefinition)
    (outcome : RuleOutcome) (w v : Workspace) : Prop :=
  ∃ u, outcome.ComesFrom h dryRun r w u ∧
    (e.logOutcome h outcome trigger dryRun).runOn u = (.ok (), v)

end Engine

/-! ## The rows of a log -/

/-- The number of the rule. -/
def RuleOutcome.number (outcome : RuleOutcome) : Id :=
  match outcome.rule with
  | .int id => id
  | _ => 0

/-- The rows for the outcomes of a stored transaction. -/
def RuleOutcome.logRows (transaction : Option Id) (trigger : Trigger) (dryRun : Bool)
    (now : Calendar.Instant) (outcomes : List RuleOutcome) : List Log :=
  match transaction with
  | some id => outcomes.map fun outcome =>
      Engine.logOf outcome.number id outcome trigger dryRun now
  | none => []

/-- The rows for an entry of a summary: one for each outcome, unless the transaction failed or has
no row. -/
def TransactionSummary.logRows (trigger : Trigger) (dryRun : Bool) (now : Calendar.Instant)
    (t : TransactionSummary) : List Log :=
  match t.error with
  | some _ => []
  | none => RuleOutcome.logRows t.transaction trigger dryRun now t.rules

/-- The entry is that of a transaction with this number, for which rules were run: unless it failed,
it was found to be the user's, and the rules were run on it from there on. -/
structure TransactionSummary.Reports (e : Engine) (trigger : Trigger) (dryRun : Bool)
    (rules : List RuleDefinition) (id : Option Id) (h : Handle) (t : TransactionSummary)
    (w v : Workspace) : Prop where
  ran : (e.processOne rules trigger dryRun true h).runOn w = (.ok t, v)
  transaction : t.transaction = id
  covers : t.error = none → ∃ u u',
    (ownerOf h).runOn { w with isChanging := true } = (.ok (some e.user), u) ∧
      Covers (e.Evaluates h trigger dryRun) RuleOutcome.stops rules t.rules u u'
  failed : t.error ≠ none → t.rules = [] ∧ t.changes = []

/-! ## What must not be lost from one transaction to the next -/

namespace Workspace

/-- The clock stands still, transactions in memory keep their numbers, and rows of transactions are
still there. -/
structure SameNumbers (w v : Workspace) : Prop where
  now : v.now = w.now
  ids : ∀ k, (v.transaction k).id = (w.transaction k).id
  rows : ∀ id, w.store.transactions.has id = true → v.store.transactions.has id = true

/-- Nothing that the trail depends on has changed, and the trail has not either. -/
structure SameTrail (w v : Workspace) : Prop extends SameNumbers w v where
  logs : v.store.logs = w.store.logs

instance : IsPreorder Workspace SameNumbers where
  refl _ := ⟨rfl, fun _ => rfl, fun _ => id⟩
  trans _ _ _ h k :=
    ⟨k.now.trans h.now, fun n => (k.ids n).trans (h.ids n), fun id hid => k.rows id (h.rows id hid)⟩

instance : IsPreorder Workspace SameTrail where
  refl _ := ⟨Std.Refl.refl _, rfl⟩
  trans _ _ _ h k :=
    ⟨IsTrans.trans _ _ _ h.toSameNumbers k.toSameNumbers, k.logs.trans h.logs⟩

omit [Host] in
theorem Works.sameNumbers {L : Table Log → Table Log → Prop} {h : Handle} {w v : Workspace}
    (hw : Works L h w v) : SameNumbers w v where
  now := hw.now
  ids := hw.id_eq
  rows id hid := by
    rw [hw.store.hasTransaction]
    exact hid

omit [Host] in
theorem Works.sameTrail {h : Handle} {w v : Workspace} (hw : Works Eq h w v) : SameTrail w v :=
  { hw.sameNumbers with logs := hw.store.logs.symm }

end Workspace

omit [Host] in
/-- Saving what was changed keeps the trail. -/
theorem sameTrail_persistChanges (h : Handle) (summary : TransactionSummary) :
    Keeps SameTrail (persistChanges h summary) :=
  (works_persistChanges h summary).mono fun _ _ hw => hw.sameTrail

namespace Engine

variable {e : Engine} {trigger : Trigger} {dryRun : Bool} {rules : List RuleDefinition}

omit [Host] in
theorem logs_writeLog {log : Log} {w v : Workspace}
    (hrun : (e.writeLog log).runOn w = (.ok (), v)) : v.store.logs = w.store.logs.insert log := by
  have hinsert : ∀ {u : Workspace},
      (insertRow Store.logs (fun s t => { s with logs := t }) log >>= fun _ => pure () :
        Operation Unit).runOn u = (.ok (), v) → v.store.logs = u.store.logs.insert log := by
    intro u hrun
    rw [runOn_bind, insertRow, runOn_writeResult] at hrun
    dsimp only at hrun
    split at hrun
    · next a t hsome =>
      split at hsome
      · cases hsome
        cases hrun
        rfl
      · cases hsome
    · cases hrun
  rw [writeLog, runOn_bind, runOn_modify] at hrun
  dsimp only at hrun
  rw [runOn_bind, runOn_get] at hrun
  dsimp only at hrun
  split at hrun
  · cases hrun
  · have hlogs := hinsert hrun
    exact hlogs

omit [Host] in
theorem logs_logOutcome (hlogging : e.isLogging = true) {h : Handle} {outcome : RuleOutcome}
    {rule : Id} (hrule : outcome.rule = .int rule) {w v : Workspace}
    (hrun : (e.logOutcome h outcome trigger dryRun).runOn w = (.ok (), v)) :
    v.store.logs = w.store.logs.insertAll
      (RuleOutcome.logRows (w.transaction h).id trigger dryRun w.now [outcome]) := by
  have hnumber : outcome.number = rule := by
    rw [RuleOutcome.number, hrule]
  rw [logOutcome, runOn_bind, runOn_transaction] at hrun
  dsimp only at hrun
  rw [hrule] at hrun
  cases hid : (w.transaction h).id with
  | none =>
      rw [hid] at hrun
      cases hrun
      rfl
  | some id =>
      rw [hid] at hrun
      dsimp only at hrun
      rw [if_pos hlogging, runOn_bind, runOn_get] at hrun
      have hlogs := logs_writeLog hrun
      rw [hlogs, RuleOutcome.logRows, List.map_singleton, hnumber]
      rfl

omit [Host] in
theorem logRows_cons (transaction : Option Id) (now : Calendar.Instant) (outcome : RuleOutcome)
    (outcomes : List RuleOutcome) :
    RuleOutcome.logRows transaction trigger dryRun now (outcome :: outcomes) =
      RuleOutcome.logRows transaction trigger dryRun now [outcome] ++
        RuleOutcome.logRows transaction trigger dryRun now outcomes := by
  cases transaction <;> rfl

/-- One rule: its outcome is logged, and nothing is done that the next rule would notice. -/
theorem logs_runRule (hlogging : e.isLogging = true) {h : Handle} {r : RuleDefinition}
    (hr : r.IsStored) {outcome : RuleOutcome} {w u v : Workspace}
    (hrule : (runRule h r dryRun).runOn w = (.ok outcome, u))
    (hlog : (e.logOutcome h outcome trigger dryRun).runOn u = (.ok (), v)) :
    e.Evaluates h trigger dryRun r outcome w v ∧ Works AnyLogs h w v ∧
      v.store.logs = w.store.logs.insertAll
        (RuleOutcome.logRows (w.transaction h).id trigger dryRun w.now [outcome]) := by
  have hcomes := comesFrom_runRule hr hrule
  have hworks : Works Eq h w u := by
    have hkeeps := works_runRule (L := Eq) h r dryRun w
    rw [hrule] at hkeeps
    exact hkeeps
  have hlogged : Works AnyLogs h u v := by
    have hkeeps : Works AnyLogs h u ((e.logOutcome h outcome trigger dryRun).runOn u).2 :=
      works_logOutcome (fun _ _ _ _ _ => trivial) h outcome u
    rw [hlog] at hkeeps
    exact hkeeps
  have hnumber : ∃ n, outcome.rule = .int n := by
    obtain ⟨s, id, row, rfl⟩ := hr
    exact ⟨id, hcomes.rule⟩
  obtain ⟨n, hn⟩ := hnumber
  have hlogs := logs_logOutcome hlogging hn hlog
  rw [hworks.ownId, hworks.now, ← hworks.store.logs] at hlogs
  exact ⟨⟨u, hcomes, hlog⟩, IsTrans.trans _ _ _ (hworks.mono fun _ _ _ => trivial) hlogged, hlogs⟩

/-- The rules for a transaction add one row for each outcome to the log. -/
theorem logs_runRules (hlogging : e.isLogging = true) (hstored : ∀ r ∈ rules, r.IsStored)
    {h : Handle} {outcomes : List RuleOutcome} {w v : Workspace}
    (hrun : (e.runRules h trigger dryRun true rules).runOn w = (.ok outcomes, v)) :
    Covers (e.Evaluates h trigger dryRun) RuleOutcome.stops rules outcomes w v ∧
      v.store.logs = w.store.logs.insertAll
        (RuleOutcome.logRows (w.transaction h).id trigger dryRun w.now outcomes) := by
  induction rules generalizing w outcomes with
  | nil =>
      cases hrun
      refine ⟨.nil, ?_⟩
      rcases (Workspace.transaction _ h).id with _ | id <;> rfl
  | cons r rest ih =>
      rw [runRules, runOn_bind] at hrun
      rcases hrule : (runRule h r dryRun).runOn w with ⟨failure | outcome, u⟩ <;>
        rw [hrule] at hrun <;> dsimp only at hrun
      · cases hrun
      · rw [if_pos rfl, runOn_bind] at hrun
        rcases hlog : (e.logOutcome h outcome trigger dryRun).runOn u with ⟨failure | _, u'⟩ <;>
          rw [hlog] at hrun <;> dsimp only at hrun
        · cases hrun
        · obtain ⟨hcomes, hworks, hlogs⟩ :=
            logs_runRule hlogging (hstored r List.mem_cons_self) hrule hlog
          split at hrun
          · next hstops =>
            cases hrun
            exact ⟨.stop hcomes hstops, hlogs⟩
          · next hgoes =>
            rw [runOn_bind] at hrun
            rcases hrest : (e.runRules h trigger dryRun true rest).runOn u'
              with ⟨failure | later, u''⟩ <;> rw [hrest] at hrun <;> cases hrun
            obtain ⟨hcovers, hmore⟩ := ih (fun r hr => hstored r (List.mem_cons_of_mem _ hr)) hrest
            refine ⟨.next hcomes (Bool.not_eq_true _ ▸ hgoes) hcovers, ?_⟩
            rw [hmore, hworks.ownId, hworks.now, hlogs, ← Table.insertAll_append, ← logRows_cons]

/-! ## A transaction of a run -/

section Run

variable (hlogging : e.isLogging = true) (hstored : ∀ r ∈ rules, r.IsStored)
  (hobserver : ∀ observer, e.observer = some observer →
    ∀ h summary, Keeps SameTrail (observer h summary))

include hobserver in
omit [Host] in
/-- Telling the observer keeps the trail. -/
theorem sameTrail_tellObserver (h : Handle) (summary : TransactionSummary) :
    Keeps SameTrail (e.tellObserver h summary dryRun) := by
  rw [tellObserver]
  split
  · next observer hsome =>
    split
    · exact keeps_pure ()
    · exact hobserver observer hsome h summary
  · exact keeps_pure ()

include hlogging hstored hobserver

/-- A transaction that does not fail adds the rows for its entry. -/
theorem logs_runTransaction {h : Handle} {t : TransactionSummary} {w v : Workspace}
    (hrun : (e.runTransaction h rules trigger dryRun true).runOn w = (.ok t, v)) :
    t.transaction = (w.transaction h).id ∧ t.error = none ∧
      (∃ u u', (ownerOf h).runOn w = (.ok (some e.user), u) ∧
        Covers (e.Evaluates h trigger dryRun) RuleOutcome.stops rules t.rules u u') ∧
      v.store.logs = w.store.logs.insertAll (t.logRows trigger dryRun w.now) := by
  rw [runTransaction, runOn_bind, runOn_transaction] at hrun
  dsimp only at hrun
  rw [runOn_bind] at hrun
  have hlooks := looks_ownerOf h w
  rcases howner : (ownerOf h).runOn w with ⟨failure | owner, u⟩ <;>
    rw [howner] at hrun hlooks <;> dsimp only at hrun hlooks
  · cases hrun
  · split at hrun
    · cases hrun
    · next hmine =>
      obtain rfl := Decidable.not_not.1 hmine
      rw [runOn_bind] at hrun
      rcases hrules : (e.runRules h trigger dryRun true rules).runOn u
        with ⟨failure | outcomes, u'⟩ <;> rw [hrules] at hrun <;> dsimp only at hrun
      · cases hrun
      · obtain ⟨hcovers, hlogs⟩ := logs_runRules hlogging hstored hrules
        rw [runOn_bind] at hrun
        generalize hsummary : TransactionSummary.mk _ _ _ _ = summary at hrun
        have htrail : SameTrail u' ((e.tellObserver h summary dryRun).runOn u').2 :=
          sameTrail_tellObserver hobserver h summary u'
        rcases hobserved : (e.tellObserver h summary dryRun).runOn u' with ⟨failure | _, u''⟩ <;>
          rw [hobserved] at hrun htrail <;> cases hrun
        rw [htrail.logs, hlogs, hlooks.own.id_eq, hlooks.now, hlooks.store, ← hsummary]
        exact ⟨rfl, rfl, ⟨u, u', rfl, hcovers⟩, rfl⟩

omit hlogging hstored in
theorem sameNumbers_runTransaction (h : Handle) :
    Keeps SameNumbers (e.runTransaction h rules trigger dryRun true) := by
  have hrules : Keeps (Works AnyLogs h) (e.runRules h trigger dryRun true rules) :=
    works_runRules (fun _ _ _ _ _ => trivial) h true rules
  refine keeps_runTransaction (fun _ _ hl => (hl.works (L := AnyLogs)).sameNumbers)
    (hrules.mono fun _ _ hw => hw.sameNumbers) fun observer summary hsome _ => ?_
  exact (hobserver observer hsome h summary).mono fun _ _ htrail => htrail.toSameNumbers

/-- Whatever happens to a transaction of a run, it has an entry, and its rows are those for the
entry. -/
theorem reports_processOne {h : Handle} {w : Workspace}
    (hrow : ∀ id, (w.transaction h).id = some id → w.store.transactions.has id = true) :
    ∃ (t : TransactionSummary) (v : Workspace), t.Reports e trigger dryRun rules (w.transaction h).id h w v ∧
      v.store.logs = w.store.logs.insertAll (t.logRows trigger dryRun w.now) ∧
      SameNumbers w v := by
  have hnumbers : SameNumbers { w with isChanging := true }
      ((e.runTransaction h rules trigger dryRun true).runOn { w with isChanging := true }).2 :=
    sameNumbers_runTransaction hobserver h _
  rcases hrun : (e.runTransaction h rules trigger dryRun true).runOn { w with isChanging := true }
    with ⟨result, v⟩
  rw [hrun] at hnumbers
  -- A failure, of the rules or of the references at the end, takes all rows back.
  have hdropped : ∃ u, (discard h).runOn { v with isChanging := w.isChanging, store := w.store } =
      (.ok (), u) ∧ Dropped h { v with isChanging := w.isChanging, store := w.store } u :=
    dropped_discard fun id hid => hrow id ((hnumbers.ids h).symm.trans hid)
  obtain ⟨u, hu, hdrop⟩ := hdropped
  have hworks := hdrop.toWorks
  have hback : SameNumbers w { v with isChanging := w.isChanging, store := w.store } :=
    ⟨hnumbers.now, hnumbers.ids, fun _ => id⟩
  have hsame : SameNumbers w u := IsTrans.trans _ _ _ hback hworks.sameNumbers
  have hprocess : (e.processOne rules trigger dryRun true h).runOn w = _ :=
    runOn_processOne rules true h w
  rw [runOn_atomically, hrun] at hprocess
  cases result with
  | error failure =>
      -- The rules failed, and their rows are gone with the change.
      simp only [settle, hu] at hprocess
      exact ⟨_, _, ⟨hprocess, rfl, fun hnone => absurd hnone (Option.some_ne_none _),
        fun _ => ⟨rfl, rfl⟩⟩, hworks.store.logs.symm, hsame.now, hsame.ids, hsame.rows⟩
  | ok t =>
      by_cases hcommit : (w.isChanging || v.store.referencesHold) = true
      · obtain ⟨hid, herror, hcovers, hlogs⟩ :=
          logs_runTransaction hlogging hstored hobserver hrun
        simp only [settle, hcommit, if_true] at hprocess
        exact ⟨t, _, ⟨hprocess, hid, fun _ => hcovers, fun hfailed => absurd herror hfailed⟩, hlogs,
          hnumbers.now, hnumbers.ids, hnumbers.rows⟩
      · -- The rules went through, but a reference is broken.
        simp only [settle, hcommit, Bool.false_eq_true, if_false, hu] at hprocess
        exact ⟨_, _, ⟨hprocess, rfl, fun hnone => absurd hnone (Option.some_ne_none _),
          fun _ => ⟨rfl, rfl⟩⟩, hworks.store.logs.symm, hsame.now, hsame.ids, hsame.rows⟩

/-- A pass over transactions adds the rows for its entries, in order. -/
theorem reports_mapM (trigger : Trigger) (dryRun : Bool) {handles : List Handle} {w : Workspace}
    (hrows : ∀ h ∈ handles, ∀ id, (w.transaction h).id = some id →
      w.store.transactions.has id = true) :
    ∃ transactions v,
      (handles.mapM (e.processOne rules trigger dryRun true)).runOn w = (.ok transactions, v) ∧
      Covers (fun h => TransactionSummary.Reports e trigger dryRun rules (w.transaction h).id h)
        (fun _ _ => false) handles transactions w v ∧
      v.store.logs = w.store.logs.insertAll
        (transactions.flatMap (TransactionSummary.logRows trigger dryRun w.now)) := by
  induction handles generalizing w with
  | nil => exact ⟨[], w, rfl, .nil, rfl⟩
  | cons h rest ih =>
      obtain ⟨t, u, hreports, hlogs, hnumbers⟩ :=
        reports_processOne hlogging hstored hobserver (hrows h List.mem_cons_self)
      have hrest : ∀ k ∈ rest, ∀ id, (u.transaction k).id = some id →
          u.store.transactions.has id = true := by
        intro k hk id hid
        rw [hnumbers.ids k] at hid
        exact hnumbers.rows id (hrows k (List.mem_cons_of_mem _ hk) id hid)
      obtain ⟨later, v, hlater, hentries, hmore⟩ := ih hrest
      refine ⟨t :: later, v, ?_, .next hreports rfl ?_, ?_⟩
      · rw [List.mapM_cons, runOn_bind, hreports.ran]
        dsimp only
        rw [runOn_bind, hlater]
        rfl
      · simpa only [hnumbers.ids] using hentries
      · rw [hmore, hlogs, hnumbers.now, ← Table.insertAll_append, ← List.flatMap_cons]

end Run

end Engine

/-! ## Runs -/

/-- The log of a run is its summary: every stored transaction that did not fail adds one row for
each outcome of its entry, in order, and nothing else is added.  The outcomes are those of the
rules in order, up to and including the first that matches and stops processing.  Each of them is
what became of its rule in the workspace that the run had come to, from the one in which the
transactions were loaded to the one with the rows. -/
theorem EntryPoint.logs_eq_summary {e : Engine} (hlogging : e.isLogging = true)
    (hobserver : ∀ observer, e.observer = some observer →
      ∀ h summary, Keeps SameTrail (observer h summary))
    (p : EntryPoint) (hlogged : p.isLogged = true) (dryRun : Bool) {w : Workspace}
    (hrows : p.source.RowsExist w) :
    match p.candidates e w with
    | .error failure => (p.start e dryRun).runOn w = (.error failure, w)
    | .ok (trigger, rules) =>
      ∃ summary u v, (p.start e dryRun).runOn w = (.ok summary, v) ∧
        Covers
          (fun h => TransactionSummary.Reports e trigger dryRun rules
            ((p.source.opened e w).transaction h).id h)
          (fun _ _ => false) (p.source.handles e w) summary.transactions (p.source.opened e w) u ∧
        v.store = u.store ∧
        v.store.logs = w.store.logs.insertAll
          (summary.transactions.flatMap (TransactionSummary.logRows trigger dryRun w.now)) := by
  have hdry : p.isDry dryRun = dryRun := by
    cases p with
    | preview source definition => cases hlogged
    | _ => rfl
  have hstart := p.runOn_start e dryRun w
  cases hcandidates : p.candidates e w with
  | error failure =>
      rw [hcandidates] at hstart
      exact hstart
  | ok candidates =>
      obtain ⟨trigger, rules⟩ := candidates
      rw [hcandidates] at hstart
      dsimp only at hstart ⊢
      rw [hdry, hlogged, Engine.runOn_process] at hstart
      have hstored : ∀ r ∈ rules, r.IsStored := fun r hr =>
        EntryPoint.isStored_of_candidates hlogged hcandidates hr
      have hopened : ∀ h ∈ p.source.handles e w, ∀ id,
          ((p.source.opened e w).transaction h).id = some id →
            (p.source.opened e w).store.transactions.has id = true := fun h hh id hid =>
        Source.rows_opened hrows hh hid
      obtain ⟨transactions, v, hrun, hentries, hlogs⟩ :=
        Engine.reports_mapM hlogging hstored hobserver trigger dryRun hopened
      rw [hrun] at hstart
      exact ⟨_, v, _, hstart, hentries, rfl, hlogs⟩

end

/-- A run over a transaction that is held, for a user who has changes saved. -/
theorem EntryPoint.logs_of_smallLedger :
    ∃ summary u v,
      ((EntryPoint.forTrigger (.held [1]) (.text "manual")).start
          { user := 1, isLogging := true, observer := some persistChanges } false).runOn
        SmallLedger.workspace = (.ok summary, v) ∧
      Covers
        (fun h => TransactionSummary.Reports
          { user := 1, isLogging := true, observer := some persistChanges } .manual false
          (SmallLedger.store.rulesForTrigger 1 .manual) (SmallLedger.workspace.transaction h).id h)
        (fun _ _ => false) [1] summary.transactions SmallLedger.workspace u ∧
      v.store = u.store ∧
      v.store.logs = Table.insertAll {}
        (summary.transactions.flatMap (TransactionSummary.logRows .manual false startInstant)) := by
  refine EntryPoint.logs_eq_summary
    (e := { user := 1, isLogging := true, observer := some persistChanges }) rfl ?_
    (.forTrigger (.held [1]) (.text "manual")) rfl false (w := SmallLedger.workspace) ?_
  · intro observer hobserver h summary
    cases hobserver
    exact sameTrail_persistChanges h summary
  · intro h hh id hid
    rw [List.mem_singleton.1 hh] at hid
    cases hid
    rfl

end Rulebook
