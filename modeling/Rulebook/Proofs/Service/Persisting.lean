import Rulebook.Proofs.Service.Scope

/-!
# What the services save

A run on behalf of a user is about some transactions, and it saves what it reports of them.  Two
things are known of a run over chosen transactions, and each on its own.  `saves_applyRules` says
that the run takes some transactions, loaded from their rows, and saves what its entries say of
them; `RunRequest.covers_what_it_asks_for` says that the entries are for the transactions that the
request covers.  The entries have numbers, and these tie the two together: the transactions that
were taken are those that are covered.

A run that fails has no entries to go by.  But it has changed nothing, so whatever it has taken it
leaves alone, and the transactions that are covered can be named all the same.

## Main definitions

* `ServiceCall` — a live run on behalf of a user.
* `ServiceCall.Takes` — the transactions that a call is about, with their state.

## Main statements

* `ServiceCall.saves_what_it_reports` — every such run saves exactly the fields that it reports.
-/

namespace Rulebook

open Program Workspace Calendar

section

variable [Host]

/-- A live run on behalf of a user. -/
inductive ServiceCall where
  | apply (user : Id) (transactions rules : Json) (first last : Option Date) (trigger : Json)
  | created (h : Handle)
  | updated (h : Handle)

/-- These are the transactions that a request covers, each once and by date, in memory as they are
loaded from their rows. -/
structure RunRequest.Loads (q : RunRequest) (w : Workspace)
    (objects : List (Handle × LiveTransaction)) : Prop where
  loaded : AreLoaded w objects
  covered : ∃ ids, objects.map (·.2.id) = ids.map some ∧ w.store.Selects q.user q.Covers ids

namespace ServiceCall

/-- Runs the rules. -/
def run : ServiceCall → Operation RunSummary
  | apply user transactions rules first last trigger =>
    applyRules user transactions rules first last trigger false
  | created h => processCreated h
  | updated h => processUpdated h

/-- The run takes these transactions, which are in memory in this state: those that the request
covers, or the one that it is given. -/
def Takes (w : Workspace) (objects : List (Handle × LiveTransaction)) : ServiceCall → Prop
  | apply user transactions rules first last trigger =>
    RunRequest.Loads ⟨user, transactions, rules, first, last, trigger, false⟩ w objects
  | created h => objects = [(h, w.transaction h)]
  | updated h => objects = [(h, w.transaction h)]

end ServiceCall

namespace RunRequest

/-- There are the transactions that a request covers, whether it leads to a run or not. -/
theorem exists_loads (q : RunRequest) (w : Workspace) : ∃ objects, q.Loads w objects := by
  classical
  have hselects := w.store.selects_transactionsInOrder q.user fun id t => decide (q.Covers id t)
  simp only [decide_eq_true_eq] at hselects
  -- Nothing is asked of the places in memory, so one will do for all.
  refine ⟨(w.store.transactionsInOrder q.user fun id t => decide (q.Covers id t)).map fun row =>
    (0, .ofRowWithReferences w.store row.1 row.2), ?_, _, ?_, hselects⟩
  · intro o ho
    obtain ⟨row, hrow, rfl⟩ := List.mem_map.1 ho
    have hstored := Source.mem_rows_of_mem_transactionsInOrder hrow
    exact ⟨row.1, row.2, Table.find?_eq_some_of_mem hstored, rfl⟩
  · rw [List.map_map, List.map_map]
    rfl

/-- What a run has taken are the transactions that its request covers, since its entries are for
them. -/
theorem loads_of_reported {q : RunRequest} {w v : Workspace} {summary : RunSummary}
    {objects : List (Handle × LiveTransaction)} (hkept : q.KeptBy w summary v)
    (hloaded : AreLoaded w objects) (hsaves : SavesReported objects w (.ok summary, v)) :
    q.Loads w objects := by
  obtain ⟨ids, hids, hselects⟩ := hkept.transactions
  have hnumbers : List.Forall₂ (· = ·) (objects.map (·.2.id))
      (summary.transactions.map (·.transaction)) := by
    rw [List.forall₂_map_left_iff, List.forall₂_map_right_iff]
    exact (hsaves.reported summary rfl).imp fun _ _ hentry => hentry.1.symm
  rw [List.forall₂_eq_eq_eq] at hnumbers
  exact ⟨hloaded, ids, hnumbers.trans hids, hselects⟩

/-- A live request loads the transactions that it covers and saves what it reports of them. -/
theorem saves_loaded (q : RunRequest) (hlive : q.dryRun = false) (w : Workspace) :
    ∃ objects, q.Loads w objects ∧ SavesReported objects w (q.run.runOn w) := by
  have hsaves : Saves AreLoaded q.run := by
    rw [run, hlive]
    exact saves_applyRules q.user q.transactions q.rules q.first q.last q.trigger
  rcases q.covers_what_it_asks_for w with ⟨summary, v, hrun, hkept⟩ | ⟨-, failure, v, hrun, hstore⟩
  · obtain ⟨objects, hloaded, hreported⟩ := hsaves w
    rw [hrun] at hreported ⊢
    exact ⟨objects, loads_of_reported hkept hloaded hreported, hreported⟩
  · -- No entry says what was taken, and the store is as it was.
    obtain ⟨objects, hloads⟩ := q.exists_loads w
    rw [hrun]
    refine ⟨objects, hloads, ?_, fun id _ => by rw [hstore]⟩
    rintro summary ⟨⟩

end RunRequest

/-- A run on behalf of a user saves exactly what it reports.  It takes the transactions that it is
about.  For every one of them that did not fail, the entry names each field once; the transaction in
memory is the one before in all other fields; and its row, which may have had other contents, is the
row before with the named fields replaced.  Both bear the time of the run if and only if there are
any.  Rows of other transactions are not touched, whatever becomes of the run. -/
theorem ServiceCall.saves_what_it_reports (call : ServiceCall) (w : Workspace) :
    ∃ objects, call.Takes w objects ∧ SavesReported objects w (call.run.runOn w) := by
  cases call with
  | apply user transactions rules first last trigger =>
      exact RunRequest.saves_loaded ⟨user, transactions, rules, first, last, trigger, false⟩ rfl w
  | created h => exact ⟨_, rfl, savesReported_processSingle h .transactionCreated w⟩
  | updated h => exact ⟨_, rfl, savesReported_processSingle h .transactionUpdated w⟩

end

/-- The first rule of the small ledger, run on all transactions: both get a category, and nothing
else of them is saved. -/
theorem ServiceCall.saves_categories_in_smallLedger :
    ∃ objects summary v,
      Takes SmallLedger.workspace objects
        (.apply 1 (.list []) (.list [.int 1]) none none (.text "manual")) ∧
      (run (.apply 1 (.list []) (.list [.int 1]) none none (.text "manual"))).runOn
        SmallLedger.workspace = (.ok summary, v) ∧
      SavesReported objects SmallLedger.workspace (.ok summary, v) ∧
      summary.transactions.map (fun t => (t.error, t.changes)) =
        [(none, [.category]), (none, [.category])] := by
  have hentries : ((run (.apply 1 (.list []) (.list [.int 1]) none none (.text "manual"))).runOn
      SmallLedger.workspace).1.toOption.map
        (fun summary => summary.transactions.map fun t => (t.error, t.changes)) =
      some [(none, [.category]), (none, [.category])] := by
    cbv
  obtain ⟨summary, hsummary, hchanges⟩ := Option.map_eq_some_iff.1 hentries
  have hrun := runOn_of_toOption hsummary
  obtain ⟨objects, htakes, hsaves⟩ := saves_what_it_reports
    (.apply 1 (.list []) (.list [.int 1]) none none (.text "manual")) SmallLedger.workspace
  rw [hrun] at hsaves
  exact ⟨objects, summary, _, htakes, hrun, hsaves, hchanges⟩

end Rulebook
