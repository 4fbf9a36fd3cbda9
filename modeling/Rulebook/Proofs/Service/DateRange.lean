import Rulebook.Proofs.Engine.Isolation
import Rulebook.Proofs.Engine.Parallel
import Rulebook.Proofs.Service.Scope

/-!
# Asking for transactions by date

The transactions of a request can be named by their numbers or by two dates.  If the numbers are
those of the transactions between the dates, the two requests are about the same transactions, and
`RunRequest.range_is_run_by_hand` compares what becomes of them.

A request by numbers runs the rules of its trigger.  One by dates does not look at its trigger: it
runs the rules that are started by hand, and says so in its summary.  It is therefore the same run
as the one by numbers that is started by hand, whatever its own trigger is, and never the same as
one by numbers that is started otherwise (`RunRequest.range_differs_from_trigger`).

The two runs are not equal step by step, since they report different events when they start.  The
comparison of runs from workspaces that are alike does not look at events, and may here be as close
as it can be: the same names stand for the same transactions, and the logs are equal.

## Main definitions

* `RunRequest.overDates`, `RunRequest.overNumbers` — the requests that are compared.
* `Store.IsBetween` — a transaction of a user was booked between two dates.
* `SameOutcome` — the same result and the same store.

## Main statements

* `RunRequest.range_is_run_by_hand` — a request by dates is one by numbers that is started by hand.
* `RunRequest.range_differs_from_trigger` — it is not the one by numbers with another trigger.
-/

namespace Rulebook

open Program Workspace Calendar

section

/-! ## Runs that nobody can tell apart -/

/-- Two runs ended with the same result and left the same store. -/
structure SameOutcome {α : Type} (x y : Except Failure α × Workspace) : Prop where
  result : x.1 = y.1
  store : x.2.store = y.2.store

namespace SameOutcome

variable {α : Type} {x y z : Except Failure α × Workspace}

theorem refl (x : Except Failure α × Workspace) : SameOutcome x x := ⟨rfl, rfl⟩

theorem symm (h : SameOutcome x y) : SameOutcome y x := ⟨h.result.symm, h.store.symm⟩

theorem trans (h : SameOutcome x y) (k : SameOutcome y z) : SameOutcome x z :=
  ⟨h.result.trans k.result, h.store.trans k.store⟩

end SameOutcome

/-- Workspaces that differ only in the events so far are alike as soon as caches are empty. -/
theorem alike_exact (w : Workspace) (fields : FieldCache) (live : Table LiveTransaction)
    (events events' : List Event) :
    Alike (comparing w.store w.isChanging fun _ => True) w.isChanging
      { w with live, fields, labels := [], events }
      { w with live, fields, labels := [], events := events' } where
  changing := rfl
  changing' := rfl
  now := rfl
  store := rfl
  logs := rfl
  logsHold := Or.inr rfl
  accounts := rfl
  labels _ := Std.Refl.refl _
  live := by
    rintro k _ ⟨-, rfl⟩
    rfl
  transactions := by
    rintro k _ ⟨-, rfl⟩
    exact Std.Refl.refl _
  entries := by
    rintro k _ ⟨-, rfl⟩ id - field
    rfl
  cache := by
    rintro kind id found ⟨⟩
  cache' := by
    rintro kind id found ⟨⟩

variable [Host]

/-- Sources that load the same transactions lead to the same run, whatever happened before. -/
theorem Engine.sameOutcome_process {e : Engine} (hsaving : e.IsSaving) (hlog : e.failingLog = none)
    {test test' : Id → Transaction → Bool} {w : Workspace}
    (hrows : w.store.transactionsInOrder e.user test' = w.store.transactionsInOrder e.user test)
    (rules : List RuleDefinition) (trigger : Trigger) (dryRun log : Bool)
    (events events' : List Event) :
    SameOutcome
      ((e.process ((Source.stored test).batch e) rules trigger dryRun log).runOn
        { w with events })
      ((e.process ((Source.stored test').batch e) rules trigger dryRun log).runOn
        { w with events := events' }) := by
  have hloaded :
      (Source.stored test').loaded e w.store = (Source.stored test).loaded e w.store := by
    rw [Source.loaded, Source.loaded, hrows]
  have hhandles : (Source.stored test').handles e { w with events := events' } =
      (Source.stored test).handles e { w with events } := by
    rw [Source.handles, Source.handles, hloaded]
  have halike : Alike (comparing w.store w.isChanging fun _ => True) w.isChanging
      ((Source.stored test).opened e { w with events })
      ((Source.stored test').opened e { w with events := events' }) := by
    rw [Source.opened, Source.opened, hloaded]
    exact alike_exact w w.fields.clear _ events events'
  have hsame : List.Forall₂ (comparing w.store w.isChanging fun _ => True).names
      ((Source.stored test).handles e { w with events })
      ((Source.stored test').handles e { w with events := events' }) := by
    rw [hhandles]
    exact List.forall₂_same.2 fun _ _ => ⟨trivial, rfl⟩
  rw [runOn_process, runOn_process]
  rcases (Engine.tracks_mapM hsaving hlog rules log hsame halike).cases with
    ⟨transactions, v, v', hrun, hrun', hv⟩ | ⟨failure, v, v', hrun, hrun', hv⟩
  all_goals
    have hlogs : v.store.logs = v'.store.logs := hv.logs
    have hstore : v.store = v'.store := by
      rw [hv.store, ← hlogs]
    rw [hrun, hrun']
    exact ⟨rfl, hstore⟩

/-! ## Transactions between two dates -/

namespace Store

/-- The transaction with this number is one of the user and was booked between two dates. -/
def IsBetween (s : Store) (user : Id) (first last : Date) (id : Id) : Prop :=
  ∃ t, s.transactions.find? id = some t ∧ s.ownerOf? t = some user ∧
    first.key ≤ t.bookedDate.key ∧ t.bookedDate.key ≤ last.key

omit [Host] in
/-- Tests that agree on the transactions of the user find the same. -/
theorem transactionsInOrder_congr {s : Store} {user : Id} {test test' : Id → Transaction → Bool}
    (hagree : ∀ id t, s.transactions.find? id = some t → s.ownerOf? t = some user →
      test' id t = test id t) :
    s.transactionsInOrder user test' = s.transactionsInOrder user test := by
  rw [transactionsInOrder, transactionsInOrder]
  refine congrArg _ (List.filter_congr fun row hrow => ?_)
  obtain ⟨id, t⟩ := row
  rw [transactionsOf, Table.filter, List.mem_filter, decide_eq_true_iff] at hrow
  exact hagree id t (Table.find?_eq_some_of_mem hrow.1) hrow.2

omit [Host] in
/-- The numbers of the transactions between two dates find what the dates find. -/
theorem transactionsInOrder_of_isBetween {s : Store} {user : Id} {first last : Date} {ids : List Id}
    (hids : ∀ id, id ∈ ids ↔ s.IsBetween user first last id) :
    (s.transactionsInOrder user fun id _ => ids.contains id) =
      s.transactionsInOrder user fun _ t => first.le t.bookedDate && t.bookedDate.le last := by
  refine transactionsInOrder_congr fun id t hrow howner => Bool.eq_iff_iff.2 ?_
  rw [List.contains_iff_mem, hids, Bool.and_eq_true, Date.le, Date.le, decide_eq_true_iff,
    decide_eq_true_iff]
  constructor
  · rintro ⟨u, hu, -, hdates⟩
    obtain rfl : t = u := Option.some.inj (hrow.symm.trans hu)
    exact hdates
  · intro hdates
    exact ⟨t, hrow, howner, hdates⟩

end Store

/-- A value that lists something is set. -/
theorem Json.Lists.isTruthy {j : Json} {ids : List Id} (h : j.Lists ids) (hids : ids ≠ []) :
    j.isTruthy = true := by
  obtain ⟨entries, hentries, hnumbers⟩ := eq_ok_of_bind h.1
  have hsome : entries ≠ [] := by
    rintro rfl
    cases hnumbers
    exact hids rfl
  cases j with
  | list items =>
      cases hentries
      cases entries with
      | nil => exact absurd rfl hsome
      | cons _ _ => rfl
  | object members =>
      cases hentries
      cases members with
      | nil => exact absurd rfl hsome
      | cons _ _ => rfl
  | text s =>
      cases hentries
      refine bne_iff_ne.2 ?_
      rintro rfl
      exact hsome rfl
  | _ => cases hentries

namespace RunRequest

/-! ## The two requests -/

/-- The request to run rules on the transactions between two dates. -/
def overDates (user : Id) (first last : Date) (trigger : Json) (dryRun : Bool) : RunRequest where
  user
  transactions := .null
  rules := .null
  first := some first
  last := some last
  trigger
  dryRun

/-- The request to run rules on the transactions with the numbers that a value lists. -/
def overNumbers (user : Id) (numbers trigger : Json) (dryRun : Bool) : RunRequest where
  user
  transactions := numbers
  rules := .null
  first := none
  last := none
  trigger
  dryRun

/-- The engine of a request by a user, if the settings can be read. -/
def engineOf (w : Workspace) (user : Id) : Except Failure Engine := do
  let logging ←
    w.settings.findOr Setting.executionLogging.name Setting.executionLogging.standard
  return ⟨user, logging.isTruthy, none, some persistChanges⟩

/-- What a way to start a run leads to in a workspace where some events have been reported. -/
def startFrom (w : Workspace) (user : Id) (dryRun : Bool) (p : EntryPoint) (events : List Event) :
    Except Failure RunSummary × Workspace :=
  match engineOf w user with
  | .ok e => (p.start e dryRun).runOn { w with fields := {}, labels := [], events }
  | .error failure => (.error failure, w)

/-- A summary is one of the rules that were to take part. -/
theorem exists_of_startFrom {w : Workspace} {user : Id} {dryRun : Bool} {p : EntryPoint}
    {events : List Event} {summary : RunSummary}
    (h : (startFrom w user dryRun p events).1 = .ok summary) :
    ∃ e trigger rules, p.candidates e { w with fields := {}, labels := [], events } =
        .ok (trigger, rules) ∧ summary.trigger = Vocabulary.code trigger := by
  rw [startFrom] at h
  cases he : engineOf w user with
  | error failure =>
      rw [he] at h
      cases h
  | ok e =>
      rw [he] at h
      dsimp only at h
      rw [EntryPoint.runOn_start] at h
      cases hcandidates : p.candidates e { w with fields := {}, labels := [], events } with
      | error failure =>
          rw [hcandidates] at h
          cases h
      | ok candidates =>
          obtain ⟨trigger, rules⟩ := candidates
          rw [hcandidates] at h
          dsimp only at h
          rw [Engine.runOn_process] at h
          refine ⟨e, trigger, rules, hcandidates, ?_⟩
          split at h
          · cases h
            rfl
          · cases h

/-- The engine of the user comes first in any request. -/
theorem sameOutcome_of_started {w : Workspace} {user : Id} {dryRun : Bool} {p : EntryPoint}
    {events : List Event} {f : Engine → Operation RunSummary}
    (hf : ∀ e, engineOf w user = .ok e → (f e).runOn { w with fields := {}, labels := [] } =
      (p.start e dryRun).runOn { w with fields := {}, labels := [], events }) :
    SameOutcome ((withFreshCaches (persistingEngine user >>= f)).runOn w)
      (startFrom w user dryRun p events) := by
  have hengine : (persistingEngine user).runOn { w with fields := {}, labels := [] } =
      (engineOf w user, { w with fields := {}, labels := [] }) := by
    rw [runOn_persistingEngine, engineOf]
    cases w.settings.findOr Setting.executionLogging.name Setting.executionLogging.standard <;> rfl
  rw [withFreshCaches, runOn_of, runOn_bind, hengine, startFrom]
  cases he : engineOf w user with
  | error failure => exact ⟨rfl, rfl⟩
  | ok e =>
      dsimp only
      rw [hf e he]
      exact ⟨rfl, rfl⟩

/-- A request by dates starts a run over a range. -/
theorem sameOutcome_overDates (w : Workspace) (user : Id) (first last : Date) (trigger : Json)
    (dryRun : Bool) :
    SameOutcome ((overDates user first last trigger dryRun).run.runOn w)
      (startFrom w user dryRun (.inRange first last none)
        (.runStarted user [] (some first) (some last) 0 dryRun :: w.events)) := by
  rw [run, applyRules]
  exact sameOutcome_of_started fun e he => rfl

/-- A request by numbers starts a run over the transactions that have them. -/
theorem sameOutcome_overNumbers (w : Workspace) (user : Id) {numbers : Json} {ids : List Id}
    (hnumbers : numbers.Lists ids) (hids : ids ≠ []) (trigger : Json) (dryRun : Bool) :
    ∃ count, SameOutcome ((overNumbers user numbers trigger dryRun).run.runOn w)
      (startFrom w user dryRun (.forTrigger (.stored fun id _ => ids.contains id) trigger)
        (.runStarted user [] none none count dryRun :: w.events)) := by
  obtain ⟨entries, hentries, -⟩ := eq_ok_of_bind hnumbers.1
  have hset := hnumbers.isTruthy hids
  have hcount : entriesIfSet numbers = .ok entries := by
    rw [entriesIfSet, if_pos hset, hentries]
  have hnone : entriesIfSet .null = .ok [] := rfl
  refine ⟨entries.length, ?_⟩
  change SameOutcome ((applyRules user numbers .null none none trigger dryRun).runOn w) _
  rw [applyRules]
  refine sameOutcome_of_started fun e _ => ?_
  have hbatch : e.transactionsWithIds ids =
      e.transactionsWhere fun id _ => ids.contains id := by
    rw [Engine.transactionsWithIds, Column.allFit_eq_ok.2 ⟨rfl, hnumbers.2⟩]
    rfl
  rw [runOn_bind, runOn_ofExcept, hnone]
  dsimp only
  rw [runOn_bind, runOn_ofExcept, hcount]
  dsimp only
  rw [runOn_bind, runOn_report]
  dsimp only
  rw [if_pos hset, runOn_bind, runOn_ofExcept, hnumbers.1]
  dsimp only
  rw [hbatch]
  rfl

/-- The trigger of runs that are started by hand, as a request gives it. -/
def byHand : Json := .text (Vocabulary.code Trigger.manual)

/-- A run over a range looks at the size of its batches, and is then the run that is started by hand
over the transactions between the dates. -/
theorem runOn_inRange (e : Engine) (first last : Date) (dryRun : Bool) (w : Workspace) :
    ((EntryPoint.inRange first last none).start e dryRun).runOn w =
      match EntryPoint.checkedBatchSize w with
      | .ok _ =>
        ((EntryPoint.forTrigger
            (.stored fun _ t => first.le t.bookedDate && t.bookedDate.le last) byHand).start
          e dryRun).runOn w
      | .error failure => (.error failure, w) := by
  have hmanual : Vocabulary.require byHand = (.ok .manual : Except Failure Trigger) := rfl
  rw [EntryPoint.runOn_start, EntryPoint.runOn_start]
  dsimp only [EntryPoint.candidates, EntryPoint.rulesOfRange]
  rw [hmanual]
  cases EntryPoint.checkedBatchSize w with
  | error failure => rfl
  | ok _ => rfl

omit [Host] in
/-- Settings that cannot be read stop a request before anything else does. -/
theorem checkedBatchSize_of_engineOf {w : Workspace} {user : Id} {failure : Failure}
    (h : engineOf w user = .error failure) :
    EntryPoint.checkedBatchSize w = .error failure := by
  rw [engineOf] at h
  rw [EntryPoint.checkedBatchSize]
  cases hsettings : w.settings with
  | object members =>
      rw [hsettings] at h
      cases h
  | _ =>
      rw [hsettings] at h
      cases h
      rfl

omit [Host] in
/-- The engine of a request saves what it changes. -/
theorem isSaving_engineOf {w : Workspace} {user : Id} {e : Engine} (he : engineOf w user = .ok e) :
    e.user = user ∧ e.failingLog = none ∧ e.IsSaving := by
  obtain ⟨logging, -, he⟩ := eq_ok_of_bind he
  cases he
  refine ⟨rfl, rfl, ?_⟩
  rintro _ ⟨⟩
  exact Or.inl rfl

/-- Runs with one trigger over the same transactions end alike. -/
theorem sameOutcome_forTrigger {e : Engine} (hsaving : e.IsSaving) (hlog : e.failingLog = none)
    {test test' : Id → Transaction → Bool} {w : Workspace}
    (hrows : w.store.transactionsInOrder e.user test' = w.store.transactionsInOrder e.user test)
    (trigger : Json) (dryRun : Bool) (events events' : List Event) :
    SameOutcome
      (((EntryPoint.forTrigger (.stored test) trigger).start e dryRun).runOn { w with events })
      (((EntryPoint.forTrigger (.stored test') trigger).start e dryRun).runOn
        { w with events := events' }) := by
  rw [EntryPoint.runOn_start, EntryPoint.runOn_start]
  dsimp only [EntryPoint.candidates]
  cases (Vocabulary.require trigger : Except Failure Trigger) with
  | error failure => exact ⟨rfl, rfl⟩
  | ok known =>
      exact Engine.sameOutcome_process hsaving hlog hrows _ known dryRun true events events'

/-- A request by dates is a request by numbers that is started by hand.  If the numbers are those of
the user's transactions between the dates, of which there is one, then both requests give the same
summary or fail alike, and leave the same store with the same logs, whatever the trigger of the
request by dates is.  All that the request by dates can fail of besides is the size of its batches,
and then it changes nothing. -/
theorem range_is_run_by_hand {w : Workspace} {user : Id} {first last : Date} {numbers : Json}
    {ids : List Id} (hnumbers : numbers.Lists ids) (hsome : ids ≠ [])
    (hids : ∀ id, id ∈ ids ↔ w.store.IsBetween user first last id) (trigger : Json)
    (dryRun : Bool) :
    SameOutcome ((overDates user first last trigger dryRun).run.runOn w)
      (match EntryPoint.checkedBatchSize w with
        | .ok _ => (overNumbers user numbers byHand dryRun).run.runOn w
        | .error failure => (.error failure, w)) := by
  refine (sameOutcome_overDates w user first last trigger dryRun).trans ?_
  obtain ⟨count, hcount⟩ := sameOutcome_overNumbers w user hnumbers hsome byHand dryRun
  rw [startFrom] at hcount ⊢
  cases he : engineOf w user with
  | error failure =>
      rw [checkedBatchSize_of_engineOf he]
      exact SameOutcome.refl _
  | ok e =>
      rw [he] at hcount
      dsimp only at hcount ⊢
      rw [runOn_inRange]
      have hsize : ∀ events, EntryPoint.checkedBatchSize
          { w with fields := {}, labels := [], events } = EntryPoint.checkedBatchSize w :=
        fun _ => rfl
      rw [hsize]
      cases EntryPoint.checkedBatchSize w with
      | error failure => exact ⟨rfl, rfl⟩
      | ok _ =>
          refine SameOutcome.trans ?_ hcount.symm
          obtain ⟨rfl, hlog, hsaving⟩ := isSaving_engineOf he
          exact sameOutcome_forTrigger hsaving hlog
            (w := { w with fields := {}, labels := [] })
            (Store.transactionsInOrder_of_isBetween hids) byHand dryRun _ _

/-! ## The trigger of a request by dates -/

/-- A run over a range says that it was started by hand. -/
theorem trigger_overDates {w v : Workspace} {user : Id} {first last : Date} {trigger : Json}
    {dryRun : Bool} {summary : RunSummary}
    (h : (overDates user first last trigger dryRun).run.runOn w = (.ok summary, v)) :
    summary.trigger = Vocabulary.code Trigger.manual := by
  have hresult := (sameOutcome_overDates w user first last trigger dryRun).result
  rw [h] at hresult
  obtain ⟨e, known, rules, hcandidates, htrigger⟩ := exists_of_startFrom hresult.symm
  obtain ⟨listed, -, hcandidates⟩ := eq_ok_of_bind hcandidates
  obtain ⟨_, -, hcandidates⟩ := eq_ok_of_bind hcandidates
  cases hcandidates
  exact htrigger

/-- A run over numbers says which trigger it was started with. -/
theorem trigger_overNumbers {w v : Workspace} {user : Id} {numbers : Json} {ids : List Id}
    (hnumbers : numbers.Lists ids) (hsome : ids ≠ []) {trigger : Json} {known : Trigger}
    (hknown : Vocabulary.require trigger = .ok known) {dryRun : Bool} {summary : RunSummary}
    (h : (overNumbers user numbers trigger dryRun).run.runOn w = (.ok summary, v)) :
    summary.trigger = Vocabulary.code known := by
  obtain ⟨count, hcount⟩ := sameOutcome_overNumbers w user hnumbers hsome trigger dryRun
  have hresult := hcount.result
  rw [h] at hresult
  obtain ⟨e, other, rules, hcandidates, htrigger⟩ := exists_of_startFrom hresult.symm
  obtain ⟨_, hsame, hcandidates⟩ := eq_ok_of_bind hcandidates
  cases hcandidates
  obtain rfl : known = other := Except.ok.inj (hknown.symm.trans hsame)
  exact htrigger

/-- A request by dates is not the request by numbers with any other trigger than the one by hand:
their summaries are different whenever both give one. -/
theorem range_differs_from_trigger {w v v' : Workspace} {user : Id} {first last : Date}
    {numbers : Json} {ids : List Id} (hnumbers : numbers.Lists ids) (hsome : ids ≠ [])
    {trigger : Json} {known : Trigger} (hknown : Vocabulary.require trigger = .ok known)
    (hother : known ≠ .manual) {dryRun : Bool} {summary summary' : RunSummary}
    (hdates : (overDates user first last trigger dryRun).run.runOn w = (.ok summary, v))
    (hrun : (overNumbers user numbers trigger dryRun).run.runOn w = (.ok summary', v')) :
    summary ≠ summary' := by
  rintro rfl
  have hcode : Vocabulary.code known = Vocabulary.code Trigger.manual :=
    (trigger_overNumbers hnumbers hsome hknown hrun).symm.trans (trigger_overDates hdates)
  cases known with
  | manual => exact hother rfl
  | _ => exact absurd hcode (by decide)

end RunRequest

end

namespace RunRequest

/-- Both transactions of the ledger were booked on the first of May, so the request for that month
is the one for their numbers that is started by hand. -/
theorem range_of_smallLedger :
    Json.Lists (.list [.int 1, .int 2]) [1, 2] ∧
      (∀ id, id ∈ ([1, 2] : List Id) ↔
        SmallLedger.store.IsBetween 1 ⟨2024, 5, 1⟩ ⟨2024, 5, 31⟩ id) ∧
      SameOutcome
        ((overDates 1 ⟨2024, 5, 1⟩ ⟨2024, 5, 31⟩ (.text "transaction_created") false).run.runOn
          SmallLedger.workspace)
        ((overNumbers 1 (.list [.int 1, .int 2]) byHand false).run.runOn
          SmallLedger.workspace) := by
  have hlists : Json.Lists (.list [.int 1, .int 2]) [1, 2] := ⟨rfl, by decide⟩
  have hids : ∀ id, id ∈ ([1, 2] : List Id) ↔
      SmallLedger.store.IsBetween 1 ⟨2024, 5, 1⟩ ⟨2024, 5, 31⟩ id := by
    intro id
    constructor
    · intro hid
      refine ⟨SmallLedger.transaction, ?_, rfl, by decide, by decide⟩
      rcases List.mem_pair.1 hid with rfl | rfl <;> rfl
    · rintro ⟨t, hrow, -⟩
      have hmem := List.mem_map_of_mem (f := (·.1)) (Table.mem_rows_of_find? hrow)
      exact hmem
  exact ⟨hlists, hids, range_is_run_by_hand (w := SmallLedger.workspace) hlists nofun hids
    (.text "transaction_created") false⟩

/-- The request for the month does not run the rules of its trigger, as the request for the numbers
does: it evaluates the rule of the ledger, which is started by hand. -/
theorem range_ignores_trigger :
    ∃ summary summary' v v',
      (overDates 1 ⟨2024, 5, 1⟩ ⟨2024, 5, 31⟩ (.text "transaction_created") false).run.runOn
        SmallLedger.workspace = (.ok summary, v) ∧
      (overNumbers 1 (.list [.int 1, .int 2]) (.text "transaction_created") false).run.runOn
        SmallLedger.workspace = (.ok summary', v') ∧
      (summary.trigger, summary.transactions.map fun t => t.rules.map (·.rule)) =
        ("manual", [[.int 1], [.int 1]]) ∧
      (summary'.trigger, summary'.transactions.map fun t => t.rules.map (·.rule)) =
        ("transaction_created", [[], []]) := by
  have hdates : ((overDates 1 ⟨2024, 5, 1⟩ ⟨2024, 5, 31⟩ (.text "transaction_created")
      false).run.runOn SmallLedger.workspace).1.toOption.map
        (fun summary => (summary.trigger, summary.transactions.map fun t => t.rules.map (·.rule))) =
      some ("manual", [[.int 1], [.int 1]]) := by
    cbv
  have hnumbers : ((overNumbers 1 (.list [.int 1, .int 2]) (.text "transaction_created")
      false).run.runOn SmallLedger.workspace).1.toOption.map
        (fun summary => (summary.trigger, summary.transactions.map fun t => t.rules.map (·.rule))) =
      some ("transaction_created", [[], []]) := by
    cbv
  obtain ⟨summary, hsummary, hshown⟩ := Option.map_eq_some_iff.1 hdates
  obtain ⟨summary', hsummary', hshown'⟩ := Option.map_eq_some_iff.1 hnumbers
  exact ⟨summary, summary', _, _, runOn_of_toOption hsummary, runOn_of_toOption hsummary', hshown,
    hshown'⟩

end RunRequest

end Rulebook
