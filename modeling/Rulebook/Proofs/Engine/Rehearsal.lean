import Rulebook.Proofs.Engine.Attempts
import Rulebook.Proofs.Engine.DryRun
import Rulebook.Proofs.Engine.Sight

/-!
# A rule on a transaction, without consequences

A dry run of one rule on one transaction reports the outcome of the rule and nothing else.  Three
things could come between: the transaction belongs to somebody else, the log cannot be written, or
the references do not hold once the log is written.  The first two are excluded by assumption, and
the third cannot happen, because a log refers to a rule and a transaction that are there.

## Main definitions

* `Engine.CanLog` — what logging an outcome takes.

## Main statements

* `Engine.process_dry_single` — the report of a dry run on one transaction.
-/

namespace Rulebook

open Program Workspace

/-- A log whose rule and transaction are there does not break references. -/
theorem Store.referencesHold_insert_log {s : Store} {log : Log} (hs : s.referencesHold = true)
    (hrule : s.rules.has log.rule = true) (hrow : s.transactions.has log.transaction = true) :
    { s with logs := s.logs.insert log }.referencesHold = true := by
  rw [referencesHold_eq, Bool.and_eq_true] at hs ⊢
  refine ⟨hs.1, ?_⟩
  have hlogs := hs.2
  simp only [logsHold, every, Table.insert, List.all_append] at hlogs ⊢
  simp [hlogs, hrule, hrow]

namespace Engine

variable {e : Engine} {h : Handle} {trigger : Trigger} {dryRun : Bool} {w : Workspace}

/-- The log of an outcome refers to a rule and a transaction that are there. -/
theorem logOutcome_succeeds (hfails : e.failingLog = none) {outcome : RuleOutcome}
    (hw : w.isChanging = true) (hrow : w.HasRowIfSaved h)
    (hrule : ∀ n, outcome.rule = .int n → w.store.rules.has n = true) :
    ∃ v, (e.logOutcome h outcome trigger dryRun).runOn w = (.ok (), v) ∧
      (w.store.referencesHold = true → v.store.referencesHold = true) := by
  rw [logOutcome, runOn_bind, runOn_transaction]
  dsimp only
  split
  · next n id hn hid =>
    split
    · rw [runOn_bind, runOn_get]
      dsimp only
      rw [runOn_writeLog e _ hw, hfails, if_neg (Option.some_ne_none _).symm]
      refine ⟨_, rfl, fun hholds => ?_⟩
      exact Store.referencesHold_insert_log hholds (hrule n hn) (hrow id hid)
    · exact ⟨w, rfl, fun hholds => hholds⟩
  · exact ⟨w, rfl, fun hholds => hholds⟩

/-! ## One rule on one transaction -/

variable [Host]

section Single

variable {r : RuleDefinition} {outcome : RuleOutcome} {log : Bool}

/-- What logging an outcome takes, if there is logging: a log that can be written, a rule that has a
row if it has a number, and likewise the transaction. -/
structure CanLog (e : Engine) (h : Handle) (rule : Json) (w : Workspace) : Prop where
  writes : e.failingLog = none
  transaction : w.HasRowIfSaved h
  rule : ∀ n, rule = .int n → w.store.rules.has n = true

omit [Host] in
theorem CanLog.of_looks {rule : Json} {v : Workspace} (hcan : CanLog e h rule w)
    (hlooks : Looks h w v) : CanLog e h rule v where
  writes := hcan.writes
  transaction := by
    intro id hid
    rw [hlooks.own.id_eq] at hid
    rw [hlooks.store]
    exact hcan.transaction id hid
  rule := by
    rw [hlooks.store]
    exact hcan.rule

variable (trigger) in
/-- A rule that has its outcome is logged, and then there is nothing left to do for it. -/
theorem runRules_dry_single {u : Workspace} (hu : u.isChanging = true)
    (hrun : (runRule h r true).runOn w = (.ok outcome, u))
    (hlog : log = true → CanLog e h outcome.rule u) :
    ∃ v, (e.runRules h trigger true log [r]).runOn w = (.ok [outcome], v) ∧
      (u.store.referencesHold = true → v.store.referencesHold = true) := by
  have hlogged : ∃ v, (if log then e.logOutcome h outcome trigger true else return () :
      Operation Unit).runOn u = (.ok (), v) ∧
      (u.store.referencesHold = true → v.store.referencesHold = true) := by
    cases log with
    | false => exact ⟨u, rfl, fun hholds => hholds⟩
    | true =>
        have hcan := hlog rfl
        exact logOutcome_succeeds hcan.writes hu hcan.transaction hcan.rule
  obtain ⟨v, hlogs, hholds⟩ := hlogged
  refine ⟨v, ?_, hholds⟩
  rw [runRules_cons, runOn_bind, hrun]
  dsimp only
  rw [runOn_bind, hlogs]
  dsimp only
  split <;> rfl

variable {s : Store} {t : LiveTransaction} (trigger) (hmine : t.owner s = .ok (some e.user))
  (houtcome : Tells (Sees h s t) (.ok outcome) (runRule h r true))

include hmine houtcome

/-- Within the change, the owner is recognised, the rule has its outcome, and nobody is told. -/
theorem runTransaction_dry_single (hw : w.Sees h s t) (hchanging : w.isChanging = true)
    (hlog : log = true → CanLog e h outcome.rule w) :
    ∃ v, (e.runTransaction h [r] trigger true log).runOn w = (.ok (.ofOutcomes t.id [outcome]), v) ∧
      (w.store.referencesHold = true → v.store.referencesHold = true) := by
  have howner := tells_ownerOf w hw
  have hlooks := looks_ownerOf h w
  rcases hfirst : (ownerOf h).runOn w with ⟨result, u⟩
  rw [hfirst] at howner hlooks
  obtain ⟨rfl, hu⟩ := howner
  have hresult := houtcome u hu
  have hlooks' := IsTrans.trans _ _ _ hlooks (looks_runRule_dry h r u)
  rcases hrule : (runRule h r true).runOn u with ⟨result, u'⟩
  rw [hrule] at hresult hlooks'
  obtain ⟨rfl, -⟩ := hresult
  obtain ⟨v, hrules, hholds⟩ := runRules_dry_single (e := e) trigger
    (hlooks'.isChanging.trans hchanging) hrule fun hl => (hlog hl).of_looks hlooks'
  rw [hlooks'.store] at hholds
  refine ⟨v, ?_, hholds⟩
  have htell : (e.tellObserver h (.ofOutcomes (w.transaction h).id [outcome]) true).runOn v =
      (.ok (), v) := by
    rw [tellObserver]
    cases e.observer <;> rfl
  rw [runTransaction_eq, runOn_bind, runOn_transaction]
  dsimp only
  rw [runOn_bind, hfirst, hmine]
  dsimp only
  rw [runOn_bind, if_neg (not_not_intro rfl), runOn_pure]
  dsimp only
  rw [runOn_bind, hrules]
  dsimp only
  rw [runOn_bind, htell, ← hw.own.id_eq]
  rfl

/-- As nothing fails and the references hold afterwards, the change is kept. -/
theorem processOne_dry_single (hw : w.Sees h s t)
    (hlog : log = true → CanLog e h outcome.rule w)
    (hholds : (w.isChanging || w.store.referencesHold) = true) :
    ∃ v, (e.processOne [r] trigger true log h).runOn w = (.ok (.ofOutcomes t.id [outcome]), v) := by
  have hinside : Sees h s t { w with isChanging := true } :=
    ⟨hw.store, hw.own, hw.fields, hw.labels⟩
  obtain ⟨v, hrun, hkept⟩ := runTransaction_dry_single trigger hmine houtcome hinside rfl
    fun hl => ⟨(hlog hl).writes, (hlog hl).transaction, (hlog hl).rule⟩
  have hsettled : (w.isChanging || v.store.referencesHold) = true := by
    rw [Bool.or_eq_true] at hholds ⊢
    exact hholds.imp_right hkept
  rw [runOn_processOne, runOn_atomically, hrun]
  dsimp only [settle]
  rw [if_pos hsettled]
  exact ⟨_, rfl⟩

end Single

/-- A dry run of one rule on one transaction of the user reports the outcome of the rule. -/
theorem process_dry_single {r : RuleDefinition} {outcome : RuleOutcome} {log : Bool}
    (hmine : (w.transaction h).owner w.store = .ok (some e.user))
    (houtcome : Tells (Sees h w.store (w.transaction h)) (.ok outcome) (runRule h r true))
    (hlog : log = true → CanLog e h outcome.rule w)
    (hholds : (w.isChanging || w.store.referencesHold) = true) :
    ((e.process (Source.batch e (.held [h])) [r] trigger true log).runOn w).1 =
      .ok ⟨true, Vocabulary.code trigger, [.ofOutcomes (w.transaction h).id [outcome]]⟩ := by
  -- The caches are empty when the run begins, so that nothing in them can be wrong.
  have hsees : Sees h w.store (w.transaction h) ((Source.held [h]).opened e w) :=
    ⟨rfl, Std.Refl.refl _, nofun, nofun⟩
  obtain ⟨v, hrun⟩ := processOne_dry_single trigger hmine houtcome hsees
    (fun hl => ⟨(hlog hl).writes, (hlog hl).transaction, (hlog hl).rule⟩) hholds
  have hpass : ([h].mapM (e.processOne [r] trigger true log)).runOn ((Source.held [h]).opened e w) =
      (.ok [.ofOutcomes (w.transaction h).id [outcome]], v) := by
    rw [List.mapM_cons, runOn_bind, hrun]
    rfl
  have hhandles : (Source.held [h]).handles e w = [h] := rfl
  rw [runOn_process, hhandles, hpass]

end Engine

end Rulebook
