import Rulebook.Proofs.Engine.Working

/-!
# How runs succeed

A run that gives a result has been through each of its steps, and every step has given a result in
turn.  There is one lemma for each part of a run, from the change as a whole down to the single
action, and it says all that the part can have done.  What holds of a run is then a matter of these
few cases, and no proof about results has to open the engine again.

Between the outcome of a rule and the next rule there is only the writing of the log, which touches
nothing that a rule can see (`Workspace.Logged`).

The fields that a run reports as changed are those that its actions report, in order.  A relation
that is indexed by these fields passes from the actions to the run as a whole
(`Workspace.Reporting`).

## Main definitions

* `Workspace.Logged` — nothing but the log has changed.
* `Workspace.Reporting` — a relation that depends on what is reported as changed.

## Main statements

* `atomically_eq_ok`, `Engine.runTransaction_eq_ok`, `Engine.runRules_cons_eq_ok`,
  `Engine.runRule_eq_ok`, `Engine.runActions_cons_eq_ok`, `runAction_cases` — the parts of a run.
* `Engine.reporting_runRules` — what holds of reported actions holds of the rules.
-/

namespace Rulebook

open Program Workspace

/-- How a change as a whole succeeds: within the larger change, and with all references holding
unless it is itself part of one. -/
theorem atomically_eq_ok {α : Type} {x : Operation α} {a : α} {w v : Workspace}
    (hrun : (atomically x).runOn w = (.ok a, v)) :
    ∃ u, x.runOn { w with isChanging := true } = (.ok a, u) ∧
      v = { u with isChanging := w.isChanging } ∧
      (w.isChanging || u.store.referencesHold) = true := by
  rw [runOn_atomically] at hrun
  rcases hinside : x.runOn { w with isChanging := true } with ⟨failure | b, u⟩ <;>
    rw [hinside] at hrun <;> dsimp only [settle] at hrun
  · cases hrun
  · split at hrun
    · next hholds =>
      cases hrun
      exact ⟨u, rfl, rfl, hholds⟩
    · cases hrun

/-! ## Writing the log -/

/-- The later workspace is the earlier one after something was logged, or nothing. -/
structure Workspace.Logged (w v : Workspace) : Prop where
  live : v.live = w.live
  store : v.store = { w.store with logs := v.store.logs }
  fields : v.fields = w.fields
  labels : v.labels = w.labels
  now : v.now = w.now
  isChanging : v.isChanging = w.isChanging
  notifications : v.notifications = w.notifications

namespace Workspace

variable {w v : Workspace}

instance : IsPreorder Workspace Logged where
  refl _ := ⟨rfl, rfl, rfl, rfl, rfl, rfl, rfl⟩
  trans w v u hv hu := by
    refine ⟨hu.live.trans hv.live, ?_, hu.fields.trans hv.fields, hu.labels.trans hv.labels,
      hu.now.trans hv.now, hu.isChanging.trans hv.isChanging,
      hu.notifications.trans hv.notifications⟩
    rw [hu.store, hv.store]

theorem Logged.transaction (hv : Logged w v) (h : Handle) : v.transaction h = w.transaction h := by
  rw [Workspace.transaction, hv.live, Workspace.transaction]

end Workspace

variable [Host]

namespace Engine

variable {e : Engine} {trigger : Trigger} {dryRun log : Bool} {h : Handle} {w v : Workspace}

omit [Host] in
theorem logged_logOutcome (h : Handle) (outcome : RuleOutcome) :
    Keeps Logged (e.logOutcome h outcome trigger dryRun) := by
  have hwrite : ∀ log : Log, Keeps Logged (e.writeLog log) := by
    intro log
    have hinsert : Keeps Logged (insertRow Store.logs (fun s t => { s with logs := t }) log) := by
      intro w
      rw [insertRow, runOn_writeResult]
      dsimp only
      split
      · exact ⟨rfl, rfl, rfl, rfl, rfl, rfl, rfl⟩
      · exact Std.Refl.refl w
    rw [writeLog]
    refine Keeps.bind (fun w => ⟨rfl, rfl, rfl, rfl, rfl, rfl, rfl⟩) fun _ => ?_
    refine Keeps.bind keeps_get fun w => ?_
    dsimp only
    split
    · exact (keeps_throw _).bind fun _ => hinsert.bind fun _ => keeps_pure _
    · exact hinsert.bind fun _ => keeps_pure _
  rw [logOutcome]
  refine Keeps.bind (fun w => Std.Refl.refl w) fun t => ?_
  split
  · split
    · exact Keeps.bind keeps_get fun w => hwrite _
    · exact keeps_pure _
  · exact keeps_pure _

/-! ## A transaction -/

/-- How a transaction goes through: it belongs to the user, the rules have outcomes, and the
observer does not object to the entry made of them. -/
theorem runTransaction_eq_ok {rules : List RuleDefinition} {t : TransactionSummary}
    (hrun : (e.runTransaction h rules trigger dryRun log).runOn w = (.ok t, v)) :
    ∃ u outcomes u', (ownerOf h).runOn w = (.ok (some e.user), u) ∧
      (e.runRules h trigger dryRun log rules).runOn u = (.ok outcomes, u') ∧
      (e.tellObserver h t dryRun).runOn u' = (.ok (), v) ∧
      t = .ofOutcomes (w.transaction h).id outcomes := by
  rw [runTransaction_eq, runOn_bind, runOn_transaction] at hrun
  obtain ⟨owner, u, howner, hrun⟩ := runOn_bind_eq_ok hrun
  obtain ⟨_, u₁, hcheck, hrun⟩ := runOn_bind_eq_ok hrun
  obtain ⟨outcomes, u', hrules, hrun⟩ := runOn_bind_eq_ok hrun
  obtain ⟨_, v', htell, hrun⟩ := runOn_bind_eq_ok hrun
  cases hrun
  split at hcheck
  · cases hcheck
  · next hmine =>
    cases hcheck
    rw [Decidable.not_not.1 hmine] at howner
    exact ⟨u, outcomes, u', howner, hrules, htell, rfl⟩

/-! ## Rules -/

/-- How the rules for a transaction run: the first has an outcome, which may be logged, and the
others follow unless it matches and ends them. -/
theorem runRules_cons_eq_ok {r : RuleDefinition} {rest : List RuleDefinition}
    {outcomes : List RuleOutcome}
    (hrun : (e.runRules h trigger dryRun log (r :: rest)).runOn w = (.ok outcomes, v)) :
    ∃ outcome u u', (runRule h r dryRun).runOn w = (.ok outcome, u) ∧ Logged u u' ∧
      ((outcomes = [outcome] ∧ v = u' ∧ outcome.matched = true) ∨
        ∃ later, outcomes = outcome :: later ∧
          (e.runRules h trigger dryRun log rest).runOn u' = (.ok later, v)) := by
  rw [runRules_cons] at hrun
  obtain ⟨outcome, u, hrule, hrun⟩ := runOn_bind_eq_ok hrun
  obtain ⟨_, u', hlog, hrun⟩ := runOn_bind_eq_ok hrun
  refine ⟨outcome, u, u', hrule, ?_, ?_⟩
  · split at hlog
    · have hlogged : Logged u ((e.logOutcome h outcome trigger dryRun).runOn u).2 :=
        logged_logOutcome h outcome u
      rwa [hlog] at hlogged
    · cases hlog
      exact Std.Refl.refl _
  · split at hrun
    · next hends =>
      cases hrun
      exact Or.inl ⟨rfl, rfl, (Bool.and_eq_true_iff.1 hends).1⟩
    · obtain ⟨later, u'', hrest, hrun⟩ := runOn_bind_eq_ok hrun
      cases hrun
      exact Or.inr ⟨later, rfl, hrest⟩

/-- How a rule runs: it is matched, and its actions run if it matches. -/
theorem runRule_eq_ok {r : RuleDefinition} {outcome : RuleOutcome}
    (hrun : (runRule h r dryRun).runOn w = (.ok outcome, v)) :
    ∃ u, (ruleMatches h r).runOn w = (.ok outcome.matched, u) ∧
      ((outcome.matched = false ∧ outcome.actions = [] ∧ v = u) ∨
        ∃ u', outcome.matched = true ∧
          (runActions h r dryRun r.actions).runOn u = (.ok outcome.actions, u') ∧ Looks h u' v) := by
  rw [runRule] at hrun
  obtain ⟨matched, u, hmatches, hrun⟩ := runOn_bind_eq_ok hrun
  cases matched with
  | false =>
      cases hrun
      exact ⟨_, hmatches, Or.inl ⟨rfl, rfl, rfl⟩⟩
  | true =>
      obtain ⟨actions, u', hactions, hrun⟩ := runOn_bind_eq_ok hrun
      dsimp only at hrun
      split at hrun
      · cases hrun
        exact ⟨u, hmatches, Or.inr ⟨u', rfl, hactions, looks_invalidate h u'⟩⟩
      · cases hrun
        exact ⟨u, hmatches, Or.inr ⟨_, rfl, hactions, Std.Refl.refl _⟩⟩

/-! ## Actions -/

/-- How the actions of a rule run: the first has an outcome, and the others follow unless it ends
them. -/
theorem runActions_cons_eq_ok {r : RuleDefinition} {a : Action} {rest : List Action}
    {outcomes : List ActionOutcome}
    (hrun : (runActions h r dryRun (a :: rest)).runOn w = (.ok outcomes, v)) :
    ∃ outcome u, (runAction a h dryRun).runOn w = (.ok outcome, u) ∧
      ((outcomes = [outcome] ∧ Looks h u v) ∨
        ∃ later, outcomes = outcome :: later ∧
          (runActions h r dryRun rest).runOn u = (.ok later, v)) := by
  rw [runActions] at hrun
  obtain ⟨outcome, u, hfirst, hrun⟩ := runOn_bind_eq_ok hrun
  refine ⟨outcome, u, hfirst, ?_⟩
  split at hrun
  · cases hrun
    exact Or.inl ⟨rfl, looks_report (h := h) _ u⟩
  · obtain ⟨later, u', hrest, hrun⟩ := runOn_bind_eq_ok hrun
    cases hrun
    exact Or.inr ⟨later, rfl, hrest⟩

end Engine

/-- What running an action within a larger change comes to: it only looks, or it is planned and the
plan is carried out. -/
theorem runAction_cases {a : Action} {h : Handle} {outcome : ActionOutcome} {w v : Workspace}
    (hw : w.isChanging = true) (hrun : (runAction a h false).runOn w = (.ok outcome, v)) :
    (outcome.succeeded = false ∧ outcome.changes = [] ∧ Looks h w v) ∨
      (outcome.succeeded = true ∧ ∃ kind u effect u',
        (Vocabulary.ofJson? a.kind : Option ActionKind) = some kind ∧ Looks h w u ∧
        (plan kind a h).runOn u = (.ok (some effect), u') ∧
        (effect.perform h).runOn u' = (.ok outcome.changes, v)) := by
  have hfailed : outcome.succeeded = false → Looks h w v := looks_runAction_failed hw hrun
  rw [runAction, runOn_bind, runOn_transaction] at hrun
  dsimp only at hrun
  split at hrun
  · cases hrun
    exact Or.inl ⟨rfl, rfl, hfailed rfl⟩
  · next kind hkind =>
    rw [runOn_tryCatch] at hrun
    rcases hattempt : (attemptAction kind a h false).runOn w with ⟨failure | o, u⟩ <;>
      rw [hattempt] at hrun <;> cases hrun
    · exact Or.inl ⟨rfl, rfl, hfailed rfl⟩
    · have hdescribe := looks_describe (h := h) a w
      rw [attemptAction] at hattempt
      obtain ⟨description, w₁, hfirst, hattempt⟩ := runOn_bind_eq_ok hattempt
      obtain ⟨effect, w₂, hplan, hattempt⟩ := runOn_bind_eq_ok hattempt
      rw [hfirst] at hdescribe
      cases effect with
      | none =>
          cases hattempt
          exact Or.inl ⟨rfl, rfl, hfailed rfl⟩
      | some effect =>
          obtain ⟨changes, w₃, hperform, hattempt⟩ := runOn_bind_eq_ok hattempt
          cases hattempt
          exact Or.inr ⟨rfl, kind, w₁, effect, w₂, hkind, hdescribe, hplan, hperform⟩

/-! ## What is reported along the way -/

/-- A relation between the workspaces before and after, given the fields that were reported as
changed.  It holds of a run as soon as it holds of its actions. -/
structure Workspace.Reporting (h : Handle) (dryRun : Bool)
    (A : List TransactionField → Workspace → Workspace → Prop) : Prop where
  looks : ∀ {w v}, Looks h w v → A [] w v
  logged : ∀ {w v}, Logged w v → A [] w v
  trans : ∀ {fields more w v u}, A fields w v → A more v u → A (fields ++ more) w u
  action : ∀ {a outcome w v}, (runAction a h dryRun).runOn w = (.ok outcome, v) →
    A outcome.changes w v

namespace Engine

section Reporting

variable {h : Handle} {dryRun : Bool} {A : List TransactionField → Workspace → Workspace → Prop}
  (hA : Reporting h dryRun A) {w v : Workspace}

include hA

theorem reporting_runActions {r : RuleDefinition} {actions : List Action}
    {outcomes : List ActionOutcome}
    (hrun : (runActions h r dryRun actions).runOn w = (.ok outcomes, v)) :
    A (outcomes.flatMap (·.changes)) w v := by
  induction actions generalizing w outcomes with
  | nil =>
      cases hrun
      exact hA.looks (Std.Refl.refl _)
  | cons a rest ih =>
      obtain ⟨outcome, u, hfirst, hrest⟩ := runActions_cons_eq_ok hrun
      have hstep := hA.action hfirst
      rcases hrest with ⟨rfl, hlooks⟩ | ⟨later, rfl, hrest⟩
      · exact hA.trans hstep (hA.looks hlooks)
      · exact hA.trans hstep (ih hrest)

theorem reporting_runRule {r : RuleDefinition} {outcome : RuleOutcome}
    (hrun : (runRule h r dryRun).runOn w = (.ok outcome, v)) : A outcome.changes w v := by
  obtain ⟨u, hmatches, hrest⟩ := runRule_eq_ok hrun
  have hlooks := looks_ruleMatches h r w
  rw [hmatches] at hlooks
  rw [RuleOutcome.changes]
  rcases hrest with ⟨-, hidle, rfl⟩ | ⟨u', -, hactions, hafter⟩
  · rw [hidle]
    exact hA.looks hlooks
  · have hbefore := hA.trans (hA.looks hlooks) (reporting_runActions hA hactions)
    have hall := hA.trans hbefore (hA.looks hafter)
    rwa [List.nil_append, List.append_nil] at hall

theorem reporting_runRules {e : Engine} {trigger : Trigger} {log : Bool}
    {rules : List RuleDefinition} {outcomes : List RuleOutcome}
    (hrun : (e.runRules h trigger dryRun log rules).runOn w = (.ok outcomes, v)) :
    A (outcomes.flatMap (·.changes)) w v := by
  induction rules generalizing w outcomes with
  | nil =>
      cases hrun
      exact hA.looks (Std.Refl.refl _)
  | cons r rest ih =>
      obtain ⟨outcome, u, u', hrule, hlogged, hrest⟩ := runRules_cons_eq_ok hrun
      have hstep := hA.trans (reporting_runRule hA hrule) (hA.logged hlogged)
      rcases hrest with ⟨rfl, rfl, -⟩ | ⟨later, rfl, hrest⟩
      · exact hstep
      · rw [List.append_nil] at hstep
        exact hA.trans hstep (ih hrest)

end Reporting

end Engine

end Rulebook
