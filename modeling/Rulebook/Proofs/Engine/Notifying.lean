import Mathlib
import Rulebook.Proofs.Engine.AuditTrail
import Rulebook.Proofs.Engine.Inversion
import Rulebook.Proofs.Engine.Receiving
import Rulebook.Proofs.Json.Showing

/-!
# Notifications and summaries

What a live run sends can be read off its summary.  The actions of a rule and their outcomes stand
side by side, since the outcomes are those of the first actions, and each outcome of a notification
that succeeded stands for one that was sent, with the text that is stored for its action.  From
there on it is a matter of order: actions within a rule, rules within a transaction, transactions
within the run.

Nothing is sent besides.  Matching, planning and logging are silent, and so is an action that fails,
for within the change of its transaction no effect fails once it was planned.  A transaction that
fails is another matter, because what it sent before cannot be taken back, and so the runs here are
those in which none does.

## Main definitions

* `ActionRow.message` — the text of a notification.
* `RunSummary.notifications` — the notifications that a summary stands for, in order.

## Main statements

* `EntryPoint.notified_as_reported` — every receiver is told these notifications, each once, and the
  run does not depend on the receivers.
-/

namespace Rulebook

open Program Workspace

section

/-! ## What a summary stands for -/

/-- The text of a notification: what is stored for its action, or the standing one if nothing is. -/
def ActionRow.message (a : ActionRow) : String :=
  match a.value with
  | some s => if s = "" then defaultMessage else s
  | none => defaultMessage

/-- The notification that the outcome of an action stands for, if any. -/
def ActionRow.notification? (a : ActionRow) (rule : Id) (transaction : Option Id)
    (outcome : ActionOutcome) : Option Notification :=
  if outcome.succeeded && outcome.kind = Vocabulary.code ActionKind.sendNotification then
    some ⟨some rule, transaction, a.message⟩
  else none

/-- The notifications that outcomes of the first actions of a rule stand for. -/
def notificationsOf (rule : Id) (transaction : Option Id) (actions : List (Id × ActionRow))
    (outcomes : List ActionOutcome) : List Notification :=
  (actions.zip outcomes).filterMap fun pair => pair.1.2.notification? rule transaction pair.2

/-- The notifications that the outcome of a stored rule stands for. -/
def RuleOutcome.notifications (s : Store) (transaction : Option Id) (outcome : RuleOutcome) :
    List Notification :=
  notificationsOf outcome.number transaction (s.actionsOf outcome.number) outcome.actions

/-- The notifications that the entry of a transaction stands for. -/
def TransactionSummary.notifications (s : Store) (t : TransactionSummary) : List Notification :=
  t.rules.flatMap (RuleOutcome.notifications s t.transaction)

/-- The notifications that a summary stands for. -/
def RunSummary.notifications (s : Store) (summary : RunSummary) : List Notification :=
  summary.transactions.flatMap (TransactionSummary.notifications s)

/-! ## Actions -/

variable [Host]

section Action

variable {h : Handle} {w v : Workspace} {row : Id × ActionRow} {outcome : ActionOutcome}

/-- A stored action that sends notifications has its text as its value, or nothing. -/
theorem message_eq_typedValue {value : Option ActionValue}
    (hkind : (Vocabulary.ofJson? (.text row.2.kind) : Option ActionKind) = some .sendNotification)
    (hvalue : (Action.ofRow row.1 row.2).typedValue = .ok value) :
    (encodeValue value).getD defaultMessage = row.2.message := by
  rw [Action.typedValue, Action.ofRow] at hvalue
  rw [ActionRow.message]
  cases hstored : row.2.value with
  | none =>
      rw [hstored, Json.ofText?, readValue.eq_def, hkind] at hvalue
      cases hvalue
      rfl
  | some s =>
      rw [hstored, Json.ofText?, readValue.eq_def, hkind] at hvalue
      dsimp only [Json.ofOption] at hvalue
      rw [Json.plain_text] at hvalue
      dsimp only [Bind.bind, Except.bind, readStored] at hvalue
      by_cases hempty : s = ""
      · rw [if_pos hempty] at hvalue
        cases hvalue
        exact (if_pos hempty).symm
      · rw [if_neg hempty] at hvalue
        cases hvalue
        exact (if_neg hempty).symm

omit [Host] in
theorem notice_planText {kind : ActionKind} {t : LiveTransaction} {owner : Id} {words : String}
    {effect : Effect} (hplan : planText kind t owner words = some effect) :
    effect.notice? = none := by
  cases kind with
  | setDescription | appendDescription | prependDescription | setNote | appendNote
  | createCategory | createMerchant =>
      cases hplan
      rfl
  | setType | createTag =>
      simp only [planText, Option.ite_none_right_eq_some, Option.some.injEq] at hplan
      obtain ⟨-, rfl⟩ := hplan
      rfl
  | _ => cases hplan

omit [Host] in
/-- What a planned effect sends: the notification of an action of that kind, else nothing. -/
theorem notice_planKind (kind : ActionKind) (a : Action) (value : Option ActionValue)
    (t : LiveTransaction) (owner : Id) :
    Gives (fun effect : Option Effect => ∀ e, effect = some e → e.notice? =
        if kind = .sendNotification then some (a.rule, (encodeValue value).getD defaultMessage)
        else none)
      (planKind kind a value t owner) := by
  have howned : ∀ labelKind (f : Option (Id × Label) → Option Effect),
      (∀ label e, f label = some e → e.notice? = none) →
      Gives (fun effect : Option Effect => ∀ e, effect = some e → e.notice? = none)
        (do return f (← ownedLabel labelKind value owner)) := fun labelKind f hf =>
    gives_bind fun label => gives_pure (hf label)
  have hmapped : ∀ (f : Id × Label → Effect), (∀ label, (f label).notice? = none) →
      ∀ (label : Option (Id × Label)) e, label.map f = some e → e.notice? = none := by
    intro f hf label e he
    obtain ⟨found, -, rfl⟩ := Option.map_eq_some_iff.1 he
    exact hf found
  cases kind with
  | setCategory => exact howned .category _ (hmapped _ fun _ => rfl)
  | setMerchant => exact howned .merchant _ (hmapped _ fun _ => rfl)
  | addTag =>
      refine howned .tag _ fun label e he => ?_
      split at he
      · exact hmapped _ (fun _ => rfl) label e he
      · cases he
  | removeTag => exact howned .tag _ (hmapped _ fun _ => rfl)
  | removeAllTags => exact gives_pure (by rintro e ⟨⟩; rfl)
  | markReconciled => exact gives_pure (by rintro e ⟨⟩; rfl)
  | sendNotification => exact gives_pure (by rintro e ⟨⟩; rfl)
  | _ =>
      rcases value with _ | ⟨_ | s⟩
      · exact gives_pure (by rintro e ⟨⟩)
      · exact gives_pure (by rintro e ⟨⟩)
      · exact gives_pure fun e he => notice_planText he

theorem kind_runAction {kind : ActionKind} {a : Action} {dryRun : Bool}
    (hkind : (Vocabulary.ofJson? a.kind : Option ActionKind) = some kind) :
    Gives (fun outcome => outcome.kind = Vocabulary.code kind) (runAction a h dryRun) := by
  rw [runAction]
  refine gives_bind fun t => ?_
  rw [hkind]
  refine Gives.tryCatch ?_ fun failure => gives_bind fun _ => gives_pure rfl
  rw [attemptAction]
  refine gives_bind fun description => gives_bind fun effect => ?_
  cases effect with
  | none => exact gives_pure rfl
  | some effect =>
      dsimp only
      split
      · exact gives_bind fun changes => gives_pure rfl
      · exact gives_bind fun changes => gives_pure rfl

/-- An action sends the notification that its outcome stands for. -/
theorem notifications_runAction (hw : w.isChanging = true)
    (hrun : (runAction (.ofRow row.1 row.2) h false).runOn w = (.ok outcome, v)) :
    v.notifications =
      (row.2.notification? row.2.rule (w.transaction h).id outcome).toList ++ w.notifications := by
  rcases runAction_cases hw hrun with
    ⟨hfailed, -, hlooks⟩ | ⟨hdone, kind, u, effect, u', hkind, hlooks, hplan, hperform⟩
  · rw [hlooks.notifications, ActionRow.notification?, hfailed]
    rfl
  · have hname : outcome.kind = Vocabulary.code kind := kind_runAction hkind w outcome v hrun
    have hsame : decide (outcome.kind = Vocabulary.code ActionKind.sendNotification) =
        decide (kind = .sendNotification) := by
      rw [hname]
      cases kind <;> decide
    have hplanned := looks_plan kind (.ofRow row.1 row.2) h u
    rw [hplan] at hplanned
    have hseen := hlooks.trans hplanned
    -- The plan knows the value of the action, and with it the text.
    rw [plan] at hplan
    obtain ⟨value, _, hvalue, hplan⟩ := runOn_bind_eq_ok hplan
    obtain ⟨owner, u₁, -, hplan⟩ := runOn_bind_eq_ok hplan
    have hnotice : effect.notice? = if kind = .sendNotification then
        some (some row.2.rule, (encodeValue value).getD defaultMessage) else none := by
      cases owner with
      | none => cases hplan
      | some owner =>
          obtain ⟨t, u₂, -, hplan⟩ := runOn_bind_eq_ok hplan
          exact notice_planKind kind _ value t owner u₂ _ u' hplan effect rfl
    rw [ActionRow.notification?, hdone, Bool.true_and, hsame]
    by_cases hsends : kind = .sendNotification
    · subst hsends
      have hmessage := message_eq_typedValue hkind (runOn_ofExcept_eq_ok hvalue).1
      rw [if_pos rfl, hmessage] at hnotice
      cases effect with
      | notify rule message =>
          cases hnotice
          have hsent := congrArg (fun run => run.2.notifications) hperform
          rw [← hsent, ← hseen.own.id_eq, ← hseen.notifications]
          rfl
      | _ => cases hnotice
    · rw [if_neg hsends] at hnotice
      have hsilent := (silent_perform h hnotice).notifications u'
      rw [hperform] at hsilent
      rw [if_neg (by simpa using hsends)]
      exact hsilent.trans hseen.notifications

end Action

namespace Engine

variable {e : Engine} {trigger : Trigger} {log : Bool} {rules : List RuleDefinition} {h : Handle}
  {w v : Workspace} {s : Store}

/-! ## Rules -/

/-- The actions of a rule send, one after the other, what their outcomes stand for. -/
theorem notifications_runActions {r : RuleDefinition} {rule : Id} {rows : List (Id × ActionRow)}
    (hrule : ∀ row ∈ rows, row.2.rule = rule) {outcomes : List ActionOutcome}
    (hw : w.isChanging = true)
    (hrun : (runActions h r false (rows.map fun row => .ofRow row.1 row.2)).runOn w =
      (.ok outcomes, v)) :
    v.notifications =
      (notificationsOf rule (w.transaction h).id rows outcomes).reverse ++ w.notifications := by
  induction rows generalizing w outcomes with
  | nil =>
      cases hrun
      rfl
  | cons row rest ih =>
      rw [List.map_cons] at hrun
      obtain ⟨outcome, u, hfirst, hrest⟩ := runActions_cons_eq_ok hrun
      have hsent := notifications_runAction hw hfirst
      rw [hrule row List.mem_cons_self] at hsent
      have hone : ∀ later, (notificationsOf rule (w.transaction h).id (row :: rest)
          (outcome :: later)).reverse =
          (notificationsOf rule (w.transaction h).id rest later).reverse ++
            (row.2.notification? rule (w.transaction h).id outcome).toList := by
        intro later
        rw [notificationsOf, List.zip_cons_cons, List.filterMap_cons, notificationsOf]
        cases row.2.notification? rule (w.transaction h).id outcome with
        | none => rw [Option.toList_none, List.append_nil]
        | some n => rw [List.reverse_cons, Option.toList_some]
      rcases hrest with ⟨rfl, hlooks⟩ | ⟨later, rfl, hlater⟩
      · rw [hlooks.notifications, hsent, hone, notificationsOf, List.zip_nil_right]
        rfl
      · have hworks := works_runAction (L := Eq) (.ofRow row.1 row.2) h false w
        rw [hfirst] at hworks
        have hmore := ih (fun row hrow => hrule row (List.mem_cons_of_mem _ hrow))
          (hworks.isChanging.trans hw) hlater
        rw [hmore, hsent, hworks.ownId, hone, List.append_assoc]

/-- A stored rule sends what its outcome stands for. -/
theorem notifications_runRule {rule : Id} {row : Rule} {outcome : RuleOutcome}
    (hw : w.isChanging = true)
    (hrun : (runRule h (.ofRow s rule row) false).runOn w = (.ok outcome, v)) :
    v.notifications =
      (outcome.notifications s (w.transaction h).id).reverse ++ w.notifications := by
  have hnumber : outcome.number = rule := by
    rw [RuleOutcome.number, (comesFrom_runRule ⟨s, rule, row, rfl⟩ hrun).rule]
    rfl
  obtain ⟨u, hmatches, hrest⟩ := runRule_eq_ok hrun
  have hlooks := looks_ruleMatches h (.ofRow s rule row) w
  rw [hmatches] at hlooks
  rw [RuleOutcome.notifications, hnumber]
  rcases hrest with ⟨-, hidle, rfl⟩ | ⟨u', -, hactions, hafter⟩
  · rw [hidle, notificationsOf, List.zip_nil_right]
    exact hlooks.notifications
  · have hrule : ∀ row ∈ s.actionsOf rule, row.2.rule = rule := by
      intro row hrow
      have hkept := (List.mem_filter.1 (List.mem_mergeSort.1 hrow)).2
      exact of_decide_eq_true hkept
    have hsent := notifications_runActions hrule (hlooks.isChanging.trans hw) hactions
    rw [hafter.notifications, hsent, hlooks.own.id_eq, hlooks.notifications]

/-- The rules for a transaction send, one after the other, what their outcomes stand for. -/
theorem notifications_runRules (hstored : ∀ r ∈ rules, ∃ rule row, r = .ofRow s rule row)
    {outcomes : List RuleOutcome} (hw : w.isChanging = true)
    (hrun : (e.runRules h trigger false log rules).runOn w = (.ok outcomes, v)) :
    v.notifications =
      (outcomes.flatMap (·.notifications s (w.transaction h).id)).reverse ++ w.notifications := by
  induction rules generalizing w outcomes with
  | nil =>
      cases hrun
      rfl
  | cons r rest ih =>
      obtain ⟨rule, row, rfl⟩ := hstored r List.mem_cons_self
      obtain ⟨outcome, u, u', hrule, hlogged, hrest⟩ := runRules_cons_eq_ok hrun
      have hworks := works_runRule (L := Eq) h (.ofRow s rule row) false w
      rw [hrule] at hworks
      have hsent := hlogged.notifications.trans (notifications_runRule hw hrule)
      rcases hrest with ⟨rfl, rfl, -⟩ | ⟨later, rfl, hlater⟩
      · rw [hsent, List.flatMap_singleton]
      · have hmore := ih (fun r hr => hstored r (List.mem_cons_of_mem _ hr))
          ((hlogged.isChanging.trans hworks.isChanging).trans hw) hlater
        have hid : (u'.transaction h).id = (w.transaction h).id := by
          rw [hlogged.transaction, hworks.ownId]
        rw [hmore, hsent, hid, List.flatMap_cons, List.reverse_append, List.append_assoc]

/-! ## Transactions -/

section Observed

variable (hstored : ∀ r ∈ rules, ∃ rule row, r = .ofRow s rule row)
  (hobserver : ∀ observer, e.observer = some observer →
    ∀ h summary, Silent (observer h summary))

include hstored hobserver

/-- A transaction that does not fail sends what its entry stands for. -/
theorem notifications_processOne {t : TransactionSummary} (hfine : t.error = none)
    (hrun : (e.processOne rules trigger false log h).runOn w = (.ok t, v)) :
    v.notifications = (t.notifications s).reverse ++ w.notifications := by
  rw [runOn_processOne] at hrun
  rcases hchange : (atomically (e.runTransaction h rules trigger false log)).runOn w
    with ⟨failure | t', u⟩ <;> rw [hchange] at hrun <;> dsimp only at hrun
  · -- The entry of a transaction that failed says so.
    rcases hdropped : (discard h).runOn u with ⟨failure' | _, u'⟩ <;> rw [hdropped] at hrun <;>
      cases hrun
    cases hfine
  · cases hrun
    obtain ⟨u', hinside, rfl, -⟩ := atomically_eq_ok hchange
    obtain ⟨u₁, outcomes, u₂, howner, hrules, htold, ht⟩ := runTransaction_eq_ok hinside
    have hlooks := looks_ownerOf h { w with isChanging := true }
    rw [howner] at hlooks
    have hsent := notifications_runRules hstored hlooks.isChanging hrules
    have htell : Silent (e.tellObserver h t false) := silent_tellObserver hobserver h t
    have hkept := htell.notifications u₂
    rw [htold] at hkept
    rw [hlooks.own.id_eq, hlooks.notifications] at hsent
    rw [ht]
    exact hkept.trans hsent

/-- A pass over transactions none of which fails sends what their entries stand for. -/
theorem notifications_mapM {handles : List Handle} {transactions : List TransactionSummary}
    (hfine : ∀ t ∈ transactions, t.error = none)
    (hrun : (handles.mapM (e.processOne rules trigger false log)).runOn w =
      (.ok transactions, v)) :
    v.notifications =
      (transactions.flatMap (TransactionSummary.notifications s)).reverse ++ w.notifications := by
  induction handles generalizing w transactions with
  | nil =>
      cases hrun
      rfl
  | cons h rest ih =>
      rw [List.mapM_cons] at hrun
      obtain ⟨t, u, hfirst, hrun⟩ := runOn_bind_eq_ok hrun
      obtain ⟨later, u', hrest, hrun⟩ := runOn_bind_eq_ok hrun
      cases hrun
      have hsent := notifications_processOne hstored hobserver (hfine t List.mem_cons_self) hfirst
      have hmore := ih (fun t ht => hfine t (List.mem_cons_of_mem _ ht)) hrest
      rw [hmore, hsent, List.flatMap_cons, List.reverse_append, List.append_assoc]

end Observed

end Engine

/-! ## Runs -/

/-- A live run in which no transaction fails sends what its summary stands for. -/
theorem EntryPoint.notifications_start {e : Engine}
    (hobserver : ∀ observer, e.observer = some observer →
      ∀ h summary, Silent (observer h summary))
    {p : EntryPoint} (hlogged : p.isLogged = true) {w v : Workspace} {summary : RunSummary}
    (hrun : (p.start e false).runOn w = (.ok summary, v))
    (hfine : ∀ t ∈ summary.transactions, t.error = none) :
    v.notifications = (summary.notifications w.store).reverse ++ w.notifications := by
  have hdry : p.isDry false = false := by
    cases p with
    | preview source definition => cases hlogged
    | _ => rfl
  rw [p.runOn_start] at hrun
  rcases hcandidates : p.candidates e w with failure | ⟨trigger, rules⟩ <;>
    rw [hcandidates] at hrun <;> dsimp only at hrun
  · cases hrun
  · rw [hdry, Engine.runOn_process] at hrun
    have hstored : ∀ r ∈ rules, ∃ rule row, r = .ofRow w.store rule row := by
      intro r hr
      obtain ⟨rule, row, -, hrow⟩ := exists_of_candidates hlogged hcandidates hr
      exact ⟨rule, row, hrow⟩
    rcases hpass : ((p.source.handles e w).mapM (e.processOne rules trigger false p.isLogged)).runOn
      (p.source.opened e w) with ⟨failure | transactions, u⟩ <;> rw [hpass] at hrun <;> cases hrun
    have hsent := Engine.notifications_mapM hstored hobserver hfine hpass
    exact hsent

/-- In a live run in which no transaction fails, every receiver is told one notification for each
that the summary reports as sent, each once, in the order of the transactions, their rules and the
actions of these, with the number of the rule, that of the transaction and the text of the action.
With any other receivers, whether they fail or not, the run has the same summary and leaves the same
behind, but for what these receivers were told and for the events. -/
theorem EntryPoint.notified_as_reported {e : Engine}
    (hobserver : ∀ observer, e.observer = some observer →
      ∀ h summary, Silent (observer h summary))
    (p : EntryPoint) (hlogged : p.isLogged = true) {w v : Workspace} {summary : RunSummary}
    (hrun : (p.start e false).runOn w = (.ok summary, v))
    (hfine : ∀ t ∈ summary.transactions, t.error = none) :
    v.receivers = w.receivers.map (·.tellAll (summary.notifications w.store)) ∧
      ∀ receivers, ∃ events, (p.start e false).runOn { w with receivers } =
        (.ok summary, { v with
          receivers := receivers.map (·.tellAll (summary.notifications w.store))
          events }) := by
  obtain ⟨ns, hsends⟩ := p.broadcasts_start hobserver false w
  have hsent := hsends.sent
  rw [hrun, notifications_start hobserver hlogged hrun hfine, List.append_left_inj,
    List.reverse_inj] at hsent
  have htold := hsends.receivers
  have hheard := hsends.heard
  rw [hrun, ← hsent] at htold hheard
  refine ⟨htold, fun receivers => ?_⟩
  obtain ⟨events, hother⟩ := hheard receivers w.events
  exact ⟨events, hother⟩

end

namespace SmallLedger

/-- The ledger, with a rule that sends a text of its own and then the standing one. -/
def notifyingStore : Store :=
  { store with
    actions := (Table.insert {} ⟨1, "send_notification", some "Bread again", 1, false⟩).insert
      ⟨1, "send_notification", none, 2, false⟩ }

/-- The ledger with two receivers, of which the first fails at everything. -/
def heardWorkspace : Workspace :=
  { workspace with
    store := notifyingStore
    receivers := [⟨[], fun _ _ => true⟩, ⟨[], fun _ _ => false⟩] }

/-- The notifications for the two transactions of the ledger, the latest first. -/
def breadNotifications : List Notification :=
  [⟨some 1, some 2, defaultMessage⟩, ⟨some 1, some 2, "Bread again"⟩,
    ⟨some 1, some 1, defaultMessage⟩, ⟨some 1, some 1, "Bread again"⟩]

/-- Both receivers are told about both transactions, and without receivers the run leaves the same
behind. -/
theorem notified_about_bread :
    ∃ summary v, ((EntryPoint.forTrigger (.held [1, 2]) (.text "manual")).start
          { user := 1, isLogging := true, observer := some persistChanges } false).runOn
        heardWorkspace = (.ok summary, v) ∧
      v.receivers.map (·.told) = [breadNotifications, breadNotifications] ∧
      ∃ events, ((EntryPoint.forTrigger (.held [1, 2]) (.text "manual")).start
          { user := 1, isLogging := true, observer := some persistChanges } false).runOn
        { heardWorkspace with receivers := [] } =
          (.ok summary, { v with receivers := [], events }) := by
  have hshown : ((((EntryPoint.forTrigger (.held [1, 2]) (.text "manual")).start
        { user := 1, isLogging := true, observer := some persistChanges } false).runOn
      heardWorkspace).1.toOption.map fun summary =>
        (summary.transactions.map (·.error), (summary.notifications notifyingStore).reverse)) =
      some ([none, none], breadNotifications) := by
    cbv
  obtain ⟨summary, hsummary, hshown⟩ := Option.map_eq_some_iff.1 hshown
  obtain ⟨hnone, hnotifications⟩ := Prod.mk.inj hshown
  have hfine : ∀ t ∈ summary.transactions, t.error = none := by
    intro t ht
    have herror := List.mem_map_of_mem (f := (·.error)) ht
    rw [hnone] at herror
    simpa using herror
  obtain ⟨hreceivers, hothers⟩ := EntryPoint.notified_as_reported
    (e := { user := 1, isLogging := true, observer := some persistChanges })
    (fun observer hobserver h summary => by
      cases hobserver
      exact silent_persistChanges h summary)
    (.forTrigger (.held [1, 2]) (.text "manual")) rfl (runOn_of_toOption hsummary) hfine
  refine ⟨summary, _, runOn_of_toOption hsummary, ?_, hothers []⟩
  rw [hreceivers, ← hnotifications, List.map_map]
  simp [heardWorkspace, Receiver.tellAll]

end SmallLedger

end Rulebook
