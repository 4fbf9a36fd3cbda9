import Rulebook.Proofs.Engine.Parallel

/-!
# Dry runs

A dry run shows what a run would do.  It looks up rows, fills the caches and reports events, and it
writes logs that are marked as such; apart from that everything is as before
(`Workspace.Rehearsed`).

The relation is a preorder, so it holds of a run because it holds of its steps, with one exception.
A transaction that fails is read again from its row, which changes nothing only if it agreed with
its row before (`LiveTransaction.IsCurrent`).  Agreeing includes the rows that were looked up: an
account that somebody keeps in memory and that is not what is stored would be gone afterwards.

What is left of a dry run cannot be seen by later runs, since workspaces before and after are alike
in the sense of `Workspace.Alike`.  Two things have to be matched for that: transactions that a
later run loads get higher names after the dry run, and references of the logs that were added hold
whenever those of the older logs do.

## Main definitions

* `Log.IsDry` — the log of a dry run.
* `LiveTransaction.IsCurrent` — the transaction agrees with its row.
* `Workspace.Rehearsed` — what a dry run leaves behind.

## Main statements

* `EntryPoint.dry_run_changes_nothing` — nothing else is changed, and no run can tell.
-/

namespace Rulebook

open Program Workspace

section

/-! ## What a dry run leaves behind -/

/-- The log says that it is the log of a dry run. -/
def Log.IsDry (log : Log) : Prop := log.context.find "dry_run" = .ok (some (.bool true))

/-- Logs of dry runs were added, or none at all unless evaluations are logged. -/
def DryLogs (isLogged : Bool) (before after : Table Log) : Prop :=
  ∃ added, after = before.insertAll added ∧ (∀ log ∈ added, log.IsDry) ∧
    (isLogged = false → added = [])

instance (isLogged : Bool) : IsPreorder (Table Log) (DryLogs isLogged) where
  refl _ := ⟨[], rfl, fun _ h => (List.not_mem_nil h).elim, fun _ => rfl⟩
  trans a b c := by
    rintro ⟨first, rfl, hfirst, hnone⟩ ⟨later, rfl, hlater, hnone'⟩
    refine ⟨first ++ later, (Table.insertAll_append _ _ _).symm, ?_, ?_⟩
    · exact List.forall_mem_append.2 ⟨hfirst, hlater⟩
    · intro hlogged
      rw [hnone hlogged, hnone' hlogged, List.append_nil]

/-- The transaction has no row, or it agrees with its row, and the rows that it has looked up are
stored. -/
def LiveTransaction.IsCurrent (s : Store) (t : LiveTransaction) : Prop :=
  ∀ id, t.id = some id →
    ∃ row, s.transactions.find? id = some row ∧ (LiveTransaction.ofRow id row).Alike s t

namespace Workspace

/-- The workspace without the parts that a dry run may change. -/
def quiet (w : Workspace) : Workspace := { w.still with store := {}, logWrites := 0 }

/-- The later workspace is the earlier one after a dry run. -/
structure Rehearsed (isLogged : Bool) (w v : Workspace) : Prop where
  quiet : v.quiet = w.quiet
  store : v.store = { w.store with logs := v.store.logs }
  logs : DryLogs isLogged w.store.logs v.store.logs
  logsHold : w.isChanging = true ∨ v.store.logsHold = w.store.logsHold
  held : ∀ k, w.live.has k = true → v.live.has k = true
  transactions : ∀ k, w.live.has k = true → (w.transaction k).Alike w.store (v.transaction k)

namespace Rehearsed

variable {isLogged : Bool} {w v : Workspace}

theorem isChanging (hr : Rehearsed isLogged w v) : v.isChanging = w.isChanging := by
  have hchanging := congrArg Workspace.isChanging hr.quiet
  exact hchanging

theorem now (hr : Rehearsed isLogged w v) : v.now = w.now := by
  have hnow := congrArg Workspace.now hr.quiet
  exact hnow

theorem settings (hr : Rehearsed isLogged w v) : v.settings = w.settings := by
  have hsettings := congrArg Workspace.settings hr.quiet
  exact hsettings

theorem notifications (hr : Rehearsed isLogged w v) : v.notifications = w.notifications := by
  have hnotifications := congrArg Workspace.notifications hr.quiet
  exact hnotifications

/-- What is stored besides the logs can be looked up as before. -/
theorem alike_store_iff (hr : Rehearsed isLogged w v) {t u : LiveTransaction} :
    t.Alike v.store u ↔ t.Alike w.store u := by
  rw [hr.store]
  exact ⟨fun h => ⟨h.bare, h.account, h.category, h.merchant⟩,
    fun h => ⟨h.bare, h.account, h.category, h.merchant⟩⟩

instance : IsPreorder Workspace (Rehearsed isLogged) where
  refl _ := ⟨rfl, rfl, Std.Refl.refl _, Or.inr rfl, fun _ => id, fun _ _ => Std.Refl.refl _⟩
  trans w v u hwv hvu :=
    { quiet := hvu.quiet.trans hwv.quiet
      store := by
        rw [hvu.store, hwv.store]
      logs := IsTrans.trans _ _ _ hwv.logs hvu.logs
      logsHold := by
        refine hwv.logsHold.elim Or.inl fun hfirst => ?_
        rw [← hwv.isChanging, ← hfirst]
        exact hvu.logsHold
      held := fun k hk => hvu.held k (hwv.held k hk)
      transactions := fun k hk =>
        IsTrans.trans _ _ _ (hwv.transactions k hk)
          (hwv.alike_store_iff.1 (hvu.transactions k (hwv.held k hk))) }

theorem trans {u : Workspace} (hwv : Rehearsed isLogged w v) (hvu : Rehearsed isLogged v u) :
    Rehearsed isLogged w u := IsTrans.trans _ _ _ hwv hvu

/-- Transactions that agree with their rows still do. -/
theorem isCurrent (hr : Rehearsed isLogged w v) {k : Handle} (hk : w.live.has k = true)
    (hcurrent : (w.transaction k).IsCurrent w.store) : (v.transaction k).IsCurrent v.store := by
  have halike := hr.transactions k hk
  intro id hid
  rw [halike.id_eq] at hid
  obtain ⟨row, hrow, hagrees⟩ := hcurrent id hid
  refine ⟨row, ?_, hr.alike_store_iff.2 (IsTrans.trans _ _ _ hagrees halike)⟩
  rw [hr.store]
  exact hrow

end Rehearsed

/-- Looking is rehearsing. -/
theorem Looks.rehearsed {isLogged : Bool} {h : Handle} {w v : Workspace} (hl : Looks h w v) :
    Rehearsed isLogged w v where
  quiet := congrArg (fun u : Workspace => { u with store := {}, logWrites := 0 }) hl.still
  store := by
    rw [hl.store]
  logs := by
    rw [hl.store]
    exact Std.Refl.refl _
  logsHold := by
    rw [hl.store]
    exact Or.inr rfl
  held k hk := by
    rw [Table.has_congr hl.handles]
    exact hk
  transactions k _ := by
    by_cases hk : k = h
    · rw [hk]
      exact hl.own.alike
    · rw [hl.others k hk]
      exact Std.Refl.refl _

end Workspace

theorem rehearsed_of_looks {α : Type} {x : Operation α} {h : Handle} (hx : Keeps (Looks h) x)
    (isLogged : Bool) : Keeps (Rehearsed isLogged) x :=
  hx.mono fun _ _ hl => hl.rehearsed

section Steps

variable {h : Handle} {w : Workspace} {isLogged : Bool}

/-- Replacing a transaction by one that is alike. -/
theorem rehearsed_change {f : LiveTransaction → LiveTransaction}
    (hf : (w.transaction h).Alike w.store (f (w.transaction h))) :
    Rehearsed isLogged w { w with live := w.live.update h f } := by
  have hrefl : Rehearsed isLogged w w := Std.Refl.refl w
  refine { hrefl with held := fun k hk => ?_, transactions := fun k hk => ?_ }
  · rw [Table.has_update]
    exact hk
  · by_cases hkh : k = h
    · subst hkh
      rw [transaction_update_self hk]
      exact hf
    · rw [transaction_update_of_ne hkh]
      exact Std.Refl.refl _

/-- Dropping a change leaves the transaction as it was, if it agrees with its row. -/
theorem rehearsed_discard (hcurrent : (w.transaction h).IsCurrent w.store) :
    ∃ v, (Engine.discard h).runOn w = (.ok (), v) ∧ Rehearsed isLogged w v := by
  have hcleared : Rehearsed isLogged w
      { w with labels := [], fields := w.fields.forget (w.transaction h).id } :=
    (looks_caches h w w.events (keepsEntries_forget _ _) fun _ => labelsAgree_nil w).rehearsed
  rw [runOn_discard, runOn_refresh]
  split
  · exact ⟨_, rfl, hcleared⟩
  · next id hid =>
    obtain ⟨row, hrow, hagrees⟩ := hcurrent id hid
    dsimp only
    rw [hrow]
    exact ⟨_, rfl, hcleared.trans (rehearsed_change hagrees.symm)⟩

/-- Once the references of all logs hold, adding the newer ones has changed nothing about that.
References are checked only when the outermost change is made final. -/
theorem logsHold_of_commit {s t : Store} (hstore : t = { s with logs := t.logs })
    (hlogs : DryLogs isLogged s.logs t.logs) {changing : Bool}
    (hcommit : (changing || t.referencesHold) = true) :
    changing = true ∨ t.logsHold = s.logsHold := by
  refine (Bool.or_eq_true_iff.1 hcommit).imp id fun hhold => ?_
  rw [Store.referencesHold_eq] at hhold
  have hlater := (Bool.and_eq_true_iff.1 hhold).2
  obtain ⟨added, hadded, -, -⟩ := hlogs
  have hgrows : s.logs.Grows t.logs := by
    rw [hadded]
    exact Table.grows_insertAll _ _
  have hearlier : s.logsHold = true := by
    have hall := hlater
    rw [Store.logsHold, Store.every, List.all_eq_true] at hall ⊢
    intro row hrow
    have hholds := hall row (hgrows.rows.subset hrow)
    rw [hstore] at hholds
    exact hholds
  rw [hlater, hearlier]

/-- A change that is rehearsed as a whole. -/
theorem rehearsed_atomically {α : Type} {x : Operation α} (hx : Keeps (Rehearsed isLogged) x) :
    Keeps (Rehearsed isLogged) (atomically x) := by
  intro w
  have hinside := hx { w with isChanging := true }
  have hquiet := congrArg (fun v : Workspace => { v with isChanging := w.isChanging }) hinside.quiet
  have hback : Rehearsed isLogged w { (x.runOn { w with isChanging := true }).2 with
      isChanging := w.isChanging, store := w.store } :=
    ⟨hquiet, rfl, Std.Refl.refl _, Or.inr rfl, hinside.held, hinside.transactions⟩
  rw [runOn_atomically, settle.eq_def]
  split
  · split
    · next hcommit =>
      exact { hback with
        store := hinside.store
        logs := hinside.logs
        logsHold := logsHold_of_commit hinside.store hinside.logs hcommit }
    · exact hback
  · exact hback

end Steps

/-! ## A dry run of a transaction -/

variable [Host]

namespace Engine

variable {e : Engine} {trigger : Trigger} {isLogged : Bool} {h : Handle} {w v : Workspace}

theorem looks_runRule_dry (h : Handle) (r : RuleDefinition) : Keeps (Looks h) (runRule h r true) :=
  keeps_runRule (fun _ _ hl => hl) (looks_runAction_dry · h) r

omit [Host] in
theorem rehearsed_writeLog {log : Log} (hlog : log.IsDry) :
    Keeps (Rehearsed true) (e.writeLog log) := by
  have hinsert : Keeps (Rehearsed true)
      (insertRow Store.logs (fun s t => { s with logs := t }) log) := by
    intro v
    have hlogs : DryLogs true v.store.logs (v.store.logs.insert log) := by
      refine ⟨[log], rfl, fun l hl => ?_, fun hnone => nomatch hnone⟩
      rw [List.mem_singleton.1 hl]
      exact hlog
    have hrefl : Rehearsed true v v := Std.Refl.refl v
    rw [insertRow, runOn_writeResult]
    dsimp only
    split
    · next hcommit =>
      exact { hrefl with
        store := rfl
        logs := hlogs
        logsHold := logsHold_of_commit (t := { v.store with logs := v.store.logs.insert log }) rfl
          hlogs hcommit }
    · exact hrefl
  rw [writeLog]
  refine Keeps.bind ?_ fun _ => Keeps.bind keeps_get fun v => ?_
  · intro v
    have hrefl : Rehearsed true v v := Std.Refl.refl v
    exact { hrefl with }
  · dsimp only
    split
    · exact (keeps_throw _).bind fun _ => hinsert.bind fun _ => keeps_pure _
    · exact hinsert.bind fun _ => keeps_pure _

omit [Host] in
theorem rehearsed_logOutcome (h : Handle) (outcome : RuleOutcome) :
    Keeps (Rehearsed true) (e.logOutcome h outcome trigger true) := by
  rw [logOutcome]
  refine (rehearsed_of_looks (looks_transaction (h := h) h) true).bind fun t => ?_
  split
  · split
    · exact Keeps.bind keeps_get fun v => rehearsed_writeLog rfl
    · exact keeps_pure _
  · exact keeps_pure _

theorem rehearsed_runRules (h : Handle) (isLogged : Bool) (rules : List RuleDefinition) :
    Keeps (Rehearsed isLogged) (e.runRules h trigger true isLogged rules) := by
  refine keeps_runRules (fun _ _ hl => hl.rehearsed) (fun a => ?_) fun r _ outcome hlogged _ => ?_
  · exact rehearsed_of_looks (looks_runAction_dry a h) isLogged
  · subst hlogged
    exact rehearsed_logOutcome h outcome

/-- The change for a transaction of a dry run is rehearsed, whether it is made or taken back. -/
theorem rehearsed_attempt (h : Handle) (rules : List RuleDefinition) (isLogged : Bool) :
    Keeps (Rehearsed isLogged) (atomically (e.runTransaction h rules trigger true isLogged)) := by
  refine rehearsed_atomically (keeps_runTransaction (fun _ _ hl => hl.rehearsed) ?_ ?_)
  · exact rehearsed_runRules h isLogged rules
  · intro observer summary _ hdry
    cases hdry

theorem rehearsed_processOne (rules : List RuleDefinition) (isLogged : Bool)
    (hcurrent : (w.transaction h).IsCurrent w.store) (hlive : w.live.has h = true) :
    ∃ t v, (e.processOne rules trigger true isLogged h).runOn w = (.ok t, v) ∧
      Rehearsed isLogged w v := by
  have hrun : Keeps (Rehearsed isLogged)
      (atomically (e.runTransaction h rules trigger true isLogged)) :=
    rehearsed_attempt h rules isLogged
  have hfirst := hrun w
  rw [runOn_processOne]
  rcases hattempt : (atomically (e.runTransaction h rules trigger true isLogged)).runOn w with
    ⟨failure | t, v⟩ <;> rw [hattempt] at hfirst
  · -- Reading the row again changes nothing, because the transaction agreed with it.
    have hdropped : ∃ u, (discard h).runOn v = (.ok (), u) ∧ Rehearsed isLogged v u :=
      rehearsed_discard (hfirst.isCurrent hlive hcurrent)
    obtain ⟨u, hdiscard, hu⟩ := hdropped
    dsimp only
    rw [hdiscard]
    refine ⟨_, _, rfl, (hfirst.trans hu).trans ?_⟩
    exact (looks_report (h := h) _ u).rehearsed
  · exact ⟨t, v, rfl, hfirst⟩

theorem rehearsed_mapM (rules : List RuleDefinition) (isLogged : Bool) {handles : List Handle}
    (hcurrent : ∀ h ∈ handles, w.live.has h = true ∧ (w.transaction h).IsCurrent w.store) :
    ∃ transactions v,
      (handles.mapM (e.processOne rules trigger true isLogged)).runOn w = (.ok transactions, v) ∧
        Rehearsed isLogged w v := by
  induction handles generalizing w with
  | nil => exact ⟨[], w, rfl, Std.Refl.refl w⟩
  | cons h rest ih =>
      obtain ⟨hlive, hfirst⟩ := hcurrent h List.mem_cons_self
      have hstep : ∃ t u, (e.processOne rules trigger true isLogged h).runOn w = (.ok t, u) ∧
          Rehearsed isLogged w u := rehearsed_processOne rules isLogged hfirst hlive
      obtain ⟨t, u, hrun, hu⟩ := hstep
      have hrest : ∀ k ∈ rest, u.live.has k = true ∧ (u.transaction k).IsCurrent u.store := by
        intro k hk
        obtain ⟨hlive, hlater⟩ := hcurrent k (List.mem_cons_of_mem h hk)
        exact ⟨hu.held k hlive, hu.isCurrent hlive hlater⟩
      obtain ⟨later, v, hlater, hv⟩ := ih hrest
      refine ⟨t :: later, v, ?_, hu.trans hv⟩
      rw [List.mapM_cons, runOn_bind, hrun]
      dsimp only
      rw [runOn_bind, hlater]
      rfl

end Engine

/-! ## What a dry run reports -/

/-- No fields are reported as changed, neither for the transaction nor for any action. -/
structure TransactionSummary.IsUnchanged (t : TransactionSummary) : Prop where
  changes : t.changes = []
  actions : ∀ outcome ∈ t.rules, ∀ action ∈ outcome.actions, action.changes = []

theorem gives_runAction_dry (a : Action) (h : Handle) :
    Gives (fun outcome => outcome.changes = []) (runAction a h true) := by
  rw [runAction]
  refine gives_bind fun t => ?_
  dsimp only
  split
  · exact gives_bind fun _ => gives_pure rfl
  · refine Gives.tryCatch ?_ fun failure => gives_bind fun _ => gives_pure rfl
    rw [attemptAction]
    refine gives_bind fun description => gives_bind fun effect => ?_
    cases effect with
    | none => exact gives_pure rfl
    | some effect =>
        have hnone : Gives (· = []) (pure [] : Operation (List TransactionField)) := gives_pure rfl
        exact hnone.bind fun changes hchanges => gives_pure hchanges

namespace Engine

variable {e : Engine} {trigger : Trigger}

theorem gives_runActions_dry (h : Handle) (r : RuleDefinition) (actions : List Action) :
    Gives (fun outcomes => ∀ outcome ∈ outcomes, outcome.changes = [])
      (runActions h r true actions) := by
  induction actions with
  | nil => exact gives_pure fun _ hmem => (List.not_mem_nil hmem).elim
  | cons a rest ih =>
      rw [runActions]
      refine (gives_runAction_dry a h).bind fun outcome houtcome => ?_
      split
      · refine gives_bind fun t => gives_bind fun _ => ?_
        exact gives_pure (List.forall_mem_singleton.2 houtcome)
      · exact ih.bind fun later hlater => gives_pure (List.forall_mem_cons.2 ⟨houtcome, hlater⟩)

theorem gives_runRules_dry (h : Handle) (log : Bool) (rules : List RuleDefinition) :
    Gives (fun outcomes => ∀ outcome ∈ outcomes, ∀ action ∈ outcome.actions, action.changes = [])
      (e.runRules h trigger true log rules) := by
  have hrule : ∀ r, Gives (fun outcome => ∀ action ∈ outcome.actions, action.changes = [])
      (runRule h r true) := by
    intro r
    rw [runRule]
    refine gives_bind fun matched => ?_
    split
    · refine (gives_runActions_dry h r r.actions).bind fun actions hactions => ?_
      dsimp only
      split
      · exact gives_bind fun _ => gives_pure hactions
      · exact gives_pure hactions
    · exact gives_pure fun _ hmem => (List.not_mem_nil hmem).elim
  induction rules with
  | nil => exact gives_pure fun _ hmem => (List.not_mem_nil hmem).elim
  | cons r rest ih =>
      rw [runRules_cons]
      refine (hrule r).bind fun outcome houtcome => gives_bind fun _ => ?_
      split
      · exact gives_pure (List.forall_mem_singleton.2 houtcome)
      · exact ih.bind fun later hlater => gives_pure (List.forall_mem_cons.2 ⟨houtcome, hlater⟩)

/-- A dry run reports no changed fields. -/
theorem gives_processOne_dry (rules : List RuleDefinition) (log : Bool) (h : Handle) :
    Gives TransactionSummary.IsUnchanged (e.processOne rules trigger true log h) := by
  have hmerged : ∀ outcomes : List RuleOutcome,
      (∀ outcome ∈ outcomes, ∀ action ∈ outcome.actions, action.changes = []) →
        outcomes.foldl (fun done outcome => mergeChanges done outcome.changes) [] = [] := by
    intro outcomes houtcomes
    induction outcomes with
    | nil => rfl
    | cons outcome rest ih =>
        obtain ⟨hfirst, hrest⟩ := List.forall_mem_cons.1 houtcomes
        have hnone : outcome.changes = [] := List.flatMap_eq_nil_iff.2 hfirst
        rw [List.foldl_cons, hnone]
        exact ih hrest
  rw [processOne]
  refine gives_bind fun t => Gives.tryCatch (gives_atomically ?_) fun failure => ?_
  · rintro w t v hrun
    obtain ⟨houtcomes, -, hchanges⟩ :=
      gives_runTransaction (gives_runRules_dry h log rules) w t v hrun
    exact ⟨hchanges.trans (hmerged t.rules houtcomes), houtcomes⟩
  · refine gives_bind fun _ => gives_bind fun _ => gives_pure ⟨rfl, ?_⟩
    exact fun _ hmem => (List.not_mem_nil hmem).elim

end Engine

/-! ## The transactions of a dry run -/

namespace Source

/-- Transactions that somebody holds are in memory. -/
def IsLive (w : Workspace) : Source → Prop
  | held handles => ∀ h ∈ handles, w.live.has h = true
  | stored _ => True

/-- Transactions that somebody holds are in memory, and each of them has no row or agrees with it.
-/
def IsCurrent (w : Workspace) : Source → Prop
  | held handles => ∀ h ∈ handles, w.live.has h = true ∧ (w.transaction h).IsCurrent w.store
  | stored _ => True

variable {e : Engine} {source : Source} {w v : Workspace} {isLogged : Bool}

omit [Host] in
/-- Transactions agree with their rows when they are loaded. -/
theorem isCurrent_ofRowWithReferences {s : Store} {id : Id} {t : Transaction}
    (hrow : (id, t) ∈ s.transactions.rows) :
    (LiveTransaction.ofRowWithReferences s id t).IsCurrent s := by
  rintro _ ⟨⟩
  refine ⟨t, Table.find?_eq_some_of_mem hrow, rfl, ?_, ?_, ?_⟩
  · refine Or.inr ⟨rfl, Reference.faithful_byId _, fun account haccount => ?_⟩
    obtain ⟨a, ha, rfl⟩ := Option.map_eq_some_iff.1 haccount
    exact ⟨t.account, rfl, ha⟩
  · refine Or.inr ⟨rfl, Reference.faithful_byId _, fun label hlabel => ?_⟩
    exact Option.bind_eq_some_iff.1 hlabel
  · refine Or.inr ⟨rfl, Reference.faithful_byId _, fun label hlabel => ?_⟩
    exact Option.bind_eq_some_iff.1 hlabel

omit [Host] in
theorem isCurrent_opened (hcurrent : source.IsCurrent w) {h : Handle}
    (hh : h ∈ source.handles e w) :
    (source.opened e w).live.has h = true ∧
      ((source.opened e w).transaction h).IsCurrent w.store := by
  cases source with
  | held handles => exact hcurrent h hh
  | stored test =>
      obtain ⟨id, t, hrow, hloaded⟩ := transaction_opened_stored hh
      have hid : (((stored test).opened e w).transaction h).id = some id := by
        rw [hloaded]
        rfl
      rw [hloaded]
      exact ⟨live_has_of_id hid, isCurrent_ofRowWithReferences hrow⟩

omit [Host] in
/-- Transactions that were in memory before a run are not touched by loading others. -/
theorem find?_opened (hk : w.live.has k = true) :
    (source.opened e w).live.find? k = w.live.find? k := by
  obtain ⟨t, ht⟩ := Option.isSome_iff_exists.1 hk
  exact Table.find?_insertAll_of_le (Table.le_lastId_of_find? ht) _

omit [Host] in
theorem rehearsed_opened : Rehearsed isLogged w (source.opened e w) := by
  have hrefl : Rehearsed isLogged w w := Std.Refl.refl w
  refine { hrefl with held := fun k hk => ?_, transactions := fun k hk => ?_ }
  · rw [Table.has, find?_opened hk]
    exact hk
  · rw [Workspace.transaction, Workspace.transaction, find?_opened hk]
    exact Std.Refl.refl _

/-! ## Runs after a dry run -/

/-- How much higher the names of the transactions of a run are in another workspace. -/
def shift (w v : Workspace) : Source → Int
  | held _ => 0
  | stored _ => v.live.nextId - w.live.nextId

omit [Host] in
theorem loaded_eq (hr : Rehearsed isLogged w v) :
    source.loaded e v.store = source.loaded e w.store := by
  rw [hr.store]
  cases source <;> rfl

omit [Host] in
theorem handles_eq (hr : Rehearsed isLogged w v) :
    source.handles e v = (source.handles e w).map (· + source.shift w v) := by
  have hloaded : source.loaded e v.store = source.loaded e w.store := loaded_eq hr
  cases source with
  | held hs =>
      have hzero : ∀ h : Handle, h + (held hs).shift w v = h := Int.add_zero
      simp [handles, hzero]
  | stored test =>
      have hmove : ∀ a b n : Int, a + n = b + n + (a - b) := by
        intro a b n
        omega
      rw [handles, handles, shift, hloaded, List.map_map]
      exact List.map_congr_left fun i _ => hmove _ _ _

omit [Host] in
/-- The transactions that a later run works on, before and after a dry run. -/
theorem alike_opened (hr : Rehearsed isLogged w v) (hlive : source.IsLive w) {h : Handle}
    (hh : h ∈ source.handles e w) :
    (source.opened e v).live.has (h + source.shift w v) = (source.opened e w).live.has h ∧
      ((source.opened e w).transaction h).Alike w.store
        ((source.opened e v).transaction (h + source.shift w v)) := by
  cases source with
  | held handles =>
      have hheld := hlive h hh
      have hsame : h + (held handles).shift w v = h := Int.add_zero h
      rw [hsame]
      refine ⟨?_, hr.transactions h hheld⟩
      exact (hr.held h hheld).trans hheld.symm
  | stored test =>
      obtain ⟨i, hi, rfl⟩ := List.mem_map.1 hh
      have hlt := List.mem_range.1 hi
      have hfind : ∀ u : Workspace,
          (stored test).loaded e u.store = (stored test).loaded e w.store →
          ((stored test).opened e u).live.find? (u.live.nextId + i) =
            some ((stored test).loaded e w.store)[i] := by
        intro u hu
        rw [opened]
        dsimp only
        rw [hu]
        exact Table.find?_insertAll_new _ _ hlt
      have hmove : ∀ a b n : Int, b + n + (a - b) = a + n := by
        intro a b n
        omega
      -- The dry run may have loaded transactions, and later ones have names higher by as many.
      have hname : w.live.nextId + (i : Int) + (stored test).shift w v = v.live.nextId + i :=
        hmove _ _ _
      have hfirst := hfind w rfl
      have hlater := hfind v (loaded_eq hr)
      rw [hname, Table.has, Table.has, Workspace.transaction, Workspace.transaction, hfirst, hlater]
      exact ⟨rfl, Std.Refl.refl _⟩

end Source

namespace EntryPoint

variable {e : Engine} {p : EntryPoint} {w v : Workspace} {isLogged : Bool}

/-- A run before and one after a dry run, side by side. -/
def comparison (e : Engine) (source : Source) (w v : Workspace) : Comparison where
  base := w.store
  isChanging := w.isChanging
  logs _ _ := True
  names h h' := h ∈ source.handles e w ∧ h' = h + source.shift w v
  logs_insert _ _ := trivial
  names_iff := by
    rintro h _ k _ ⟨-, rfl⟩ ⟨-, rfl⟩
    exact (Int.add_left_inj _).symm

theorem candidates_eq (hr : Rehearsed isLogged w v) : p.candidates e v = p.candidates e w := by
  have hsize : checkedBatchSize v = checkedBatchSize w := by
    rw [checkedBatchSize, checkedBatchSize, hr.settings]
  cases p with
  | forTrigger source trigger =>
      rw [candidates, candidates, hr.store]
      rfl
  | forRules source ids =>
      rw [candidates, candidates, hr.store]
      rfl
  | inRange start finish ids =>
      rw [candidates, candidates, hsize, hr.store]
      cases ids <;> rfl
  | preview source definition => rfl

/-- No run can tell whether there was a dry run before. -/
theorem result_start_eq (hr : Rehearsed isLogged w v) (hsaving : e.IsSaving)
    (hlog : e.failingLog = none) (hlive : p.source.IsLive w) (dryRun : Bool) :
    ((p.start e dryRun).runOn v).1 = ((p.start e dryRun).runOn w).1 := by
  have hsame : (comparison e p.source w v).isChanging = w.isChanging := rfl
  rw [runOn_start, runOn_start, candidates_eq hr]
  cases p.candidates e w with
  | error failure => rfl
  | ok candidates =>
      refine Engine.result_process_eq (c := comparison e p.source w v) hsaving hlog candidates.2 _
        ?_ ?_
      · rw [Source.handles_eq hr, List.forall₂_map_right_iff]
        exact List.forall₂_same.2 fun h hh => ⟨hh, rfl⟩
      · refine { changing := rfl, changing' := hr.isChanging, now := hr.now, store := hr.store,
                 logs := trivial, logsHold := hr.logsHold, accounts := rfl,
                 labels := fun _ => Std.Refl.refl _, live := ?_, transactions := ?_,
                 entries := fun _ _ _ _ => rfl, cache := ?_, cache' := ?_ }
        · rintro k _ ⟨hk, rfl⟩
          exact (Source.alike_opened hr hlive hk).1
        · rintro k _ ⟨hk, rfl⟩
          exact (Source.alike_opened hr hlive hk).2
        · rintro kind id found ⟨⟩
        · rintro kind id found ⟨⟩

/-- A dry run changes nothing.  It either does not begin, or it returns a summary without changed
fields; then only logs were added, all marked as those of a dry run and none by a preview, every
transaction in memory has the fields it had, and no notification was sent.  Every later run, whether
dry or not, returns what it would have returned without the dry run. -/
theorem dry_run_changes_nothing {e : Engine} (p : EntryPoint) {dryRun : Bool}
    (hdry : p.isDry dryRun = true) {w : Workspace} (hcurrent : p.source.IsCurrent w) :
    match p.candidates e w with
    | .error failure => (p.start e dryRun).runOn w = (.error failure, w)
    | .ok _ =>
      ∃ summary v added, (p.start e dryRun).runOn w = (.ok summary, v) ∧
        (∀ t ∈ summary.transactions, t.IsUnchanged) ∧
        v.store = { w.store with logs := w.store.logs.insertAll added } ∧
        (∀ log ∈ added, log.IsDry) ∧ (p.isLogged = false → added = []) ∧
        (∀ h, w.live.has h = true → (v.transaction h).bare = (w.transaction h).bare) ∧
        v.notifications = w.notifications ∧
        ∀ (q : EntryPoint) (e' : Engine) (dryRun' : Bool), e'.IsSaving → e'.failingLog = none →
          q.source.IsLive w →
            ((q.start e' dryRun').runOn v).1 = ((q.start e' dryRun').runOn w).1 := by
  have hstart := p.runOn_start e dryRun w
  cases hcandidates : p.candidates e w with
  | error failure =>
      rw [hcandidates] at hstart
      exact hstart
  | ok candidates =>
      obtain ⟨trigger, rules⟩ := candidates
      rw [hcandidates] at hstart
      dsimp only at hstart ⊢
      rw [hdry, Engine.runOn_process] at hstart
      have hpass : ∃ transactions u,
          ((p.source.handles e w).mapM (e.processOne rules trigger true p.isLogged)).runOn
            (p.source.opened e w) = (.ok transactions, u) ∧
          Rehearsed p.isLogged (p.source.opened e w) u :=
        Engine.rehearsed_mapM rules p.isLogged fun h hh => Source.isCurrent_opened hcurrent hh
      obtain ⟨transactions, u, hrun, hu⟩ := hpass
      have hunchanged : ∀ t ∈ transactions, t.IsUnchanged :=
        gives_mapM (Engine.gives_processOne_dry rules p.isLogged) _ _ _ hrun
      rw [hrun] at hstart
      -- The last event, that the run is over, is rehearsed like any other.
      have hover : Rehearsed p.isLogged w ((p.start e dryRun).runOn w).2 := by
        rw [hstart]
        refine (Source.rehearsed_opened.trans hu).trans ?_
        exact (looks_report (h := 0) _ u).rehearsed
      rw [hstart] at hover ⊢
      obtain ⟨added, hadded, hmarked, hnone⟩ := hover.logs
      refine ⟨_, _, added, rfl, hunchanged, ?_, hmarked, hnone, ?_, hover.notifications, ?_⟩
      · rw [← hadded]
        exact hover.store
      · exact fun h hh => (hover.transactions h hh).bare
      · exact fun q e' dryRun' hsaving hlog hlive =>
          result_start_eq hover hsaving hlog hlive dryRun'

end EntryPoint

end

namespace EntryPoint

/-- A dry run over two transactions that are held, and then a run that changes them. -/
theorem dry_run_of_smallLedger :
    ∃ summary v added,
      ((EntryPoint.forTrigger (.held [1, 2]) (.text "manual")).start
          { user := 1, isLogging := true, observer := some persistChanges } true).runOn
        SmallLedger.workspace = (.ok summary, v) ∧
      (∀ t ∈ summary.transactions, t.IsUnchanged) ∧
      v.store = { SmallLedger.store with logs := Table.insertAll {} added } ∧
      (∀ log ∈ added, log.IsDry) ∧ v.notifications = [] ∧
      (((EntryPoint.forTrigger (.held [2, 1]) (.text "manual")).start
          { user := 1, isLogging := true, observer := some persistChanges } false).runOn v).1 =
        (((EntryPoint.forTrigger (.held [2, 1]) (.text "manual")).start
          { user := 1, isLogging := true, observer := some persistChanges } false).runOn
            SmallLedger.workspace).1 := by
  have hcurrent : ∀ h ∈ ([1, 2] : List Handle), SmallLedger.workspace.live.has h = true ∧
      (SmallLedger.workspace.transaction h).IsCurrent SmallLedger.store := by
    intro h hh
    rcases List.mem_pair.1 hh with rfl | rfl
    · refine ⟨rfl, ?_⟩
      rintro _ ⟨⟩
      exact ⟨SmallLedger.transaction, rfl, Std.Refl.refl _⟩
    · refine ⟨rfl, ?_⟩
      rintro _ ⟨⟩
      exact ⟨SmallLedger.transaction, rfl, Std.Refl.refl _⟩
  obtain ⟨summary, v, added, hrun, hunchanged, hstore, hmarked, -, -, hnotifications, hlater⟩ :=
    dry_run_changes_nothing (e := { user := 1, isLogging := true, observer := some persistChanges })
      (.forTrigger (.held [1, 2]) (.text "manual")) (w := SmallLedger.workspace) rfl hcurrent
  refine ⟨summary, v, added, hrun, hunchanged, hstore, hmarked, hnotifications, ?_⟩
  refine hlater (.forTrigger (.held [2, 1]) (.text "manual")) _ false ?_ rfl fun h hh => ?_
  · rintro _ ⟨⟩
    exact Or.inl rfl
  · rcases List.mem_pair.1 hh with rfl | rfl <;> rfl

end EntryPoint

end Rulebook
