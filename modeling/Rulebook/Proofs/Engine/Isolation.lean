import Mathlib.Data.List.Nodup
import Rulebook.Proofs.Engine.Parallel

/-!
# Transactions that fail

A transaction that fails is as if it had never been in the batch.  Its change is taken back and it
is read again from its row, so nothing of it is left that the others could see: the store is the
one before it, it is the only transaction in memory that was touched, and the caches have forgotten
what was looked up for it.

The proof follows two runs at once, one over the whole batch and one over the transactions that go
through.  Both make a step for such a transaction, and only the first makes one for a transaction
that fails.  The relation between the two workspaces is `Workspace.Alike` for the transactions that
have not failed so far (`comparing`), and it has to be narrowed whenever one fails.

That the numbers are pairwise different matters twice.  Dropping a change forgets the cached fields
of all transactions with the same number, and a row that is read again must not be written to
later.

## Main definitions

* `comparing` — the comparison of transactions with themselves.
* `Engine.kept` — the transactions that went through, from the entries of a run.
* `Engine.Pass` — the two passes side by side.

## Main statements

* `Engine.failures_leave_no_trace` — a run is that of the transactions that go through.
-/

namespace Rulebook

open Program Workspace

section

/-! ## Two runs over some of the same transactions -/

/-- Transactions that satisfy a condition are compared with themselves, and stores as a whole. -/
def comparing (base : Store) (isChanging : Bool) (P : Handle → Prop) : Comparison where
  base
  isChanging
  logs := Eq
  names h h' := P h ∧ h' = h
  logs_insert log hlogs := congrArg (Table.insert · log) hlogs
  names_iff := by
    rintro h _ k _ ⟨-, rfl⟩ ⟨-, rfl⟩
    exact Iff.rfl

section Comparing

variable {base : Store} {i : Bool} {P Q : Handle → Prop} {h : Handle} {w v u : Workspace}

/-- Fewer transactions are compared. -/
theorem alike_narrow (ha : Alike (comparing base i P) i w v) (hQ : ∀ k, Q k → P k) :
    Alike (comparing base i Q) i w v :=
  { ha with
    live := fun {_ _} hk => ha.live ⟨hQ _ hk.1, hk.2⟩
    transactions := fun {_ _} hk => ha.transactions ⟨hQ _ hk.1, hk.2⟩
    entries := fun {_ _} hk => ha.entries ⟨hQ _ hk.1, hk.2⟩ }

theorem store_eq_of_alike (ha : Alike (comparing base i P) i w v) : v.store = w.store := by
  have hlogs : w.store.logs = v.store.logs := ha.logs
  rw [ha.store, ← hlogs]

/-- Dropping a transaction in one of the workspaces does not show at the others. -/
theorem alike_dropped (ha : Alike (comparing base i P) i w v) (hu : Dropped h w u)
    (hids : ∀ k, P k → k ≠ h → (w.transaction k).id ≠ (w.transaction h).id) :
    Alike (comparing base i fun k => P k ∧ k ≠ h) i u v := by
  have hnarrow : Alike (comparing base i fun k => P k ∧ k ≠ h) i w v :=
    alike_narrow ha fun _ hk => hk.1
  refine { changing := hu.isChanging.trans ha.changing, changing' := ha.changing',
           now := ha.now.trans hu.now.symm, store := ?_, logs := ?_, logsHold := ?_, accounts := ?_,
           labels := ?_, live := ?_, transactions := ?_, entries := ?_, cache := ?_,
           cache' := ha.cache' }
  · rw [hu.store_eq]
    exact ha.store
  · rw [hu.store_eq]
    exact ha.logs
  · rw [hu.store_eq]
    exact ha.logsHold
  · rw [hu.store_eq]
    exact ha.accounts
  · rw [hu.store_eq]
    exact ha.labels
  · rintro _ k ⟨hk, rfl⟩
    rw [hu.has_live]
    exact ha.live ⟨hk.1, rfl⟩
  · rintro _ k ⟨hk, rfl⟩
    rw [hu.others k hk.2]
    exact ha.transactions ⟨hk.1, rfl⟩
  · -- The numbers of the others are different, so what is cached about them was not forgotten.
    rintro _ k ⟨hk, rfl⟩ id hid field
    rw [hu.id_eq] at hid
    rw [hu.entries id field (hid ▸ hids k hk.1 hk.2)]
    exact ha.entries ⟨hk.1, rfl⟩ hid field
  · intro kind id found hfound
    rw [hu.labels] at hfound
    cases hfound

end Comparing

/-! ## Work on several transactions -/

/-- The later workspace is the earlier one after work on the given transactions. -/
structure Workspace.WorksAmong (handles : List Handle) (w v : Workspace) : Prop where
  others : ∀ k, k ∉ handles → v.transaction k = w.transaction k
  ids : ∀ k, (v.transaction k).id = (w.transaction k).id
  rows : ∀ n, (∀ h ∈ handles, (w.transaction h).id ≠ some n) →
    v.store.transactions.find? n = w.store.transactions.find? n
  links : ∀ n, (∀ h ∈ handles, (w.transaction h).id ≠ some n) → ∀ tag,
    v.store.hasLink n tag = w.store.hasLink n tag

namespace Workspace

instance (handles : List Handle) : IsPreorder Workspace (WorksAmong handles) where
  refl _ := ⟨fun _ _ => rfl, fun _ => rfl, fun _ _ => rfl, fun _ _ _ => rfl⟩
  trans _ _ _ hwv hvu :=
    { others := fun k hk => (hvu.others k hk).trans (hwv.others k hk)
      ids := fun k => (hvu.ids k).trans (hwv.ids k)
      rows := fun n hn => (hvu.rows n fun h hh => hwv.ids h ▸ hn h hh).trans (hwv.rows n hn)
      links := fun n hn tag =>
        (hvu.links n (fun h hh => hwv.ids h ▸ hn h hh) tag).trans (hwv.links n hn tag) }

theorem Works.among {L : Table Log → Table Log → Prop} {handles : List Handle} {h : Handle}
    {w v : Workspace} (hw : Works L h w v) (hh : h ∈ handles) : WorksAmong handles w v where
  others k hk := hw.others k fun heq => hk (heq ▸ hh)
  ids := hw.id_eq
  rows n hn := hw.store.otherTransactions n (hn h hh).symm
  links n hn tag := hw.store.otherLinks n tag (hn h hh).symm

/-- Work on some of the transactions. -/
theorem WorksAmong.mono {handles handles' : List Handle} {w v : Workspace}
    (hw : WorksAmong handles w v) (hsub : handles ⊆ handles') : WorksAmong handles' w v where
  others k hk := hw.others k fun hmem => hk (hsub hmem)
  ids := hw.ids
  rows n hn := hw.rows n fun h hh => hn h (hsub hh)
  links n hn := hw.links n fun h hh => hn h (hsub hh)

end Workspace

/-! ## Transactions that go through and transactions that fail -/

/-- Whether an entry is that of a transaction that did not fail. -/
def TransactionSummary.wentThrough (t : TransactionSummary) : Bool := t.error.isNone

variable [Host]

namespace Engine

variable {e : Engine} {trigger : Trigger} {dryRun log : Bool} {rules : List RuleDefinition}
  {h : Handle} {w : Workspace}

/-- A transaction of a run goes through, or it is dropped. -/
theorem processOne_cases (hsaving : e.IsSaving)
    (hrow : ∀ id, (w.transaction h).id = some id → w.store.transactions.has id = true) :
    (∃ t v, (e.processOne rules trigger dryRun log h).runOn w = (.ok t, v) ∧ t.wentThrough = true) ∨
    (∃ t v, (e.processOne rules trigger dryRun log h).runOn w = (.ok t, v) ∧ t.wentThrough = false ∧
      t.rules = [] ∧ t.changes = [] ∧ Dropped h w v) := by
  have hattempt : Works AnyLogs h w
      ((atomically (e.runTransaction h rules trigger dryRun log)).runOn w).2 :=
    works_attempt (fun _ _ _ _ _ => trivial) rules log h
      (fun _ summary hsome _ => works_observer hsaving hsome h summary) w
  rcases hrun : (atomically (e.runTransaction h rules trigger dryRun log)).runOn w with
    ⟨failure | t, v⟩ <;> rw [hrun] at hattempt
  · have hstore : v.store = w.store := by
      have hback := store_atomically_of_error (congrArg Prod.fst hrun)
      rw [hrun] at hback
      exact hback
    have hfirst : Works Eq h w v := hattempt.unlogged (congrArg Store.logs hstore)
    have hthere : ∀ id, (v.transaction h).id = some id → v.store.transactions.has id = true := by
      intro id hid
      rw [hfirst.ownId] at hid
      rw [hstore]
      exact hrow id hid
    -- The store is the one before already; what is left to drop is held in memory.
    obtain ⟨u, hdiscard, hu⟩ := dropped_discard hthere
    have hdropped : Dropped h w u := by
      refine ⟨hfirst.trans hu.toWorks, hu.store_eq.trans hstore, hu.labels, fun id hid => ?_⟩
      rw [← hfirst.ownId] at hid
      rw [← hstore]
      exact hu.reread id hid
    have hentry := @runOn_processOne _ e trigger dryRun rules log h w
    rw [hrun] at hentry
    dsimp only at hentry
    rw [hdiscard] at hentry
    exact Or.inr ⟨_, _, hentry, rfl, rfl, rfl, { hdropped with }⟩
  · refine Or.inl ⟨t, v, ?_, ?_⟩
    · rw [runOn_processOne, hrun]
    · have hentry := gives_atomically (gives_runTransaction (gives_true _)) _ _ _ hrun
      rw [TransactionSummary.wentThrough, hentry.2.1]
      rfl

/-! ## A pass over transactions -/

/-- The transactions that went through, from their entries. -/
def kept (handles : List Handle) (entries : List TransactionSummary) : List Handle :=
  ((handles.zip entries).filter fun entry => entry.2.wentThrough).map (·.1)

omit [Host] in
theorem kept_cons (h : Handle) (rest : List Handle) (t : TransactionSummary)
    (entries : List TransactionSummary) :
    kept (h :: rest) (t :: entries) =
      if t.wentThrough then h :: kept rest entries else kept rest entries := by
  rw [kept, kept, List.zip_cons_cons, List.filter_cons]
  split <;> rfl

omit [Host] in
theorem mem_of_mem_kept {handles : List Handle} {entries : List TransactionSummary}
    (hh : h ∈ kept handles entries) : h ∈ handles := by
  obtain ⟨entry, hentry, rfl⟩ := List.mem_map.1 hh
  exact (List.of_mem_zip (List.mem_filter.1 hentry).1).1

end Engine

/-- The entry of a transaction says nothing but why it failed, and the transaction is as in its
row. -/
structure TransactionSummary.IsBlank (t : TransactionSummary) (v : Workspace) (h : Handle) :
    Prop where
  rules : t.rules = []
  changes : t.changes = []
  reread : ∃ id stored, (v.transaction h).id = some id ∧
    v.store.transactions.find? id = some stored ∧ v.transaction h = .ofRow id stored

/-- The transactions have rows, and no two have the same. -/
structure Workspace.HasRows (w : Workspace) (handles : List Handle) : Prop where
  rows : ∀ h ∈ handles, ∃ id, (w.transaction h).id = some id ∧ w.store.transactions.has id = true
  distinct : (handles.map fun h => (w.transaction h).id).Nodup

namespace Workspace.HasRows

variable {w v : Workspace} {h k : Handle} {rest : List Handle}

omit [Host] in
theorem id_ne (hr : w.HasRows (h :: rest)) (hk : k ∈ rest) :
    (w.transaction k).id ≠ (w.transaction h).id := by
  have hfirst := (List.nodup_cons.1 hr.distinct).1
  intro heq
  exact hfirst (List.mem_map.2 ⟨k, hk, heq⟩)

omit [Host] in
theorem not_mem (hr : w.HasRows (h :: rest)) : h ∉ rest := fun hmem => hr.id_ne hmem rfl

omit [Host] in
/-- Work on one of the transactions leaves the others with their rows. -/
theorem tail {L : Table Log → Table Log → Prop} (hr : w.HasRows (h :: rest)) (hw : Works L h w v) :
    v.HasRows rest where
  rows k hk := by
    obtain ⟨id, hid, hrow⟩ := hr.rows k (List.mem_cons_of_mem h hk)
    refine ⟨id, (hw.id_eq k).trans hid, ?_⟩
    rw [hw.store.hasTransaction]
    exact hrow
  distinct := by
    simp only [hw.id_eq]
    exact (List.nodup_cons.1 hr.distinct).2

end Workspace.HasRows

namespace Engine

section Pass

variable (e : Engine) (trigger : Trigger) (dryRun log : Bool) (rules : List RuleDefinition)
  (base : Store) (i : Bool)

/-- A pass over transactions next to the pass over those that go through.  The transactions that
were compared before still are, unless they failed. -/
structure Pass (P : Handle → Prop) (handles : List Handle) (w w' : Workspace)
    (entries : List TransactionSummary) (v v' : Workspace) (Q : Handle → Prop) : Prop where
  all : (handles.mapM (e.processOne rules trigger dryRun log)).runOn w = (.ok entries, v)
  some : ((kept handles entries).mapM (e.processOne rules trigger dryRun log)).runOn w' =
    (.ok (entries.filter TransactionSummary.wentThrough), v')
  alike : Alike (comparing base i Q) i v v'
  compared : ∀ k, P k → (k ∉ handles ∨ k ∈ kept handles entries) → Q k
  blank : List.Forall₂ (fun h t => t.wentThrough = false → t.IsBlank v h) handles entries

end Pass

variable {e : Engine} {trigger : Trigger} {dryRun log : Bool} {rules : List RuleDefinition}
  {base : Store} {i : Bool} {P Q : Handle → Prop} {h : Handle} {rest : List Handle}
  {t : TransactionSummary} {entries : List TransactionSummary} {w w' u u' v v' : Workspace}

theorem runOn_mapM_cons (hfirst : (e.processOne rules trigger dryRun log h).runOn w = (.ok t, u))
    (hrest : (rest.mapM (e.processOne rules trigger dryRun log)).runOn u = (.ok entries, v)) :
    ((h :: rest).mapM (e.processOne rules trigger dryRun log)).runOn w =
      (.ok (t :: entries), v) := by
  rw [List.mapM_cons, runOn_bind, hfirst]
  dsimp only
  rw [runOn_bind, hrest]
  rfl

/-- Both passes begin with a transaction that goes through. -/
theorem Pass.cons (hrows : w.HasRows (h :: rest)) (ht : t.wentThrough = true)
    (hfirst : (e.processOne rules trigger dryRun log h).runOn w = (.ok t, u))
    (hfirst' : (e.processOne rules trigger dryRun log h).runOn w' = (.ok t, u'))
    (hrest : Pass e trigger dryRun log rules base i P rest u u' entries v v' Q) :
    Pass e trigger dryRun log rules base i P (h :: rest) w w' (t :: entries) v v' Q where
  all := runOn_mapM_cons hfirst hrest.all
  some := by
    rw [kept_cons, if_pos ht, List.filter_cons_of_pos ht]
    exact runOn_mapM_cons hfirst' hrest.some
  alike := hrest.alike
  compared := by
    rintro k hk (hout | hin)
    · exact hrest.compared k hk (Or.inl fun hmem => hout (List.mem_cons_of_mem h hmem))
    · rw [kept_cons, if_pos ht] at hin
      rcases List.mem_cons.1 hin with rfl | hin
      · exact hrest.compared k hk (Or.inl hrows.not_mem)
      · exact hrest.compared k hk (Or.inr hin)
  blank := by
    refine .cons (fun hfailed => ?_) hrest.blank
    rw [ht] at hfailed
    cases hfailed

/-- Only one of the passes begins with a transaction that fails. -/
theorem Pass.cons_failed (hsaving : e.IsSaving) (hrows : w.HasRows (h :: rest))
    (ht : t.wentThrough = false) (hrules : t.rules = []) (hchanges : t.changes = [])
    (hfirst : (e.processOne rules trigger dryRun log h).runOn w = (.ok t, u))
    (hdropped : Dropped h w u)
    (hrest : Pass e trigger dryRun log rules base i (fun k => P k ∧ k ≠ h) rest u w' entries v v'
      Q) :
    Pass e trigger dryRun log rules base i P (h :: rest) w w' (t :: entries) v v' Q where
  all := runOn_mapM_cons hfirst hrest.all
  some := by
    rw [kept_cons, if_neg (ht ▸ Bool.false_ne_true),
      List.filter_cons_of_neg (ht ▸ Bool.false_ne_true)]
    exact hrest.some
  alike := hrest.alike
  compared := by
    rintro k hk (hout | hin)
    · have hne : k ≠ h := fun heq => hout (heq ▸ List.mem_cons_self)
      exact hrest.compared k ⟨hk, hne⟩ (Or.inl fun hmem => hout (List.mem_cons_of_mem h hmem))
    · rw [kept_cons, if_neg (ht ▸ Bool.false_ne_true)] at hin
      refine hrest.compared k ⟨hk, fun heq => ?_⟩ (Or.inr hin)
      exact hrows.not_mem (heq ▸ mem_of_mem_kept hin)
  blank := by
    -- What comes later touches neither the transaction nor its row.
    have hlater : WorksAmong rest u v := by
      have hkeeps : Keeps (WorksAmong rest) (rest.mapM (e.processOne rules trigger dryRun log)) :=
        keeps_mapM fun k hk => (works_processOne_saving hsaving k).mono fun _ _ hw => hw.among hk
      have hpass := hkeeps u
      rw [hrest.all] at hpass
      exact hpass
    obtain ⟨id, hid, -⟩ := hrows.rows h List.mem_cons_self
    obtain ⟨stored, hstored, hreread⟩ := hdropped.reread id hid
    refine .cons (fun _ => ⟨hrules, hchanges, id, stored, ?_, ?_, ?_⟩) hrest.blank
    · rw [hlater.ids, hdropped.ownId, hid]
    · rw [hlater.rows id fun k hk hkid => ?_, hdropped.store_eq]
      · exact hstored
      · rw [hdropped.id_eq] at hkid
        exact hrows.id_ne hk (hkid.trans hid.symm)
    · exact (hlater.others h hrows.not_mem).trans hreread

/-- A pass over all transactions is, for those that go through, a pass over these alone. -/
theorem exists_pass (hsaving : e.IsSaving) (hlog : e.failingLog = none) {handles : List Handle}
    (ha : Alike (comparing base i P) i w w') (hP : ∀ h ∈ handles, P h) (hrows : w.HasRows handles)
    (hids : ∀ k, P k → ∀ h ∈ handles, k ≠ h → (w.transaction k).id ≠ (w.transaction h).id) :
    ∃ entries v v' Q, Pass e trigger dryRun log rules base i P handles w w' entries v v' Q := by
  induction handles generalizing P w w' with
  | nil => exact ⟨[], w, w', P, rfl, rfl, ha, fun k hk _ => hk, .nil⟩
  | cons h rest ih =>
      have hrow : ∀ id, (w.transaction h).id = some id → w.store.transactions.has id = true := by
        intro id hid
        obtain ⟨n, hn, hthere⟩ := hrows.rows h List.mem_cons_self
        obtain rfl : n = id := Option.some.inj (hn.symm.trans hid)
        exact hthere
      have hworks : Works AnyLogs h w ((e.processOne rules trigger dryRun log h).runOn w).2 :=
        works_processOne_saving hsaving h w
      have hlater : ∀ k ∈ rest, P k := fun k hk => hP k (List.mem_cons_of_mem h hk)
      have hlaterIds : ∀ k, P k → ∀ n ∈ rest, k ≠ n →
          (((e.processOne rules trigger dryRun log h).runOn w).2.transaction k).id ≠
            (((e.processOne rules trigger dryRun log h).runOn w).2.transaction n).id := by
        intro k hk n hn hne
        rw [hworks.id_eq, hworks.id_eq]
        exact hids k hk n (List.mem_cons_of_mem h hn) hne
      rcases processOne_cases hsaving hrow with
        ⟨t, u, hrun, ht⟩ | ⟨t, u, hrun, ht, hrules, hchanges, hdropped⟩ <;>
        rw [hrun] at hworks hlaterIds
      · -- It goes through, so both passes make the step, and the comparison stays as it is.
        have htracks : Tracks (Alike (comparing base i P) i)
            (e.processOne rules trigger dryRun log h) (e.processOne rules trigger dryRun log h)
            w w' :=
          tracks_processOne (c := comparing base i P) hsaving hlog ha
            ⟨hP h List.mem_cons_self, rfl⟩ rules log
        rcases htracks.cases with ⟨t', u', w₁, hrun', hrun'', hu⟩ | ⟨_, _, _, hfailed, -, -⟩
        · rw [hrun] at hrun'
          cases hrun'
          obtain ⟨entries, v, v', Q, hpass⟩ := ih hu hlater (hrows.tail hworks) hlaterIds
          exact ⟨t :: entries, v, v', Q, hpass.cons hrows ht hrun hrun''⟩
        · rw [hrun] at hfailed
          cases hfailed
      · -- It is dropped, so only the first pass makes the step, and it is compared no more.
        have hu : Alike (comparing base i fun k => P k ∧ k ≠ h) i u w' :=
          alike_dropped ha hdropped fun k hk hne => hids k hk h List.mem_cons_self hne
        have hnarrow : ∀ k ∈ rest, P k ∧ k ≠ h := fun k hk =>
          ⟨hlater k hk, fun heq => hrows.not_mem (heq ▸ hk)⟩
        obtain ⟨entries, v, v', Q, hpass⟩ :=
          ih hu hnarrow (hrows.tail hworks) fun k hk => hlaterIds k hk.1
        exact ⟨t :: entries, v, v', Q,
          hpass.cons_failed hsaving hrows ht hrules hchanges hrun hdropped⟩

/-- A transaction that fails is as if it had never been in the batch.  A run over transactions with
rows, no two of them the same, ends with the same store as the run over those of them that go
through; these have the same entries in both summaries and the same fields in memory.  The entry of
each of the others says only why it failed, and the transaction in memory is as its row says. -/
theorem failures_leave_no_trace (hsaving : e.IsSaving) (hlog : e.failingLog = none)
    (source : Source) (rules : List RuleDefinition) (trigger : Trigger) (dryRun log : Bool)
    {w : Workspace} (hrows : (source.opened e w).HasRows (source.handles e w)) :
    ∃ summary v summary' v',
      (e.process (source.batch e) rules trigger dryRun log).runOn w = (.ok summary, v) ∧
      (e.process (return kept (source.handles e w) summary.transactions) rules trigger dryRun
        log).runOn (source.opened e w) = (.ok summary', v') ∧
      v'.store = v.store ∧
      summary'.transactions = summary.transactions.filter TransactionSummary.wentThrough ∧
      (∀ h ∈ kept (source.handles e w) summary.transactions,
        (v'.transaction h).bare = (v.transaction h).bare) ∧
      List.Forall₂ (fun h t => t.wentThrough = false → t.IsBlank v h) (source.handles e w)
        summary.transactions := by
  let c := comparing w.store w.isChanging (· ∈ source.handles e w)
  have ha : Alike c w.isChanging (source.opened e w) (source.opened e w) := by
    refine { changing := rfl, changing' := rfl, now := rfl, store := rfl, logs := rfl,
             logsHold := Or.inr rfl, accounts := rfl, labels := fun _ => Std.Refl.refl _,
             live := ?_, transactions := ?_, entries := fun _ _ _ _ => rfl, cache := ?_,
             cache' := ?_ }
    · rintro _ k ⟨hk, rfl⟩
      rfl
    · rintro _ k ⟨hk, rfl⟩
      exact Std.Refl.refl _
    · rintro kind id found ⟨⟩
    · rintro kind id found ⟨⟩
  have hids : ∀ k ∈ source.handles e w, ∀ h ∈ source.handles e w, k ≠ h →
      ((source.opened e w).transaction k).id ≠ ((source.opened e w).transaction h).id :=
    fun k hk h hh hne heq => hne (List.inj_on_of_nodup_map hrows.distinct hk hh heq)
  obtain ⟨entries, v, v', Q, hpass⟩ : ∃ entries v v' Q,
      Pass e trigger dryRun log rules w.store w.isChanging (· ∈ source.handles e w)
        (source.handles e w) (source.opened e w) (source.opened e w) entries v v' Q :=
    exists_pass hsaving hlog ha (fun _ hh => hh) hrows hids
  have hall := runOn_process e source rules trigger dryRun log w
  have hsome := runOn_process e (.held (kept (source.handles e w) entries)) rules trigger dryRun log
    (source.opened e w)
  have hsame : (Source.held (kept (source.handles e w) entries)).opened e (source.opened e w) =
      source.opened e w := rfl
  rw [hpass.all] at hall
  rw [hsame, Source.handles, hpass.some] at hsome
  have hstore : v'.store = v.store := store_eq_of_alike hpass.alike
  refine ⟨_, _, _, _, hall, hsome, hstore, rfl, fun h hh => ?_, ?_⟩
  · have hin := mem_of_mem_kept hh
    have hnames := hpass.compared h hin (Or.inr hh)
    exact (hpass.alike.transactions ⟨hnames, rfl⟩).bare
  · refine hpass.blank.imp fun h t hblank hfailed => ?_
    exact { hblank hfailed with }

end Engine

end

namespace Engine

/-- A run whose observer refuses the second of two transactions. -/
theorem failure_in_smallLedger :
    ∃ summary v summary' v',
      (Engine.process
          { user := 1, isLogging := true
            observer := some (savingUnless fun t =>
              if t.id = some 2 then some .hookFailed else none) }
          (return [1, 2]) (SmallLedger.store.rulesForTrigger 1 .manual) .manual false).runOn
        SmallLedger.workspace = (.ok summary, v) ∧
      (Engine.process
          { user := 1, isLogging := true
            observer := some (savingUnless fun t =>
              if t.id = some 2 then some .hookFailed else none) }
          (return kept [1, 2] summary.transactions) (SmallLedger.store.rulesForTrigger 1 .manual)
          .manual false).runOn SmallLedger.workspace = (.ok summary', v') ∧
      v'.store = v.store ∧
      summary'.transactions = summary.transactions.filter TransactionSummary.wentThrough ∧
      (∀ h ∈ kept [1, 2] summary.transactions, (v'.transaction h).bare = (v.transaction h).bare) ∧
      List.Forall₂ (fun h t => t.wentThrough = false → t.IsBlank v h) [1, 2]
        summary.transactions := by
  refine failures_leave_no_trace (e :=
      { user := 1, isLogging := true
        observer := some (savingUnless fun t => if t.id = some 2 then some .hookFailed else none) })
    ?_ rfl (.held [1, 2]) _ .manual false true (w := SmallLedger.workspace) ⟨?_, ?_⟩
  · rintro _ ⟨⟩
    exact Or.inr ⟨_, rfl⟩
  · intro h hh
    rcases List.mem_pair.1 hh with rfl | rfl
    · exact ⟨1, rfl, rfl⟩
    · exact ⟨2, rfl, rfl⟩
  · change [some (1 : Id), some 2].Nodup
    decide

end Engine

end Rulebook
