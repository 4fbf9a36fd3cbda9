import Rulebook.Proofs.Engine.AbreastTurns
import Rulebook.Proofs.Engine.DryRun
import Rulebook.Proofs.Engine.RestrictedRun
import Rulebook.Proofs.Engine.Turns

/-!
# The order of a batch

In whatever order the transactions of a run have their turns, the run comes to the same: every
transaction gets the same entry, and the stores that are left agree by name
(`Engine.order_is_immaterial`).

Exchanging the turns of two transactions would be the obvious way there, but they do not commute:
the first one that adds a label decides on its number, and the second one finds the label there.
Here every turn is compared with a turn of the same transaction that comes first of all
(`Engine.exists_turns`).  What earlier turns left behind does not show in it: the caches are right,
and a label that is found is one that the transaction would have added itself.  So the outcome of a
pass is put together from what the transactions do when they are alone (`Engine.Passed`), and that
does not know of any order.  A label was added if one of the transactions adds it, the logs are
those of all of them, and each row is what its own transaction makes of it.

The numbers of labels have to fit into columns, however many are added.  This is the only thing that
one transaction could take away from another, and `Store.HasRoom` says that there is enough of it.

## Main definitions

* `Engine.Prepared` — what a run needs for its transactions to be independent.
* `Engine.Passed` — some transactions had their turns, and each of them as if it were alone.

## Main statements

* `Engine.Passed.step`, `Engine.Passed.mapM` — one more turn, and all of them.
* `Engine.order_is_immaterial` — two runs over the same transactions in different orders.
-/

namespace Rulebook

open Program Workspace

section

/-! ## One turn in two workspaces -/

variable [Host]

section Turn

variable {e : Engine} {rules : List RuleDefinition} {trigger : Trigger} {dryRun log : Bool}
  {handles : List Handle} {h : Handle} {w v : Workspace} {c : Renumbering}

namespace Engine

variable (trigger dryRun) in
/-- What became of the work on a transaction with a row: it is kept, or it is reported as failed and
nothing of it is stored. -/
theorem exists_processOne (hsaving : e.IsSaving) (hw : e.Provided rules log handles w)
    (hh : h ∈ handles) :
    ∃ t v, (e.processOne rules trigger dryRun log h).runOn w = (.ok t, v) ∧
      ((∃ u, (e.runTransaction h rules trigger dryRun log).runOn { w with isChanging := true } =
          (.ok t, u) ∧ v.store = u.store) ∨
        ∃ failure u, (e.runTransaction h rules trigger dryRun log).runOn
            { w with isChanging := true } = (.error failure, u) ∧
          t = { transaction := (w.transaction h).id, error := some failure.message } ∧
          v.store = w.store) := by
  have hrow : w.HasRowIfSaved h := by
    intro id hid
    obtain ⟨row, hrow, -⟩ := hw.accounts h hh id hid
    exact Table.has_of_find? hrow
  have hresult := @result_processOne _ e rules trigger dryRun log h w
  rw [escapes_attempt (fun observer hsome h summary =>
    (works_observer (L := AnyLogs) hsaving hsome h summary).mono fun _ _ hw => hw.stillThere)
    hrow, if_neg Bool.false_ne_true] at hresult
  rw [runOn_processOne, runOn_attempt hsaving hw hh] at hresult ⊢
  rcases hrun : (e.runTransaction h rules trigger dryRun log).runOn { w with isChanging := true }
    with ⟨failure | t, u⟩ <;> rw [hrun] at hresult <;> dsimp only at hresult ⊢
  · have hkept : ((discard h).runOn
        { u with store := w.store, isChanging := w.isChanging }).2.store = w.store := by
      rw [runOn_discard, store_refresh]
    rcases hdiscard : (discard h).runOn { u with store := w.store, isChanging := w.isChanging }
      with ⟨failure' | _, x⟩ <;> rw [hdiscard] at hresult hkept
    · cases hresult
    · exact ⟨_, _, rfl, Or.inr ⟨failure, u, rfl, rfl, hkept⟩⟩
  · exact ⟨t, _, rfl, Or.inl ⟨u, rfl, rfl⟩⟩

omit [Host] in
/-- An engine that persists changes is one that saves. -/
theorem isSaving_of_persistChanges (hsaves : e.observer = some persistChanges) : e.IsSaving :=
  fun _ hsome => Or.inl (Option.some.inj (hsome.symm.trans hsaves))

section

variable (trigger)
variable (hsaves : e.observer = some persistChanges) (he : e.failingLog = none)
  (hh : h ∈ handles) (hw : Coherent handles w) (hv : Coherent handles v)
  (huser : e.user = c.user)
  (hb : Begins c h { w with isChanging := true } { v with isChanging := true })
  (hactions : ∀ r ∈ rules, ∀ a ∈ r.actions, c.Provides a)

include hsaves he hh hw hv huser hb hactions

/-- The work on a transaction takes the same course in two workspaces in which it begins alike. -/
theorem renumbers_cached_runTransaction :
    Tracks (fun w v => w.store.Renumbered c v.store) (e.runTransaction h rules trigger false log)
      (e.runTransaction h rules trigger false log) { w with isChanging := true }
      { v with isChanging := true } := by
  -- The engine without caches does the same, and it is known to take the same course twice.
  have hshadow : ∀ {x : Workspace}, Coherent handles x →
      Tracks (Shadowed {} [] (·.FieldsAgree h)) (e.runTransaction h rules trigger false log)
        (Direct.runTransaction e h rules trigger false log) { x with isChanging := true }
        ({ x with isChanging := true }.withCaches {} []) := by
    intro x hx
    have hstart : Shadowed {} [] (·.FieldsAgree h) { x with isChanging := true }
        ({ x with isChanging := true }.withCaches {} []) :=
      ⟨rfl, rfl, hx.agree, hx.links, hx.fields h hh⟩
    exact shadows_runTransaction (isSaving_of_persistChanges hsaves) hstart rules
  have hdirect : Tracks (fun w v => w.store.Renumbered c v.store)
      (Direct.runTransaction e h rules trigger false log)
      (Direct.runTransaction e h rules trigger false log)
      ({ w with isChanging := true }.withCaches {} [])
      ({ v with isChanging := true }.withCaches {} []) :=
    renumbers_runTransaction he hsaves huser (hb.withCaches {} []) hactions
  have hsw := hshadow hw
  have hsv := hshadow hv
  refine ⟨hsw.result.trans (hdirect.result.trans hsv.result.symm), ?_⟩
  have hstate := hdirect.state
  rwa [hsw.state.store, hsv.state.store] at hstate

/-- The turn of a transaction ends with the same entry in two workspaces in which it begins alike,
and the stores agree. -/
theorem exists_turns (hpw : e.Provided rules log handles w) (hpv : e.Provided rules log handles v) :
    ∃ t w' v', (e.processOne rules trigger false log h).runOn w = (.ok t, w') ∧
      (e.processOne rules trigger false log h).runOn v = (.ok t, v') ∧
      w'.store.Renumbered c v'.store := by
  have hsaving := isSaving_of_persistChanges hsaves
  have hinside : Tracks (fun w v => w.store.Renumbered c v.store)
      (e.runTransaction h rules trigger false log) (e.runTransaction h rules trigger false log)
      { w with isChanging := true } { v with isChanging := true } :=
    renumbers_cached_runTransaction trigger hsaves he hh hw hv huser hb hactions
  obtain ⟨t, w', hrun, hcases⟩ := exists_processOne trigger false hsaving hpw hh
  obtain ⟨t', v', hrun', hcases'⟩ := exists_processOne trigger false hsaving hpv hh
  have hnumber : (v.transaction h).id = (w.transaction h).id :=
    congrArg LiveTransaction.id hb.transaction
  refine ⟨t, w', v', hrun, ?_⟩
  rcases hinside.cases with ⟨s, u, u', hw', hv', hst⟩ | ⟨failure, u, u', hw', hv', -⟩
  · rcases hcases with ⟨_, hok, hstore⟩ | ⟨_, _, herror, -⟩
    · rcases hcases' with ⟨_, hok', hstore'⟩ | ⟨_, _, herror', -⟩
      · cases hok.symm.trans hw'
        cases hok'.symm.trans hv'
        rw [hstore, hstore']
        exact ⟨hrun', hst⟩
      · cases herror'.symm.trans hv'
    · cases herror.symm.trans hw'
  · rcases hcases with ⟨_, hok, -⟩ | ⟨_, _, herror, ht, hstore⟩
    · cases hok.symm.trans hw'
    · rcases hcases' with ⟨_, hok', -⟩ | ⟨_, _, herror', ht', hstore'⟩
      · cases hok'.symm.trans hv'
      · -- Both are taken back, and the stores are as they were.
        cases herror.symm.trans hw'
        cases herror'.symm.trans hv'
        rw [hnumber, ← ht] at ht'
        rw [hstore, hstore', ← ht']
        exact ⟨hrun', hb.store⟩

end

end Engine

end Turn

/-! ## Stores that have left the base behind -/

section Base

variable {base s : Store} {id : Id}

omit [Host] in
/-- A transaction of which nothing was touched agrees with the base. -/
theorem Store.sameFor_of_closed (hclosed : base.IsClosed)
    (hrow : s.transactions.find? id = base.transactions.find? id)
    (hlinks : ∀ tag, s.hasLink id tag = base.hasLink id tag) : base.SameFor s base id := by
  have htag : ∀ i, base.hasLink id i = true → base.SameLabel s base .tag i i := by
    intro i hi
    obtain ⟨l, hl⟩ := Option.isSome_iff_exists.1
      (linksResolve_of_referencesHold (isClosed_iff.1 hclosed) id i hi)
    have hfind : (base.labels .tag).find? i = some l := hl
    exact sameLabel_of_find? hfind
  refine ⟨?_, fun i hi => ?_, fun i hi => ⟨i, htag i hi, (hlinks i).trans hi⟩⟩
  · rw [hrow]
    rcases hfind : base.transactions.find? id with _ | row
    · exact .none
    · refine .some ⟨rfl, fun role => ?_⟩
      have hrole := hclosed.roles id row hfind role
      generalize role.inRow row = n at hrole ⊢
      cases n with
      | none => exact .none
      | some n =>
          obtain ⟨l, hl⟩ := Option.isSome_iff_exists.1 (hrole n rfl)
          exact .some (sameLabel_of_find? hl)
  · rw [hlinks] at hi
    exact ⟨i, htag i hi, hi⟩

end Base

/-! ## One turn after the other -/

/-- All that a run needs if what it does for a transaction is not to depend on what it does for the
others. -/
structure Engine.Prepared (e : Engine) (rules : List RuleDefinition) (log : Bool)
    (handles : List Handle) (names : List String) (w : Workspace) : Prop where
  saves : e.observer = some persistChanges
  failing : e.failingLog = none
  coherent : Coherent handles w
  provided : e.Provided rules log handles w
  saved : ∀ h ∈ handles, ∃ id, (w.transaction h).id = some id
  known : ∀ h ∈ handles, ∀ (role : LabelRole) n, (role.get (w.transaction h)).id = some n →
    n ≤ (w.store.labels role.kind).lastId
  room : w.store.HasRoom names.length
  actions : ∀ r ∈ rules, ∀ a ∈ r.actions, a.NamesStored w.store ∧
    ∀ s, a.typedValue = .ok (some (.text s)) → s ∈ names

/-- Some of the transactions had their turns.  What was done for each of them is what is done for it
when it is alone. -/
structure Engine.Passed (e : Engine) (rules : List RuleDefinition) (log : Bool)
    (handles : List Handle) (names : List String) (alone : Handle → Workspace)
    (done : List Handle) (w u : Workspace) : Prop extends WorksAmong done w u where
  steady : u.steady = w.steady
  fixed : u.store.fixed = w.store.fixed
  coherent : Coherent handles u
  provided : e.Provided rules log handles u
  gains : w.store.GainsLabels e.user names u.store
  labels : ∀ kind l, l ∈ w.store.newLabels u.store kind ↔
    ∃ h ∈ done, l ∈ w.store.newLabels (alone h).store kind
  logs : u.store.logs = w.store.logs.insertAll
    (done.flatMap fun h => w.store.logs.added (alone h).store.logs)
  same : ∀ h ∈ done, ∀ id, (w.transaction h).id = some id →
    w.store.GainsLabels e.user names (alone h).store ∧
      w.store.SameFor u.store (alone h).store id

section Passed

variable {e : Engine} {rules : List RuleDefinition} {trigger : Trigger} {log : Bool}
  {handles done : List Handle} {names : List String} {alone : Handle → Workspace} {h : Handle}
  {w u : Workspace}

namespace Engine

theorem passed_nil (hw : e.Prepared rules log handles names w) :
    e.Passed rules log handles names alone [] w w where
  toWorksAmong := Std.Refl.refl w
  steady := rfl
  fixed := rfl
  coherent := hw.coherent
  provided := hw.provided
  gains := Store.gainsLabels_refl _ _ _
  labels kind l := by
    rw [Store.newLabels, Table.added_self]
    simp
  logs := rfl
  same h hh := nomatch hh

/-- What is the same in all turns of a transaction, once others had theirs. -/
def Prepared.renumbering (hw : e.Prepared rules log handles names w) (u : Workspace) (id : Id) :
    Renumbering where
  base := w.store
  user := e.user
  id := id
  names := names
  before := w.store.newLabels u.store
  logs := u.store.logs
  room := hw.room

/-- The turn of a transaction that did not have it yet begins as if the transaction were alone. -/
theorem Passed.begins (hp : e.Passed rules log handles names alone done w u)
    (hw : e.Prepared rules log handles names w) (hh : h ∈ handles) (hdone : done ⊆ handles)
    (hfresh : h ∉ done) {id : Id} (hid : (w.transaction h).id = some id) :
    Begins (hw.renumbering u id) h { u with isChanging := true }
      { w with isChanging := true } := by
  have hothers : ∀ k ∈ done, (w.transaction k).id ≠ some id := fun k hk hkid =>
    hfresh (hw.coherent.distinct h hh k (hdone hk) id hid hkid ▸ hk)
  have hsame := hp.others h hfresh
  refine
    { changing := rfl
      changing' := rfl
      now := (congrArg Workspace.now hp.steady).symm
      accounts := (congrArg Store.accounts hp.fixed).symm
      transaction := hsame.symm
      number := (congrArg LiveTransaction.id hsame).trans hid
      known := fun role n hn => hw.known h hh role n ?_
      store := ?_ }
  · rw [← hsame]
    exact hn
  · exact
      { toSameFor := Store.sameFor_of_closed hw.provided.closed (hp.rows id hothers)
          (hp.links id hothers)
        gains := hp.gains
        gains' := Store.gainsLabels_refl _ _ _
        known := fun kind l => by
          have hnone : w.store.newLabels w.store kind = [] := Table.added_self _
          change _ ↔ _ ∨ l ∈ w.store.newLabels w.store kind
          rw [hnone]
          simp [Prepared.renumbering]
        logs := ⟨[], rfl, rfl⟩ }

/-- Work on a transaction does not touch what was done for those that had their turns. -/
theorem Passed.same_of_works (hp : e.Passed rules log handles names alone done w u)
    (hw : e.Prepared rules log handles names w) (hh : h ∈ handles) (hdone : done ⊆ handles)
    (hfresh : h ∉ done) {u' : Workspace} (hworks : Works AnyLogs h u u') {k : Handle}
    (hk : k ∈ done) {n : Id} (hn : (w.transaction k).id = some n) :
    w.store.GainsLabels e.user names (alone k).store ∧
      w.store.SameFor u'.store (alone k).store n := by
  obtain ⟨hgains, hsame⟩ := hp.same k hk n hn
  have hother : some n ≠ (u.transaction h).id := by
    rw [hp.ids]
    intro hid
    exact hfresh (hw.coherent.distinct h hh k (hdone hk) n hid.symm hn ▸ hk)
  exact ⟨hgains, hsame.grows hworks.store.labels (fun _ => Std.Refl.refl _)
    (hworks.store.otherTransactions n hother) rfl
    (fun tag => hworks.store.otherLinks n tag hother) fun _ => rfl⟩

/-- The next transaction has its turn. -/
theorem Passed.step (hp : e.Passed rules log handles names alone done w u)
    (hw : e.Prepared rules log handles names w) (hh : h ∈ handles) (hdone : done ⊆ handles)
    (hfresh : h ∉ done) {t : TransactionSummary}
    (halone : (e.processOne rules trigger false log h).runOn w = (.ok t, alone h)) :
    ∃ u', (e.processOne rules trigger false log h).runOn u = (.ok t, u') ∧
      e.Passed rules log handles names alone (done ++ [h]) w u' := by
  have hsaving := isSaving_of_persistChanges hw.saves
  obtain ⟨id, hid⟩ := hw.saved h hh
  obtain ⟨t', u', v, hrun, hrun', hst⟩ := exists_turns trigger hw.saves hw.failing hh hp.coherent
    hw.coherent rfl (hp.begins hw hh hdone hfresh hid)
    (fun r hr a ha => ⟨(hw.actions r hr a ha).1, (hw.actions r hr a ha).2⟩) hp.provided hw.provided
  cases hrun'.symm.trans halone
  refine ⟨u', hrun, ?_⟩
  have hworks : Works AnyLogs h u ((e.processOne rules trigger false log h).runOn u).2 :=
    works_processOne_saving hsaving h u
  have hprovided : e.Provided rules log handles
      ((e.processOne rules trigger false log h).runOn u).2 :=
    provided_processOne hsaving hh hp.provided
  have hfollows : Tracks (Follows handles {} []) (e.processOne rules trigger false log h)
      (Direct.processOne e rules trigger false log h) u (u.withCaches {} []) :=
    follows_processOne hsaving rules hp.coherent hh
  have hcoherent := hfollows.state.2
  rw [hrun] at hworks hprovided hcoherent
  have hamong : WorksAmong (done ++ [h]) w u' :=
    IsTrans.trans w u u' (hp.toWorksAmong.mono (List.subset_append_left done [h]))
      (hworks.among (List.mem_append_right done (List.mem_singleton_self h)))
  refine
    { toWorksAmong := hamong
      steady := hworks.steady.trans hp.steady
      fixed := hworks.store.fixed.trans hp.fixed
      coherent := hcoherent
      provided := hprovided
      gains := hst.gains
      labels := fun kind l => ?_
      logs := ?_
      same := fun k hk n hn => ?_ }
  · -- A label is new if it was new before or is added when the transaction is alone.
    refine (hst.known kind l).trans ((or_congr_left (hp.labels kind l)).trans ?_)
    simp only [List.mem_append, List.mem_singleton, or_and_right, exists_or, exists_eq_left]
    exact Iff.rfl
  · obtain ⟨added, hadded, hadded'⟩ := hst.logs
    have halone : w.store.logs.added (alone h).store.logs = added := by
      rw [hadded']
      exact Table.added_insertAll _ _
    rw [hadded, List.flatMap_append, Table.insertAll_append, List.flatMap_singleton, halone,
      ← hp.logs]
    rfl
  · rcases List.mem_append.1 hk with hearlier | hlast
    · exact hp.same_of_works hw hh hdone hfresh hworks hearlier hn
    · obtain rfl := List.mem_singleton.1 hlast
      cases hid.symm.trans hn
      exact ⟨hst.gains', hst.toSameFor⟩

/-- A pass gives every transaction the entry that it gets when it is alone. -/
theorem Passed.mapM (hp : e.Passed rules log handles names alone done w u)
    (hw : e.Prepared rules log handles names w) {entry : Handle → TransactionSummary}
    (halone : ∀ h ∈ handles,
      (e.processOne rules trigger false log h).runOn w = (.ok (entry h), alone h))
    {batch : List Handle} (hsub : done ++ batch ⊆ handles) (hnodup : (done ++ batch).Nodup) :
    ∃ v, (batch.mapM (e.processOne rules trigger false log)).runOn u =
        (.ok (batch.map entry), v) ∧
      e.Passed rules log handles names alone (done ++ batch) w v := by
  induction batch generalizing done u with
  | nil =>
      rw [List.append_nil]
      exact ⟨u, rfl, hp⟩
  | cons h rest ih =>
      have hh : h ∈ handles := hsub (List.mem_append_right done List.mem_cons_self)
      have hfresh : h ∉ done := fun hmem =>
        (List.nodup_append.1 hnodup).2.2 h hmem h List.mem_cons_self rfl
      obtain ⟨u', hrun, hp'⟩ := hp.step hw hh (List.append_subset.1 hsub).1 hfresh (halone h hh)
      rw [List.append_cons] at hsub hnodup ⊢
      obtain ⟨v, hrest, hp''⟩ := ih hp' hsub hnodup
      refine ⟨v, ?_, hp''⟩
      rw [List.mapM_cons, runOn_bind, hrun]
      dsimp only
      rw [runOn_bind, hrest]
      rfl

/-- Two passes in which the same transactions had their turns leave the same of each transaction. -/
theorem Passed.exists_sameFor {done' : List Handle} {u' : Workspace}
    (hp : e.Passed rules log handles names alone done w u)
    (hp' : e.Passed rules log handles names alone done' w u')
    (hw : e.Prepared rules log handles names w) (hperm : done.Perm done') (id : Id) :
    ∃ t, w.store.GainsLabels e.user names t ∧ w.store.SameFor u.store t id ∧
      w.store.SameFor u'.store t id := by
  by_cases hmine : ∃ h ∈ done, (w.transaction h).id = some id
  · obtain ⟨h, hh, hid⟩ := hmine
    obtain ⟨hgains, hsame⟩ := hp.same h hh id hid
    exact ⟨_, hgains, hsame, (hp'.same h (hperm.subset hh) id hid).2⟩
  · have hothers : ∀ h ∈ done, (w.transaction h).id ≠ some id := fun h hh hid => hmine ⟨h, hh, hid⟩
    have hothers' : ∀ h ∈ done', (w.transaction h).id ≠ some id := fun h hh =>
      hothers h (hperm.symm.subset hh)
    exact ⟨w.store, Store.gainsLabels_refl _ _ _,
      Store.sameFor_of_closed hw.provided.closed (hp.rows id hothers) (hp.links id hothers),
      Store.sameFor_of_closed hw.provided.closed (hp'.rows id hothers') (hp'.links id hothers')⟩

/-- Two passes in which the same transactions had their turns leave stores that agree by name. -/
theorem Passed.agreesByName {done' : List Handle} {u' : Workspace}
    (hp : e.Passed rules log handles names alone done w u)
    (hp' : e.Passed rules log handles names alone done' w u')
    (hw : e.Prepared rules log handles names w) (hperm : done.Perm done') :
    u.store.AgreesByName u'.store where
  labels kind := by
    have hnew : (w.store.newLabels u.store kind).Perm (w.store.newLabels u'.store kind) := by
      refine (List.perm_ext_iff_of_nodup (hp.gains.nodup kind) (hp'.gains.nodup kind)).2 fun l => ?_
      rw [hp.labels, hp'.labels]
      exact ⟨fun ⟨h, hh, hl⟩ => ⟨h, hperm.subset hh, hl⟩,
        fun ⟨h, hh, hl⟩ => ⟨h, hperm.symm.subset hh, hl⟩⟩
    have hrows : ((u.store.labels kind).rows.map (·.2)).Perm
        ((u'.store.labels kind).rows.map (·.2)) := by
      rw [hp.gains.labels kind, hp'.gains.labels kind, Table.map_rows_insertAll,
        Table.map_rows_insertAll]
      exact hnew.append_left _
    have hkeys := hrows.map Label.key
    rwa [List.map_map, List.map_map] at hkeys
  rows id := by
    obtain ⟨t, ht, hsame, hsame'⟩ := hp.exists_sameFor hp' hw hperm id
    exact (hsame.byName_eq hp.gains ht).symm.trans (hsame'.byName_eq hp'.gains ht)
  tags id := by
    obtain ⟨t, ht, hsame, hsame'⟩ := hp.exists_sameFor hp' hw hperm id
    have htags := (hsame.perm_tags hp.gains ht).trans (hsame'.perm_tags hp'.gains ht).symm
    have hkeys := htags.map Label.key
    rwa [List.map_map, List.map_map] at hkeys

omit [Host] in
/-- Two passes in which the same transactions had their turns write the same logs. -/
theorem Passed.exists_logs {done' : List Handle} {u' : Workspace}
    (hp : e.Passed rules log handles names alone done w u)
    (hp' : e.Passed rules log handles names alone done' w u') (hperm : done.Perm done') :
    ∃ logs logs', u.store.logs = w.store.logs.insertAll logs ∧
      u'.store.logs = w.store.logs.insertAll logs' ∧ logs.Perm logs' :=
  ⟨_, _, hp.logs, hp'.logs, hperm.flatMap_right _⟩

end Engine

end Passed

/-! ## Transactions that agree with their rows -/

omit [Host] in
/-- What agrees with what is stored is stored. -/
theorem Reference.Alike.faithful {α : Type} {row : Id → α → Prop} {r s : Reference α}
    (h : r.Alike row s) (hr : r.Faithful row) : s.Faithful row := by
  rcases h with rfl | ⟨-, -, hs⟩
  · exact hr
  · exact hs

namespace LiveTransaction.IsCurrent

variable {s : Store} {t : LiveTransaction} {id : Id}

omit [Host] in
theorem hasItsAccount (ht : t.IsCurrent s) : t.HasItsAccount s := by
  intro id hid
  obtain ⟨row, hrow, halike⟩ := ht id hid
  have haccount : some row.account = t.account.id := halike.account.id_eq
  refine ⟨row, hrow, haccount.symm, fun a ha => ?_⟩
  obtain ⟨n, hn, hfind⟩ := halike.account.faithful (Reference.faithful_byId _) a ha
  cases haccount.trans hn
  exact hfind

omit [Host] in
/-- The labels of a row are there, and so are those of a transaction that agrees with it. -/
theorem has_label (ht : t.IsCurrent s) (hid : t.id = some id) (hs : s.IsClosed) (role : LabelRole)
    {n : Id} (hn : (role.get t).id = some n) : (s.labels role.kind).has n = true := by
  obtain ⟨row, hrow, halike⟩ := ht id hid
  refine hs.roles id row hrow role n ?_
  rw [← hn, ← (halike.role role).id_eq]
  cases role <;> rfl

omit [Host] in
theorem resolvesIn (ht : t.IsCurrent s) (hid : t.id = some id) (hs : s.IsClosed) :
    t.ResolvesIn s where
  account _ n hn := by
    obtain ⟨row, hrow, haccount, -⟩ := ht.hasItsAccount id hid
    cases haccount.symm.trans hn
    exact hs.transactions id row hrow
  labels role _ n hn := ht.has_label hid hs role hn

end LiveTransaction.IsCurrent

/-! ## Two runs -/

/-- The text that the action has for its value, if it has one. -/
def Action.word? (a : Action) : Option String :=
  match a.typedValue with
  | .ok (some (.text s)) => some s
  | _ => none

namespace Engine

variable {e : Engine} {rules : List RuleDefinition} {trigger : Trigger} {log : Bool}
  {handles : List Handle} {w : Workspace}

/-- A run over transactions that are saved and agree with their rows has all that it needs. -/
theorem prepared_opened (hsaves : e.observer = some persistChanges) (he : e.failingLog = none)
    (hhold : w.store.referencesHold = true) (huser : w.store.users.has e.user = true)
    (hmine : ∀ r ∈ rules, ∀ n, r.id = .int n → w.store.IsRuleOf e.user n)
    (hnames : ∀ r ∈ rules, r.NamesStored w.store)
    (hroom : w.store.HasRoom (rules.flatMap (·.actions)).length)
    (hcurrent : ∀ h ∈ handles, (∃ id, (w.transaction h).id = some id) ∧
      (w.transaction h).IsCurrent w.store)
    (hapart : handles.Pairwise w.Apart) :
    e.Prepared rules log handles ((rules.flatMap (·.actions)).filterMap Action.word?)
      ((Source.held handles).opened e w) := by
  have hclosed := Store.isClosed_iff.2 hhold
  have hheld : ((Source.held handles).handles e w).Pairwise
      ((Source.held handles).opened e w).Apart := hapart
  have hcoherent : Coherent handles ((Source.held handles).opened e w) :=
    coherent_opened (Store.linksResolve_of_referencesHold hhold) hheld
  refine
    { saves := hsaves
      failing := he
      coherent := hcoherent
      provided :=
        { agree := hcoherent.agree
          accounts := fun h hh => (hcurrent h hh).2.hasItsAccount
          rules := fun _ => hmine
          closed := hclosed
          user := huser
          resolves := fun h hh => ?_ }
      saved := fun h hh => (hcurrent h hh).1
      known := fun h hh role n hn => ?_
      room := fun kind => ⟨(hroom kind).1, Int.lt_of_le_of_lt ?_ (hroom kind).2⟩
      actions := fun r hr a ha => ⟨hnames r hr a ha, fun s hs => ?_⟩ }
  · obtain ⟨⟨id, hid⟩, ht⟩ := hcurrent h hh
    exact ht.resolvesIn hid hclosed
  · obtain ⟨⟨id, hid⟩, ht⟩ := hcurrent h hh
    obtain ⟨l, hl⟩ := Option.isSome_iff_exists.1 (ht.has_label hid hclosed role hn)
    exact Table.le_lastId_of_find? hl
  · exact Int.add_le_add_left (Int.ofNat_le.2 (List.length_filterMap_le _ _)) _
  · refine List.mem_filterMap.2 ⟨a, List.mem_flatMap.2 ⟨r, hr, ha⟩, ?_⟩
    rw [Action.word?, hs]

/-- A run in which every transaction of a batch has its turn. -/
theorem exists_run {names : List String} {entry : Handle → TransactionSummary}
    {alone : Handle → Workspace} {batch : List Handle}
    (hw : e.Prepared rules log handles names ((Source.held handles).opened e w))
    (halone : ∀ h ∈ handles, (e.processOne rules trigger false log h).runOn
      ((Source.held handles).opened e w) = (.ok (entry h), alone h))
    (hsub : batch ⊆ handles) (hnodup : batch.Nodup) :
    ∃ u v, (e.process (return batch) rules trigger false log).runOn w =
        (.ok ⟨false, Vocabulary.code trigger, batch.map entry⟩, v) ∧ v.store = u.store ∧
      e.Passed rules log handles names alone batch ((Source.held handles).opened e w) u := by
  obtain ⟨u, hpass, hp⟩ := (passed_nil hw).mapM hw halone hsub hnodup
  have hrun := runOn_process e (.held batch) rules trigger false log w
  have hopened : (((Source.held batch).handles e w).mapM
      (e.processOne rules trigger false log)).runOn ((Source.held batch).opened e w) =
      (.ok (batch.map entry), u) := hpass
  rw [hopened] at hrun
  exact ⟨u, _, hrun, rfl, hp⟩

/-- The order of the transactions of a run does not matter.  The rules are the user's, and the
labels that their actions name by number are there.  The transactions are saved, agree with their
rows and are pairwise different.  Then two live runs over them in different orders give every
transaction the same entry, with the same error if it fails.  If categories, merchants and tags are
known by owner and name, the stores have the same labels afterwards, and every row has the same
fields and tags.  The same logs were written, though not in the same order.  Every reference in the
store holds before the runs, and the numbers of labels do not run out. -/
theorem order_is_immaterial (hsaves : e.observer = some persistChanges) (he : e.failingLog = none)
    (rules : List RuleDefinition) (trigger : Trigger) {handles handles' : List Handle}
    {w : Workspace} (hhold : w.store.referencesHold = true)
    (huser : w.store.users.has e.user = true)
    (hmine : ∀ r ∈ rules, ∀ n, r.id = .int n → w.store.IsRuleOf e.user n)
    (hnames : ∀ r ∈ rules, r.NamesStored w.store)
    (hroom : w.store.HasRoom (rules.flatMap (·.actions)).length)
    (hcurrent : ∀ h ∈ handles, (∃ id, (w.transaction h).id = some id) ∧
      (w.transaction h).IsCurrent w.store)
    (hapart : handles.Pairwise w.Apart) (hperm : handles.Perm handles') :
    ∃ (entry : Handle → TransactionSummary) (v v' : Workspace) (logs logs' : List Log),
      (e.process (return handles) rules trigger false).runOn w =
        (.ok ⟨false, Vocabulary.code trigger, handles.map entry⟩, v) ∧
      (e.process (return handles') rules trigger false).runOn w =
        (.ok ⟨false, Vocabulary.code trigger, handles'.map entry⟩, v') ∧
      v.store.AgreesByName v'.store ∧
      v.store.logs = w.store.logs.insertAll logs ∧
      v'.store.logs = w.store.logs.insertAll logs' ∧ logs.Perm logs' := by
  have hw : e.Prepared rules true handles ((rules.flatMap (·.actions)).filterMap Action.word?)
      ((Source.held handles).opened e w) :=
    prepared_opened hsaves he hhold huser hmine hnames hroom hcurrent hapart
  have hsaving := isSaving_of_persistChanges hsaves
  -- What happens to each transaction when it is the only one.
  have hturn : ∀ h ∈ handles, ∃ t x, (e.processOne rules trigger false true h).runOn
      ((Source.held handles).opened e w) = (.ok t, x) := by
    intro h hh
    obtain ⟨t, x, hrun, -⟩ := exists_processOne trigger false hsaving hw.provided hh
    exact ⟨t, x, hrun⟩
  have : Nonempty TransactionSummary := ⟨{ transaction := none }⟩
  choose! entry alone halone using hturn
  have hnodup : handles.Nodup := hapart.imp And.left
  obtain ⟨u, v, hrun, hv, hp⟩ := exists_run hw halone (List.Subset.refl handles) hnodup
  obtain ⟨u', v', hrun', hv', hp'⟩ :=
    exists_run hw halone hperm.symm.subset (hperm.nodup_iff.1 hnodup)
  obtain ⟨logs, logs', hlogs, hlogs', hsame⟩ := hp.exists_logs hp' hperm
  refine ⟨entry, v, v', logs, logs', hrun, hrun', ?_, ?_, ?_, hsame⟩
  · rw [hv, hv']
    exact hp.agreesByName hp' hw hperm
  · rw [hv]
    exact hlogs
  · rw [hv']
    exact hlogs'

end Engine

end

namespace SmallLedger

/-- A ledger in which a category is added for the first transaction, and another one for the
second. -/
def sorting : Store :=
  { store with
    transactions := (Table.insert {} transaction).insert
      { transaction with description := some "Teahouse" }
    rules := (Table.insert {} rule).insert rule
    conditionGroups := Table.insert {} ⟨1, "AND", 1⟩
    conditions := Table.insert {} ⟨1, "description", "contains", "Bakery", false, false, 1⟩
    actions := (Table.insert {} ⟨1, "create_category_if_not_exists", some "Bread", 1, false⟩).insert
      ⟨2, "create_category_if_not_exists", some "Tea", 1, false⟩ }

/-- The rules of this ledger.  The first one is about the first transaction only, and it stops
there. -/
def sortingRules : List RuleDefinition := [.ofRow sorting 1 rule, .ofRow sorting 2 rule]

/-- The transactions of this ledger, held in memory. -/
def sortingWorkspace : Workspace where
  store := sorting
  live := (Table.insert {} (.ofRow 1 transaction)).insert
    (.ofRow 2 { transaction with description := some "Teahouse" })
  now := startInstant
  settings := standardSettings

end SmallLedger

open SmallLedger in
/-- Whichever transaction comes first, the categories are the same; only their numbers are not. -/
theorem Engine.order_of_sorting :
    let e : Engine := { user := 1, isLogging := true, observer := some persistChanges }
    ∃ (entry : Handle → TransactionSummary) (v v' : Workspace) (logs logs' : List Log),
      (e.process (return [1, 2]) sortingRules .manual false).runOn sortingWorkspace =
        (.ok ⟨false, "manual", [entry 1, entry 2]⟩, v) ∧
      (e.process (return [2, 1]) sortingRules .manual false).runOn sortingWorkspace =
        (.ok ⟨false, "manual", [entry 2, entry 1]⟩, v') ∧
      v.store.AgreesByName v'.store ∧
      v.store.logs = Table.insertAll {} logs ∧ v'.store.logs = Table.insertAll {} logs' ∧
      logs.Perm logs' ∧
      v.store.transactions.rows.map (·.2.category) = [some 2, some 3] ∧
      v'.store.transactions.rows.map (·.2.category) = [some 3, some 2] := by
  intro e
  have hwords : (sortingRules.flatMap (·.actions)).map Action.word? =
      [some "Bread", some "Tea"] := by
    decide +kernel
  obtain ⟨entry, v, v', logs, logs', hrun, hrun', hsame, hlogs, hlogs', hperm⟩ :=
    Engine.order_is_immaterial (e := e) rfl rfl sortingRules .manual (w := sortingWorkspace)
      (by decide +kernel) rfl
      (by
        intro r hr n hn
        rcases List.mem_pair.1 hr with rfl | rfl <;> cases hn <;> exact ⟨rule, rfl, rfl⟩)
      (by
        rintro r hr a ha kind n ⟨hvalue, -⟩
        have hword := List.mem_map_of_mem (f := Action.word?) (List.mem_flatMap.2 ⟨r, hr, ha⟩)
        rw [hwords, Action.word?, hvalue] at hword
        simp at hword)
      (by
        have hlength := congrArg List.length hwords
        rw [List.length_map] at hlength
        rw [hlength]
        rintro (_ | _ | _) <;> decide)
      (by
        intro h hh
        rcases List.mem_pair.1 hh with rfl | rfl
        · refine ⟨⟨1, rfl⟩, ?_⟩
          rintro _ ⟨⟩
          exact ⟨_, rfl, Std.Refl.refl _⟩
        · refine ⟨⟨2, rfl⟩, ?_⟩
          rintro _ ⟨⟩
          exact ⟨_, rfl, Std.Refl.refl _⟩)
      (List.pairwise_pair.2 ⟨by decide, by rintro id ⟨⟩ ⟨⟩⟩) (List.Perm.swap 2 1 [])
  let numbers : List Handle → List (Option Id) := fun batch =>
    let v := ((e.process (return batch) sortingRules .manual false).runOn sortingWorkspace).2
    v.store.transactions.rows.map (·.2.category)
  have hnumbers : numbers [1, 2] = [some 2, some 3] := by decide +kernel
  have hnumbers' : numbers [2, 1] = [some 3, some 2] := by decide +kernel
  refine ⟨entry, v, v', logs, logs', hrun, hrun', hsame, hlogs, hlogs', hperm, ?_, ?_⟩
  · dsimp only [numbers] at hnumbers
    rwa [hrun] at hnumbers
  · dsimp only [numbers] at hnumbers'
    rwa [hrun'] at hnumbers'

end Rulebook
