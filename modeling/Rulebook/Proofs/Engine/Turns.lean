import Mathlib.Data.List.Forall2
import Rulebook.Proofs.Engine.Attempts
import Rulebook.Proofs.Engine.Isolation

/-!
# Turns

A run takes one transaction after the other.  If no two of them are the same and none shares its row
with another, then what a run does for a transaction is what it does in its turn: nothing that was
done before or is done later touches the transaction, its row or its tags.  What holds of a single
turn therefore holds of the run as a whole, and `Engine.forall₂_turns` makes the passage once.

Labels are the exception.  All transactions share them, and a turn may add some.  Hence a turn sees
the labels that earlier turns added, but a label never goes away and never changes its number.

## Main definitions

* `Workspace.Apart` — two transactions share nothing.
* `Workspace.Spares` — nothing of a transaction was touched.

## Main statements

* `Engine.forall₂_turns` — a pass over transactions, seen from each of them.
-/

namespace Rulebook

open Program Workspace

/-! ## Transactions that are left alone -/

namespace Workspace

/-- Two transactions in memory are different and do not have the same row. -/
def Apart (w : Workspace) (h k : Handle) : Prop :=
  h ≠ k ∧ ∀ id, (w.transaction h).id = some id → (w.transaction k).id ≠ some id

/-- Nothing of the transaction was touched: neither in memory nor its row nor its tags. -/
structure Spares (h : Handle) (w v : Workspace) : Prop where
  transaction : v.transaction h = w.transaction h
  row : ∀ id, (w.transaction h).id = some id →
    v.store.transactions.find? id = w.store.transactions.find? id
  links : ∀ id, (w.transaction h).id = some id → ∀ tag,
    v.store.hasLink id tag = w.store.hasLink id tag
  labels : ∀ kind, (w.store.labels kind).Grows (v.store.labels kind)
  now : v.now = w.now
  isChanging : v.isChanging = w.isChanging

instance (h : Handle) : IsPreorder Workspace (Spares h) where
  refl _ := ⟨rfl, fun _ _ => rfl, fun _ _ _ => rfl, fun _ => Std.Refl.refl _, rfl, rfl⟩
  trans _ _ _ hv hu :=
    { transaction := hu.transaction.trans hv.transaction
      row := fun id hid => (hu.row id (hv.transaction ▸ hid)).trans (hv.row id hid)
      links := fun id hid tag => (hu.links id (hv.transaction ▸ hid) tag).trans (hv.links id hid tag)
      labels := fun kind => IsTrans.trans _ _ _ (hv.labels kind) (hu.labels kind)
      now := hu.now.trans hv.now
      isChanging := hu.isChanging.trans hv.isChanging }

variable {L : Table Log → Table Log → Prop} {h k : Handle} {w v : Workspace}

/-- Work on one transaction spares those that are apart from it. -/
theorem Works.spares (hw : Works L k w v) (hapart : w.Apart h k) : Spares h w v where
  transaction := hw.others h hapart.1
  row id hid := hw.store.otherTransactions id (hapart.2 id hid).symm
  links id hid tag := hw.store.otherLinks id tag (hapart.2 id hid).symm
  labels := hw.store.labels
  now := hw.now
  isChanging := hw.isChanging

/-- Work does not bring transactions together. -/
theorem Works.apart {n : Handle} (hw : Works L n w v) (hapart : w.Apart h k) : v.Apart h k := by
  refine ⟨hapart.1, fun id hid => ?_⟩
  rw [hw.id_eq] at hid ⊢
  exact hapart.2 id hid

theorem Apart.symm (hapart : w.Apart h k) : w.Apart k h :=
  ⟨hapart.1.symm, fun id hid hid' => hapart.2 id hid' hid⟩

end Workspace

/-- A query gives each transaction once. -/
theorem Store.distinct_transactionsInOrder (s : Store) (user : Id)
    (test : Id → Transaction → Bool) :
    (s.transactionsInOrder user test).Pairwise fun a b => a.1 ≠ b.1 := by
  have hrows : s.transactions.rows.Pairwise fun a b => a.1 ≠ b.1 :=
    s.transactions.ascending.imp Int.ne_of_lt
  have hmine := (hrows.filter fun row => s.ownerOf? row.2 = some user).filter
    fun row => test row.1 row.2
  exact (List.mergeSort_perm _ _).symm.pairwise hmine fun hne => Ne.symm hne

/-- The transactions that are loaded for a run are apart: they come from different rows. -/
theorem apart_opened (e : Engine) (test : Id → Transaction → Bool) (w : Workspace) :
    ((Source.stored test).handles e w).Pairwise ((Source.stored test).opened e w).Apart := by
  have hrows := w.store.distinct_transactionsInOrder e.user test
  refine List.pairwise_map.2 (List.pairwise_iff_getElem.2 fun i j hi hj hij => ?_)
  rw [List.length_range] at hi hj
  rw [List.getElem_range, List.getElem_range]
  refine ⟨fun heq => ?_, fun id hid hid' => ?_⟩
  · have hcast : (i : Int) = j := Int.add_left_cancel heq
    exact absurd (Int.ofNat_inj.1 hcast) (Nat.ne_of_lt hij)
  · rw [Source.transaction_opened hi] at hid
    rw [Source.transaction_opened hj] at hid'
    simp only [Source.loaded, List.length_map, List.getElem_map] at hi hj hid hid'
    have hne := List.pairwise_iff_getElem.1 hrows i j hi hj hij
    exact hne (Option.some.inj (hid.trans hid'.symm))

/-! ## A pass over transactions -/

namespace Engine

variable [Host]

section Turns

variable {e : Engine} {rules : List RuleDefinition} {trigger : Trigger} {dryRun log : Bool}
  (hobserver : ∀ observer, e.observer = some observer →
    ∀ h summary, Keeps (Works AnyLogs h) (observer h summary))

include hobserver

theorem works_processOne_observed (h : Handle) :
    Keeps (Works AnyLogs h) (e.processOne rules trigger dryRun log h) :=
  works_processOne (fun _ _ _ _ _ => trivial) rules log h fun observer summary hsome _ =>
    hobserver observer hsome h summary

/-- A pass spares the transactions that are apart from all of its own. -/
theorem spares_mapM {handles : List Handle} {h : Handle} {w : Workspace}
    (hapart : ∀ k ∈ handles, w.Apart h k) :
    Spares h w ((handles.mapM (e.processOne rules trigger dryRun log)).runOn w).2 := by
  induction handles generalizing w with
  | nil => exact Std.Refl.refl w
  | cons k rest ih =>
      have hworks : Works AnyLogs k w ((e.processOne rules trigger dryRun log k).runOn w).2 :=
        works_processOne_observed hobserver k w
      have hfirst := hworks.spares (hapart k List.mem_cons_self)
      rw [List.mapM_cons, runOn_bind]
      rcases hrun : (e.processOne rules trigger dryRun log k).runOn w with ⟨failure | t, u⟩ <;>
        rw [hrun] at hworks hfirst
      · exact hfirst
      · have hrest : Spares h u ((rest.mapM (e.processOne rules trigger dryRun log)).runOn u).2 :=
          ih fun n hn => hworks.apart (hapart n (List.mem_cons_of_mem k hn))
        dsimp only
        rw [runOn_bind]
        rcases hlater : (rest.mapM (e.processOne rules trigger dryRun log)).runOn u with
          ⟨failure | later, v⟩ <;> rw [hlater] at hrest
        · exact IsTrans.trans _ _ _ hfirst hrest
        · exact IsTrans.trans _ _ _ hfirst hrest

/-- A pass over transactions that are apart, seen from each of them: before its turn and after it
nothing of the transaction is touched. -/
theorem forall₂_turns {handles : List Handle} {w v : Workspace} {entries : List TransactionSummary}
    (hapart : handles.Pairwise w.Apart)
    (hrun : (handles.mapM (e.processOne rules trigger dryRun log)).runOn w = (.ok entries, v)) :
    List.Forall₂
      (fun h t => ∃ u u', Spares h w u ∧
        (e.processOne rules trigger dryRun log h).runOn u = (.ok t, u') ∧ Spares h u' v)
      handles entries := by
  induction handles generalizing w entries with
  | nil =>
      cases hrun
      exact .nil
  | cons h rest ih =>
      rw [List.mapM_cons] at hrun
      obtain ⟨t, u, hfirst, hrun⟩ := runOn_bind_eq_ok hrun
      obtain ⟨later, v', hrest, hrun⟩ := runOn_bind_eq_ok hrun
      cases hrun
      obtain ⟨hthis, hothers⟩ := List.pairwise_cons.1 hapart
      have hworks : Works AnyLogs h w ((e.processOne rules trigger dryRun log h).runOn w).2 :=
        works_processOne_observed hobserver h w
      rw [hfirst] at hworks
      have hlater : Spares h u ((rest.mapM (e.processOne rules trigger dryRun log)).runOn u).2 :=
        spares_mapM hobserver fun k hk => hworks.apart (hthis k hk)
      rw [hrest] at hlater
      refine .cons ⟨w, u, Std.Refl.refl w, hfirst, hlater⟩ ?_
      have hturns := ih (hothers.imp fun hk => hworks.apart hk) hrest
      refine (List.forall₂_iff_zip.2 ⟨hturns.length_eq, fun {k s} hks => ?_⟩)
      obtain ⟨x, x', hx, hturn, hx'⟩ := (List.forall₂_iff_zip.1 hturns).2 hks
      have hk := (List.of_mem_zip hks).1
      exact ⟨x, x', IsTrans.trans _ _ _ (hworks.spares (hthis k hk).symm) hx, hturn, hx'⟩

/-- A pass works on its transactions and on no others. -/
theorem worksAmong_mapM (handles : List Handle) :
    Keeps (WorksAmong handles) (handles.mapM (e.processOne rules trigger dryRun log)) :=
  keeps_mapM fun h hh => (works_processOne_observed hobserver h).mono fun _ _ hw => hw.among hh

end Turns

/-- The entry of a transaction has its number. -/
theorem transaction_processOne {e : Engine} {rules : List RuleDefinition} {trigger : Trigger}
    {dryRun log : Bool} {h : Handle} {t : TransactionSummary} {w v : Workspace}
    (hrun : (e.processOne rules trigger dryRun log h).runOn w = (.ok t, v)) :
    t.transaction = (w.transaction h).id := by
  have hresult := @result_processOne _ e rules trigger dryRun log h w
  rw [hrun] at hresult
  split at hresult
  · cases hresult
  · cases hresult
    exact transaction_entry_attempt h w

/-- The entry without an error is that of an attempt that went through. -/
theorem processOne_eq_ok {e : Engine} {rules : List RuleDefinition} {trigger : Trigger}
    {dryRun log : Bool} {h : Handle} {t : TransactionSummary} {w v : Workspace}
    (hrun : (e.processOne rules trigger dryRun log h).runOn w = (.ok t, v)) (ht : t.error = none) :
    ∃ u, (e.runTransaction h rules trigger dryRun log).runOn { w with isChanging := true } =
        (.ok t, u) ∧
      v = { u with isChanging := w.isChanging } := by
  rw [runOn_processOne] at hrun
  rcases hattempt : (atomically (e.runTransaction h rules trigger dryRun log)).runOn w with
    ⟨failure | t', v'⟩ <;> rw [hattempt] at hrun <;> dsimp only at hrun
  · rcases hdiscard : (discard h).runOn v' with ⟨failure' | _, u⟩ <;> rw [hdiscard] at hrun <;>
      cases hrun
    cases ht
  · cases hrun
    obtain ⟨u, hinside, hv, -⟩ := atomically_eq_ok hattempt
    exact ⟨u, hinside, hv⟩

end Engine

end Rulebook
