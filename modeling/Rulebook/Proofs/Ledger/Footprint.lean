import Rulebook.Proofs.Ledger.Table
import Rulebook.Ledger.Store

/-!
# What work on one transaction may do to the store

Runs work on one transaction at a time.  Whatever a rule asks for, the store changes in few places:
labels are added, the row and the tags of the transaction change, and logs are written.
`Store.WorkedOn` is this frame condition, with the logs left to a parameter, because most of the
work does not log at all.

The tags of other transactions are worth a remark.  A tag shows on a transaction as soon as there is
a link, so a link that dangles would come to life when the tag it names is added.  Hence
`tagsOf_eq` asks that every link names a tag that is there (`Store.LinksResolve`).

## Main definitions

* `Store.WorkedOn` — the frame condition.
* `Store.LinksResolve` — no link dangles.
-/

namespace Rulebook.Store

variable {s t u : Store} {id : Option Id} {L : Table Log → Table Log → Prop}

/-- The parts of the store that no run changes. -/
def fixed (s : Store) : Store :=
  { s with
    categories := {}, merchants := {}, tags := {}, transactions := {}, links := {}, logs := {} }

/-- The later store is the earlier one after work on the transaction with the given number; the logs
are related by `L`. -/
structure WorkedOn (L : Table Log → Table Log → Prop) (id : Option Id) (s t : Store) : Prop where
  fixed : t.fixed = s.fixed
  logs : L s.logs t.logs
  labels : ∀ kind, (s.labels kind).Grows (t.labels kind)
  transactionIds : t.transactions.ids = s.transactions.ids
  otherTransactions : ∀ n, some n ≠ id → t.transactions.find? n = s.transactions.find? n
  otherLinks : ∀ n tag, some n ≠ id → t.hasLink n tag = s.hasLink n tag

instance [IsPreorder (Table Log) L] : IsPreorder Store (WorkedOn L id) where
  refl _ := ⟨rfl, Std.Refl.refl _, fun _ => Std.Refl.refl _, rfl, fun _ _ => rfl, fun _ _ _ => rfl⟩
  trans _ _ _ h k :=
    { fixed := k.fixed.trans h.fixed
      logs := IsTrans.trans _ _ _ h.logs k.logs
      labels := fun kind => IsTrans.trans _ _ _ (h.labels kind) (k.labels kind)
      transactionIds := k.transactionIds.trans h.transactionIds
      otherTransactions := fun n hn => (k.otherTransactions n hn).trans (h.otherTransactions n hn)
      otherLinks := fun n tag hn => (k.otherLinks n tag hn).trans (h.otherLinks n tag hn) }

/-- Every link names a tag that is there, as the references of the ledger demand. -/
def LinksResolve (s : Store) : Prop := ∀ n tag, s.hasLink n tag = true → s.tags.has tag = true

theorem hasLink_iff {n tag : Id} :
    s.hasLink n tag = true ↔ ∃ row ∈ s.links.rows, row.2.transaction = n ∧ row.2.tag = tag := by
  simp [hasLink, List.any_eq_true]

/-! ## The frame condition -/

namespace WorkedOn

theorem mono {M : Table Log → Table Log → Prop} (h : WorkedOn L id s t)
    (hLM : ∀ a b, L a b → M a b) : WorkedOn M id s t :=
  { h with logs := hLM _ _ h.logs }

theorem accounts (h : WorkedOn L id s t) : t.accounts = s.accounts := by
  have haccounts := congrArg Store.accounts h.fixed
  exact haccounts

theorem rules (h : WorkedOn L id s t) : t.rules = s.rules := by
  have hrules := congrArg Store.rules h.fixed
  exact hrules

theorem hasTransaction (h : WorkedOn L id s t) (n : Id) :
    t.transactions.has n = s.transactions.has n := Table.has_congr h.transactionIds n

/-- Other transactions keep their tags. -/
theorem tagsOf_eq (h : WorkedOn L id s t) (hlinks : s.LinksResolve) {n : Id} (hn : some n ≠ id) :
    t.tagsOf n = s.tagsOf n := by
  have hnew : ∀ tag (_ : Label), s.tags.has tag = false → s.hasLink n tag = false := by
    intro tag _ hfresh
    rw [← Bool.not_eq_true] at hfresh ⊢
    exact mt (hlinks n tag) hfresh
  have hlabels := (h.labels .tag).filter_eq hnew
  have hsame : t.hasLink n = s.hasLink n := funext fun tag => h.otherLinks n tag hn
  rw [tagsOf, tagsOf, hsame]
  exact congrArg (List.mergeSort · _) hlabels

end WorkedOn

/-! ## Single changes -/

variable [IsPreorder (Table Log) L]

/-- Adding a label is the only change to the labels. -/
theorem labels_setLabels_insert (s : Store) (kind other : LabelKind) (l : Label) :
    (s.labels other).Grows ((s.setLabels ((s.labels kind).insert l) kind).labels other) := by
  cases kind <;> cases other <;>
    first
    | exact Table.grows_insert _ _
    | exact Std.Refl.refl _

theorem workedOn_addLabel {kind : LabelKind} {l : Label} {n : Id}
    (h : s.addLabel kind l = .ok (n, t)) : WorkedOn L id s t := by
  rw [addLabel] at h
  split at h
  · cases h
  · cases h
    have hrefl : WorkedOn L id s s := Std.Refl.refl s
    have hlabels := fun other => labels_setLabels_insert s kind other l
    cases kind <;> exact { hrefl with labels := hlabels }

theorem workedOn_addLink (s : Store) (n tag : Id) : WorkedOn L (some n) s (s.addLink n tag) := by
  rw [addLink]
  split
  · exact Std.Refl.refl s
  · have hrefl : WorkedOn L (some n) s s := Std.Refl.refl s
    refine { hrefl with otherLinks := ?_ }
    intro m other hm
    have hne : n ≠ m := fun h => hm (congrArg some h.symm)
    simp [hasLink, Table.insert, hne]

theorem workedOn_removeLinks (s : Store) (n : Id) (test : Id → Bool) :
    WorkedOn L (some n) s
      { s with links := s.links.remove fun _ l => l.transaction = n && test l.tag } := by
  have hrefl : WorkedOn L (some n) s s := Std.Refl.refl s
  refine { hrefl with otherLinks := ?_ }
  intro m tag hm
  have hne : m ≠ n := fun h => hm (congrArg some h)
  rw [Bool.eq_iff_iff, hasLink_iff, hasLink_iff]
  constructor
  · rintro ⟨row, hrow, htransaction, htag⟩
    exact ⟨row, (List.mem_filter.1 hrow).1, htransaction, htag⟩
  · rintro ⟨row, hrow, htransaction, htag⟩
    refine ⟨row, List.mem_filter.2 ⟨hrow, ?_⟩, htransaction, htag⟩
    simp [htransaction, hne]

theorem workedOn_updateTransaction (s : Store) (n : Id) (f : Transaction → Transaction) :
    WorkedOn L (some n) s { s with transactions := s.transactions.update n f } := by
  have hrefl : WorkedOn L (some n) s s := Std.Refl.refl s
  refine { hrefl with transactionIds := Table.ids_update _ _ _, otherTransactions := ?_ }
  intro m hm
  exact Table.find?_update_of_ne (fun h => hm (congrArg some h)) f

theorem workedOn_addLog {log : Log} (hlog : L s.logs (s.logs.insert log)) :
    WorkedOn L id s { s with logs := s.logs.insert log } := by
  have hrefl : WorkedOn L id s s := Std.Refl.refl s
  exact { hrefl with logs := hlog }

/-! ## Links that resolve -/

/-- No link dangles in a store whose references hold, such as every change leaves it. -/
theorem linksResolve_of_referencesHold (h : s.referencesHold = true) : s.LinksResolve := by
  intro n tag hlink
  obtain ⟨row, hrow, -, rfl⟩ := hasLink_iff.1 hlink
  simp only [referencesHold, Bool.and_eq_true] at h
  obtain ⟨⟨⟨⟨⟨⟨⟨-, hlinks⟩, -⟩, -⟩, -⟩, -⟩, -⟩, -⟩ := h
  have hboth := List.all_eq_true.1 hlinks row hrow
  exact (Bool.and_eq_true _ _ ▸ hboth).2

/-- Whether links dangle depends on the tags and the links. -/
theorem linksResolve_congr (htags : t.tags = s.tags) (hlinks : t.links = s.links)
    (hs : s.LinksResolve) : t.LinksResolve := by
  intro n tag hlink
  rw [hasLink, hlinks] at hlink
  rw [htags]
  exact hs n tag hlink

/-- Adding a label lets no link dangle. -/
theorem linksResolve_setLabels_insert (hs : s.LinksResolve) (kind : LabelKind) (label : Label) :
    (s.setLabels ((s.labels kind).insert label) kind).LinksResolve := by
  have hgrows := labels_setLabels_insert s kind .tag label
  intro n tag hlink
  have hlinks : (s.setLabels ((s.labels kind).insert label) kind).links = s.links := by
    cases kind <;> rfl
  rw [hasLink, hlinks] at hlink
  exact hgrows.has (hs n tag hlink)

theorem linksResolve_addLink (hs : s.LinksResolve) (n : Id) {tag : Id}
    (htag : s.tags.has tag = true) : (s.addLink n tag).LinksResolve := by
  intro m other hlink
  rw [addLink] at hlink ⊢
  split at hlink
  · next hthere =>
    rw [if_pos hthere]
    exact hs m other hlink
  · next hfresh =>
    rw [if_neg hfresh]
    simp only [hasLink, Table.insert, List.any_append, Bool.or_eq_true] at hlink
    rcases hlink with hold | hnew
    · exact hs m other hold
    · simp only [List.any_cons, List.any_nil, Bool.or_false, Bool.and_eq_true,
        decide_eq_true_eq] at hnew
      rw [← hnew.2]
      exact htag

theorem linksResolve_removeLinks (hs : s.LinksResolve) (test : Id → TagLink → Bool) :
    LinksResolve { s with links := s.links.remove test } := by
  intro n tag hlink
  obtain ⟨row, hrow, hmatch⟩ := hasLink_iff.1 hlink
  exact hs n tag (hasLink_iff.2 ⟨row, (List.mem_filter.1 hrow).1, hmatch⟩)

end Rulebook.Store
