import Rulebook.Proofs.Engine.Working

/-!
# Runs from two workspaces

A run gives the same summary from two workspaces that differ only in what no rule can see: the
logs, the names under which transactions are held, the rows that have been looked up already, the
caches as long as they answer alike, and whatever concerns transactions that take no part.
`Workspace.Alike` is this relation.  It holds again after each step of the two runs, so that the
summaries are the same as a whole.

Rows that were looked up are the delicate part.  A transaction keeps a row that it has looked up
even if the stored row changes, so two transactions are alike if they agree on what they looked up,
or if all that either of them looked up are rows of the store at the beginning (`Comparison.base`).
No run changes these rows.

Two workspaces that are alike may have logs of different lengths, and then the number of the next
log differs.  What matters of the logs is whether their references hold, because a change is made
final only if all references do.  The relation keeps track of that, unless the runs are themselves
part of a larger change, where references are not checked.

## Main definitions

* `Comparison` — which workspaces are compared, and how closely.
* `Workspace.Alike` — the relation.
-/

namespace Rulebook

open Program Workspace

/-! ## Transactions that are alike -/

namespace Reference

variable {α : Type} {row : Id → α → Prop} {r s t : Reference α}

/-- What was looked up, if anything, is a row with the number of the reference. -/
def Faithful (row : Id → α → Prop) (r : Reference α) : Prop :=
  ∀ a, r.loaded = some a → ∃ id, r.id = some id ∧ row id a

/-- The references are the same, or they name the same row and nothing else was looked up. -/
def Alike (row : Id → α → Prop) (r s : Reference α) : Prop :=
  r = s ∨ r.id = s.id ∧ r.Faithful row ∧ s.Faithful row

theorem faithful_byId (id : Option Id) : (byId id).Faithful row := fun _ h => nomatch h

theorem Alike.id_eq (h : Alike row r s) : r.id = s.id := by
  rcases h with rfl | ⟨hid, -⟩
  · rfl
  · exact hid

theorem Alike.symm (h : Alike row r s) : Alike row s r :=
  h.imp Eq.symm fun ⟨hid, hr, hs⟩ => ⟨hid.symm, hs, hr⟩

/-- A reference that was looked up is alike the reference before. -/
theorem LookedUp.alike {row' : Id → α → Prop} (hrow : ∀ id a, row' id a → row id a)
    (h : r.LookedUp row' s) : Alike row r s := by
  cases h with
  | same => exact Or.inl rfl
  | found hfound =>
      refine Or.inr ⟨rfl, faithful_byId _, ?_⟩
      rintro _ ⟨⟩
      exact ⟨_, rfl, hrow _ _ hfound⟩

theorem Alike.trans (h : Alike row r s) (k : Alike row s t) : Alike row r t := by
  rcases h with rfl | ⟨hid, hr, hs⟩
  · exact k
  · rcases k with rfl | ⟨hid', -, ht⟩
    · exact Or.inr ⟨hid, hr, hs⟩
    · exact Or.inr ⟨hid.trans hid', hr, ht⟩

/-- Looking up a faithful reference to a row gives a faithful reference, of which the row can be
seen. -/
theorem Faithful.resolve {β : Type} {find : Id → Option α} {view : α → β} (hr : r.Faithful row)
    (hfind : ∀ id a, row id a → ∃ b, find id = some b ∧ row id b ∧ view b = view a)
    {id : Id} (hid : r.id = some id) {a : α} (ha : row id a) :
    ∃ r', r.resolve find = some r' ∧ r'.id = some id ∧ r'.Faithful row ∧
      r'.loaded.map view = some (view a) := by
  obtain ⟨b, hb, hrow, hview⟩ := hfind id a ha
  obtain ⟨rid, _ | kept⟩ := r
  · dsimp only at hid
    subst hid
    refine ⟨known id b, ?_, rfl, ?_, congrArg some hview⟩
    · exact congrArg (Option.map _) hb
    · rintro _ ⟨⟩
      exact ⟨id, rfl, hrow⟩
  · -- What was kept need not be the stored row, but it shows the same.
    refine ⟨⟨rid, some kept⟩, rfl, hid, hr, ?_⟩
    obtain ⟨n, hn, hkept⟩ := hr kept rfl
    obtain rfl : n = id := Option.some.inj (hn.symm.trans hid)
    obtain ⟨b', hb', -, hview'⟩ := hfind n kept hkept
    rw [hb] at hb'
    cases hb'
    exact congrArg some (hview'.symm.trans hview)

/-- Looking up alike references leads to alike references, of which the same can be seen. -/
theorem Alike.resolve {β : Type} {find : Id → Option α} {view : α → β} (h : Alike row r s)
    (hfind : ∀ id a, row id a → ∃ b, find id = some b ∧ row id b ∧ view b = view a) :
    (r.resolve find = none ∧ s.resolve find = none) ∨
      ∃ r' s', r.resolve find = some r' ∧ s.resolve find = some s' ∧ Alike row r' s' ∧
        r'.loaded.map view = s'.loaded.map view := by
  have hequal : r = s → (r.resolve find = none ∧ s.resolve find = none) ∨
      ∃ r' s', r.resolve find = some r' ∧ s.resolve find = some s' ∧ Alike row r' s' ∧
        r'.loaded.map view = s'.loaded.map view := by
    rintro rfl
    cases hresolve : r.resolve find with
    | none => exact Or.inl ⟨rfl, rfl⟩
    | some r' => exact Or.inr ⟨r', r', rfl, rfl, Or.inl rfl, rfl⟩
  rcases h with heq | ⟨hid, hr, hs⟩
  · exact hequal heq
  · -- If either has kept a row, there is one that both of them name.
    have hloaded : (∃ id a, r.id = some id ∧ row id a) ∨ r = s := by
      obtain ⟨rid, _ | a⟩ := r
      · obtain ⟨sid, _ | b⟩ := s
        · exact Or.inr (congrArg (Reference.mk · none) hid)
        · obtain ⟨id, hsid, hrow⟩ := hs b rfl
          exact Or.inl ⟨id, b, hid.trans hsid, hrow⟩
      · obtain ⟨id, hrid, hrow⟩ := hr a rfl
        exact Or.inl ⟨id, a, hrid, hrow⟩
    rcases hloaded with ⟨id, a, hrid, hrow⟩ | heq
    · obtain ⟨r', hr', hrid', hfaithful, hview⟩ := hr.resolve hfind hrid hrow
      obtain ⟨s', hs', hsid', hfaithful', hview'⟩ := hs.resolve hfind (hid.symm.trans hrid) hrow
      exact Or.inr ⟨r', s', hr', hs', Or.inr ⟨hrid'.trans hsid'.symm, hfaithful, hfaithful'⟩,
        hview.trans hview'.symm⟩
    · exact hequal heq

end Reference

namespace LiveTransaction

/-- The account row with a number. -/
def AccountIs (s : Store) (id : Id) (a : LoadedAccount) : Prop :=
  s.accounts.find? id = some a.account

/-- The transactions have the same fields, and what was looked up is the same or is stored. -/
structure Alike (s : Store) (t u : LiveTransaction) : Prop where
  bare : u.bare = t.bare
  account : t.account.Alike (AccountIs s) u.account
  category : t.category.Alike (LabelRow s .category) u.category
  merchant : t.merchant.Alike (LabelRow s .merchant) u.merchant

instance (s : Store) : IsPreorder LiveTransaction (Alike s) where
  refl _ := ⟨rfl, Or.inl rfl, Or.inl rfl, Or.inl rfl⟩
  trans _ _ _ h k :=
    ⟨k.bare.trans h.bare, h.account.trans k.account, h.category.trans k.category,
      h.merchant.trans k.merchant⟩

namespace Alike

variable {s : Store} {t u : LiveTransaction}

theorem symm (h : Alike s t u) : Alike s u t :=
  ⟨h.bare.symm, h.account.symm, h.category.symm, h.merchant.symm⟩

theorem id_eq (h : Alike s t u) : u.id = t.id := by
  have hid := congrArg LiveTransaction.id h.bare
  exact hid

theorem role (h : Alike s t u) (role : LabelRole) :
    (role.get t).Alike (LabelRow s role.kind) (role.get u) := by
  cases role with
  | category => exact h.category
  | merchant => exact h.merchant

theorem setRole (h : Alike s t u) (role : LabelRole) {r r' : Reference Label}
    (hr : r.Alike (LabelRow s role.kind) r') : Alike s (role.set r t) (role.set r' u) := by
  have hid := hr.id_eq
  have hbare := h.bare
  cases role with
  | category =>
      refine ⟨?_, h.account, hr, h.merchant⟩
      simp only [LiveTransaction.bare, LabelRole.set, mk.injEq, Reference.byId] at hbare ⊢
      simp [hbare, hid]
  | merchant =>
      refine ⟨?_, h.account, h.category, hr⟩
      simp only [LiveTransaction.bare, LabelRole.set, mk.injEq, Reference.byId] at hbare ⊢
      simp [hbare, hid]

end Alike

theorem LookedUp.alike {s : Store} {t u : LiveTransaction} (h : t.LookedUp s u) : Alike s t u :=
  ⟨h.bare, h.account.alike fun _ _ ha => ha.1, h.category.alike fun _ _ ha => ha,
    h.merchant.alike fun _ _ ha => ha⟩

end LiveTransaction

/-! ## Workspaces that are alike -/

/-- Whether the references of the logs hold. -/
def Store.logsHold (s : Store) : Bool :=
  Store.every s.logs fun l => s.rules.has l.rule && s.transactions.has l.transaction

/-- The references of the logs can be checked by themselves. -/
theorem Store.referencesHold_eq (s : Store) :
    s.referencesHold = ({ s with logs := {} }.referencesHold && s.logsHold) := by
  simp [referencesHold, logsHold, every, labels, LabelKind.all]

/-- What is compared: which names stand for the same transaction, how closely the logs are
compared, from which store the rows may have been looked up, and whether the runs are part of
larger changes. -/
structure Comparison where
  base : Store
  isChanging : Bool
  logs : Table Log → Table Log → Prop
  names : Handle → Handle → Prop
  logs_insert : ∀ {a b} (log : Log), logs a b → logs (a.insert log) (b.insert log)
  names_iff : ∀ {h h' k k'}, names h h' → names k k' → (k = h ↔ k' = h')

namespace Workspace

/-- The workspaces look alike, apart from the label caches. -/
structure Similar (c : Comparison) (isChanging : Bool) (w w' : Workspace) : Prop where
  changing : w.isChanging = isChanging
  changing' : w'.isChanging = isChanging
  now : w'.now = w.now
  store : w'.store = { w.store with logs := w'.store.logs }
  logs : c.logs w.store.logs w'.store.logs
  logsHold : c.isChanging = true ∨ w'.store.logsHold = w.store.logsHold
  accounts : w.store.accounts = c.base.accounts
  labels : ∀ kind, (c.base.labels kind).Grows (w.store.labels kind)
  live : ∀ {k k'}, c.names k k' → w'.live.has k' = w.live.has k
  transactions : ∀ {k k'}, c.names k k' → (w.transaction k).Alike c.base (w'.transaction k')
  entries : ∀ {k k'}, c.names k k' → ∀ {id}, (w.transaction k).id = some id →
    ∀ field, w'.fields.values.lookup (id, field) = w.fields.values.lookup (id, field)

/-- The workspaces look alike. -/
structure Alike (c : Comparison) (isChanging : Bool) (w w' : Workspace) : Prop
    extends Similar c isChanging w w' where
  cache : w.LabelsAgree
  cache' : w'.LabelsAgree

end Workspace

section

variable {c : Comparison} {i : Bool} {h h' : Handle} {w w' : Workspace}

/-- The label tables of the two stores are the same. -/
theorem Workspace.Similar.labels_eq (ha : Similar c i w w') (kind : LabelKind) :
    w'.store.labels kind = w.store.labels kind := by
  rw [ha.store]
  cases kind <;> rfl

theorem Workspace.Similar.referencesHold (ha : Similar c i w w')
    (hhold : w'.store.logsHold = w.store.logsHold) :
    w'.store.referencesHold = w.store.referencesHold := by
  have hsame : { w'.store with logs := {} } = { w.store with logs := {} } := by
    rw [ha.store]
  rw [w'.store.referencesHold_eq, w.store.referencesHold_eq, hhold, hsame]

/-! ## Changes that keep workspaces alike -/

/-- Changing the transactions at hand in the same way. -/
theorem alike_change (ha : Alike c i w w') (hn : c.names h h')
    {f f' : LiveTransaction → LiveTransaction}
    (hff : (f (w.transaction h)).Alike c.base (f' (w'.transaction h')))
    (hid : (f (w.transaction h)).id = (w.transaction h).id) :
    Alike c i { w with live := w.live.update h f } { w' with live := w'.live.update h' f' } := by
  have htransactions : ∀ {k k'}, c.names k k' →
      ({ w with live := w.live.update h f }.transaction k).Alike c.base
        ({ w' with live := w'.live.update h' f' }.transaction k') := by
    intro k k' hk
    -- The names correspond, so either both transactions change or neither does.
    by_cases hkh : k = h
    · have hkh' := (c.names_iff hn hk).1 hkh
      subst hkh hkh'
      by_cases hlive : w.live.has k = true
      · have hlive' : w'.live.has k' = true := by
          rw [ha.live hk]
          exact hlive
        rw [transaction_update_self hlive, transaction_update_self hlive']
        exact hff
      · have hlive' : ¬w'.live.has k' = true := by
          rw [ha.live hk]
          exact hlive
        rw [Table.update_of_not_has (Bool.not_eq_true _ ▸ hlive),
          Table.update_of_not_has (Bool.not_eq_true _ ▸ hlive')]
        exact ha.transactions hk
    · have hkh' : k' ≠ h' := fun heq => hkh ((c.names_iff hn hk).2 heq)
      rw [transaction_update_of_ne hkh, transaction_update_of_ne hkh']
      exact ha.transactions hk
  have hids : ∀ k, ({ w with live := w.live.update h f }.transaction k).id = (w.transaction k).id :=
    (works_change (L := Eq) hid).id_eq
  refine { ha with live := ?_, transactions := htransactions, entries := ?_ }
  · intro k k' hk
    rw [Table.has_update, Table.has_update]
    exact ha.live hk
  · intro k k' hk id hkid field
    rw [hids k] at hkid
    exact ha.entries hk hkid field

/-- Changing the field caches, and reporting. -/
theorem alike_fields (ha : Alike c i w w') {fields fields' : FieldCache}
    (events events' : List Event)
    (hfields : ∀ {k k'}, c.names k k' → ∀ {id}, (w.transaction k).id = some id →
      ∀ field, fields'.values.lookup (id, field) = fields.values.lookup (id, field)) :
    Alike c i { w with fields, events } { w' with fields := fields', events := events' } :=
  { ha with entries := hfields }

/-- Remembering labels that are stored. -/
theorem alike_labels (ha : Alike c i w w') {labels labels' : LabelCache}
    (hcache : LabelsAgree { w with labels }) (hcache' : LabelsAgree { w' with labels := labels' }) :
    Alike c i { w with labels } { w' with labels := labels' } :=
  { ha with cache := hcache, cache' := hcache' }

end

/-- A change of the store that neither depends on the logs nor changes them, nor any row that
transactions or logs may have to refer to. -/
structure Store.Unlogged (f : Store → Store) : Prop where
  blind : ∀ s logs, f { s with logs } = { f s with logs }
  accounts : ∀ s, (f s).accounts = s.accounts
  rules : ∀ s, (f s).rules = s.rules
  transactionIds : ∀ s, (f s).transactions.ids = s.transactions.ids
  labels : ∀ (s : Store) (kind : LabelKind), (s.labels kind).Grows ((f s).labels kind)

namespace Store

theorem unlogged_addLabel (kind : LabelKind) (l : Label) :
    Unlogged fun s => s.setLabels ((s.labels kind).insert l) kind where
  blind s logs := by cases kind <;> rfl
  accounts s := by cases kind <;> rfl
  rules s := by cases kind <;> rfl
  transactionIds s := by cases kind <;> rfl
  labels s other := labels_setLabels_insert s kind other l

theorem unlogged_addLink (n tag : Id) : Unlogged (·.addLink n tag) := by
  have hcases : ∀ s : Store, ∃ links, s.addLink n tag = { s with links } := by
    intro s
    rw [addLink]
    split
    · exact ⟨s.links, rfl⟩
    · exact ⟨_, rfl⟩
  refine ⟨?_, ?_, ?_, ?_, ?_⟩
  · intro s logs
    have hsame : { s with logs }.hasLink n tag = s.hasLink n tag := rfl
    rw [addLink, addLink, hsame]
    split <;> rfl
  all_goals
    intro s
    obtain ⟨links, hlinks⟩ := hcases s
    rw [hlinks]
  intro kind
  cases kind <;> exact Std.Refl.refl _

theorem unlogged_removeLinks (n : Id) (test : Id → Bool) :
    Unlogged fun s =>
      { s with links := s.links.remove fun _ l => l.transaction = n && test l.tag } where
  blind _ _ := rfl
  accounts _ := rfl
  rules _ := rfl
  transactionIds _ := rfl
  labels s kind := by cases kind <;> exact Std.Refl.refl _

theorem unlogged_updateTransaction (n : Id) (change : Transaction → Transaction) :
    Unlogged fun s => { s with transactions := s.transactions.update n change } where
  blind _ _ := rfl
  accounts _ := rfl
  rules _ := rfl
  transactionIds _ := Table.ids_update _ _ _
  labels s kind := by cases kind <;> exact Std.Refl.refl _

end Store

section

variable {c : Comparison} {i : Bool} {h h' : Handle} {w w' : Workspace} {f : Store → Store}

theorem Store.Unlogged.logs (hf : Unlogged f) (s : Store) : (f s).logs = s.logs := by
  have hsame := congrArg Store.logs (hf.blind s s.logs)
  exact hsame

theorem Store.Unlogged.logsHold (hf : Unlogged f) (s : Store) : (f s).logsHold = s.logsHold := by
  have htransactions : (f s).transactions.has = s.transactions.has :=
    funext fun id => Table.has_congr (hf.transactionIds s) id
  rw [Store.logsHold, Store.logsHold, hf.logs, hf.rules, htransactions]

/-- Changing the stores in a way that has nothing to do with logs. -/
theorem alike_store (ha : Alike c i w w') (hf : Store.Unlogged f) {labels labels' : LabelCache}
    (hcache : LabelsAgree { w with store := f w.store, labels })
    (hcache' : LabelsAgree { w' with store := f w'.store, labels := labels' }) :
    Alike c i { w with store := f w.store, labels }
      { w' with store := f w'.store, labels := labels' } := by
  refine { ha with store := ?_, logs := ?_, logsHold := ?_, accounts := ?_, labels := ?_,
                   cache := hcache, cache' := hcache' }
  · have hstore : f w'.store = { f w.store with logs := w'.store.logs } :=
      (congrArg f ha.store).trans (hf.blind _ _)
    rw [hf.logs]
    exact hstore
  · rw [hf.logs, hf.logs]
    exact ha.logs
  · rw [hf.logsHold, hf.logsHold]
    exact ha.logsHold
  · exact (hf.accounts _).trans ha.accounts
  · exact fun kind => IsTrans.trans _ _ _ (ha.labels kind) (hf.labels w.store kind)

/-- Changing the stores in a way that has nothing to do with logs or labels. -/
theorem alike_store_aside (ha : Alike c i w w') (hf : Store.Unlogged f)
    (hlabels : ∀ s kind, (f s).labels kind = s.labels kind) :
    Alike c i { w with store := f w.store } { w' with store := f w'.store } :=
  alike_store ha hf (labelsAgree_store ha.cache (hlabels _))
    (labelsAgree_store ha.cache' (hlabels _))

/-- Writing the same log. -/
theorem alike_log (ha : Alike c i w w') (log : Log) :
    Alike c i { w with store := { w.store with logs := w.store.logs.insert log } }
      { w' with store := { w'.store with logs := w'.store.logs.insert log } } := by
  have hinsert : ∀ s : Store, { s with logs := s.logs.insert log }.logsHold =
      (s.logsHold && (s.rules.has log.rule && s.transactions.has log.transaction)) := by
    intro s
    simp [Store.logsHold, Store.every, Table.insert]
  have hrow : (w'.store.rules.has log.rule && w'.store.transactions.has log.transaction) =
      (w.store.rules.has log.rule && w.store.transactions.has log.transaction) := by
    rw [ha.store]
  refine { ha with store := ?_, logs := c.logs_insert log ha.logs, logsHold := ?_,
                   accounts := ha.accounts, labels := ha.labels, cache := ha.cache,
                   cache' := ha.cache' }
  · rw [ha.store]
  · refine ha.logsHold.imp_right fun hhold => ?_
    rw [hinsert, hinsert, hhold, hrow]

end

end Rulebook
