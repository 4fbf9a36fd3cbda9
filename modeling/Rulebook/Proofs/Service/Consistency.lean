import Rulebook.Proofs.Ledger.Cascade
import Rulebook.Proofs.Service.Committing

/-!
# The ledger stays consistent

Whoever uses the program sends requests: rows are added and deleted, transactions are loaded, held,
changed and saved, actions are executed, rules are run, managed, exported and imported.  Requests can
be combined, with handlers and as larger changes, and the observer of a run may send requests, too.
Anything may happen in between to what is not in the store: the clock goes on, settings change,
transactions in memory are changed or dropped, and are out of date when they are saved.

`Reachable` has the workspaces that come about in this way from an empty ledger.  All of them are
consistent, because every request commits (`Request.commits`) and an empty store is closed and has no
keys.  In a consistent ledger a deletion always succeeds, and takes along what it should and nothing
else.

## Main definitions

* `Request` — what may be asked of the program.
* `Reachable` — the workspaces that requests lead to.
* `Store.Consistent` — references name rows, and keys and numbers are unique.
* `Store.LosesWith` — a store after a row was deleted with all that belongs to it.

## Main statements

* `Reachable.stays_consistent` — every reachable ledger is consistent, and deletions are exact.
-/

namespace Rulebook

open Program Workspace Calendar

section

/-! ## Requests -/

variable [Host]

/-- What may be asked of the program; requests that delete are among them only if that is
allowed. -/
inductive Request (deletes : Bool) : {α : Type} → Operation α → Prop where
  /-- Something happens that does not concern the store. -/
  | around {f : Workspace → Workspace} (hstore : ∀ w, (f w).store = w.store)
      (hchanging : ∀ w, (f w).isChanging = w.isChanging) :
      Request deletes (modify f : Operation PUnit)
  | addUser (name email isActive : Json) : Request deletes (addUser name email isActive)
  | addAccount (user name : Json) : Request deletes (addAccount user name)
  | addLabel (kind : LabelKind) (user name : Json) : Request deletes (addLabel kind user name)
  | addSubcategory (user name parent : Json) : Request deletes (addSubcategory user name parent)
  | addGroupRow (user name order isActive : Json) :
      Request deletes (addGroupRow user name order isActive)
  | addTransaction (members : List (TransactionField × Json)) (tags : Json) :
      Request deletes (addTransaction members tags)
  | addStoredRule (v : RuleValues) : Request deletes (addStoredRule v)
  | overwriteAction (id : Json) (columns : List (String × Json)) :
      Request deletes (overwriteAction id columns)
  | addLog (rule transaction matched age : Json) :
      Request deletes (addLog rule transaction matched age)
  | changeLog (id : Json) : Request deletes (changeLog id)
  | deleteRow (hdeletes : deletes = true) (e : Entity) (id : Json) :
      Request deletes (deleteRow e id)
  | hold (t : LiveTransaction) : Request deletes (hold t)
  | held (name : Json) : Request deletes (held name)
  | assignAttributes (h : Handle) (attributes : List (String × Json)) :
      Request deletes (assignAttributes h attributes)
  | saveAttributes (h : Handle) (attributes : List (String × Json)) :
      Request deletes (saveAttributes h attributes)
  | saveFields (h : Handle) (fields : List TransactionField) : Request deletes (saveFields h fields)
  | saveAll (h : Handle) : Request deletes (saveAll h)
  | refresh (h : Handle) : Request deletes (refresh h)
  | checkCondition (h : Handle) (c : Condition) : Request deletes (checkCondition h c)
  | describe (a : Action) : Request deletes (describe a)
  | runAction (a : Action) (h : Handle) (dryRun : Bool) : Request deletes (runAction a h dryRun)
  | transactionsWhere (e : Engine) (test : Id → Transaction → Bool) :
      Request deletes (e.transactionsWhere test)
  | process {e : Engine} {batch : Batch} (rules : List RuleDefinition) (trigger : Trigger)
      (dryRun log : Bool)
      (hobserver : ∀ observer, e.observer = some observer →
        ∀ h summary, Request deletes (observer h summary))
      (hbatch : Request deletes batch) : Request deletes (e.process batch rules trigger dryRun log)
  | processForTrigger {e : Engine} {batch : Batch} (trigger : Json) (dryRun : Bool)
      (hobserver : ∀ observer, e.observer = some observer →
        ∀ h summary, Request deletes (observer h summary))
      (hbatch : Request deletes batch) : Request deletes (e.processForTrigger batch trigger dryRun)
  | processForRules {e : Engine} {batch : Batch} (ids : Json) (dryRun : Bool)
      (hobserver : ∀ observer, e.observer = some observer →
        ∀ h summary, Request deletes (observer h summary))
      (hbatch : Request deletes batch) : Request deletes (e.processForRules batch ids dryRun)
  | processRange {e : Engine} (start finish : Date) (ids : Option Json) (dryRun : Bool)
      (hobserver : ∀ observer, e.observer = some observer →
        ∀ h summary, Request deletes (observer h summary)) :
      Request deletes (e.processRange start finish ids dryRun)
  | preview {e : Engine} {batch : Batch} (definition : RuleDefinition)
      (hobserver : ∀ observer, e.observer = some observer →
        ∀ h summary, Request deletes (observer h summary))
      (hbatch : Request deletes batch) : Request deletes (e.preview batch definition)
  | applyRules (user : Id) (transactions rules : Json) (start finish : Option Date) (trigger : Json)
      (dryRun : Bool) :
      Request deletes (applyRules user transactions rules start finish trigger dryRun)
  | processCreated (h : Handle) : Request deletes (processCreated h)
  | processUpdated (h : Handle) : Request deletes (processUpdated h)
  | previewDefinition (user : Id) (transactions definition : Json) :
      Request deletes (previewDefinition user transactions definition)
  | addRuleGroup (user : Id) (name description order isActive : Json) :
      Request deletes (addRuleGroup user name description order isActive)
  | setGroupActive (group : Id) (isActive : Json) : Request deletes (setGroupActive group isActive)
  | createRule (user : Id) (definition : Json) (group : Option Id) {replace : Bool}
      (hreplace : replace = true → deletes = true) :
      Request deletes (createRule user definition group replace)
  | updateRule (rule : Id) (definition : Json) : Request deletes (updateRule rule definition)
  | duplicateRule (rule : Id) (name : Json) : Request deletes (duplicateRule rule name)
  | reorderRules (ids : Json) : Request deletes (reorderRules ids)
  | ruleStatistics (rule : Id) (days : Json) : Request deletes (ruleStatistics rule days)
  | rulePayload (rule : Id) : Request deletes (rulePayload rule)
  | exportRules (user : Id) : Request deletes (exportRules user)
  | importRules (hdeletes : deletes = true) (user : Id) (text : String) :
      Request deletes (importRules user text)
  | done {α : Type} (r : Except Failure α) : Request deletes (.ofExcept r : Operation α)
  | next {α β : Type} {x : Operation α} {f : α → Operation β} (hx : Request deletes x)
      (hf : ∀ a, Request deletes (f a)) : Request deletes (x >>= f)
  | handled {α : Type} {x : Operation α} {handler : Failure → Operation α}
      (hx : Request deletes x) (hhandler : ∀ failure, Request deletes (handler failure)) :
      Request deletes (tryCatch x handler)
  | together {α : Type} {x : Operation α} (hx : Request deletes x) :
      Request deletes (atomically x)

/-- Every request commits, whether it succeeds or fails. -/
theorem Request.commits {deletes : Bool} {α : Type} {x : Operation α} (hx : Request deletes x) :
    Keeps (Commits deletes) x := by
  -- The induction is for batches and observers of runs and for requests that are combined.
  induction hx with
  | around hstore hchanging => exact commits_modify hstore hchanging
  | addUser name email isActive => exact commits_addUser name email isActive
  | addAccount user name => exact commits_addAccount user name
  | addLabel kind user name => exact commits_addLabel kind user name
  | addSubcategory user name parent => exact commits_addSubcategory user name parent
  | addGroupRow user name order isActive => exact commits_addGroupRow user name order isActive
  | addTransaction members tags => exact commits_addTransaction members tags
  | addStoredRule v => exact commits_addStoredRule v
  | overwriteAction id columns => exact commits_overwriteAction id columns
  | addLog rule transaction matched age => exact commits_addLog rule transaction matched age
  | changeLog id => exact commits_changeLog id
  | deleteRow hdeletes e id =>
      rw [hdeletes]
      exact commits_deleteRow e id
  | hold t => exact commits_hold t
  | held name => exact commits_held name
  | assignAttributes h attributes => exact commits_assignAttributes h attributes
  | saveAttributes h attributes => exact commits_saveAttributes h attributes
  | saveFields h fields => exact commits_saveFields h fields
  | saveAll h => exact commits_saveAll h
  | refresh h => exact commits_refresh h
  | checkCondition h c => exact commits_of_looks (looks_checkCondition h c)
  | describe a => exact commits_of_looks (h := 0) (looks_describe a)
  | runAction a h dryRun => exact commits_runAction a h dryRun
  | transactionsWhere e test => exact e.commits_transactionsWhere test
  | process rules trigger dryRun log _ _ hobserver hbatch =>
      exact Engine.commits_process hobserver hbatch
  | processForTrigger trigger dryRun _ _ hobserver hbatch =>
      exact Engine.commits_processForTrigger hobserver hbatch trigger
  | processForRules ids dryRun _ _ hobserver hbatch =>
      exact Engine.commits_processForRules hobserver hbatch ids
  | processRange start finish ids dryRun _ hobserver =>
      exact Engine.commits_processRange hobserver start finish ids
  | preview definition _ _ hobserver hbatch =>
      exact Engine.commits_preview hobserver hbatch definition
  | applyRules user transactions rules start finish trigger dryRun =>
      exact commits_applyRules user transactions rules start finish trigger dryRun
  | processCreated h => exact commits_processSingle h _
  | processUpdated h => exact commits_processSingle h _
  | previewDefinition user transactions definition =>
      exact commits_previewDefinition user transactions definition
  | addRuleGroup user name description order isActive =>
      exact commits_addRuleGroup user name description order isActive
  | setGroupActive group isActive => exact commits_setGroupActive group isActive
  | createRule user definition group hreplace =>
      exact commits_createRule user definition group hreplace
  | updateRule rule definition => exact commits_updateRule rule definition
  | duplicateRule rule name => exact commits_duplicateRule rule name
  | reorderRules ids => exact commits_reorderRules ids
  | ruleStatistics rule days => exact commits_ruleStatistics rule days
  | rulePayload rule => exact commits_rulePayload rule
  | exportRules user => exact commits_exportRules user
  | importRules hdeletes user text =>
      rw [hdeletes]
      exact commits_importRules user text
  | done r => exact keeps_ofExcept r
  | next _ _ hx hf => exact hx.bind hf
  | handled _ _ hx hhandler => exact hx.tryCatch hhandler
  | together _ hx => exact commits_atomically hx

/-! ## Reachable ledgers -/

/-- The workspaces that requests lead to from an empty ledger. -/
inductive Reachable : Workspace → Prop where
  | start {w : Workspace} (hempty : w.store = {}) (hfinal : w.isChanging = false) : Reachable w
  | step {w : Workspace} {α : Type} {x : Operation α} (hw : Reachable w) (hx : Request true x) :
      Reachable (x.runOn w).2

omit [Host] in
theorem isClosed_empty : ({} : Store).IsClosed := Store.isClosed_iff.2 rfl

namespace Reachable

variable {w : Workspace}

/-- Between requests no larger change is under way. -/
theorem isFinal (hw : Reachable w) : w.isChanging = false := by
  induction hw with
  | start _ hfinal => exact hfinal
  | step _ hx ih => exact (hx.commits _).isChanging.trans ih

theorem isClosed (hw : Reachable w) : w.store.IsClosed := by
  induction hw with
  | start hempty _ =>
      rw [hempty]
      exact isClosed_empty
  | step hw hx ih => exact (hx.commits _).isClosed hw.isFinal ih

theorem keysUnique (hw : Reachable w) : w.store.KeysUnique := by
  induction hw with
  | start hempty _ =>
      rw [hempty]
      exact Store.keysUnique_empty
  | step _ hx ih => exact (hx.commits _).becomes.keysUnique ih

end Reachable

/-! ## Consistency -/

namespace Store

/-- The numbers of all rows of a kind. -/
def numbers (s : Store) : Entity → List Id
  | .user => s.users.ids
  | .account => s.accounts.ids
  | .category => s.categories.ids
  | .merchant => s.merchants.ids
  | .tag => s.tags.ids
  | .transaction => s.transactions.ids
  | .transactionTag => s.links.ids
  | .group => s.groups.ids
  | .rule => s.rules.ids
  | .conditionGroup => s.conditionGroups.ids
  | .condition => s.conditions.ids
  | .action => s.actions.ids
  | .log => s.logs.ids

/-- Every reference names a row; no two rows of a kind have the same number; no two users have the
same address, no two labels of a user and a kind the same name, and no two links put the same tag on
the same transaction. -/
structure Consistent (s : Store) : Prop where
  references : ∀ e id r, s.row? e id = some r → ∀ o ∈ r.references, ∃ a, s.row? o.1 o.2 = some a
  numbers : ∀ e, (s.numbers e).Nodup
  addresses : ∀ i j u v, s.users.find? i = some u → s.users.find? j = some v →
    u.email = v.email → i = j
  names : ∀ kind i j l m, (s.labels kind).find? i = some l → (s.labels kind).find? j = some m →
    l.user = m.user → l.name = m.name → i = j
  tags : ∀ i j l m, s.links.find? i = some l → s.links.find? j = some m →
    l.transaction = m.transaction → l.tag = m.tag → i = j

/-- The later store is the earlier one after a row was deleted: the rows are gone that fall with it,
and the others are as they were, except that transactions have lost the labels that are gone and
categories the ones above them that are gone. -/
structure LosesWith (e : Entity) (id : Id) (s t : Store) : Prop where
  gone : ∀ f n, s.Falls (.row e id) f n → t.row? f n = none
  stay : ∀ f n r, s.row? f n = some r → ¬ s.Falls (.row e id) f n →
    ∃ r', t.row? f n = some r' ∧ r.Spared (s.Falls (.row e id)) r'
  nothingNew : ∀ f n r', t.row? f n = some r' → ∃ r, s.row? f n = some r

variable {s t : Store}

omit [Host] in
/-- Rows with the same key are the same row. -/
theorem eq_of_key_eq {α κ : Type} {t : Table α} {key : α → κ} (h : (t.keys key).Nodup) {i j : Id}
    {a b : α} (ha : t.find? i = some a) (hb : t.find? j = some b) (hkey : key a = key b) : i = j := by
  have hrows := List.inj_on_of_nodup_map h (Table.mem_rows_of_find? ha)
    (Table.mem_rows_of_find? hb) hkey
  exact (Prod.mk.inj hrows).1

omit [Host] in
theorem consistent_of (hs : s.IsClosed) (hkeys : s.KeysUnique) : s.Consistent where
  references _ _ _ hrow := hs.has_references hrow
  numbers e := by cases e <;> exact Table.nodup_ids _
  addresses _ _ _ _ hu hv heq := eq_of_key_eq hkeys.users hu hv heq
  names kind _ _ _ _ hl hm huser hname :=
    eq_of_key_eq (hkeys.labels kind) hl hm (Prod.ext huser hname)
  tags i j l m hl hm htransaction htag := by
    -- A link has no other columns than these two.
    have hsame : l = m := by
      obtain ⟨_, _⟩ := l
      obtain ⟨_, _⟩ := m
      cases htransaction
      cases htag
      rfl
    have hrows := List.inj_on_of_nodup_map hkeys.links (Table.mem_rows_of_find? hl)
      (Table.mem_rows_of_find? hm) hsame
    exact (Prod.mk.inj hrows).1

omit [Host] in
theorem losesWith_delete (s : Store) (e : Entity) (id : Id) :
    s.LosesWith e id (s.delete (.row e id)) where
  gone f n hfalls := by
    rw [Option.eq_none_iff_forall_ne_some]
    intro r hrow
    exact (row?_delete_iff.1 hrow).1 hfalls
  stay f n r hrow hstays :=
    ⟨_, row?_delete_iff.2 ⟨hstays, r, hrow, rfl⟩, spared_detach (fun _ _ => mem_doomed_iff) r⟩
  nothingNew f n r' hrow := by
    obtain ⟨-, r, hold, -⟩ := row?_delete_iff.1 hrow
    exact ⟨r, hold⟩

end Store

section Deleting

variable {w : Workspace} {e : Entity} {j : Json} {n : Id}

theorem runOn_rowId {β : Type} {table : Store → Table β} (hid : Column.reference "id" j = .ok (some n))
    (hrow : ((table w.store).find? n).isSome = true) : (rowId e table j).runOn w = (.ok n, w) := by
  obtain ⟨b, hb⟩ := Option.isSome_iff_exists.1 hrow
  rw [rowId, hid, runOn_bind, runOn_ofExcept]
  dsimp only
  rw [runOn_bind, runOn_row, hb]
  rfl

theorem runOn_anyRowId (hid : Column.reference "id" j = .ok (some n))
    (hrow : (w.store.row? e n).isSome = true) : (anyRowId e j).runOn w = (.ok n, w) := by
  cases e <;> exact runOn_rowId hid (by rwa [Store.row?, Option.isSome_map] at hrow)

/-- In a closed ledger a row that is there can be deleted. -/
theorem runOn_deleteRow (hclosed : w.store.IsClosed) (hid : Column.reference "id" j = .ok (some n))
    (hrow : (w.store.row? e n).isSome = true) :
    (deleteRow e j).runOn w =
      (.ok (w.store.doomed (.row e n)).counts,
        { w with store := w.store.delete (.row e n) }) := by
  have hafter : (w.store.delete (.row e n)).referencesHold = true :=
    Store.isClosed_iff.1 (hclosed.delete _)
  have hwrite : (write (·.removeDoomed (w.store.doomed (.row e n)))).runOn w =
      (.ok (), { w with store := w.store.delete (.row e n) }) := by
    rw [write, runOn_writeResult]
    dsimp only
    rw [if_pos]
    · rfl
    · exact Bool.or_eq_true_iff.2 (.inr hafter)
  rw [deleteRow, runOn_bind, runOn_anyRowId hid hrow]
  dsimp only
  rw [runOn_bind, runOn_get]
  dsimp only
  rw [runOn_bind, hwrite]
  rfl

theorem runOn_rowId_of_missing {β : Type} {table : Store → Table β}
    (hmissing : ∀ n, Column.reference "id" j = .ok (some n) → (table w.store).find? n = none) :
    ∃ failure, (rowId e table j).runOn w = (.error failure, w) := by
  rw [rowId, runOn_bind, runOn_ofExcept]
  rcases hid : Column.reference "id" j with failure | ⟨⟩ | n
  · exact ⟨failure, rfl⟩
  · exact ⟨_, rfl⟩
  · dsimp only
    rw [runOn_bind, runOn_row, hmissing n hid]
    exact ⟨_, rfl⟩

/-- A row that is not there cannot be deleted, and nothing happens. -/
theorem runOn_deleteRow_of_missing
    (hmissing : ∀ n, Column.reference "id" j = .ok (some n) → w.store.row? e n = none) :
    ∃ failure, (deleteRow e j).runOn w = (.error failure, w) := by
  have hnone : ∃ failure, (anyRowId e j).runOn w = (.error failure, w) := by
    cases e <;> exact runOn_rowId_of_missing fun n hid => Option.map_eq_none_iff.1 (hmissing n hid)
  obtain ⟨failure, hrun⟩ := hnone
  exact ⟨failure, by rw [deleteRow, runOn_bind, hrun]⟩

end Deleting

/-- Every ledger that can be reached is consistent.  Deleting a row that is there succeeds, takes
along exactly the rows that belong to it, and leaves a consistent ledger. -/
theorem Reachable.stays_consistent {w : Workspace} (hw : Reachable w) :
    w.store.Consistent ∧
    ∀ e j n, Column.reference "id" j = .ok (some n) → (w.store.row? e n).isSome = true →
      ∃ counts s, (deleteRow e j).runOn w = (.ok counts, { w with store := s }) ∧
        w.store.LosesWith e n s ∧ s.Consistent := by
  refine ⟨Store.consistent_of hw.isClosed hw.keysUnique, fun e j n hid hrow => ?_⟩
  have hrun := runOn_deleteRow hw.isClosed hid hrow
  have hnext := hw.step (.deleteRow rfl e j)
  rw [hrun] at hnext
  exact ⟨_, _, hrun, w.store.losesWith_delete e n,
    Store.consistent_of hnext.isClosed hnext.keysUnique⟩

end

namespace SmallLedger

/-- Adds a user, an account, a category with another one under it, and a transaction of the first
category to an empty ledger. -/
def bakery : Operation Id := do
  let _ ← addUser (.text "Ada") (.text "ada@example.org") (.bool true)
  let _ ← addAccount (.int 1) (.text "Checking")
  let _ ← addLabel .category (.int 1) (.text "Food")
  let _ ← addSubcategory (.int 1) (.text "Bread") (.int 1)
  addTransaction [(.account, .int 1), (.category, .int 1)] (.list [])

theorem reachable_bakery : Reachable (bakery.runOn Workspace.initial).2 := by
  refine (Reachable.start rfl rfl).step (.next (.addUser _ _ _) fun _ => ?_)
  refine .next (.addAccount _ _) fun _ => .next (.addLabel _ _ _) fun _ => ?_
  exact .next (.addSubcategory _ _ _) fun _ => .addTransaction _ _

/-- When the category is deleted, the transaction and the category under it stay without it. -/
theorem bakery_stays_consistent :
    Reachable (bakery.runOn Workspace.initial).2 ∧
    (bakery.runOn Workspace.initial).2.store.Consistent ∧
    Column.reference "id" (.int 1) = .ok (some 1) ∧
    ((bakery.runOn Workspace.initial).2.store.row? .category 1).isSome = true ∧
    ∃ counts s, (deleteRow .category (.int 1)).runOn (bakery.runOn Workspace.initial).2 =
        (.ok counts, { (bakery.runOn Workspace.initial).2 with store := s }) ∧
      s.Consistent ∧ s.row? .category 1 = none ∧ (s.row? .transaction 1).isSome = true ∧
      s.row? .category 2 = some (.category ⟨1, "Bread", "", none⟩) := by
  obtain ⟨hconsistent, hdeletes⟩ := Reachable.stays_consistent reachable_bakery
  have hid : Column.reference "id" (.int 1) = .ok (some 1) := rfl
  have hthere : ((bakery.runOn Workspace.initial).2.store.row? .category 1).isSome = true := by
    decide +kernel
  obtain ⟨counts, s, hrun, hloses, hafter⟩ := hdeletes .category (.int 1) 1 hid hthere
  obtain ⟨c, hc⟩ := Option.isSome_iff_exists.1 hthere
  have htransaction :
      ((bakery.runOn Workspace.initial).2.store.row? .transaction 1).isSome = true := by
    decide +kernel
  obtain ⟨t, ht⟩ := Option.isSome_iff_exists.1 htransaction
  have hstays :
      ¬ (bakery.runOn Workspace.initial).2.store.Falls (.row .category 1) .transaction 1 := by
    rw [← Store.mem_doomed_iff]
    decide +kernel
  obtain ⟨t', ht', -⟩ := hloses.stay .transaction 1 t ht hstays
  have hgone : (bakery.runOn Workspace.initial).2.store.Falls (.row .category 1) .category 1 :=
    .chosen hc (Doomed.mem_ids_row.2 ⟨rfl, rfl⟩)
  have hbread : (bakery.runOn Workspace.initial).2.store.row? .category 2 =
      some (.category ⟨1, "Bread", "", some 1⟩) := by
    have hfind : (bakery.runOn Workspace.initial).2.store.categories.find? 2 =
        some ⟨1, "Bread", "", some 1⟩ := by decide +kernel
    rw [Store.row?, hfind, Option.map_some]
  have hother :
      ¬ (bakery.runOn Workspace.initial).2.store.Falls (.row .category 1) .category 2 := by
    rw [← Store.mem_doomed_iff]
    decide +kernel
  obtain ⟨r, hr, hspared⟩ := hloses.stay .category 2 _ hbread hother
  have hafterwards : s.row? .category 2 = some (.category ⟨1, "Bread", "", none⟩) := by
    rw [hr, hspared.of_parent rfl hgone]
  exact ⟨reachable_bakery, hconsistent, hid, hthere, counts, s, hrun, hafter,
    hloses.gone .category 1 hgone, Option.isSome_iff_exists.2 ⟨t', ht'⟩, hafterwards⟩

end SmallLedger

end Rulebook
