import Rulebook.Proofs.Engine.Committing
import Rulebook.Proofs.Exchange.Importing
import Rulebook.Service.Rows
import Rulebook.Service.Running

/-!
# What services commit

Rows that are added by hand, transactions that are held and saved, runs on behalf of a user, and the
management of rules: each of these commits (`Workspace.Commits`).

Most of them delete nothing.  A rule that is changed loses its parts and gets new ones, but parts
have no keys and no logs, so this is no deletion in the sense that matters here
(`Store.guarded_delete_parts`).  Only three operations delete what may have keys or logs: deleting a
row, creating a rule in place of others, and importing, which does the same for each rule.

## Main statements

* `commits_deleteRow`, `commits_createRule`, `commits_importRules` — the operations that delete.
* `commits_updateRule` — changing a rule does not.
-/

namespace Rulebook

open Program Workspace Calendar

namespace Store

/-- Deleting parts of rules takes nothing along that has a key or is a log. -/
theorem guarded_delete_parts (s : Store) (groups actions : List Id) :
    (s.delete { conditionGroups := groups, actions }).guarded = s.guarded := by
  simp [guarded, delete, removeDoomed, doomed, reach_nil, mapRows_id]

end Store

section Commits

variable {deletes : Bool} {h : Handle} {α : Type}

theorem commits_setting (s : Setting) : Keeps (Commits deletes) (setting s) :=
  keeps_of_runOn fun _ => rfl

variable [Host]

theorem commits_rowId {β : Type} (e : Entity) (table : Store → Table β) (reference : Json) :
    Keeps (Commits deletes) (rowId e table reference) := by
  rw [rowId]
  refine (keeps_ofExcept _).bind fun id => ?_
  split
  · exact keeps_throw _
  · exact (commits_row _ _ _).bind fun _ => keeps_pure _

omit [Host] in
theorem commits_forPlaces {f : Nat → α → Operation Unit}
    (hf : ∀ n a, Keeps (Commits deletes) (f n a)) (n : Nat) (entries : List α) :
    Keeps (Commits deletes) (forPlaces f n entries) := by
  induction entries generalizing n with
  | nil => exact keeps_pure ()
  | cons a rest ih => exact (hf n a).bind fun _ => ih (n + 1)

/-! ## Held transactions -/

omit [Host] in
theorem commits_holdAs (name : HeldName) (t : LiveTransaction) :
    Keeps (Commits deletes) (holdAs name t) := fun _ => commits_of_store rfl rfl

theorem commits_held (name : Json) : Keeps (Commits deletes) (held name) := by
  rw [held]
  refine Keeps.bind keeps_get fun w => ?_
  dsimp only
  split
  · exact keeps_pure _
  · refine (commits_rowId _ _ _).bind fun id => (commits_row _ _ _).bind fun t => ?_
    exact commits_holdAs _ _

theorem commits_assignAttributes (h : Handle) (attributes : List (String × Json)) :
    Keeps (Commits deletes) (assignAttributes h attributes) := by
  rw [assignAttributes]
  refine keeps_forM fun entry => (commits_transaction h).bind fun t => ?_
  exact (keeps_ofExcept _).bind fun _ => commits_change h _

theorem commits_saveAttributes (h : Handle) (attributes : List (String × Json)) :
    Keeps (Commits deletes) (saveAttributes h attributes) := by
  have hsave : ∀ fields, Keeps (Commits deletes)
      (if !attributes.isEmpty then saveFields h fields else pure () : Operation Unit) := by
    intro fields
    split
    · exact commits_saveFields h _
    · exact keeps_pure ()
  rw [saveAttributes]
  refine (commits_assignAttributes h attributes).bind fun _ => ?_
  dsimp only
  split
  · exact (keeps_throw _).bind fun _ => hsave _
  · exact hsave _

/-! ## Rows by hand -/

theorem commits_addUser (name email isActive : Json) :
    Keeps (Commits deletes) (addUser name email isActive) := by
  rw [addUser]
  refine (keeps_ofExcept _).bind fun u => commits_writeResult fun s id t hadd => ?_
  exact Store.Change.becomes (.addUser hadd)

theorem commits_addAccount (user name : Json) :
    Keeps (Commits deletes) (addAccount user name) := by
  rw [addAccount]
  exact (keeps_ofExcept _).bind fun a => commits_insertRow fun _ => .rows rfl

theorem commits_addLabel (kind : LabelKind) (user name : Json) :
    Keeps (Commits deletes) (addLabel kind user name) := by
  rw [addLabel]
  refine (keeps_ofExcept _).bind fun l => commits_writeResult fun s id t hadd => ?_
  exact Store.Change.becomes (.addLabel hadd)

theorem commits_addSubcategory (user name parent : Json) :
    Keeps (Commits deletes) (addSubcategory user name parent) := by
  rw [addSubcategory]
  refine (keeps_ofExcept _).bind fun l => commits_writeResult fun s id t hadd => ?_
  exact Store.Change.becomes (.addLabel hadd)

omit [Host] in
theorem commits_addGroup (g : Group) : Keeps (Commits deletes) (addGroup g) :=
  commits_insertRow fun _ => .rows rfl

theorem commits_addGroupRow (user name order isActive : Json) :
    Keeps (Commits deletes) (addGroupRow user name order isActive) := by
  rw [addGroupRow]
  refine Keeps.bind keeps_get fun w => ?_
  exact (keeps_ofExcept _).bind fun g => commits_addGroup g

theorem commits_tagTransaction (id : Id) (tags : Json) :
    Keeps (Commits deletes) (tagTransaction id tags) := by
  have hlinks : ∀ (tags : List Id) (s : Store),
      Store.Becomes deletes s (tags.foldl (fun s tag => s.addLink id tag) s) := by
    intro tags
    induction tags with
    | nil => exact fun s => Std.Refl.refl s
    | cons tag rest ih =>
        exact fun s => IsTrans.trans _ _ _ (Store.Change.addLink s id tag).becomes (ih _)
  rw [tagTransaction]
  exact (keeps_ofExcept _).bind fun tags => commits_write fun s => hlinks _ s

theorem commits_addTransaction (members : List (TransactionField × Json)) (tags : Json) :
    Keeps (Commits deletes) (addTransaction members tags) := by
  rw [addTransaction]
  refine (keeps_ofExcept _).bind fun t => Keeps.bind keeps_get fun w => ?_
  refine (keeps_ofExcept _).bind fun content => ?_
  refine (commits_insertRow fun s => .rows rfl).bind fun id => ?_
  exact (commits_tagTransaction id tags).bind fun _ => keeps_pure id

omit [Host] in
theorem commits_addRule (r : Rule) : Keeps (Commits deletes) (addRule r) :=
  commits_insertRow fun _ => .rows rfl

theorem commits_addConditionGroup (rule : Id) (connective order : Json) :
    Keeps (Commits deletes) (addConditionGroup rule connective order) := by
  rw [addConditionGroup]
  exact (keeps_ofExcept _).bind fun g => commits_insertRow fun s => .rows rfl

theorem commits_addCondition (group : Id) (c : Condition) :
    Keeps (Commits deletes) (addCondition group c) := by
  rw [addCondition]
  exact (keeps_ofExcept _).bind fun c => commits_insertRow fun s => .rows rfl

theorem commits_addAction (rule : Id) (a : Action) : Keeps (Commits deletes) (addAction rule a) := by
  rw [addAction]
  refine (keeps_ofExcept _).bind fun a => (keeps_ofExcept _).bind fun a => ?_
  exact commits_insertRow fun s => .rows rfl

theorem commits_addStoredRule (v : RuleValues) : Keeps (Commits deletes) (addStoredRule v) := by
  have hcondition : ∀ group c, Keeps (Commits deletes) (do
      let _ ← addCondition group c) :=
    fun group c => (commits_addCondition group c).bind fun _ => keeps_pure ()
  have haction : ∀ rule a, Keeps (Commits deletes) (do
      let _ ← addAction rule a) :=
    fun rule a => (commits_addAction rule a).bind fun _ => keeps_pure ()
  rw [addStoredRule]
  refine Keeps.bind keeps_get fun w => ?_
  dsimp only
  refine (keeps_ofExcept _).bind fun r => (commits_addRule r).bind fun rule => Keeps.bind ?_ ?_
  · refine keeps_forM fun group => ?_
    exact (commits_addConditionGroup rule _ _).bind fun id => keeps_forM (hcondition id)
  · intro _
    exact (keeps_forM (haction rule)).bind fun _ => keeps_pure rule

theorem commits_overwriteAction (id : Json) (columns : List (String × Json)) :
    Keeps (Commits deletes) (overwriteAction id columns) := by
  rw [overwriteAction]
  refine (keeps_ofExcept _).bind fun id => ?_
  split
  · exact keeps_pure 0
  · refine Keeps.bind keeps_get fun w => ?_
    split
    · exact keeps_pure 0
    · refine (keeps_ofExcept _).bind fun a => ?_
      exact Keeps.bind (commits_write_rows fun _ => rfl) fun _ => keeps_pure _

theorem commits_addLog (rule transaction matched age : Json) :
    Keeps (Commits deletes) (addLog rule transaction matched age) := by
  rw [addLog]
  exact (keeps_ofExcept _).bind fun l => commits_insertRow fun s => .addLog s l

theorem commits_changeLog (id : Json) : Keeps (Commits deletes) (changeLog id) := by
  rw [changeLog]
  exact (commits_rowId _ _ _).bind fun _ => keeps_throw _

theorem commits_anyRowId (e : Entity) (id : Json) : Keeps (Commits deletes) (anyRowId e id) := by
  cases e <;> exact commits_rowId _ _ _

/-- Deleting a row commits: nothing is left that refers to what is gone. -/
theorem commits_deleteRow (e : Entity) (id : Json) : Keeps (Commits true) (deleteRow e id) := by
  rw [deleteRow]
  refine (commits_anyRowId e id).bind fun n => Keeps.bind keeps_get fun w => ?_
  refine Keeps.bind (commits_write fun s => ?_) fun _ => keeps_pure _
  exact (Store.Change.remove rfl s _).becomes

/-! ## Runs on behalf of a user -/

omit [Host] in
theorem observerCommits_persistChanges {e : Engine} (he : e.observer = some persistChanges) :
    e.ObserverCommits deletes := by
  intro observer hobserver
  obtain rfl := Option.some.inj (he.symm.trans hobserver)
  exact commits_persistChanges

omit [Host] in
/-- What is done with the engine for a user commits if it does for every engine that saves what it
changes. -/
theorem commits_persistingEngine (user : Id) {f : Engine → Operation α}
    (hf : ∀ e, e.ObserverCommits deletes → Keeps (Commits deletes) (f e)) :
    Keeps (Commits deletes) (persistingEngine user >>= f) := by
  rw [persistingEngine, bind_assoc]
  refine (commits_setting _).bind fun logging => ?_
  -- The observer is known of the engine that is built here, not of any engine.
  exact (keeps_pure _).bind_run fun w e v hrun => by
    cases hrun
    exact hf _ (observerCommits_persistChanges rfl) _

omit [Host] in
theorem commits_transactionsWithIds (e : Engine) (ids : List Id) :
    Keeps (Commits deletes) (e.transactionsWithIds ids) := by
  rw [Engine.transactionsWithIds]
  exact (keeps_ofExcept _).bind fun ids => e.commits_transactionsWhere _

theorem commits_applyRules (user : Id) (transactions rules : Json) (start finish : Option Date)
    (trigger : Json) (dryRun : Bool) :
    Keeps (Commits deletes) (applyRules user transactions rules start finish trigger dryRun) := by
  rw [applyRules]
  refine commits_withFreshCaches (commits_persistingEngine user fun e he => ?_)
  refine (keeps_ofExcept _).bind fun ruleEntries => (keeps_ofExcept _).bind fun count => ?_
  refine (commits_report _).bind fun _ => ?_
  split
  · refine (keeps_ofExcept _).bind fun ids => ?_
    have hbatch : Keeps (Commits deletes) (e.transactionsWithIds ids) :=
      commits_transactionsWithIds e ids
    dsimp only
    split
    · exact Engine.commits_processForRules he hbatch rules
    · exact Engine.commits_processForTrigger he hbatch trigger
  · split
    · exact Engine.commits_processRange he _ _ _
    · split
      · exact Engine.commits_processForRules he (e.commits_transactionsWhere _) rules
      · exact (keeps_ofExcept _).bind fun known => keeps_pure _

omit [Host] in
theorem commits_requireOwner (h : Handle) : Keeps (Commits deletes) (requireOwner h) := by
  rw [requireOwner]
  refine (commits_of_looks (looks_accountOf h)).bind fun account => ?_
  split
  · exact keeps_throw _
  · dsimp only
    split
    · refine (commits_row _ _ _).bind fun _ => ?_
      exact (commits_change h _).bind fun _ => keeps_pure _
    · exact keeps_pure _

theorem commits_processSingle (h : Handle) (trigger : Trigger) :
    Keeps (Commits deletes) (processSingle h trigger) := by
  rw [processSingle]
  refine commits_withFreshCaches ((commits_requireOwner h).bind fun user => ?_)
  refine commits_persistingEngine user fun e he => ?_
  exact Engine.commits_processForTrigger he (keeps_pure [h]) _

omit [Host] in
theorem commits_limitedTransactions (e : Engine) (ids : List Id) (limit : Option Nat) :
    Keeps (Commits deletes) (e.limitedTransactions ids limit) := by
  rw [Engine.limitedTransactions]
  split
  · exact keeps_pure []
  · refine (keeps_ofExcept _).bind fun ids => Keeps.bind keeps_get fun w => ?_
    exact Engine.commits_holdRows _

theorem commits_previewDefinition (user : Id) (transactions definition : Json) :
    Keeps (Commits deletes) (previewDefinition user transactions definition) := by
  rw [previewDefinition]
  refine commits_withFreshCaches ((keeps_ofExcept _).bind fun _ => ?_)
  refine (commits_setting _).bind fun limit => (keeps_ofExcept _).bind fun ids => ?_
  refine (keeps_ofExcept _).bind fun limit => commits_persistingEngine user fun e he => ?_
  refine (commits_limitedTransactions e ids limit).bind fun batch => ?_
  exact (keeps_ofExcept _).bind fun r => Engine.commits_preview he (keeps_pure batch) r

/-! ## Managing rules -/

theorem commits_addRuleGroup (user : Id) (name description order isActive : Json) :
    Keeps (Commits deletes) (addRuleGroup user name description order isActive) := by
  rw [addRuleGroup]
  refine Keeps.bind keeps_get fun w => ?_
  exact (keeps_ofExcept _).bind fun g => commits_addGroup g

omit [Host] in
theorem commits_setGroupActive (group : Id) (isActive : Json) :
    Keeps (Commits deletes) (setGroupActive group isActive) := by
  rw [setGroupActive]
  refine (commits_row _ _ _).bind fun _ => Keeps.bind keeps_get fun w => ?_
  dsimp only
  exact (keeps_ofExcept _).bind fun isActive => commits_write_rows fun _ => rfl

theorem commits_writeConditionGroup (rule : Id) (place : Nat) (payload : Json) :
    Keeps (Commits deletes) (writeConditionGroup rule place payload) := by
  rw [writeConditionGroup]
  refine (keeps_ofExcept _).bind fun connective => (keeps_ofExcept _).bind fun order => ?_
  refine (commits_addConditionGroup rule _ _).bind fun group => (keeps_ofExcept _).bind ?_
  intro conditions
  refine commits_forPlaces (fun n payload => (keeps_ofExcept _).bind fun c => ?_) 0 conditions
  exact (commits_addCondition group c).bind fun _ => keeps_pure ()

theorem commits_writeParts (rule : Id) (definition : Json) :
    Keeps (Commits deletes) (writeParts rule definition) := by
  rw [writeParts]
  refine (keeps_ofExcept _).bind fun groups => ?_
  refine (commits_forPlaces (commits_writeConditionGroup rule) 0 groups).bind fun _ => ?_
  refine (keeps_ofExcept _).bind fun actions => ?_
  refine commits_forPlaces (fun n payload => (keeps_ofExcept _).bind fun a => ?_) 0 actions
  exact (commits_addAction rule a).bind fun _ => keeps_pure ()

omit [Host] in
theorem commits_deleteNamedRules (user group : Id) (name : String) :
    Keeps (Commits true) (deleteNamedRules user group name) := by
  rw [deleteNamedRules]
  refine Keeps.bind keeps_get fun w => commits_write fun s => ?_
  exact (Store.Change.remove rfl s _).becomes

theorem commits_makeRoom (user group : Id) (definition : Json) {replace : Bool}
    (hreplace : replace = true → deletes = true) :
    Keeps (Commits deletes) (makeRoom user group definition replace) := by
  rw [makeRoom]
  split
  · next hyes =>
    obtain rfl := hreplace hyes
    exact (keeps_ofExcept _).bind fun name => commits_deleteNamedRules user group name
  · exact keeps_pure ()

/-- Creating a rule commits; it deletes only if the rule is to stand in place of others. -/
theorem commits_createRule (user : Id) (definition : Json) (group : Option Id) {replace : Bool}
    (hreplace : replace = true → deletes = true) :
    Keeps (Commits deletes) (createRule user definition group replace) := by
  rw [createRule_eq]
  refine commits_atomically ((keeps_ofExcept _).bind fun _ => ?_)
  refine (keeps_groupForRule commits_addGroup user definition group).bind fun chosen => ?_
  refine (commits_makeRoom user chosen definition hreplace).bind fun _ => ?_
  -- What is left adds rows of kinds that have no keys.
  refine Keeps.bind keeps_get fun w => (keeps_ofExcept _).bind fun r => ?_
  refine (commits_addRule r).bind fun rule => ?_
  exact (commits_writeParts rule definition).bind fun _ => keeps_pure rule

/-- Changing a rule commits, and what it deletes are only parts of the rule. -/
theorem commits_updateRule (rule : Id) (definition : Json) :
    Keeps (Commits deletes) (updateRule rule definition) := by
  rw [updateRule]
  refine (commits_row _ _ _).bind fun stored => commits_atomically ?_
  refine (keeps_ofExcept _).bind fun _ => Keeps.bind keeps_get fun w => ?_
  refine (keeps_ofExcept _).bind fun changed => ?_
  refine Keeps.bind (commits_write_rows fun _ => rfl) fun _ => Keeps.bind keeps_get fun v => ?_
  -- The rule itself stays, so that the logs of the rule stay, too.
  refine Keeps.bind (commits_write_rows fun s => ?_) fun _ => commits_writeParts rule definition
  exact s.guarded_delete_parts _ _

theorem commits_duplicateRule (rule : Id) (name : Json) :
    Keeps (Commits deletes) (duplicateRule rule name) := by
  have hcondition : ∀ group (row : Id × ConditionRow), Keeps (Commits deletes) (do
      let _ ← addCondition group (.ofRow row.1 row.2)) :=
    fun group row => (commits_addCondition group _).bind fun _ => keeps_pure ()
  have haction : ∀ copy (row : Id × ActionRow), Keeps (Commits deletes) (do
      let _ ← addAction copy (.ofRow row.1 row.2)) :=
    fun copy row => (commits_addAction copy _).bind fun _ => keeps_pure ()
  rw [duplicateRule]
  refine (commits_row _ _ _).bind fun r => commits_atomically ?_
  refine Keeps.bind keeps_get fun w => Keeps.bind keeps_get fun v => ?_
  refine (keeps_ofExcept _).bind fun name => ?_
  refine (commits_addRule _).bind fun copy => Keeps.bind (keeps_forM fun row => ?_) fun _ => ?_
  · refine (commits_addConditionGroup copy _ _).bind fun group => ?_
    exact keeps_forM (hcondition group)
  · exact (keeps_forM (haction copy)).bind fun _ => keeps_pure copy

theorem commits_reorderRules (ids : Json) : Keeps (Commits deletes) (reorderRules ids) := by
  rw [reorderRules]
  refine commits_atomically ((keeps_ofExcept _).bind fun ids => ?_)
  refine commits_forPlaces (fun place entry => (keeps_ofExcept _).bind fun id => ?_) 0 ids
  split
  · exact commits_write_rows fun _ => rfl
  · exact keeps_pure ()

omit [Host] in
theorem commits_ruleStatistics (rule : Id) (days : Json) :
    Keeps (Commits deletes) (ruleStatistics rule days) := by
  have hcount : ∀ days, Keeps (Commits deletes) (do
      let span ← .ofExcept (spanOf dayMicroseconds days)
      let since ← .ofExcept ((← get).now.after (-span))
      let logs := (← get).store.logs.filter fun _ l => l.rule = rule && since.le l.createdAt
      return RuleStatistics.ofLogs (logs.map (·.2))) := by
    intro days
    refine (keeps_ofExcept _).bind fun span => Keeps.bind keeps_get fun w => ?_
    exact (keeps_ofExcept _).bind fun since => Keeps.bind keeps_get fun v => keeps_pure _
  rw [ruleStatistics]
  refine (commits_row _ _ _).bind fun _ => ?_
  dsimp only
  split
  · exact (commits_setting _).bind hcount
  · exact (keeps_pure days).bind hcount

/-! ## Exporting and importing -/

omit [Host] in
theorem commits_rulePayload (rule : Id) : Keeps (Commits deletes) (rulePayload rule) := by
  rw [rulePayload]
  exact (commits_row _ _ _).bind fun r => Keeps.bind keeps_get fun w => keeps_pure _

omit [Host] in
theorem commits_exportRules (user : Id) : Keeps (Commits deletes) (exportRules user) := by
  rw [exportRules]
  exact (commits_row _ _ _).bind fun u => Keeps.bind keeps_get fun w => keeps_pure _

/-- An import commits, also if it ends half way. -/
theorem commits_importRules (user : Id) (text : String) :
    Keeps (Commits true) (importRules user text) :=
  keeps_importRules commits_addGroup (fun group d => commits_createRule user d (some group)
    fun _ => rfl) text

end Commits

end Rulebook
