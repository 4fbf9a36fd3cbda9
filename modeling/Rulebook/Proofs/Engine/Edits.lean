import Mathlib.Data.List.Nodup
import Rulebook.Proofs.Engine.EntryPoint
import Rulebook.Proofs.Engine.Inversion

/-!
# Which fields a run changes

An action reports the fields that it changed, and the entry of a transaction collects them over all
rules.  The collection is what gets saved, so it must not leave a field out, and it must not name
one that was not changed on purpose: the transaction in memory may be older than its row.

`Workspace.Edits` is the relation that carries this through a run.  All that is done for a
transaction leaves the fields alone that are not reported, and nothing is written to the rows of
transactions before the observer is told.  The seven fields that actions set are the only ones
reported (`TransactionField.settable`); this matters because an amount that is written and read
again need not be the same numeral.

## Main definitions

* `LiveTransaction.content` — what a transaction has in a field.
* `Workspace.Edits` — a transaction was changed in some fields, and only in memory.

## Main statements

* `Engine.edits_runRules` — the rules change the fields that their outcomes report.
* `content_copyFields` — saving some fields of a row changes these fields.
-/

namespace Rulebook

open Program Workspace Number Calendar

/-! ## What is in a field -/

/-- The content of a field of a transaction; a reference is the number that it refers by. -/
inductive FieldContent where
  | reference (id : Option Id)
  | amount (d : Decimal)
  | text (s : Option String)
  | date (d : Date)
  | flag (b : Bool)
  | time (t : Option Instant)

/-- What a transaction has in a field. -/
def LiveTransaction.content (t : LiveTransaction) : TransactionField → FieldContent
  | .account => .reference t.account.id
  | .amount => .amount t.amount
  | .currency => .text (some t.currency)
  | .bookedDate => .date t.bookedDate
  | .description => .text t.description
  | .partner => .text t.partner
  | .type => .text t.type
  | .note => .text t.note
  | .recipientNote => .text t.recipientNote
  | .place => .text t.place
  | .targetIban => .text t.targetIban
  | .sourceIban => .text t.sourceIban
  | .category => .reference t.category.id
  | .merchant => .reference t.merchant.id
  | .isReconciled => .flag t.isReconciled
  | .reconciledAt => .time t.reconciledAt

/-- What a row has in a field. -/
def Transaction.content (t : Transaction) (field : TransactionField) : FieldContent :=
  (LiveTransaction.ofRow 0 t).content field

/-- The fields that actions set. -/
def TransactionField.settable : List TransactionField :=
  [.description, .note, .type, .category, .merchant, .isReconciled, .reconciledAt]

theorem LiveTransaction.content_bare (t : LiveTransaction) (field : TransactionField) :
    t.bare.content field = t.content field := by
  cases field <;> rfl

theorem LiveTransaction.LookedUp.content_eq {s : Store} {t u : LiveTransaction}
    (hu : t.LookedUp s u) (field : TransactionField) : u.content field = t.content field := by
  rw [← content_bare u, hu.bare, content_bare]

/-! ## Saving fields -/

theorem content_copy (source t : Transaction) (field other : TransactionField) :
    (field.copy source t).content other =
      if other = field then source.content other else t.content other := by
  cases field <;> cases other <;> rfl

/-- Saving some fields of a row changes these fields and no others. -/
theorem content_copyFields (source t : Transaction) (fields : List TransactionField)
    (other : TransactionField) :
    (copyFields source fields t).content other =
      if other ∈ fields then source.content other else t.content other := by
  have hfold : ∀ (fields : List TransactionField) (t : Transaction),
      (fields.foldl (fun t field => field.copy source t) t).content other =
        if other ∈ fields then source.content other else t.content other := by
    intro fields
    induction fields with
    | nil => intro t; rfl
    | cons field rest ih =>
        intro t
        rw [List.foldl_cons, ih, content_copy]
        by_cases hrest : other ∈ rest
        · rw [if_pos hrest, if_pos (List.mem_cons_of_mem field hrest)]
        · rw [if_neg hrest]
          simp [hrest]
  rw [copyFields, hfold]
  cases other <;> rfl

theorem updatedAt_copy (source t : Transaction) (field : TransactionField) :
    (field.copy source t).updatedAt = t.updatedAt := by
  cases field <;> rfl

/-- A saved row has the time of saving. -/
theorem updatedAt_copyFields (source t : Transaction) (fields : List TransactionField) :
    (copyFields source fields t).updatedAt = source.updatedAt := by
  have hfold : ∀ (fields : List TransactionField) (t : Transaction),
      (fields.foldl (fun t field => field.copy source t) t).updatedAt = t.updatedAt := by
    intro fields
    induction fields with
    | nil => intro t; rfl
    | cons field rest ih =>
        intro t
        rw [List.foldl_cons, ih, updatedAt_copy]
  exact hfold fields _

/-- What is to be stored in the settable fields is what the transaction has in them. -/
theorem content_of_contentOf {t : LiveTransaction} {fields : List TransactionField} {now : Instant}
    {row : Transaction} (hrow : t.contentOf fields now = .ok row) :
    row.updatedAt = now ∧ ∀ field ∈ fields, field ∈ TransactionField.settable →
      row.content field = t.content field := by
  rw [LiveTransaction.contentOf] at hrow
  obtain ⟨amount, hrow⟩ : ∃ amount, (do
      let _ ← Column.allFit (fields.filterMap t.reference?)
      let account ← filled fields .account t.account.id
      let type ← filled fields .type t.type
      return {
        account, amount, type, currency := t.currency, bookedDate := t.bookedDate
        description := t.description, partner := t.partner, note := t.note
        recipientNote := t.recipientNote, place := t.place, targetIban := t.targetIban
        sourceIban := t.sourceIban, category := t.category.id, merchant := t.merchant.id
        isReconciled := t.isReconciled, reconciledAt := t.reconciledAt, updatedAt := now } :
        Except Failure Transaction) = .ok row := by
    split at hrow
    · obtain ⟨amount, -, hrow⟩ := eq_ok_of_bind hrow
      exact ⟨amount, hrow⟩
    · exact ⟨0, hrow⟩
  obtain ⟨_, -, hrow⟩ := eq_ok_of_bind hrow
  obtain ⟨account, -, hrow⟩ := eq_ok_of_bind hrow
  obtain ⟨type, htype, hrow⟩ := eq_ok_of_bind hrow
  cases hrow
  refine ⟨rfl, fun field hfield hsettable => ?_⟩
  simp only [TransactionField.settable, List.mem_cons, List.not_mem_nil, or_false] at hsettable
  rcases hsettable with rfl | rfl | rfl | rfl | rfl | rfl | rfl
  case inr.inr.inl =>
    -- A type that is written is there.
    rw [filled, if_pos (List.contains_iff_mem.2 hfield)] at htype
    cases hkind : t.type with
    | none =>
        rw [hkind] at htype
        cases htype
    | some kind =>
        rw [hkind] at htype
        cases htype
        exact congrArg FieldContent.text hkind.symm
  all_goals rfl

/-! ## Changing some fields -/

namespace Workspace

/-- The transaction was changed in memory, in some of the settable fields at most, and no row of a
transaction was touched. -/
structure Edits (h : Handle) (fields : List TransactionField) (w v : Workspace) : Prop where
  id : (v.transaction h).id = (w.transaction h).id
  content : ∀ field ∉ fields, (v.transaction h).content field = (w.transaction h).content field
  updatedAt : (v.transaction h).updatedAt = (w.transaction h).updatedAt
  rows : v.store.transactions = w.store.transactions
  settable : fields ⊆ TransactionField.settable

namespace Edits

variable {h : Handle} {fields more : List TransactionField} {w v u : Workspace}

theorem trans (hv : Edits h fields w v) (hu : Edits h more v u) : Edits h (fields ++ more) w u where
  id := hu.id.trans hv.id
  content field hfield := by
    rw [List.mem_append, not_or] at hfield
    exact (hu.content field hfield.2).trans (hv.content field hfield.1)
  updatedAt := hu.updatedAt.trans hv.updatedAt
  rows := hu.rows.trans hv.rows
  settable := List.append_subset.2 ⟨hv.settable, hu.settable⟩

end Edits

instance (h : Handle) : IsPreorder Workspace (Edits h []) where
  refl _ := ⟨rfl, fun _ _ => rfl, rfl, rfl, List.nil_subset _⟩
  trans _ _ _ hv hu := hv.trans hu

theorem Looks.edits {h : Handle} {w v : Workspace} (hl : Looks h w v) : Edits h [] w v where
  id := hl.own.id_eq
  content field _ := hl.own.content_eq field
  updatedAt := by
    have hupdated := congrArg LiveTransaction.updatedAt hl.own.bare
    exact hupdated
  rows := congrArg Store.transactions hl.store
  settable := List.nil_subset _

/-- Where neither the transaction nor the rows of transactions are touched, nothing is edited. -/
theorem edits_of_eq {h : Handle} {w v : Workspace} (hlive : v.live = w.live)
    (hrows : v.store.transactions = w.store.transactions) : Edits h [] w v := by
  have htransaction : v.transaction h = w.transaction h := by
    rw [transaction, hlive, transaction]
  refine ⟨?_, fun _ _ => ?_, ?_, hrows, List.nil_subset _⟩ <;> rw [htransaction]

theorem Logged.edits {h : Handle} {w v : Workspace} (hv : Logged w v) : Edits h [] w v := by
  have hrows := congrArg Store.transactions hv.store
  exact edits_of_eq hv.live hrows

/-- Setting some fields in memory. -/
theorem edits_change {h : Handle} {fields : List TransactionField} {w : Workspace}
    {f : LiveTransaction → LiveTransaction} (hid : ∀ t, (f t).id = t.id)
    (hcontent : ∀ t, ∀ field ∉ fields, (f t).content field = t.content field)
    (hupdated : ∀ t, (f t).updatedAt = t.updatedAt) (hfields : fields ⊆ TransactionField.settable) :
    Edits h fields w { w with live := w.live.update h f } := by
  by_cases hlive : w.live.has h = true
  · refine ⟨?_, fun field hfield => ?_, ?_, rfl, hfields⟩ <;> rw [transaction_update_self hlive]
    · exact hid _
    · exact hcontent _ field hfield
    · exact hupdated _
  · rw [Table.update_of_not_has (Bool.not_eq_true _ ▸ hlive)]
    exact ⟨rfl, fun _ _ => rfl, rfl, rfl, hfields⟩

end Workspace

/-! ## Effects -/

section Effects

variable {h : Handle} {w v : Workspace}

theorem edits_writeResult {α : Type} {change : Store → Except Failure (α × Store)}
    (hchange : ∀ s a t, change s = .ok (a, t) → t.transactions = s.transactions) (h : Handle) :
    Keeps (Edits h []) (writeResult change) := by
  intro w
  rw [runOn_writeResult]
  split
  · next a s hrun =>
    split
    · exact edits_of_eq rfl (hchange _ a s hrun)
    · exact Std.Refl.refl w
  · exact Std.Refl.refl w

theorem edits_findOrAddLabel (kind : LabelKind) (name : String) (owner : Id) (h : Handle) :
    Keeps (Edits h []) (findOrAddLabel kind name owner) := by
  have hadd : ∀ label, Keeps (Edits h []) (writeResult fun s => s.addLabel kind label) := by
    refine fun label => edits_writeResult (fun s a t hrun => ?_) h
    rw [Store.addLabel] at hrun
    split at hrun
    · cases hrun
    · cases hrun
      cases kind <;> rfl
  have hcache : ∀ labels : Workspace → LabelCache,
      Keeps (Edits h []) (modify fun w => { w with labels := labels w }) :=
    fun labels v => edits_of_eq rfl rfl
  rw [findOrAddLabel]
  refine Keeps.bind keeps_get fun w => ?_
  split
  · exact (keeps_pure _).bind fun found => (hcache _).bind fun _ => keeps_pure _
  · refine (hadd _).bind fun id => Keeps.bind (fun v => edits_of_eq rfl rfl) fun _ => ?_
    exact (keeps_pure _).bind fun found => (hcache _).bind fun _ => keeps_pure _

theorem edits_putTag (tag : Id) (h k : Handle) : Keeps (Edits h []) (putTag k tag) := by
  rw [putTag]
  refine Keeps.bind (fun w => edits_of_eq rfl rfl) fun t => ?_
  split
  · refine edits_writeResult (fun s a t hrun => ?_) h
    cases hrun
    dsimp only [Store.addLink]
    split <;> rfl
  · exact keeps_pure ()

theorem edits_takeTags (test : Id → Bool) (h k : Handle) :
    Keeps (Edits h []) (takeTags k test) := by
  rw [takeTags]
  refine Keeps.bind (fun w => edits_of_eq rfl rfl) fun t => ?_
  split
  · refine edits_writeResult (fun s a t hrun => ?_) h
    cases hrun
    rfl
  · exact keeps_pure ()

/-- An effect changes the fields that it reports. -/
theorem edits_perform {effect : Effect} {fields : List TransactionField}
    (hrun : (effect.perform h).runOn w = (.ok fields, v)) : Edits h fields w v := by
  have hset : ∀ (role : LabelRole) (reference : Reference Label) (w : Workspace),
      Edits h [role.field] w { w with live := w.live.update h (role.set reference) } := by
    intro role reference w
    refine edits_change (fun t => ?_) (fun t field hfield => ?_) (fun t => ?_) ?_
    · cases role <;> rfl
    · cases role <;> cases field <;> first | rfl | exact absurd (List.mem_singleton_self _) hfield
    · cases role <;> rfl
    · cases role <;> decide
  -- What only tags and labels are changed by, and what it reports.
  have hnone : ∀ {x : Operation Unit} {w v : Workspace}, Keeps (Edits h []) x →
      (x >>= fun _ => pure [] : Operation (List TransactionField)).runOn w = (.ok fields, v) →
      Edits h fields w v := by
    intro x w v hx hrun
    obtain ⟨_, u, hfirst, hrun⟩ := runOn_bind_eq_ok hrun
    cases hrun
    have hkept := hx w
    rw [hfirst] at hkept
    exact hkept
  cases effect with
  | setLabel role id label =>
      cases hrun
      exact hset role _ w
  | setNamedLabel role name owner =>
      obtain ⟨⟨id, label⟩, u, hfind, hrun⟩ := runOn_bind_eq_ok hrun
      cases hrun
      have hfound := edits_findOrAddLabel role.kind name owner h w
      rw [hfind] at hfound
      exact hfound.trans (hset role _ u)
  | attachTag tag => exact hnone (edits_putTag tag h h) hrun
  | attachNamedTag name owner =>
      obtain ⟨⟨tag, label⟩, u, hfind, hrun⟩ := runOn_bind_eq_ok hrun
      have hfound := edits_findOrAddLabel .tag name owner h w
      rw [hfind] at hfound
      exact hfound.trans (hnone (edits_putTag tag h h) hrun)
  | detachTag tag => exact hnone (edits_takeTags _ h h) hrun
  | detachAllTags => exact hnone (edits_takeTags _ h h) hrun
  | setDescription words =>
      cases hrun
      refine edits_change (fun _ => rfl) (fun t field hfield => ?_) (fun _ => rfl) (by decide)
      cases field <;> first | rfl | exact absurd (List.mem_singleton_self _) hfield
  | setNote words =>
      cases hrun
      refine edits_change (fun _ => rfl) (fun t field hfield => ?_) (fun _ => rfl) (by decide)
      cases field <;> first | rfl | exact absurd (List.mem_singleton_self _) hfield
  | setType words =>
      cases hrun
      refine edits_change (fun _ => rfl) (fun t field hfield => ?_) (fun _ => rfl) (by decide)
      cases field <;> first | rfl | exact absurd (List.mem_singleton_self _) hfield
  | markReconciled =>
      cases hrun
      refine edits_change (fun _ => rfl) (fun t field hfield => ?_) (fun _ => rfl) (by decide)
      cases field <;> first | rfl | exact absurd (by decide) hfield
  | notify rule message => exact hnone (fun w => edits_of_eq rfl rfl) hrun

/-- An action changes the fields that its outcome reports. -/
theorem edits_runAction [Host] {a : Action} {outcome : ActionOutcome} (hw : w.isChanging = true)
    (hrun : (runAction a h false).runOn w = (.ok outcome, v)) :
    Edits h outcome.changes w v := by
  rcases runAction_cases hw hrun with
    ⟨-, hnone, hlooks⟩ | ⟨-, kind, u, effect, u', -, hlooks, hplan, hperform⟩
  · rw [hnone]
    exact hlooks.edits
  · have hplanned := looks_plan kind a h u
    rw [hplan] at hplanned
    exact (hlooks.trans hplanned).edits.trans (edits_perform hperform)

end Effects

/-! ## Rules -/

/-- Within a larger change, what is edited is what is reported. -/
theorem reporting_edits [Host] (h : Handle) :
    Reporting h false fun fields w v =>
      w.isChanging = true → v.isChanging = true ∧ Edits h fields w v where
  looks hl hw := ⟨hl.isChanging.trans hw, hl.edits⟩
  logged hv hw := ⟨hv.isChanging.trans hw, hv.edits⟩
  trans hv hu hw := by
    obtain ⟨hchanging, hfirst⟩ := hv hw
    obtain ⟨hchanging, hlater⟩ := hu hchanging
    exact ⟨hchanging, hfirst.trans hlater⟩
  action {a _ w _} hrun hw := by
    have hworks := works_runAction (L := Eq) a h false w
    rw [hrun] at hworks
    exact ⟨hworks.isChanging.trans hw, edits_runAction hw hrun⟩

/-- The rules change the fields that their outcomes report. -/
theorem Engine.edits_runRules [Host] {e : Engine} {trigger : Trigger} {h : Handle} {log : Bool}
    {rules : List RuleDefinition} {outcomes : List RuleOutcome} {w v : Workspace}
    (hw : w.isChanging = true)
    (hrun : (e.runRules h trigger false log rules).runOn w = (.ok outcomes, v)) :
    Edits h (outcomes.flatMap (·.changes)) w v :=
  (reporting_runRules (reporting_edits h) hrun hw).2

/-! ## Collecting what was reported -/

theorem mem_mergeChanges {changes new : List TransactionField} {field : TransactionField} :
    field ∈ mergeChanges changes new ↔ field ∈ changes ∨ field ∈ new := by
  unfold mergeChanges
  induction new generalizing changes with
  | nil => simp
  | cons first rest ih =>
      rw [List.foldl_cons, ih]
      split
      · next hthere =>
        rw [List.contains_iff_mem] at hthere
        constructor
        · rintro (hold | hrest)
          · exact Or.inl hold
          · exact Or.inr (List.mem_cons_of_mem first hrest)
        · rintro (hold | hnew)
          · exact Or.inl hold
          · rcases List.mem_cons.1 hnew with rfl | hrest
            · exact Or.inl hthere
            · exact Or.inr hrest
      · rw [List.mem_append, List.mem_singleton, List.mem_cons, or_assoc]

theorem nodup_mergeChanges {changes : List TransactionField} (hchanges : changes.Nodup)
    (new : List TransactionField) : (mergeChanges changes new).Nodup := by
  unfold mergeChanges
  induction new generalizing changes with
  | nil => exact hchanges
  | cons first rest ih =>
      rw [List.foldl_cons]
      refine ih ?_
      split
      · exact hchanges
      · next hfresh =>
        rw [List.contains_iff_mem] at hfresh
        exact List.Nodup.append hchanges (List.nodup_singleton first)
          (List.disjoint_singleton.2 hfresh)

namespace TransactionSummary

variable {id : Option Id} {outcomes : List RuleOutcome} {field : TransactionField}

/-- The entry of a transaction collects the fields that were reported for its rules. -/
theorem mem_changes_ofOutcomes :
    field ∈ (ofOutcomes id outcomes).changes ↔ field ∈ outcomes.flatMap (·.changes) := by
  have hfold : ∀ done : List TransactionField,
      field ∈ outcomes.foldl (fun done outcome => mergeChanges done outcome.changes) done ↔
        field ∈ done ∨ field ∈ outcomes.flatMap (·.changes) := by
    induction outcomes with
    | nil => simp
    | cons outcome rest ih =>
        intro done
        rw [List.foldl_cons, ih, mem_mergeChanges, List.flatMap_cons, List.mem_append, or_assoc]
  rw [ofOutcomes, hfold]
  simp

theorem nodup_changes_ofOutcomes : (ofOutcomes id outcomes).changes.Nodup := by
  have hfold : ∀ done : List TransactionField, done.Nodup →
      (outcomes.foldl (fun done outcome => mergeChanges done outcome.changes) done).Nodup := by
    induction outcomes with
    | nil => exact fun _ hdone => hdone
    | cons outcome rest ih => exact fun done hdone => ih _ (nodup_mergeChanges hdone _)
  exact hfold [] List.nodup_nil

end TransactionSummary

end Rulebook
