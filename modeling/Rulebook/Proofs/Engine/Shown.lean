import Rulebook.Proofs.Engine.CacheFree
import Rulebook.Proofs.Engine.Parallel

/-!
# What a transaction shows

The field cache holds what a look-up would give again.  To say so without running the look-up, the
value of a field is read off the transaction as it stands, with the rows that it has looked up so
far and the tags that the store gives it (`LiveTransaction.shown?`).  A field whose row has not
been looked up shows nothing.

Two facts tie this to the engine.  A field that is shown is resolved to its value without a step
(`runOn_resolveField_of_shown`), and a field that was resolved is shown afterwards
(`shown_of_runOn_resolveField`).

Checking conditions, logging and saving take nothing away from what is shown and do not touch the
labels.  They ignore the caches, too, so the caches need not hear of them: they go unnoticed.

## Main definitions

* `LiveTransaction.shown?` — the value of a field as far as it can be read without looking up rows.
* `Workspace.FieldsAgree` — the field cache holds the truth about a transaction.
* `Unnoticed` — an operation of which the caches need not hear.
-/

namespace Rulebook

open Program Workspace

/-! ## Reading fields without looking up rows -/

theorem Reference.loaded_of_resolve {α : Type} {find : Id → Option α} {r r' : Reference α}
    (h : r.resolve find = some r') (hset : r.isSet = true) :
    r'.isSet = true ∧ ∃ a, r'.loaded = some a := by
  obtain ⟨_ | id, _ | a⟩ := r
  · cases hset
  · cases hset
  · obtain ⟨a, -, rfl⟩ := Option.map_eq_some_iff.1 h
    exact ⟨hset, a, rfl⟩
  · cases h
    exact ⟨hset, a, rfl⟩

namespace LiveTransaction

/-- The name of a row that was looked up; a reference that is not set has an absent one. -/
def nameShown? {α : Type} (name : α → String) (r : Reference α) : Option FieldValue :=
  if r.isSet then r.loaded.map fun a => .ofText? (some (name a)) else some .absent

/-- What a field holds, as far as that can be told without looking up a row. -/
def shown? (s : Store) (t : LiveTransaction) : Field → Option FieldValue
  | .amount => some (.amount t.amount)
  | .description => some (.ofText? t.description)
  | .partner => some (.ofText? t.partner)
  | .category => nameShown? Label.name t.category
  | .merchant => nameShown? Label.name t.merchant
  | .account => nameShown? (·.account.name) t.account
  | .type => some (.ofText? t.type)
  | .note => some (.ofText? t.note)
  | .recipientNote => some (.ofText? t.recipientNote)
  | .place => some (.ofText? t.place)
  | .targetIban => some (.ofText? t.targetIban)
  | .sourceIban => some (.ofText? t.sourceIban)
  | .date => some (.date t.bookedDate)
  | .tags =>
    match t.id with
    | none => some (.names [])
    | some id => some (.names ((s.tagsOf id).map (·.2.name)))

theorem nameShown?_lookedUp {α : Type} {row : Id → α → Prop} {name : α → String}
    {r r' : Reference α} (h : r.LookedUp row r') {value : FieldValue}
    (hshown : nameShown? name r = some value) : nameShown? name r' = some value := by
  cases h with
  | same => exact hshown
  | @found id a hrow =>
      rw [nameShown?] at hshown ⊢
      have hsame : (Reference.known id a).isSet = (Reference.byId (α := α) (some id)).isSet := rfl
      rw [hsame]
      split
      · next hset =>
        rw [if_pos hset] at hshown
        cases hshown
      · next hset =>
        rw [if_neg hset] at hshown
        exact hshown

/-- Looking up rows takes nothing away from what a transaction shows. -/
theorem LookedUp.shown? {s : Store} {t u : LiveTransaction} (h : t.LookedUp s u) {field : Field}
    {value : FieldValue} (hshown : t.shown? s field = some value) :
    u.shown? s field = some value := by
  have hbare := h.bare
  simp only [LiveTransaction.bare, mk.injEq] at hbare
  cases field with
  | category => exact nameShown?_lookedUp h.category hshown
  | merchant => exact nameShown?_lookedUp h.merchant hshown
  | account => exact nameShown?_lookedUp h.account hshown
  | _ =>
      simp only [LiveTransaction.shown?, hbare] at hshown ⊢
      exact hshown

end LiveTransaction

section Shown

variable {h : Handle} {field : Field} {value : FieldValue} {w v : Workspace}

/-- The name of a label that was looked up is there without a step. -/
theorem runOn_labelName_of_shown (role : LabelRole)
    (hshown : LiveTransaction.nameShown? Label.name (role.get (w.transaction h)) = some value) :
    (labelName role h).runOn w = (.ok value, w) := by
  rw [LiveTransaction.nameShown?] at hshown
  rw [labelName, runOn_bind, runOn_transaction]
  dsimp only
  split at hshown
  · next hset =>
    obtain ⟨label, hloaded, rfl⟩ := Option.map_eq_some_iff.1 hshown
    have hfound : (labelOf role h).runOn w = (.ok (some label), w) := by
      rw [labelOf, runOn_bind, runOn_transaction]
      dsimp only
      rw [hloaded]
      rfl
    rw [if_pos hset, runOn_bind, hfound]
    rfl
  · next hset =>
    cases hshown
    rw [if_neg hset]
    rfl

theorem runOn_accountName_of_shown
    (hshown : LiveTransaction.nameShown? (·.account.name) (w.transaction h).account = some value) :
    (accountName h).runOn w = (.ok value, w) := by
  rw [LiveTransaction.nameShown?] at hshown
  rw [accountName, runOn_bind, runOn_transaction]
  dsimp only
  split at hshown
  · next hset =>
    obtain ⟨account, hloaded, rfl⟩ := Option.map_eq_some_iff.1 hshown
    have hfound : (accountOf h).runOn w = (.ok (some account), w) := by
      rw [accountOf, runOn_bind, runOn_transaction]
      dsimp only
      rw [hloaded]
      rfl
    rw [if_pos hset, runOn_bind, hfound]
    rfl
  · next hset =>
    cases hshown
    rw [if_neg hset]
    rfl

/-- A field that can be read is not looked up. -/
theorem runOn_resolveField_of_shown (hshown : (w.transaction h).shown? w.store field = some value) :
    (resolveField h field).runOn w = (.ok value, w) := by
  rw [resolveField, runOn_bind, runOn_transaction]
  dsimp only
  cases field with
  | category => exact runOn_labelName_of_shown .category hshown
  | merchant => exact runOn_labelName_of_shown .merchant hshown
  | account => exact runOn_accountName_of_shown hshown
  | tags =>
      rw [LiveTransaction.shown?] at hshown
      dsimp only
      rw [tagNames, runOn_bind, runOn_transaction]
      dsimp only
      cases hid : (w.transaction h).id with
      | none =>
          rw [hid] at hshown
          cases hshown
          rfl
      | some id =>
          rw [hid] at hshown
          cases hshown
          rfl
  | _ =>
      cases hshown
      rfl

/-- A label whose name was looked up is kept with the transaction. -/
theorem shown_of_runOn_labelName (role : LabelRole) (hlive : w.live.has h = true)
    (hrun : (labelName role h).runOn w = (.ok value, v)) :
    LiveTransaction.nameShown? Label.name (role.get (v.transaction h)) = some value := by
  rw [labelName, runOn_bind, runOn_transaction] at hrun
  dsimp only at hrun
  split at hrun
  · next hset =>
    rw [runOn_bind, runOn_labelOf] at hrun
    rcases hresolve : (role.get (w.transaction h)).resolve (w.store.labels role.kind).find?
      with _ | r <;> rw [hresolve] at hrun
    · cases hrun
    · cases hrun
      obtain ⟨hset, label, hloaded⟩ := Reference.loaded_of_resolve hresolve hset
      have hget : ∀ t : LiveTransaction, role.get (role.set r t) = r := by
        cases role <;> exact fun _ => rfl
      rw [transaction_update_self hlive, hget, LiveTransaction.nameShown?, if_pos hset, hloaded]
      rfl
  · next hset =>
    cases hrun
    rw [LiveTransaction.nameShown?, if_neg hset]

theorem shown_of_runOn_accountName (hlive : w.live.has h = true)
    (hrun : (accountName h).runOn w = (.ok value, v)) :
    LiveTransaction.nameShown? (·.account.name) (v.transaction h).account = some value := by
  rw [accountName, runOn_bind, runOn_transaction] at hrun
  dsimp only at hrun
  split at hrun
  · next hset =>
    rw [runOn_bind, runOn_accountOf] at hrun
    rcases hresolve : (w.transaction h).account.resolve (findAccount w.store) with _ | r <;>
      rw [hresolve] at hrun
    · cases hrun
    · cases hrun
      obtain ⟨hset, account, hloaded⟩ := Reference.loaded_of_resolve hresolve hset
      rw [transaction_update_self hlive, LiveTransaction.nameShown?, if_pos hset, hloaded]
      rfl
  · next hset =>
    cases hrun
    rw [LiveTransaction.nameShown?, if_neg hset]

/-- After a field was looked up it can be read. -/
theorem shown_of_runOn_resolveField (hlive : w.live.has h = true)
    (hrun : (resolveField h field).runOn w = (.ok value, v)) :
    (v.transaction h).shown? v.store field = some value := by
  rw [resolveField, runOn_bind, runOn_transaction] at hrun
  dsimp only at hrun
  cases field with
  | category => exact shown_of_runOn_labelName .category hlive hrun
  | merchant => exact shown_of_runOn_labelName .merchant hlive hrun
  | account => exact shown_of_runOn_accountName hlive hrun
  | tags =>
      dsimp only at hrun
      rw [tagNames, runOn_bind, runOn_transaction] at hrun
      dsimp only at hrun
      rw [LiveTransaction.shown?]
      split at hrun
      · next hid =>
        cases hrun
        rw [hid]
      · next id hid =>
        cases hrun
        rw [hid]
  | _ =>
      cases hrun
      rfl

end Shown

/-! ## What the caches know -/

namespace Workspace

/-- What the field cache knows about a transaction can be read off it. -/
def FieldsAgree (w : Workspace) (h : Handle) : Prop :=
  ∀ id, (w.transaction h).id = some id → ∀ field value,
    w.fields.values.lookup (id, field) = some value →
      (w.transaction h).shown? w.store field = some value

/-- Nothing that the caches may know about a transaction, or about labels, has changed. -/
structure Unseen (h : Handle) (w v : Workspace) : Prop where
  changing : v.isChanging = w.isChanging
  labels : ∀ kind, v.store.labels kind = w.store.labels kind
  links : v.store.links = w.store.links
  id : (v.transaction h).id = (w.transaction h).id
  shown : ∀ field value, (w.transaction h).shown? w.store field = some value →
    (v.transaction h).shown? v.store field = some value

instance (h : Handle) : IsPreorder Workspace (Unseen h) where
  refl _ := ⟨rfl, fun _ => rfl, rfl, rfl, fun _ _ => id⟩
  trans _ _ _ a b :=
    { changing := b.changing.trans a.changing
      labels := fun kind => (b.labels kind).trans (a.labels kind)
      links := b.links.trans a.links
      id := b.id.trans a.id
      shown := fun field value hvalue => b.shown field value (a.shown field value hvalue) }

theorem Looks.unseen {h : Handle} {w v : Workspace} (hl : Looks h w v) : Unseen h w v where
  changing := hl.isChanging
  labels := by
    rw [hl.store]
    exact fun _ => rfl
  links := by
    rw [hl.store]
  id := hl.own.id_eq
  shown field value hvalue := by
    rw [hl.store]
    exact hl.own.shown? hvalue

end Workspace

/-! ## Operations of which the caches need not hear -/

/-- The operation does not touch the caches, and nothing of what they may know changes. -/
structure Unnoticed {α : Type} (h : Handle) (x : Operation α) : Prop where
  ignores : IgnoresCaches x
  keeps : Keeps (Unseen h) x

section Unnoticed

variable {α β : Type} {h : Handle} {w : Workspace} {e : Engine} {trigger : Trigger} {dryRun : Bool}

theorem unnoticed_pure (a : α) : Unnoticed h (pure a) := ⟨ignores_pure a, keeps_pure a⟩

theorem unnoticed_throw (failure : Failure) : Unnoticed h (throw failure : Operation α) :=
  ⟨ignores_throw failure, keeps_throw failure⟩

theorem unnoticed_ofExcept (r : Except Failure α) : Unnoticed h (Program.ofExcept r) :=
  ⟨ignores_ofExcept r, keeps_ofExcept r⟩

theorem Unnoticed.bind {x : Operation α} {f : α → Operation β} (hx : Unnoticed h x)
    (hf : ∀ a, Unnoticed h (f a)) : Unnoticed h (x >>= f) :=
  ⟨hx.ignores.bind fun a => (hf a).ignores, hx.keeps.bind fun a => (hf a).keeps⟩

theorem unnoticed_get_bind {f : Workspace → Operation β}
    (hsame : ∀ w fields labels, f (w.withCaches fields labels) = f w)
    (hf : ∀ w, Unnoticed h (f w)) : Unnoticed h (get >>= f) :=
  ⟨ignores_get_bind hsame fun w => (hf w).ignores, Keeps.bind keeps_get fun w => (hf w).keeps⟩

/-- Looking up rows goes unnoticed. -/
theorem unnoticed_of_looks {x : Operation α} (hx : IgnoresCaches x) (hlooks : Keeps (Looks h) x) :
    Unnoticed h x := ⟨hx, hlooks.mono fun _ _ hl => hl.unseen⟩

theorem unnoticed_transaction (h k : Handle) : Unnoticed h (transaction k) :=
  unnoticed_of_looks (ignores_transaction k) (looks_transaction k)

theorem unnoticed_report (h : Handle) (e : Event) : Unnoticed h (report e) :=
  unnoticed_of_looks (ignores_report e) (looks_report e)

theorem unnoticed_ownerOf (h : Handle) : Unnoticed h (ownerOf h) :=
  unnoticed_of_looks (ignores_ownerOf h) (looks_ownerOf h)

/-! ### Logging and saving -/

/-- What a transaction shows depends on the store only through its tags. -/
theorem unseen_store {s : Store} (hlabels : ∀ kind, s.labels kind = w.store.labels kind)
    (hlinks : s.links = w.store.links) : Unseen h w { w with store := s } := by
  refine ⟨rfl, hlabels, hlinks, rfl, fun field value hvalue => ?_⟩
  have htags : s.tags = w.store.tags := hlabels .tag
  have hsame : ∀ n, s.tagsOf n = w.store.tagsOf n := by
    intro n
    have hlink : s.hasLink n = w.store.hasLink n := by
      funext tag
      rw [Store.hasLink, Store.hasLink, hlinks]
    rw [Store.tagsOf, Store.tagsOf, htags, hlink]
  cases field with
  | tags =>
      simp only [LiveTransaction.shown?, hsame] at hvalue ⊢
      exact hvalue
  | _ => exact hvalue

theorem unnoticed_writeResult {change : Store → Except Failure (α × Store)}
    (hlabels : ∀ s a t, change s = .ok (a, t) → ∀ kind, t.labels kind = s.labels kind)
    (hlinks : ∀ s a t, change s = .ok (a, t) → t.links = s.links) :
    Unnoticed h (writeResult change) := by
  refine ⟨ignores_writeResult change, fun w => ?_⟩
  rw [runOn_writeResult]
  split
  · next a s hrun =>
    split
    · exact unseen_store (hlabels _ a s hrun) (hlinks _ a s hrun)
    · exact Std.Refl.refl w
  · exact Std.Refl.refl w

theorem unnoticed_writeLog (log : Log) : Unnoticed h (e.writeLog log) := by
  have hinsert : Unnoticed h (insertRow Store.logs (fun s t => { s with logs := t }) log) := by
    refine unnoticed_writeResult ?_ ?_
    · rintro s _ _ ⟨⟩ kind
      cases kind <;> rfl
    · rintro s _ _ ⟨⟩
      rfl
  have hcount : Unnoticed h (modify fun w => { w with logWrites := w.logWrites + 1 }) :=
    ⟨ignores_modify fun _ _ _ => rfl, fun _ => ⟨rfl, fun _ => rfl, rfl, rfl, fun _ _ => id⟩⟩
  rw [Engine.writeLog]
  refine hcount.bind fun _ => unnoticed_get_bind (fun _ _ _ => rfl) fun w => ?_
  dsimp only
  split
  · exact (unnoticed_throw _).bind fun _ => hinsert.bind fun _ => unnoticed_pure _
  · exact hinsert.bind fun _ => unnoticed_pure _

theorem unnoticed_logOutcome (h : Handle) (outcome : RuleOutcome) :
    Unnoticed h (e.logOutcome h outcome trigger dryRun) := by
  rw [Engine.logOutcome]
  refine (unnoticed_transaction h h).bind fun t => ?_
  split
  · split
    · exact unnoticed_get_bind (fun _ _ _ => rfl) fun w => unnoticed_writeLog _
    · exact unnoticed_pure _
  · exact unnoticed_pure _

/-- No field shows when a transaction was last saved. -/
theorem unnoticed_stamp (h : Handle) (now : Calendar.Instant) :
    Unnoticed h (change h fun t => { t with updatedAt := some now }) := by
  refine ⟨ignores_change h _, fun w => ?_⟩
  by_cases hlive : w.live.has h = true
  · have hself := transaction_update_self hlive fun t => { t with updatedAt := some now }
    refine ⟨rfl, fun _ => rfl, rfl, ?_, fun field value hvalue => ?_⟩
    · rw [runOn_change, hself]
    · rw [runOn_change, hself]
      cases field <;> exact hvalue
  · -- There is nothing to change under a name that nobody holds.
    rw [runOn_change, Table.update_of_not_has (Bool.not_eq_true _ ▸ hlive)]
    exact Std.Refl.refl w

theorem unnoticed_saveFields (h : Handle) (fields : List TransactionField) :
    Unnoticed h (saveFields h fields) := by
  rw [saveFields]
  refine (unnoticed_transaction h h).bind fun t => ?_
  split
  · exact unnoticed_throw _
  · refine Unnoticed.bind ?_ fun content => unnoticed_writeResult ?_ ?_
    · rw [prepareSaving]
      refine unnoticed_get_bind (fun _ _ _ => rfl) fun w => ?_
      refine (unnoticed_stamp h w.now).bind fun _ => ?_
      exact (unnoticed_transaction h h).bind fun t => unnoticed_ofExcept _
    · intro s _ _ hsaved kind
      split at hsaved <;> cases hsaved
      cases kind <;> rfl
    · intro s _ _ hsaved
      split at hsaved <;> cases hsaved
      rfl

/-- An observer who saves what was changed goes unnoticed. -/
theorem unnoticed_tellObserver (hsaving : e.IsSaving) (h : Handle) (summary : TransactionSummary) :
    Unnoticed h (e.tellObserver h summary dryRun) := by
  have hpersist : Unnoticed h (persistChanges h summary) := by
    rw [persistChanges]
    split
    · exact unnoticed_pure ()
    · exact unnoticed_saveFields h _
  rw [Engine.tellObserver]
  split
  · next observer hsome =>
    split
    · exact unnoticed_pure ()
    · rcases hsaving observer hsome with rfl | ⟨refuses, rfl⟩
      · exact hpersist
      · rw [savingUnless]
        refine (unnoticed_transaction h h).bind fun t => ?_
        split
        · exact unnoticed_throw _
        · exact hpersist
  · exact unnoticed_pure ()

end Unnoticed

end Rulebook
