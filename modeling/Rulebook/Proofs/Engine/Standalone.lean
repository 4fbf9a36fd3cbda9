import Rulebook.Proofs.Engine.Account
import Rulebook.Proofs.Engine.EntryPoint
import Rulebook.Proofs.Ledger.Closure

/-!
# Actions on their own

Within a larger change nothing that an effect writes can be refused, and an action that fails has
only looked (`looks_runAction_failed`).  An action that is run on its own has no larger change
around it.  Each of its writes is made final at once, and is refused if it would leave a reference
without a row.  An action still never fails as a program, because a refusal is caught and becomes
an outcome.  But an effect that writes twice may be refused the second time, and what it wrote the
first time stays.

Only one effect writes twice: a tag is found or added by its name and then put on the transaction.
The second write is refused if the row of the transaction is gone.  Somebody who holds a transaction
in memory does not notice that, so a new tag is left behind that nobody asked for
(`Action.Strands`).  Every other action that fails leaves the store as it was.

## Main definitions

* `Workspace.allows` — whether a single change that leads to a store is made final.
* `Workspace.StrandsTag`, `Action.Strands` — a new tag is added and cannot be put on the transaction.

## Main statements

* `runOn_write_eq`, `runOn_findOrAddLabel_eq` — what a single write comes to, on its own or not.
* `perform_failed` — what an effect that cannot be carried out leaves behind.
* `runAction_outcome` — an action has an outcome, and if it fails the store is as it was, unless a
  tag is stranded.
-/

namespace Rulebook

open Program Workspace

section

/-- The store after the engine has added a label. -/
def Store.withLabel (s : Store) (kind : LabelKind) (owner : Id) (name : String) : Store :=
  s.setLabels ((s.labels kind).insert ⟨owner, name, createdDescription, none⟩) kind

/-- Whether a single change that leads to this store is made final. -/
def Workspace.allows (w : Workspace) (s : Store) : Bool := w.isChanging || s.referencesHold

variable {h : Handle} {w v u : Workspace}

/-! ## Single writes -/

theorem runOn_write_eq (change : Store → Store) (w : Workspace) :
    (write change).runOn w =
      if w.allows (change w.store) then (.ok (), { w with store := change w.store })
      else (.error .brokenReference, w) := by
  rw [write, runOn_writeResult]
  rfl

/-- A label is found, or added if the store may have it. -/
theorem runOn_findOrAddLabel_eq (kind : LabelKind) (name : String) (owner : Id) (w : Workspace) :
    (findOrAddLabel kind name owner).runOn w =
      match w.store.labelNamed? kind owner name with
      | some (id, label) =>
        (.ok (id, label), { w with labels := ((kind, id), some label) :: w.labels })
      | none =>
        let label : Label := ⟨owner, name, createdDescription, none⟩
        let id := (w.store.labels kind).nextId
        if w.allows (w.store.withLabel kind owner name) then
          (.ok (id, label),
            { w with
              store := w.store.withLabel kind owner name
              labels := ((kind, id), some label) :: w.labels
              events := .labelCreated kind id name owner :: w.events })
        else (.error .brokenReference, w) := by
  rw [findOrAddLabel, runOn_bind, runOn_get]
  dsimp only
  rcases hnamed : w.store.labelNamed? kind owner name with _ | ⟨id, label⟩
  · dsimp only
    rw [runOn_bind, runOn_writeResult, Store.addLabel]
    simp only [hnamed, Option.isSome_none, Bool.false_eq_true, if_false]
    rw [allows, Store.withLabel]
    cases w.isChanging || _ <;> rfl
  · rfl

theorem runOn_putTag_eq (h : Handle) (tag : Id) (w : Workspace) :
    (putTag h tag).runOn w =
      match (w.transaction h).id with
      | some id =>
        if w.allows (w.store.addLink id tag) then
          (.ok (), { w with store := w.store.addLink id tag })
        else (.error .brokenReference, w)
      | none => (.ok (), w) := by
  rw [putTag, runOn_bind, runOn_transaction]
  dsimp only
  cases (w.transaction h).id with
  | none => rfl
  | some id => exact runOn_write_eq _ w

theorem runOn_takeTags_eq (h : Handle) (test : Id → Bool) (w : Workspace) :
    (takeTags h test).runOn w =
      match (w.transaction h).id with
      | some id =>
        let s := { w.store with
          links := w.store.links.remove fun _ l => l.transaction = id && test l.tag }
        if w.allows s then (.ok (), { w with store := s }) else (.error .brokenReference, w)
      | none => (.ok (), w) := by
  rw [takeTags, runOn_bind, runOn_transaction]
  dsimp only
  cases (w.transaction h).id with
  | none => rfl
  | some id => exact runOn_write_eq _ w

/-! ## What a write comes to that is refused -/

theorem findOrAddLabel_failed {kind : LabelKind} {name : String} {owner : Id} {failure : Failure}
    (hrun : (findOrAddLabel kind name owner).runOn w = (.error failure, v)) : v = w := by
  rw [runOn_findOrAddLabel_eq] at hrun
  split at hrun
  · cases hrun
  · dsimp only at hrun
    split at hrun
    · cases hrun
    · cases hrun
      rfl

theorem takeTags_failed {test : Id → Bool} {failure : Failure}
    (hrun : (takeTags h test).runOn w = (.error failure, v)) : v = w := by
  rw [runOn_takeTags_eq] at hrun
  split at hrun
  · dsimp only at hrun
    split at hrun
    · cases hrun
    · cases hrun
      rfl
  · cases hrun

theorem putTag_failed {tag : Id} {failure : Failure}
    (hrun : (putTag h tag).runOn w = (.error failure, v)) :
    v = w ∧ ∃ id, (w.transaction h).id = some id ∧ w.allows (w.store.addLink id tag) = false := by
  rw [runOn_putTag_eq] at hrun
  split at hrun
  · next id hid =>
    split at hrun
    · cases hrun
    · next hrefused =>
      cases hrun
      exact ⟨rfl, id, hid, Bool.not_eq_true _ ▸ hrefused⟩
  · cases hrun

/-! ## Effects -/

/-- A new tag is added for a transaction whose row is gone, and cannot be put on it. -/
structure Workspace.StrandsTag (w : Workspace) (h : Handle) (name : String) (owner : Id) :
    Prop where
  alone : w.isChanging = false
  gone : ∃ id, (w.transaction h).id = some id ∧ w.store.transactions.has id = false
  new : w.store.labelNamed? .tag owner name = none
  closed : (w.store.withLabel .tag owner name).IsClosed

/-- Whether a tag is stranded can be told from what looking does not change. -/
theorem Workspace.StrandsTag.congr {name : String} {owner : Id} (hs : w.StrandsTag h name owner)
    (hchanging : v.isChanging = w.isChanging) (hid : (v.transaction h).id = (w.transaction h).id)
    (hstore : v.store = w.store) : v.StrandsTag h name owner where
  alone := hchanging.trans hs.alone
  gone := by
    rw [hid, hstore]
    exact hs.gone
  new := by
    rw [hstore]
    exact hs.new
  closed := by
    rw [hstore]
    exact hs.closed

/-- The second write is refused only if the row of the transaction is gone. -/
theorem strands_of_refused {name : String} {owner id : Id}
    (hnew : w.store.labelNamed? .tag owner name = none)
    (hallowed : w.allows (w.store.withLabel .tag owner name) = true)
    (hid : (w.transaction h).id = some id)
    (hrefused : w.allows ((w.store.withLabel .tag owner name).addLink id
      (w.store.labels .tag).nextId) = false) : w.StrandsTag h name owner := by
  obtain ⟨halone, hopen⟩ := Bool.or_eq_false_iff.1 hrefused
  have hclosed : (w.store.withLabel .tag owner name).IsClosed := by
    rw [allows, halone, Bool.false_or] at hallowed
    exact Store.isClosed_iff.2 hallowed
  refine ⟨halone, ⟨id, hid, ?_⟩, hnew, hclosed⟩
  rw [Bool.eq_false_iff]
  intro hrow
  have htag : (w.store.withLabel .tag owner name).tags.has (w.store.labels .tag).nextId = true :=
    Table.has_of_find? (a := ⟨owner, name, createdDescription, none⟩) (by
      change ((w.store.labels .tag).insert _).find? _ = _
      rw [Table.find?_insert, if_pos rfl])
  have hholds := Store.isClosed_iff.1 ((hclosed.addLink_iff _ _).2 ⟨hrow, htag⟩)
  exact absurd hholds (Bool.eq_false_iff.1 hopen)

/-- Where a tag is stranded, it is added and stays. -/
theorem perform_of_strands {name : String} {owner : Id} (hs : w.StrandsTag h name owner) :
    ∃ v, ((Effect.attachNamedTag name owner).perform h).runOn w = (.error .brokenReference, v) ∧
      v.store = w.store.withLabel .tag owner name ∧ v.live = w.live := by
  obtain ⟨id, hid, hgone⟩ := hs.gone
  have hallowed : w.allows (w.store.withLabel .tag owner name) = true := by
    rw [allows, Store.isClosed_iff.1 hs.closed, Bool.or_true]
  have hrefused : w.allows ((w.store.withLabel .tag owner name).addLink id
      (w.store.labels .tag).nextId) = false := by
    rw [allows, hs.alone, Bool.false_or, Bool.eq_false_iff]
    intro hholds
    have hboth := (hs.closed.addLink_iff _ _).1 (Store.isClosed_iff.2 hholds)
    exact absurd hboth.1 (by rw [Bool.not_eq_true]; exact hgone)
  rw [Effect.perform, runOn_bind, runOn_findOrAddLabel_eq, hs.new]
  dsimp only
  rw [if_pos hallowed]
  dsimp only
  rw [runOn_bind, runOn_putTag_eq]
  generalize hu : ({ w with
      store := w.store.withLabel .tag owner name
      labels := _
      events := _ } : Workspace) = u
  have hstore : u.store = w.store.withLabel .tag owner name := by rw [← hu]
  have hid' : (u.transaction h).id = some id := by
    rw [← hu]
    exact hid
  have hrefused' : u.allows (u.store.addLink id (w.store.labels .tag).nextId) = false := by
    rw [← hu]
    exact hrefused
  rw [hid']
  dsimp only
  rw [hrefused']
  exact ⟨u, rfl, hstore, by rw [← hu]⟩

/-- An effect that cannot be carried out leaves the transaction and the store as they are, unless it
strands a tag. -/
theorem perform_failed {effect : Effect} {failure : Failure}
    (hrun : (effect.perform h).runOn w = (.error failure, v)) :
    v.live = w.live ∧ (v.store = w.store ∨
      ∃ name owner, effect = .attachNamedTag name owner ∧ w.StrandsTag h name owner) := by
  -- An effect of one write fails with that write, and the fields it reports are not reached.
  have honce : ∀ {α : Type} {x : Operation α} {fields : List TransactionField},
      (∀ {failure v}, x.runOn w = (.error failure, v) → v = w) →
      (x >>= fun _ => pure fields : Operation (List TransactionField)).runOn w =
        (.error failure, v) → v.live = w.live ∧ v.store = w.store := by
    intro α x fields hx hrun
    rw [runOn_bind] at hrun
    rcases hfirst : x.runOn w with ⟨failure' | a, u⟩ <;> rw [hfirst] at hrun
    · cases hrun
      rw [hx hfirst]
      exact ⟨rfl, rfl⟩
    · cases hrun
  cases effect with
  | setLabel | setDescription | setNote | setType | markReconciled | notify => cases hrun
  | setNamedLabel role name owner =>
    rw [Effect.perform, runOn_bind] at hrun
    rcases hfind : (findOrAddLabel role.kind name owner).runOn w with ⟨failure' | found, u⟩ <;>
      rw [hfind] at hrun
    · cases hrun
      rw [findOrAddLabel_failed hfind]
      exact ⟨rfl, .inl rfl⟩
    · cases hrun
  | attachTag tag => exact (honce (fun hfails => (putTag_failed hfails).1) hrun).imp_right .inl
  | detachTag tag => exact (honce takeTags_failed hrun).imp_right .inl
  | detachAllTags => exact (honce takeTags_failed hrun).imp_right .inl
  | attachNamedTag name owner =>
    rw [Effect.perform, runOn_bind, runOn_findOrAddLabel_eq] at hrun
    split at hrun
    · next found u hfind =>
      -- The tag is put on the transaction after it was found or added.
      rw [runOn_bind] at hrun
      rcases hput : (putTag h found.1).runOn u with ⟨failure' | _, u'⟩ <;> rw [hput] at hrun
      · cases hrun
        obtain ⟨rfl, id, hid, hrefused⟩ := putTag_failed hput
        split at hfind
        · cases hfind
          exact ⟨rfl, .inl rfl⟩
        · next hnew =>
          dsimp only at hfind
          split at hfind
          · next hallowed =>
            cases hfind
            exact ⟨rfl, .inr ⟨name, owner, rfl, strands_of_refused hnew hallowed hid hrefused⟩⟩
          · cases hfind
      · cases hrun
    · next failure' u hfind =>
      cases hrun
      rw [← runOn_findOrAddLabel_eq] at hfind
      rw [findOrAddLabel_failed hfind]
      exact ⟨rfl, .inl rfl⟩

/-! ## Actions -/

variable [Host]

/-- The action asks for a tag of a new name, and the row of the transaction is gone. -/
structure Action.Strands (a : Action) (w : Workspace) (h : Handle) (name : String) (owner : Id) :
    Prop where
  kind : (Vocabulary.ofJson? a.kind : Option ActionKind) = some .createTag
  value : a.typedValue = .ok (some (.text name))
  owned : ((ownerOf h).runOn w).1 = .ok (some owner)
  tag : w.StrandsTag h name owner

section Actions

variable {kind : ActionKind} {a : Action} {name : String} {owner : Id} {outcome : ActionOutcome}

/-- Describing an action that asks for a tag by its name does not even look. -/
theorem describe_createTag
    (hkind : (Vocabulary.ofJson? a.kind : Option ActionKind) = some .createTag)
    {value : Option ActionValue} (hvalue : a.typedValue = .ok value) (w : Workspace) :
    (describe a).runOn w = (.ok ("Create tag if not exists: " ++ valueText value), w) := by
  rw [describe, hkind]
  dsimp only
  rw [runOn_bind, runOn_ofExcept, hvalue]
  rfl

/-- Only an action that asks for a tag by its name is planned to add one. -/
theorem plan_eq_attachNamedTag
    (hrun : (plan kind a h).runOn w = (.ok (some (.attachNamedTag name owner)), v)) :
    kind = .createTag ∧ a.typedValue = .ok (some (.text name)) ∧
      ((ownerOf h).runOn w).1 = .ok (some owner) := by
  rw [plan] at hrun
  obtain ⟨value, w₁, hvalue, hrun⟩ := runOn_bind_eq_ok hrun
  obtain ⟨htyped, rfl⟩ := runOn_ofExcept_eq_ok hvalue
  obtain ⟨found, w₂, howner, hrun⟩ := runOn_bind_eq_ok hrun
  rw [howner]
  cases found with
  | none => cases hrun
  | some user =>
    obtain ⟨t, w₃, -, hrun⟩ := runOn_bind_eq_ok hrun
    cases kind with
    | setCategory | setMerchant | removeTag =>
      obtain ⟨found, x, -, hplan⟩ := exists_found_of_plan rfl hrun
      cases hplan
    | addTag =>
      have hnone : (if t.id.isSome then Option.map (fun tag => Effect.attachTag tag.1)
          (none : Option (Id × Label)) else none) = none := by
        split <;> rfl
      obtain ⟨found, x, -, hplan⟩ := exists_found_of_plan hnone hrun
      split at hplan <;> cases hplan
    | removeAllTags | markReconciled | sendNotification => cases hrun
    | createTag =>
      obtain ⟨words, rfl, hplan⟩ := exists_words_of_plan hrun
      simp only [planText] at hplan
      split at hplan <;> cases hplan
      exact ⟨rfl, htyped, rfl⟩
    | setType =>
      obtain ⟨words, rfl, hplan⟩ := exists_words_of_plan hrun
      simp only [planText] at hplan
      split at hplan <;> cases hplan
    | _ =>
      obtain ⟨words, rfl, hplan⟩ := exists_words_of_plan hrun
      cases hplan

/-- An action that strands a tag fails, and the tag stays. -/
theorem runAction_of_strands (hs : a.Strands w h name owner) :
    ∃ outcome v, (runAction a h false).runOn w = (.ok outcome, v) ∧ outcome.succeeded = false ∧
      v.store = w.store.withLabel .tag owner name := by
  obtain ⟨id, hid, -⟩ := hs.tag.gone
  -- Asking for the owner looks up the account and changes nothing else.
  have hlooks := looks_ownerOf h w
  have howned := hs.owned
  rcases howner : (ownerOf h).runOn w with ⟨result, w₁⟩
  rw [howner] at hlooks howned
  dsimp only at hlooks howned
  subst howned
  have hplan : (plan .createTag a h).runOn w = (.ok (some (.attachNamedTag name owner)), w₁) := by
    have hid₁ : (w₁.transaction h).id = some id := hlooks.own.id_eq.trans hid
    rw [plan, runOn_bind, runOn_ofExcept, hs.value]
    dsimp only
    rw [runOn_bind, howner]
    dsimp only
    rw [runOn_bind, runOn_transaction]
    dsimp only [planKind, planText]
    rw [hid₁]
    rfl
  obtain ⟨v, hperform, hstore, -⟩ :=
    perform_of_strands (hs.tag.congr hlooks.isChanging hlooks.own.id_eq hlooks.store)
  have hattempt : (attemptAction .createTag a h false).runOn w = (.error .brokenReference, v) := by
    rw [attemptAction, runOn_bind, describe_createTag hs.kind hs.value]
    dsimp only
    rw [runOn_bind, hplan]
    simp only [Bool.false_eq_true, if_false, runOn_bind, hperform]
  rw [runAction, runOn_bind, runOn_transaction]
  dsimp only
  rw [hs.kind]
  dsimp only
  rw [runOn_tryCatch, hattempt]
  exact ⟨_, _, rfl, rfl, hstore.trans (by rw [hlooks.store])⟩

/-- What a live action can come to: it is planned, and fails or succeeds as its effect does, or it
fails before that.  In this case nothing has changed but what describing and planning change. -/
theorem runAction_parts {R : Workspace → Workspace → Prop} [IsPreorder Workspace R]
    (hdescribes : Keeps R (describe a)) (hplans : ∀ kind, Keeps R (plan kind a h))
    (hreports : ∀ e, Keeps R (report e))
    (hrun : (runAction a h false).runOn w = (.ok outcome, v)) :
    (outcome.succeeded = false ∧ R w v) ∨
      ∃ kind description w₁ effect w₂, (Vocabulary.ofJson? a.kind : Option ActionKind) = some kind ∧
        (describe a).runOn w = (.ok description, w₁) ∧
        (plan kind a h).runOn w₁ = (.ok (some effect), w₂) ∧
        ((outcome.succeeded = true ∧ (effect.perform h).runOn w₂ = (.ok outcome.changes, v)) ∨
          outcome.succeeded = false ∧ ∃ failure u e,
            (effect.perform h).runOn w₂ = (.error failure, u) ∧
            v = { u with events := e :: u.events }) := by
  rw [runAction, runOn_bind, runOn_transaction] at hrun
  dsimp only at hrun
  split at hrun
  · cases hrun
    exact .inl ⟨rfl, hreports _ w⟩
  · next kind hkind =>
    have hdescribe := hdescribes w
    rw [runOn_tryCatch, attemptAction, runOn_bind] at hrun
    rcases hfirst : (describe a).runOn w with ⟨failure | description, w₁⟩ <;>
      rw [hfirst] at hrun hdescribe <;> dsimp only at hrun hdescribe
    · cases hrun
      exact .inl ⟨rfl, IsTrans.trans _ _ _ hdescribe (hreports _ w₁)⟩
    · have hplanned := hplans kind w₁
      rw [runOn_bind] at hrun
      rcases hplan : (plan kind a h).runOn w₁ with ⟨failure | effect, w₂⟩ <;>
        rw [hplan] at hrun hplanned <;> dsimp only at hrun hplanned
      · cases hrun
        have hlooked : R w w₂ := IsTrans.trans _ _ _ hdescribe hplanned
        exact .inl ⟨rfl, IsTrans.trans _ _ _ hlooked (hreports _ w₂)⟩
      · cases effect with
        | none =>
          cases hrun
          exact .inl ⟨rfl, IsTrans.trans _ _ _ hdescribe hplanned⟩
        | some effect =>
          refine .inr ⟨kind, description, w₁, effect, w₂, hkind, rfl, hplan, ?_⟩
          simp only [Bool.false_eq_true, if_false, runOn_bind] at hrun
          rcases hperform : (effect.perform h).runOn w₂ with ⟨failure | changes, u⟩ <;>
            rw [hperform] at hrun
          · cases hrun
            exact .inr ⟨rfl, failure, u, _, rfl, rfl⟩
          · cases hrun
            exact .inl ⟨rfl, rfl⟩

/-- A live action that fails leaves the transaction as it is, and the store unless a tag is
stranded. -/
theorem runAction_failed (hrun : (runAction a h false).runOn w = (.ok outcome, v))
    (hfailed : outcome.succeeded = false) :
    (v.transaction h).bare = (w.transaction h).bare ∧
      (∀ k, k ≠ h → v.transaction k = w.transaction k) ∧
      (v.store = w.store ∨ ∃ name owner, a.Strands w h name owner) := by
  rcases runAction_parts (looks_describe a) (looks_plan · a h) looks_report hrun with
    ⟨-, hlooks⟩ | ⟨kind, description, w₁, effect, w₂, hkind, hdescribe, hplan,
      hdone | ⟨-, failure, u, e, hperform, rfl⟩⟩
  · exact ⟨hlooks.own.bare, hlooks.others, .inl hlooks.store⟩
  · exact absurd hdone.1 (by simp [hfailed])
  · have hdescribed := looks_describe (h := h) a w
    have hplanned := looks_plan kind a h w₁
    rw [hdescribe] at hdescribed
    rw [hplan] at hplanned
    have hlooks := hdescribed.trans hplanned
    obtain ⟨hlive, hstore⟩ := perform_failed hperform
    have hsame : ∀ k, ({ u with events := e :: u.events } : Workspace).transaction k =
        w₂.transaction k := by
      intro k
      change (u.live.find? k).getD default = _
      rw [hlive]
      rfl
    refine ⟨(congrArg LiveTransaction.bare (hsame h)).trans hlooks.own.bare,
      fun k hk => (hsame k).trans (hlooks.others k hk), ?_⟩
    rcases hstore with hstore | ⟨name, owner, rfl, hstrands⟩
    · exact .inl (hstore.trans hlooks.store)
    · obtain ⟨rfl, hvalue, howned⟩ := plan_eq_attachNamedTag hplan
      rw [describe_createTag hkind hvalue] at hdescribe
      cases hdescribe
      exact .inr ⟨name, owner, hkind, hvalue, howned, hstrands.congr hplanned.isChanging.symm
        hplanned.own.id_eq.symm hplanned.store.symm⟩

/-- What an action comes to that is run on its own, or as part of anything else.

* It has an outcome.
* If it is reported as failed, the transactions in memory have the values that they had, and the
  store is as it was, unless the action strands a tag.
* An action that strands a tag is reported as failed, and the store has the tag from then on. -/
theorem runAction_outcome (a : Action) (h : Handle) (dryRun : Bool) (w : Workspace) :
    ∃ outcome v, (runAction a h dryRun).runOn w = (.ok outcome, v) ∧
      (outcome.succeeded = false →
        (v.transaction h).bare = (w.transaction h).bare ∧
        (∀ k, k ≠ h → v.transaction k = w.transaction k) ∧
        (v.store = w.store ∨ dryRun = false ∧ ∃ name owner, a.Strands w h name owner)) ∧
      (dryRun = false → ∀ name owner, a.Strands w h name owner →
        outcome.succeeded = false ∧ v.store = w.store.withLabel .tag owner name) := by
  obtain ⟨outcome, v, hrun, -⟩ := succeeds_runAction a h dryRun w trivial
  refine ⟨outcome, v, hrun, fun hfailed => ?_, fun hlive name owner hs => ?_⟩
  · cases dryRun with
    | true =>
      have hlooks := looks_runAction_dry a h w
      rw [hrun] at hlooks
      exact ⟨hlooks.own.bare, hlooks.others, .inl hlooks.store⟩
    | false =>
      obtain ⟨hbare, hothers, hstore⟩ := runAction_failed hrun hfailed
      exact ⟨hbare, hothers, hstore.imp_right fun hs => ⟨rfl, hs⟩⟩
  · subst hlive
    obtain ⟨outcome', v', hrun', hfailed, hstore⟩ := runAction_of_strands hs
    cases hrun.symm.trans hrun'
    exact ⟨hfailed, hstore⟩

end Actions

end

namespace SmallLedger

/-- The small ledger after the row of the first transaction was deleted; the transaction is still
held in memory. -/
def stale : Workspace :=
  { workspace with
    store := { store with transactions := store.transactions.remove fun id _ => id == 1 } }

/-- An action that is not stored and ends nothing. -/
def unstored (kind value : String) : Action where
  id := none
  rule := none
  kind := .text kind
  value := .text value
  order := .int 1
  stopProcessing := .bool false

/-- An action that asks for a tag of a new name. -/
def newTag : Action := unstored "create_tag_if_not_exists" "New"

/-- An action that fails and leaves something behind: the tag of the new name. -/
theorem failed_action_leaves_tag :
    ∃ outcome v, (runAction newTag 1 false).runOn stale = (.ok outcome, v) ∧
      outcome.succeeded = false ∧ stale.isChanging = false ∧ stale.store.tags.rows = [] ∧
      v.store.tags.rows = [(1, ⟨1, "New", createdDescription, none⟩)] := by
  have hstrands : newTag.Strands stale 1 "New" 1 := by
    refine ⟨rfl, rfl, rfl, rfl, ⟨1, rfl, rfl⟩, rfl, Store.isClosed_iff.2 rfl⟩
  obtain ⟨outcome, v, hrun, hfailed, hstore⟩ := runAction_of_strands hstrands
  exact ⟨outcome, v, hrun, hfailed, rfl, rfl, by rw [hstore]; rfl⟩

end SmallLedger

end Rulebook
