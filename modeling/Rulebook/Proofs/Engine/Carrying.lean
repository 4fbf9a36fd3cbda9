import Rulebook.Proofs.Engine.Offering
import Rulebook.Proofs.Engine.Standalone

/-!
# Carrying effects out, on their own or not

Within a larger change nothing is refused.  On its own a write is refused if it would leave a
reference without a row, so what can be carried out depends on the store.  If all references of the
store hold and the row of the transaction is there, the rule is simple: an effect is refused exactly
if it refers to a row that is not there (`Effect.Admitted`), and then it changes nothing at all.
What is carried out goes through within a larger change as well and comes to the same
(`Transfers`), so that all that is known of effects within a larger change can be used.

Carrying an effect out changes what is seen of labels only where a label was asked for by its name:
the label that is found or added is seen from then on, and all others are seen as before
(`Workspace.Learns`).

## Main definitions

* `Workspace.IsReady` — nothing is in the way of working on a stored transaction.
* `Transfers` — what goes through on its own goes through within a larger change.
* `Workspace.Learns` — what is seen afterwards of the labels.
* `Action.Goes` — an action goes through.

## Main statements

* `IsReady.perform_of_admitted`, `IsReady.perform_of_not_admitted` — carrying effects out.
* `IsReady.runAction_of_goes`, `IsReady.runAction_of_not_goes` — running actions.
-/

namespace Rulebook

open Program Workspace

variable {h : Handle} {w v u : Workspace} {id : Id}

/-! ## From the outside to the inside -/

/-- What goes through on its own goes through within a larger change as well, and comes to the
same. -/
def Transfers {α : Type} (x : Operation α) : Prop :=
  ∀ ⦃w : Workspace⦄ ⦃a : α⦄ ⦃v : Workspace⦄, x.runOn w = (.ok a, v) →
    x.runOn { w with isChanging := true } = (.ok a, { v with isChanging := true })

section Transfers

variable {α β : Type}

theorem transfers_pure (a : α) : Transfers (pure a : Operation α) := by
  intro w b v hrun
  cases hrun
  rfl

theorem Transfers.bind {x : Operation α} {f : α → Operation β} (hx : Transfers x)
    (hf : ∀ a, Transfers (f a)) : Transfers (x >>= f) := by
  intro w b v hrun
  obtain ⟨a, u, hfirst, hrest⟩ := runOn_bind_eq_ok hrun
  rw [runOn_bind, hx hfirst]
  exact hf a hrest

theorem transfers_change (h : Handle) (f : LiveTransaction → LiveTransaction) :
    Transfers (change h f) := by
  intro w a v hrun
  cases hrun
  rfl

theorem transfers_transaction (h : Handle) : Transfers (transaction h) := by
  intro w a v hrun
  cases hrun
  rfl

theorem transfers_write (change : Store → Store) : Transfers (write change) := by
  intro w a v hrun
  rw [runOn_write_eq] at hrun
  rw [runOn_write change rfl]
  split at hrun
  · cases hrun
    rfl
  · cases hrun

theorem transfers_findOrAddLabel (kind : LabelKind) (name : String) (owner : Id) :
    Transfers (findOrAddLabel kind name owner) := by
  intro w a v hrun
  rw [runOn_findOrAddLabel_eq] at hrun
  rw [runOn_findOrAddLabel kind name owner rfl]
  cases hnamed : w.store.labelNamed? kind owner name with
  | some found =>
    rw [hnamed] at hrun
    cases hrun
    rfl
  | none =>
    rw [hnamed] at hrun
    dsimp only at hrun ⊢
    split at hrun
    · cases hrun
      rfl
    · cases hrun

theorem transfers_putTag (h : Handle) (tag : Id) : Transfers (putTag h tag) := by
  rw [putTag]
  refine (transfers_transaction h).bind fun t => ?_
  split
  · exact transfers_write _
  · exact transfers_pure ()

theorem transfers_takeTags (h : Handle) (test : Id → Bool) : Transfers (takeTags h test) := by
  rw [takeTags]
  refine (transfers_transaction h).bind fun t => ?_
  split
  · exact transfers_write _
  · exact transfers_pure ()

theorem transfers_perform (h : Handle) (effect : Effect) : Transfers (effect.perform h) := by
  have hchange : ∀ (f : LiveTransaction → LiveTransaction) (fields : List TransactionField),
      Transfers (do change h f; return fields) :=
    fun f fields => (transfers_change h f).bind fun _ => transfers_pure fields
  cases effect with
  | setLabel role n label => exact hchange _ _
  | setNamedLabel role name owner =>
    exact (transfers_findOrAddLabel role.kind name owner).bind fun label => hchange _ _
  | attachTag tag => exact (transfers_putTag h tag).bind fun _ => transfers_pure []
  | attachNamedTag name owner =>
    refine (transfers_findOrAddLabel .tag name owner).bind fun label => ?_
    exact (transfers_putTag h label.1).bind fun _ => transfers_pure []
  | detachTag tag => exact (transfers_takeTags h _).bind fun _ => transfers_pure []
  | detachAllTags => exact (transfers_takeTags h _).bind fun _ => transfers_pure []
  | setDescription words => exact hchange _ _
  | setNote words => exact hchange _ _
  | setType words => exact hchange _ _
  | markReconciled =>
    intro w fields v hrun
    cases hrun
    rfl
  | notify rule message =>
    intro w fields v hrun
    cases hrun
    rfl

end Transfers

/-! ## Ready for work -/

/-- A larger change is under way, or all references hold and the row of the transaction is there. -/
structure Workspace.IsReady (w : Workspace) (h : Handle) (id : Id) : Prop where
  id_eq : (w.transaction h).id = some id
  sound : w.isChanging = true ∨ w.store.IsClosed ∧ w.store.transactions.has id = true

namespace Workspace.IsReady

theorem congr (hw : w.IsReady h id) (hid : (v.transaction h).id = (w.transaction h).id)
    (hchanging : v.isChanging = w.isChanging) (hstore : v.store = w.store) : v.IsReady h id where
  id_eq := hid.trans hw.id_eq
  sound := by
    rw [hchanging, hstore]
    exact hw.sound

/-- What was allowed leaves the transaction ready. -/
theorem of_allows (hw : w.IsReady h id) {s : Store} (hs : w.allows s = true)
    (hrows : s.transactions = w.store.transactions) : { w with store := s }.IsReady h id where
  id_eq := hw.id_eq
  sound := by
    rw [allows, Bool.or_eq_true, ← Store.isClosed_iff] at hs
    rcases hw.sound with hchanging | ⟨-, hrow⟩
    · exact .inl hchanging
    · exact hs.imp_right fun hclosed => ⟨hclosed, hrows ▸ hrow⟩

/-- Whether a change is allowed is a matter of the store, unless a larger one is under way. -/
theorem allows_iff (hw : w.IsReady h id) {s : Store} {p : Prop}
    (hs : w.store.IsClosed → w.store.transactions.has id = true → (s.IsClosed ↔ p)) :
    w.allows s = true ↔ w.isChanging = true ∨ p := by
  rw [allows, Bool.or_eq_true, ← Store.isClosed_iff]
  rcases hw.sound with hchanging | ⟨hclosed, hrow⟩
  · exact iff_of_true (.inl hchanging) (.inl hchanging)
  · rw [hs hclosed hrow]

theorem allows_withLabel_iff (hw : w.IsReady h id) (kind : LabelKind) (owner : Id) (name : String) :
    w.allows (w.store.withLabel kind owner name) = true ↔
      w.isChanging = true ∨ w.store.users.has owner = true :=
  hw.allows_iff fun hclosed _ => hclosed.insertLabel_iff kind rfl

theorem allows_addLink_iff (hw : w.IsReady h id) (tag : Id) :
    w.allows (w.store.addLink id tag) = true ↔
      w.isChanging = true ∨ w.store.tags.has tag = true :=
  hw.allows_iff fun hclosed hrow => by rw [hclosed.addLink_iff, and_iff_right hrow]

theorem allows_removeLinks (hw : w.IsReady h id) (test : Id → TagLink → Bool) :
    w.allows { w.store with links := w.store.links.remove test } = true := by
  have hallows := hw.allows_iff (s := { w.store with links := w.store.links.remove test })
    fun hclosed _ => iff_of_true (hclosed.removeLinks test) trivial
  exact hallows.2 (.inr trivial)

end Workspace.IsReady

/-! ## What is seen afterwards -/

namespace Workspace

/-- A label was asked for by its name.  It has the name first and is seen, and of all others the same
is seen and stored as before.  Nothing was added if somebody had the name. -/
structure LearnsLabel (w v : Workspace) (kind : LabelKind) (name : String) (owner n : Id)
    (l : Label) : Prop where
  named : v.store.labelNamed? kind owner name = some (n, l)
  seen : v.label? kind n = some l
  others : ∀ k m, (k, m) ≠ (kind, n) →
    v.label? k m = w.label? k m ∧ (v.store.labels k).has m = (w.store.labels k).has m
  known : (w.store.labelNamed? kind owner name).isSome = true →
    ∀ k, v.store.labels k = w.store.labels k

/-- What is seen and stored of labels after one was asked for by its name, or none. -/
def Learns (w v : Workspace) : Option (LabelKind × String × Id) → Prop
  | none => ∀ k, v.store.labels k = w.store.labels k ∧ ∀ m, v.label? k m = w.label? k m
  | some (kind, name, owner) => ∃ n l, w.LearnsLabel v kind name owner n l

theorem label?_congr (hcached : v.labels = w.labels) {kind : LabelKind}
    (hstored : v.store.labels kind = w.store.labels kind) (n : Id) :
    v.label? kind n = w.label? kind n := by
  rw [label?, hcached, hstored, label?]

/-- Whatever does not touch labels may come afterwards. -/
theorem LearnsLabel.congr {kind : LabelKind} {name : String} {owner n : Id} {l : Label}
    (hl : w.LearnsLabel u kind name owner n l) (hcached : v.labels = u.labels)
    (hstored : ∀ k, v.store.labels k = u.store.labels k) :
    w.LearnsLabel v kind name owner n l where
  named := by
    rw [Store.labelNamed?, hstored, ← Store.labelNamed?]
    exact hl.named
  seen := by rw [label?_congr hcached (hstored kind), hl.seen]
  others k m hne := by
    rw [label?_congr hcached (hstored k), hstored]
    exact hl.others k m hne
  known hnamed k := (hstored k).trans (hl.known hnamed k)

/-- Looking may come before. -/
theorem Learns.of_sameSight {asked : Option (LabelKind × String × Id)} (hsight : SameSight w u)
    (hl : u.Learns v asked) : w.Learns v asked := by
  cases asked with
  | none =>
    intro k
    obtain ⟨hstored, hseen⟩ := hl k
    exact ⟨hstored.trans (by rw [hsight.store]), fun m => (hseen m).trans (hsight.label? k m)⟩
  | some label =>
    obtain ⟨kind, name, owner⟩ := label
    obtain ⟨n, l, hlabel⟩ := hl
    refine ⟨n, l, hlabel.named, hlabel.seen, fun k m hne => ?_, fun hnamed k => ?_⟩
    · rw [← hsight.label?, ← hsight.store]
      exact hlabel.others k m hne
    · rw [← hsight.store] at hnamed ⊢
      exact hlabel.known hnamed k

/-- The label that was remembered last is seen, and the others as before. -/
theorem label?_cons {kind : LabelKind} {n : Id} {l : Label}
    (hcached : v.labels = ((kind, n), some l) :: w.labels) :
    v.label? kind n = some l ∧ ∀ k m, (k, m) ≠ (kind, n) →
      (v.store.labels k).find? m = (w.store.labels k).find? m → v.label? k m = w.label? k m := by
  constructor
  · simp [label?, hcached]
  · intro k m hne hstored
    have hother : ((k, m) == (kind, n)) = false := beq_eq_false_iff_ne.2 hne
    rw [label?, hcached, List.lookup_cons, hother, hstored, label?]

end Workspace

/-- Of the labels with other numbers the same is stored with a new label. -/
theorem find?_withLabel {s : Store} {kind k : LabelKind} (owner : Id) {m : Id} (name : String)
    (hne : (k, m) ≠ (kind, (s.labels kind).nextId)) :
    ((s.withLabel kind owner name).labels k).find? m = (s.labels k).find? m := by
  rw [Store.withLabel]
  by_cases hkind : k = kind
  · subst hkind
    rw [Store.labels_setLabels, Table.find?_insert, if_neg fun hm => hne (by rw [hm])]
  · cases kind <;> cases k <;> first | rfl | exact absurd rfl hkind

/-! ## Single steps -/

namespace Workspace.IsReady

variable {kind : LabelKind} {name : String} {owner : Id}

/-- A label is found or added if the owner is there. -/
theorem findOrAddLabel_of_admitted (hw : w.IsReady h id)
    (howner : w.isChanging = true ∨ w.store.users.has owner = true) (kind : LabelKind)
    (name : String) : ∃ n l v, (findOrAddLabel kind name owner).runOn w = (.ok (n, l), v) ∧
      v.IsReady h id ∧ w.LearnsLabel v kind name owner n l := by
  rw [runOn_findOrAddLabel_eq]
  cases hnamed : w.store.labelNamed? kind owner name with
  | some found =>
    obtain ⟨n, l⟩ := found
    obtain ⟨hseen, hothers⟩ := label?_cons (w := w)
      (v := { w with labels := ((kind, n), some l) :: w.labels }) rfl
    exact ⟨n, l, _, rfl, ⟨hw.id_eq, hw.sound⟩, hnamed, hseen,
      fun k m hne => ⟨hothers k m hne rfl, rfl⟩, fun _ _ => rfl⟩
  | none =>
    have hallowed := (hw.allows_withLabel_iff kind owner name).2 howner
    dsimp only
    rw [if_pos hallowed]
    have hready : { w with store := w.store.withLabel kind owner name }.IsReady h id :=
      hw.of_allows hallowed (by cases kind <;> rfl)
    refine ⟨_, _, _, rfl, ⟨hready.id_eq, hready.sound⟩, labelNamed?_insert hnamed,
      (label?_cons rfl).1, fun k m hne => ?_, fun hknown => ?_⟩
    · have hstored := find?_withLabel owner name hne
      exact ⟨(label?_cons rfl).2 k m hne hstored, by rw [Table.has, hstored, Table.has]⟩
    · rw [hnamed] at hknown
      cases hknown

/-- Without its owner a label is neither there nor added. -/
theorem findOrAddLabel_of_not_admitted (hw : w.IsReady h id)
    (howner : ¬(w.isChanging = true ∨ w.store.users.has owner = true)) (kind : LabelKind)
    (name : String) :
    (findOrAddLabel kind name owner).runOn w = (.error .brokenReference, w) := by
  obtain ⟨hchanging, hgone⟩ := not_or.1 howner
  obtain ⟨hclosed, -⟩ := hw.sound.resolve_left hchanging
  rw [runOn_findOrAddLabel_eq]
  cases hnamed : w.store.labelNamed? kind owner name with
  | some found =>
    obtain ⟨hfind, huser, -⟩ := labelNamed?_eq_some hnamed
    exact absurd (huser ▸ hclosed.labels kind _ _ hfind) hgone
  | none =>
    dsimp only
    rw [if_neg (mt (hw.allows_withLabel_iff kind owner name).1 howner)]

/-- A tag is put on the transaction if it is there. -/
theorem putTag_of_admitted (hw : w.IsReady h id) {tag : Id}
    (htag : w.isChanging = true ∨ w.store.tags.has tag = true) :
    ∃ v, (putTag h tag).runOn w = (.ok (), v) ∧ v.IsReady h id ∧ v.labels = w.labels ∧
      ∀ k, v.store.labels k = w.store.labels k := by
  have hallowed := (hw.allows_addLink_iff tag).2 htag
  rw [runOn_putTag_eq, hw.id_eq]
  dsimp only
  rw [if_pos hallowed]
  refine ⟨_, rfl, hw.of_allows hallowed ?_, rfl, fun k => ?_⟩
  · rw [Store.addLink]
    split <;> rfl
  · dsimp only [Store.addLink]
    split
    · rfl
    · cases k <;> rfl

theorem putTag_of_not_admitted (hw : w.IsReady h id) {tag : Id}
    (htag : ¬(w.isChanging = true ∨ w.store.tags.has tag = true)) :
    (putTag h tag).runOn w = (.error .brokenReference, w) := by
  rw [runOn_putTag_eq, hw.id_eq]
  dsimp only
  rw [if_neg (mt (hw.allows_addLink_iff tag).1 htag)]

/-- Tags can always be taken off. -/
theorem exists_takeTags (hw : w.IsReady h id) (test : Id → Bool) :
    ∃ v, (takeTags h test).runOn w = (.ok (), v) ∧ v.IsReady h id ∧ v.labels = w.labels ∧
      ∀ k, v.store.labels k = w.store.labels k := by
  have hallowed := hw.allows_removeLinks fun _ l => l.transaction = id && test l.tag
  rw [runOn_takeTags_eq, hw.id_eq]
  dsimp only
  rw [if_pos hallowed]
  refine ⟨_, rfl, hw.of_allows hallowed rfl, rfl, fun k => ?_⟩
  cases k <;> rfl

/-! ## Effects -/

/-- An effect is carried out that refers to what is there. -/
theorem perform_of_admitted (hw : w.IsReady h id) {effect : Effect}
    (hadmitted : effect.Admitted w) :
    ∃ fields v, (effect.perform h).runOn w = (.ok fields, v) ∧ v.IsReady h id ∧
      w.Learns v effect.named? := by
  -- Fields are set in memory, which neither the store nor the cache takes notice of.
  have hchange : ∀ {u : Workspace} (f : LiveTransaction → LiveTransaction),
      (∀ t, (f t).id = t.id) → u.IsReady h id →
      { u with live := u.live.update h f }.IsReady h id := by
    intro u f hf hu
    refine hu.congr ?_ rfl rfl
    rw [transaction_update_self (live_has_of_id hu.id_eq), hf]
  have hsame : ∀ {v : Workspace}, v.labels = w.labels →
      (∀ k, v.store.labels k = w.store.labels k) → w.Learns v none :=
    fun hcached hstored k => ⟨hstored k, label?_congr hcached (hstored k)⟩
  cases effect with
  | setLabel role n label =>
    refine ⟨_, _, rfl, hchange _ (fun t => ?_) hw, hsame rfl fun _ => rfl⟩
    cases role <;> rfl
  | setDescription words | setNote words | setType words | markReconciled =>
    exact ⟨_, _, rfl, hchange _ (fun _ => rfl) hw, hsame rfl fun _ => rfl⟩
  | notify rule message => exact ⟨_, _, rfl, ⟨hw.id_eq, hw.sound⟩, hsame rfl fun _ => rfl⟩
  | setNamedLabel role name owner =>
    obtain ⟨n, l, u, hfind, hready, hlabel⟩ :=
      hw.findOrAddLabel_of_admitted hadmitted role.kind name
    rw [Effect.perform, runOn_bind, hfind]
    refine ⟨_, _, rfl, hchange _ (fun t => ?_) hready, n, l, hlabel.congr rfl fun _ => rfl⟩
    cases role <;> rfl
  | attachTag tag =>
    obtain ⟨v, hput, hready, hcached, hstored⟩ := hw.putTag_of_admitted hadmitted
    rw [Effect.perform, runOn_bind, hput]
    exact ⟨_, _, rfl, hready, hsame hcached hstored⟩
  | attachNamedTag name owner =>
    obtain ⟨n, l, u, hfind, hready, hlabel⟩ := hw.findOrAddLabel_of_admitted hadmitted .tag name
    have htag : u.store.tags.has n = true :=
      Table.has_of_find? (labelNamed?_eq_some hlabel.named).1
    obtain ⟨v, hput, hready', hcached, hstored⟩ := hready.putTag_of_admitted (.inr htag)
    rw [Effect.perform, runOn_bind, hfind]
    dsimp only
    rw [runOn_bind, hput]
    exact ⟨_, _, rfl, hready', n, l, hlabel.congr hcached hstored⟩
  | detachTag tag =>
    obtain ⟨v, htake, hready, hcached, hstored⟩ := hw.exists_takeTags (· == tag)
    rw [Effect.perform, runOn_bind, htake]
    exact ⟨_, _, rfl, hready, hsame hcached hstored⟩
  | detachAllTags =>
    obtain ⟨v, htake, hready, hcached, hstored⟩ := hw.exists_takeTags fun _ => true
    rw [Effect.perform, runOn_bind, htake]
    exact ⟨_, _, rfl, hready, hsame hcached hstored⟩

/-- An effect that refers to what is not there changes nothing. -/
theorem perform_of_not_admitted (hw : w.IsReady h id) {effect : Effect}
    (hadmitted : ¬effect.Admitted w) :
    (effect.perform h).runOn w = (.error .brokenReference, w) := by
  cases effect with
  | setNamedLabel role name owner =>
    rw [Effect.perform, runOn_bind, hw.findOrAddLabel_of_not_admitted hadmitted]
  | attachTag tag => rw [Effect.perform, runOn_bind, hw.putTag_of_not_admitted hadmitted]
  | attachNamedTag name owner =>
    rw [Effect.perform, runOn_bind, hw.findOrAddLabel_of_not_admitted hadmitted]
  | _ => exact absurd trivial hadmitted

/-- Carrying an effect out gives the standing its meaning, on its own or not. -/
theorem standing_of_perform (hw : w.IsReady h id) {effect : Effect}
    {fields : List TransactionField} {s : Store}
    (hrun : (effect.perform h).runOn w = (.ok fields, v))
    (hs : ∀ kind, (v.store.labels kind).Grows (s.labels kind)) :
    v.standing h = effect.meaning s w.now (w.standing h) ∧
      (v.transaction h).account = (w.transaction h).account :=
  standing_perform (w := { w with isChanging := true }) (v := { v with isChanging := true }) rfl
    hw.id_eq (transfers_perform h effect hrun) hs

end Workspace.IsReady

/-! ## Actions -/

section Actions

variable {kind : ActionKind} {a : Action} {value : Option ActionValue} {owner : Id}

variable [Host]

/-- An action asks for something of this kind, with this value, for a transaction of this owner. -/
structure Action.Asks (a : Action) (w : Workspace) (h : Handle) (kind : ActionKind)
    (value : Option ActionValue) (owner : Id) : Prop where
  kind : (Vocabulary.ofJson? a.kind : Option ActionKind) = some kind
  value : a.typedValue = .ok value
  owned : w.owner? h = some owner

/-- The action goes through. -/
def Action.Goes (a : Action) (w : Workspace) (h : Handle) : Prop :=
  ∃ kind value owner, a.Asks w h kind value owner ∧ kind.Goes w owner value

omit [Host] in
theorem Workspace.IsReady.glances (hw : w.IsReady h id) (hv : Glances h w v) : v.IsReady h id :=
  hw.congr hv.own.id_eq hv.toSameSight.isChanging hv.toSameSight.store

theorem Action.Asks.glances (hasks : a.Asks w h kind value owner) (hv : Glances h w v) :
    a.Asks v h kind value owner :=
  ⟨hasks.kind, hasks.value, hv.toLooks.owner?.trans hasks.owned⟩

omit [Host] in
theorem exists_labelText (labelKind : LabelKind) (value : Option ActionValue) (w : Workspace) :
    ∃ text, ((labelText labelKind value).runOn w).1 = .ok text := by
  rw [labelText.eq_def]
  rcases value with _ | id | words
  · exact ⟨_, rfl⟩
  · dsimp only
    rw [runOn_bind_of_result (runOn_cachedLabel_label? labelKind id w)]
    cases w.label? labelKind id with
    | none => exact ⟨_, rfl⟩
    | some l => exact ⟨_, rfl⟩
  · exact ⟨_, rfl⟩

/-- An action with a kind and a value can be described. -/
theorem exists_describe (hkind : (Vocabulary.ofJson? a.kind : Option ActionKind) = some kind)
    (hvalue : a.typedValue = .ok value) (h : Handle) (w : Workspace) :
    ∃ text v, (describe a).runOn w = (.ok text, v) ∧ Glances h w v := by
  have hresult : ∃ text, ((describe a).runOn w).1 = .ok text := by
    rw [describe, hkind]
    dsimp only
    rw [runOn_bind, runOn_ofExcept, hvalue]
    dsimp only
    cases kind with
    | setCategory | setMerchant | addTag | removeTag =>
      obtain ⟨text, htext⟩ := exists_labelText _ value w
      rw [describeKind, runOn_bind_of_result htext]
      exact ⟨_, rfl⟩
    | _ => exact ⟨_, rfl⟩
  obtain ⟨text, htext⟩ := hresult
  exact ⟨text, exists_runOn_of_result (glances_describe a) htext⟩

/-- The effect that an action is planned to have is what the action means, whether or not the account
was looked up. -/
theorem meaning_of_plan {effect : Effect} {s : Store} {now : Calendar.Instant}
    (hasks : a.Asks w h kind value owner)
    (hrun : (plan kind a h).runOn w = (.ok (some effect), v)) :
    effect.meaning s now (w.standing h) = kind.meaning s owner now value (w.standing h) := by
  rw [plan] at hrun
  obtain ⟨value', w₁, hvalue, hrun⟩ := runOn_bind_eq_ok hrun
  obtain ⟨htyped, rfl⟩ := runOn_ofExcept_eq_ok hvalue
  cases hasks.value.symm.trans htyped
  obtain ⟨found, w₂, howner, hrun⟩ := runOn_bind_eq_ok hrun
  have hfound : found = some owner := by
    rcases ownerOf_cases h w with hresult | ⟨hnone, -⟩
    · rw [howner, hasks.owned] at hresult
      exact Except.ok.inj hresult
    · cases hnone.symm.trans hasks.owned
  subst hfound
  obtain ⟨t, w₃, ht, hrun⟩ := runOn_bind_eq_ok hrun
  cases ht
  have hlooks := looks_ownerOf h w
  rw [howner] at hlooks
  rw [← hlooks.standing]
  have hmeaning : effect.meaning s now ((w₂.transaction h).standing w₂.store) =
      kind.meaning s owner now value ((w₂.transaction h).standing w₂.store) :=
    meaning_planKind hrun
  exact hmeaning

namespace Workspace.IsReady

/-- An action that goes through is successful and does what it means. -/
theorem runAction_of_goes (hw : w.IsReady h id) (hasks : a.Asks w h kind value owner)
    (hgoes : kind.Goes w owner value) :
    ∃ outcome v, (runAction a h false).runOn w = (.ok outcome, v) ∧ outcome.succeeded = true ∧
      v.IsReady h id ∧ v.owner? h = w.owner? h ∧ w.Learns v (kind.named? owner value) ∧
      ∀ s : Store, (∀ k, (v.store.labels k).Grows (s.labels k)) →
        v.standing h = kind.meaning s owner w.now value (w.standing h) := by
  obtain ⟨text, w₁, hdescribe, hfirst⟩ := exists_describe hasks.kind hasks.value h w
  have hw₁ := hw.glances hfirst
  have hasks₁ := hasks.glances hfirst
  obtain ⟨planned, w₂, hplan, hsecond, hiff, hnamed⟩ :=
    runOn_plan_of_owner kind (by rw [hw₁.id_eq]; rfl) hasks₁.value hasks₁.owned
  obtain ⟨effect, rfl, hadmitted⟩ :=
    hiff.2 ((kind.goes_congr hfirst.toSameSight owner value).2 hgoes)
  have hw₂ := hw₁.glances hsecond
  have hboth : Glances h w w₂ := IsTrans.trans _ _ _ hfirst hsecond
  obtain ⟨fields, v, hperform, hready, hlearns⟩ :=
    hw₂.perform_of_admitted ((effect.admitted_congr hsecond.toSameSight).2 hadmitted)
  have hattempt : (attemptAction kind a h false).runOn w =
      (.ok ⟨Vocabulary.code kind, true, text, fields⟩, v) := by
    rw [attemptAction, runOn_bind, hdescribe]
    dsimp only
    rw [runOn_bind, hplan]
    simp only [Bool.false_eq_true, if_false, runOn_bind, hperform]
    rfl
  refine ⟨⟨Vocabulary.code kind, true, text, fields⟩, v, ?_, rfl, hready, ?_, ?_, fun s hs => ?_⟩
  · rw [runAction, runOn_bind, runOn_transaction]
    dsimp only
    rw [hasks.kind]
    dsimp only
    rw [runOn_tryCatch, hattempt]
  · have hworks := works_perform (L := Eq) h effect w₂
    rw [hperform] at hworks
    have haccounts := congrArg Store.accounts hworks.store.fixed
    have haccount := (hw₂.standing_of_perform hperform fun k => Std.Refl.refl _).2
    rw [owner?_congr (w := w₂) haccounts (haccount ▸ .same _), hboth.toLooks.owner?]
  · rw [← hnamed effect rfl]
    exact hlearns.of_sameSight hboth.toSameSight
  · rw [(hw₂.standing_of_perform hperform hs).1, hsecond.toLooks.standing,
      meaning_of_plan hasks₁ hplan, hfirst.toLooks.standing, hboth.now]

/-- An action that does not go through fails, and has only looked. -/
theorem runAction_of_not_goes (hw : w.IsReady h id) (hnot : ¬a.Goes w h) :
    ∃ outcome v, (runAction a h false).runOn w = (.ok outcome, v) ∧ outcome.succeeded = false ∧
      Glances h w v := by
  obtain ⟨outcome, v, hrun, -⟩ := succeeds_runAction a h false w trivial
  refine ⟨outcome, v, hrun, ?_⟩
  rcases runAction_parts (glances_describe a) (glances_plan · a h) glances_report hrun with hfailed |
    ⟨kind, description, w₁, effect, w₂, hkind, hdescribe, hplan, hdone⟩
  · exact hfailed
  · have hfirst : Glances h w ((describe a).runOn w).2 := glances_describe a w
    rw [hdescribe] at hfirst
    have hw₁ := hw.glances hfirst
    obtain ⟨value, owner, hvalue, howner⟩ := exists_owner_of_plan (by rw [hplan])
    obtain ⟨planned, x, hplanned, hsecond, hiff, -⟩ :=
      runOn_plan_of_owner kind (by rw [hw₁.id_eq]; rfl) hvalue howner
    cases hplan.symm.trans hplanned
    have hw₂ := hw₁.glances hsecond
    have hboth : Glances h w w₂ := IsTrans.trans _ _ _ hfirst hsecond
    -- The plan is there, so it is the carrying out that was refused.
    have hrefused : ¬effect.Admitted w₂ := by
      intro hadmitted
      have hgoes := hiff.1 ⟨effect, rfl, (effect.admitted_congr hsecond.toSameSight).1 hadmitted⟩
      exact hnot ⟨kind, value, owner, ⟨hkind, hvalue, hfirst.toLooks.owner?.symm.trans howner⟩,
        (kind.goes_congr hfirst.toSameSight owner value).1 hgoes⟩
    have hperform := hw₂.perform_of_not_admitted hrefused
    rcases hdone with ⟨-, hdone⟩ | ⟨hfailed, failure, u, e, hfails, rfl⟩
    · cases hperform.symm.trans hdone
    · cases hperform.symm.trans hfails
      exact ⟨hfailed, IsTrans.trans _ _ _ hboth (glances_report e w₂)⟩

end Workspace.IsReady

end Actions

end Rulebook
