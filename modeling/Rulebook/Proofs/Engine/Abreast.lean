import Rulebook.Proofs.Engine.Foresight
import Rulebook.Proofs.Engine.Renumbering

/-!
# The same turn in two stores

A transaction is worked on in two workspaces at once.  In the one the base has been left behind:
other transactions had their turns, and labels were added.  In the other nothing has happened since
the base.  The two turns take the same course all the same, and their stores agree up to the numbers
of new labels at every step (`Workspace.Renumbered`).

What keeps them together is that the numbers of new labels are not seen by anything.  Conditions are
about names, and an action that names a label by its number names one of the base
(`Renumbering.Provides`).  So rules match in both turns or in neither, and the same effects are
planned.

Only saving looks at a number: it has to fit into a column.  Hence the assumption that the labels
which the actions may add do not use up the numbers (`Renumbering.room`).

## Main definitions

* `Renumbering` — what the two turns have in common.
* `LiveTransaction.Renumbered`, `Store.Renumbered`, `Workspace.Renumbered` — the relation.
* `Effect.StandsIn` — effects that mean the same in both turns.

## Main statements

* `renumbers_ruleMatches` — a rule matches in both turns or in neither.
* `exists_plan` — an action has the same plan in both turns.
-/

namespace Rulebook

open Program Workspace

/-! ## Transactions that agree up to the numbers of labels -/

/-- The transaction without its category and merchant. -/
def LiveTransaction.unlabelled (t : LiveTransaction) : LiveTransaction :=
  { t with category := {}, merchant := {} }

/-- The transactions agree up to the numbers of their labels, and they have the same labels at
hand. -/
structure LiveTransaction.Renumbered (base s t : Store) (x y : LiveTransaction) : Prop where
  rest : y.unlabelled = x.unlabelled
  ids : ∀ role : LabelRole,
    Option.Rel (base.SameLabel s t role.kind) (role.get x).id (role.get y).id
  loaded : ∀ role : LabelRole, (role.get y).loaded = (role.get x).loaded

namespace LiveTransaction.Renumbered

variable {base s t s' t' : Store} {x y : LiveTransaction} {α : Type}

theorem grows (h : Renumbered base s t x y) (hs : ∀ kind, (s.labels kind).Grows (s'.labels kind))
    (ht : ∀ kind, (t.labels kind).Grows (t'.labels kind)) : Renumbered base s' t' x y :=
  { h with ids := fun role =>
      optionRel_mono (h.ids role) fun _ _ hsame => hsame.grows (hs role.kind) (ht role.kind) }

/-- What does not depend on the labels is the same. -/
theorem field (h : Renumbered base s t x y) (f : LiveTransaction → α)
    (hf : ∀ t : LiveTransaction, f t = f t.unlabelled) : f y = f x := by
  rw [hf, h.rest, ← hf]

/-- The same change to what has nothing to do with the labels. -/
theorem edit (h : Renumbered base s t x y) {f : LiveTransaction → LiveTransaction}
    (hrest : ∀ t, (f t).unlabelled = f t.unlabelled)
    (hroles : ∀ (role : LabelRole) t, role.get (f t) = role.get t) :
    Renumbered base s t (f x) (f y) where
  rest := by
    rw [hrest, h.rest, hrest]
  ids role := by
    rw [hroles, hroles]
    exact h.ids role
  loaded role := by
    rw [hroles, hroles]
    exact h.loaded role

/-- Setting a reference to the same label. -/
theorem setRole (h : Renumbered base s t x y) (role : LabelRole) {r r' : Reference Label}
    (hid : Option.Rel (base.SameLabel s t role.kind) r.id r'.id) (hloaded : r'.loaded = r.loaded) :
    Renumbered base s t (role.set r x) (role.set r' y) where
  rest := by
    have hrest : ∀ r t, (role.set r t).unlabelled = t.unlabelled := by
      intro r t
      cases role <;> rfl
    rw [hrest, hrest, h.rest]
  ids other := by
    have hother := h.ids other
    cases role <;> cases other <;> first | exact hid | exact hother
  loaded other := by
    have hother := h.loaded other
    cases role <;> cases other <;> first | exact hloaded | exact hother

end LiveTransaction.Renumbered

/-! ## Workspaces that agree up to the numbers of labels -/

/-- The numbers of labels do not run out when no more than so many labels of each kind are added. -/
def Store.HasRoom (s : Store) (n : Nat) : Prop :=
  ∀ kind, 0 ≤ (s.labels kind).lastId ∧ (s.labels kind).lastId + n < Column.bound

/-- What two turns of a transaction have in common: the base, the user and the number of the
transaction, the names of labels that actions may add, and what the first of the turns found in
addition to the base — new labels and logs.  The names do not use up the numbers that fit into a
column. -/
structure Renumbering where
  base : Store
  user : Id
  id : Id
  names : List String
  before : LabelKind → List Label
  logs : Table Log
  room : base.HasRoom names.length

/-- The stores agree on the transaction up to the numbers of labels.  The first one has the labels
that the second one has and those that were there before, and the same logs were added to both. -/
structure Store.Renumbered (c : Renumbering) (s t : Store) : Prop extends
    c.base.SameFor s t c.id where
  gains : c.base.GainsLabels c.user c.names s
  gains' : c.base.GainsLabels c.user c.names t
  known : ∀ kind l, l ∈ c.base.newLabels s kind ↔
    l ∈ c.before kind ∨ l ∈ c.base.newLabels t kind
  logs : ∃ added, s.logs = c.logs.insertAll added ∧ t.logs = c.base.logs.insertAll added

/-- The transaction of the user is worked on in both workspaces, and they agree on it up to the
numbers of labels. -/
structure Workspace.Renumbered (c : Renumbering) (h : Handle) (w v : Workspace) : Prop where
  changing : w.isChanging = true
  changing' : v.isChanging = true
  now : v.now = w.now
  owned : w.OwnedBy h c.user
  number : (w.transaction h).id = some c.id
  own : (w.transaction h).Renumbered c.base w.store v.store (v.transaction h)
  store : w.store.Renumbered c v.store

section

variable {c : Renumbering} {h : Handle} {w v : Workspace} {i j : Id} {α : Type}

/-- Numbers of the same label fit into a column or do not. -/
theorem Store.Renumbered.fits_eq {s t : Store} (hs : s.Renumbered c t) {kind : LabelKind}
    (h : c.base.SameLabel s t kind i j) : Column.fits j = Column.fits i := by
  obtain ⟨hpositive, hroom⟩ := c.room kind
  have hnew : ∀ {u : Store} {n : Id} {l : Label}, c.base.GainsLabels c.user c.names u →
      (c.base.labels kind).lastId < n → (u.labels kind).find? n = some l →
      Column.fits n = true := by
    intro u n l hu hn hfind
    have hle := Int.le_trans (Table.le_lastId_of_find? hfind) (hu.lastId_le kind)
    rw [Column.fits, Bool.and_eq_true, decide_eq_true_eq, decide_eq_true_eq]
    refine ⟨?_, Int.lt_of_le_of_lt hle hroom⟩
    exact Int.le_trans (by decide) (Int.le_trans hpositive (Int.le_of_lt hn))
  rcases h with ⟨rfl, -⟩ | ⟨hi, hj, l, hfind, hfind'⟩
  · rfl
  · rw [hnew hs.gains hi hfind, hnew hs.gains' hj hfind']

namespace Workspace.Renumbered

theorem number' (hr : Renumbered c h w v) : (v.transaction h).id = some c.id :=
  (hr.own.field LiveTransaction.id fun _ => rfl).trans hr.number

theorem account_eq (hr : Renumbered c h w v) :
    (v.transaction h).account = (w.transaction h).account :=
  hr.own.field LiveTransaction.account fun _ => rfl

theorem owned' (hr : Renumbered c h w v) : v.OwnedBy h c.user := by
  refine ⟨?_, ?_⟩ <;> rw [hr.account_eq]
  · exact hr.owned.isSet
  · exact hr.owned.loaded

/-- A reference is set in both or in neither. -/
theorem isSet_eq (hr : Renumbered c h w v) (role : LabelRole) :
    (role.get (v.transaction h)).isSet = (role.get (w.transaction h)).isSet := by
  have hids := hr.own.ids role
  have hpositive := (c.room role.kind).1
  rw [Reference.isSet, Reference.isSet]
  generalize (role.get (w.transaction h)).id = a at hids ⊢
  generalize (role.get (v.transaction h)).id = b at hids ⊢
  cases hids with
  | none => rfl
  | some hsame =>
      rcases hsame with ⟨rfl, -⟩ | ⟨hi, hj, -⟩
      · rfl
      · have hne : ∀ {n : Id}, (c.base.labels role.kind).lastId < n → (n != 0) = true :=
          fun hn => bne_iff_ne.2 (Int.ne_of_gt (Int.lt_of_le_of_lt hpositive hn))
        rw [Option.any_some, Option.any_some, hne hi, hne hj]

/-- Changing the transaction, but not its number or account. -/
theorem change (hr : Renumbered c h w v) {f g : LiveTransaction → LiveTransaction}
    (hfg : (f (w.transaction h)).Renumbered c.base w.store v.store (g (v.transaction h)))
    (hid : ∀ t, (f t).id = t.id) (haccount : ∀ t, (f t).account = t.account) :
    Renumbered c h { w with live := w.live.update h f } { v with live := v.live.update h g } := by
  have hf := transaction_update_self (live_has_of_id hr.number) f
  have hg := transaction_update_self (live_has_of_id hr.number') g
  refine { hr with owned := hr.owned.of_account ?_, number := ?_, own := ?_ }
  · rw [hf, haccount]
  · rw [hf, hid, hr.number]
  · rw [hf, hg]
    exact hfg

/-- Changing the stores, where labels are only added, and reporting. -/
theorem restore (hr : Renumbered c h w v) {s t : Store} (hst : s.Renumbered c t)
    (hs : ∀ kind, (w.store.labels kind).Grows (s.labels kind))
    (ht : ∀ kind, (v.store.labels kind).Grows (t.labels kind)) (events events' : List Event) :
    Renumbered c h { w with store := s, events } { v with store := t, events := events' } :=
  { hr with
    owned := hr.owned.of_account rfl
    own := hr.own.grows hs ht
    store := hst }

end Workspace.Renumbered

/-! ## Looking -/

theorem renumbers_report (hr : Renumbered c h w v) (e e' : Event) :
    Tracks (Renumbered c h) (report e) (report e') w v :=
  tracks_modify { hr with owned := hr.owned.of_account rfl }

/-- The label that is looked up is the same, whatever its number. -/
theorem renumbers_labelOf (hr : Renumbered c h w v) (role : LabelRole) :
    Tracks (Renumbered c h) (labelOf role h) (labelOf role h) w v := by
  have hids := hr.own.ids role
  have hloaded := hr.own.loaded role
  have hrun := runOn_labelOf role h w
  have hrun' := runOn_labelOf role h v
  have hresolve : ((role.get (w.transaction h)).resolve (w.store.labels role.kind).find? = none ∧
        (role.get (v.transaction h)).resolve (v.store.labels role.kind).find? = none) ∨
      ∃ r r', (role.get (w.transaction h)).resolve (w.store.labels role.kind).find? = some r ∧
        (role.get (v.transaction h)).resolve (v.store.labels role.kind).find? = some r' ∧
        Option.Rel (c.base.SameLabel w.store v.store role.kind) r.id r'.id ∧
        r'.loaded = r.loaded := by
    generalize role.get (w.transaction h) = r at hids hloaded ⊢
    generalize role.get (v.transaction h) = r' at hids hloaded ⊢
    obtain ⟨a, _ | l⟩ := r <;> obtain ⟨b, _ | l'⟩ := r' <;> cases hloaded
    · cases hids with
      | none => exact Or.inr ⟨_, _, rfl, rfl, .none, rfl⟩
      | @some i j hsame =>
          have hfind := hsame.find?_eq hr.store.gains hr.store.gains'
          dsimp only [Reference.resolve]
          rw [hfind]
          cases (w.store.labels role.kind).find? i with
          | none => exact Or.inl ⟨rfl, rfl⟩
          | some l => exact Or.inr ⟨_, _, rfl, rfl, .some hsame, rfl⟩
    · exact Or.inr ⟨_, _, rfl, rfl, hids, rfl⟩
  rcases hresolve with ⟨hnone, hnone'⟩ | ⟨r, r', hsome, hsome', hrid, hrloaded⟩
  · rw [hnone] at hrun
    rw [hnone'] at hrun'
    exact tracks_of_runs hrun hrun' hr
  · rw [hsome] at hrun
    rw [hsome'] at hrun'
    dsimp only at hrun hrun'
    rw [hrloaded] at hrun'
    refine tracks_of_runs hrun hrun' ?_
    refine hr.change (hr.own.setRole role hrid hrloaded) ?_ ?_ <;> intro t <;> cases role <;> rfl

theorem renumbers_labelName (hr : Renumbered c h w v) (role : LabelRole) :
    Tracks (Renumbered c h) (labelName role h) (labelName role h) w v := by
  rw [labelName]
  refine tracks_transaction ?_
  rw [hr.isSet_eq role]
  split
  · exact (renumbers_labelOf hr role).bind fun label w v hr => tracks_pure _ hr
  · exact tracks_pure _ hr

theorem renumbers_accountName (hr : Renumbered c h w v) :
    Tracks (Renumbered c h) (accountName h) (accountName h) w v := by
  have haccount : Tracks (Renumbered c h) (accountOf h) (accountOf h) w v :=
    tracks_of_runs hr.owned.runOn_accountOf (hr.account_eq ▸ hr.owned'.runOn_accountOf) hr
  rw [accountName]
  refine tracks_transaction ?_
  rw [hr.account_eq]
  split
  · exact haccount.bind fun account w v hr => tracks_pure _ hr
  · exact tracks_pure _ hr

theorem renumbers_tagNames (hr : Renumbered c h w v) :
    Tracks (Renumbered c h) (tagNames h) (tagNames h) w v := by
  rw [tagNames]
  refine tracks_transaction ?_
  rw [hr.number, hr.number']
  refine tracks_get_bind ?_
  rw [hr.store.tagNames_eq hr.store.gains hr.store.gains']
  exact tracks_pure _ hr

theorem renumbers_resolveField (hr : Renumbered c h w v) (field : Field) :
    Tracks (Renumbered c h) (resolveField h field) (resolveField h field) w v := by
  have hfield : ∀ f : LiveTransaction → FieldValue, (∀ t, f t = f t.unlabelled) →
      Tracks (Renumbered c h) (pure (f (w.transaction h))) (pure (f (v.transaction h))) w v := by
    intro f hf
    rw [hr.own.field f hf]
    exact tracks_pure _ hr
  rw [resolveField]
  refine tracks_transaction ?_
  cases field with
  | category => exact renumbers_labelName hr .category
  | merchant => exact renumbers_labelName hr .merchant
  | account => exact renumbers_accountName hr
  | tags => exact renumbers_tagNames hr
  | amount => exact hfield (fun t => .amount t.amount) fun _ => rfl
  | description => exact hfield (fun t => .ofText? t.description) fun _ => rfl
  | partner => exact hfield (fun t => .ofText? t.partner) fun _ => rfl
  | type => exact hfield (fun t => .ofText? t.type) fun _ => rfl
  | note => exact hfield (fun t => .ofText? t.note) fun _ => rfl
  | recipientNote => exact hfield (fun t => .ofText? t.recipientNote) fun _ => rfl
  | place => exact hfield (fun t => .ofText? t.place) fun _ => rfl
  | targetIban => exact hfield (fun t => .ofText? t.targetIban) fun _ => rfl
  | sourceIban => exact hfield (fun t => .ofText? t.sourceIban) fun _ => rfl
  | date => exact hfield (fun t => .date t.bookedDate) fun _ => rfl

/-! ## Rules -/

variable [Host]

theorem renumbers_conditionMatches (hr : Renumbered c h w v) (condition : Condition) :
    Tracks (Renumbered c h) (Direct.conditionMatches h condition)
      (Direct.conditionMatches h condition) w v := by
  have hevaluate : Tracks (Renumbered c h) (Direct.evaluateCondition h condition)
      (Direct.evaluateCondition h condition) w v := by
    rw [Direct.evaluateCondition]
    split
    · exact (renumbers_resolveField hr _).bind fun value w v hr => tracks_ofExcept _ hr
    · exact tracks_ofExcept _ hr
  rw [Direct.conditionMatches]
  refine hevaluate.bind fun outcome w v hr => ?_
  dsimp only
  split
  · refine tracks_transaction ?_
    exact (renumbers_report hr _ _).bind fun _ w v hr => tracks_pure _ hr
  · exact tracks_pure _ hr

/-- Whether a rule matches does not depend on the numbers of labels. -/
theorem renumbers_ruleMatches (hr : Renumbered c h w v) (r : RuleDefinition) :
    Tracks (Renumbered c h) (Direct.ruleMatches h r) (Direct.ruleMatches h r) w v := by
  refine tracks_allM (fun g w v hr => ?_) hr
  rw [Direct.groupMatches]
  split
  · exact tracks_pure true hr
  · split
    · exact tracks_allM (fun condition w v hr => renumbers_conditionMatches hr condition) hr
    · exact tracks_anyM (fun condition w v hr => renumbers_conditionMatches hr condition) hr

/-! ## Planning actions -/

/-- The labels that the action names by number are there in the base, and its text is one of the
names. -/
structure Renumbering.Provides (c : Renumbering) (a : Action) : Prop where
  named : a.NamesStored c.base
  texts : ∀ s, a.typedValue = .ok (some (.text s)) → s ∈ c.names

/-- The label that an effect uses is one of the base, or it is the user's under one of the names. -/
def Effect.StandsIn (c : Renumbering) : Effect → Prop
  | .setLabel role id _ => (c.base.labels role.kind).has id = true
  | .attachTag tag | .detachTag tag => c.base.tags.has tag = true
  | .setNamedLabel _ name owner | .attachNamedTag name owner => owner = c.user ∧ name ∈ c.names
  | _ => True

/-- An action is described by the labels of the base. -/
theorem renumbers_describe (hr : Renumbered c h w v) {a : Action} (ha : c.Provides a) :
    Tracks (Renumbered c h) (Direct.describe a) (Direct.describe a) w v := by
  rw [Direct.describe]
  rcases hkind : (Vocabulary.ofJson? a.kind : Option ActionKind) with _ | kind
  · exact tracks_pure _ hr
  · refine (tracks_ofExcept _ hr).bind_run fun value w v hrun _ hr => ?_
    have hvalue : a.typedValue = .ok value := congrArg Prod.fst hrun
    have hlabel : ∀ labelKind (f : String → String),
        (∀ n, value = some (.identifier n) → (c.base.labels labelKind).has n = true) →
        Tracks (Renumbered c h) (pure (f (Direct.labelText w.store labelKind value)))
          (pure (f (Direct.labelText v.store labelKind value))) w v := by
      intro labelKind f hnamed
      rw [Direct.labelText_of_grows (hr.store.gains.grows labelKind) hnamed,
        Direct.labelText_of_grows (hr.store.gains'.grows labelKind) hnamed]
      exact tracks_pure _ hr
    refine tracks_get_bind ?_
    cases kind with
    | setCategory => exact hlabel .category _ fun n => ha.named.has hkind hvalue rfl
    | setMerchant => exact hlabel .merchant _ fun n => ha.named.has hkind hvalue rfl
    | addTag => exact hlabel .tag _ fun n => ha.named.has hkind hvalue rfl
    | removeTag => exact hlabel .tag _ fun n => ha.named.has hkind hvalue rfl
    | _ => exact tracks_pure _ hr

omit [Host] in
/-- A text is planned for the user, and what is added is named by it. -/
theorem standsIn_of_planText {kind : ActionKind} {t : LiveTransaction} {words : String}
    (hwords : words ∈ c.names) {effect : Effect}
    (hplan : planText kind t c.user words = some effect) : effect.StandsIn c := by
  cases kind with
  | setDescription | appendDescription | prependDescription | setNote | appendNote =>
      cases hplan
      exact trivial
  | setType =>
      simp only [planText, Option.ite_none_right_eq_some, Option.some.injEq] at hplan
      obtain ⟨-, rfl⟩ := hplan
      exact trivial
  | createTag =>
      simp only [planText, Option.ite_none_right_eq_some, Option.some.injEq] at hplan
      obtain ⟨-, rfl⟩ := hplan
      exact ⟨rfl, hwords⟩
  | createCategory | createMerchant =>
      cases hplan
      exact ⟨rfl, hwords⟩
  | _ => cases hplan

/-- An action of a kind is planned among the labels of the base. -/
theorem exists_planKind (hr : Renumbered c h w v) {a : Action} (ha : c.Provides a)
    {kind : ActionKind} (hkind : (Vocabulary.ofJson? a.kind : Option ActionKind) = some kind)
    {value : Option ActionValue} (hvalue : a.typedValue = .ok value) {t : LiveTransaction}
    (ht : t.id = some c.id) :
    ∃ planned, (Direct.planKind kind a value t c.user).runOn w = (.ok planned, w) ∧
      (Direct.planKind kind a value t c.user).runOn v = (.ok planned, v) ∧
      ∀ effect, planned = some effect → effect.StandsIn c := by
  have howned : ∀ labelKind (f : Id × Label → Effect),
      (∀ n, value = some (.identifier n) → (c.base.labels labelKind).has n = true) →
      (∀ found, (c.base.labels labelKind).has found.1 = true → (f found).StandsIn c) →
      ∃ planned, (Direct.ownedLabel w.store labelKind value c.user).map f = planned ∧
        (Direct.ownedLabel v.store labelKind value c.user).map f = planned ∧
        ∀ effect, planned = some effect → effect.StandsIn c := by
    intro labelKind f hnamed hf
    rw [Direct.ownedLabel_of_grows (hr.store.gains.grows labelKind) hnamed,
      Direct.ownedLabel_of_grows (hr.store.gains'.grows labelKind) hnamed]
    refine ⟨_, rfl, rfl, fun effect heffect => ?_⟩
    obtain ⟨found, hfound, rfl⟩ := Option.map_eq_some_iff.1 heffect
    exact hf found (Table.has_of_find? (Direct.ownedLabel_eq_some hfound).1)
  have hreads : ∀ {x : Operation (Option Effect)} {planned planned' : Option Effect},
      x.runOn w = (.ok planned, w) → x.runOn v = (.ok planned', v) →
      (∃ effect, planned = effect ∧ planned' = effect ∧
        ∀ found, effect = some found → found.StandsIn c) →
      ∃ planned, x.runOn w = (.ok planned, w) ∧ x.runOn v = (.ok planned, v) ∧
        ∀ effect, planned = some effect → effect.StandsIn c := by
    rintro x _ _ hx hx' ⟨planned, rfl, rfl, hstands⟩
    exact ⟨_, hx, hx', hstands⟩
  cases kind with
  | setCategory =>
      exact hreads rfl rfl (howned .category (fun found => .setLabel .category found.1 found.2)
        (fun n => ha.named.has hkind hvalue rfl) fun _ hfound => hfound)
  | setMerchant =>
      exact hreads rfl rfl (howned .merchant (fun found => .setLabel .merchant found.1 found.2)
        (fun n => ha.named.has hkind hvalue rfl) fun _ hfound => hfound)
  | removeTag =>
      exact hreads rfl rfl (howned .tag (fun found => .detachTag found.1)
        (fun n => ha.named.has hkind hvalue rfl) fun _ hfound => hfound)
  | addTag =>
      refine hreads rfl rfl ?_
      rw [ht]
      exact howned .tag (fun found => .attachTag found.1) (fun n => ha.named.has hkind hvalue rfl)
        fun _ hfound => hfound
  | removeAllTags => exact ⟨some .detachAllTags, rfl, rfl, fun _ h => by cases h; exact trivial⟩
  | markReconciled => exact ⟨some .markReconciled, rfl, rfl, fun _ h => by cases h; exact trivial⟩
  | sendNotification => exact ⟨some (.notify _ _), rfl, rfl, fun _ h => by cases h; exact trivial⟩
  | _ =>
      rcases value with _ | n | words
      · exact ⟨none, rfl, rfl, fun _ h => by cases h⟩
      · exact ⟨none, rfl, rfl, fun _ h => by cases h⟩
      · exact ⟨planText _ t c.user words, rfl, rfl,
          fun _ h => standsIn_of_planText (ha.texts words hvalue) h⟩

theorem exists_plan (hr : Renumbered c h w v) {a : Action} (ha : c.Provides a) {kind : ActionKind}
    (hkind : (Vocabulary.ofJson? a.kind : Option ActionKind) = some kind) :
    ∃ planned, (Direct.plan kind a h).runOn w = (planned, w) ∧
      (Direct.plan kind a h).runOn v = (planned, v) ∧
      ∀ effect, planned = .ok (some effect) → effect.StandsIn c := by
  rw [Direct.plan]
  rcases hvalue : a.typedValue with failure | value
  · exact ⟨.error failure, rfl, rfl, fun _ h => by cases h⟩
  · obtain ⟨planned, hplan, hplan', hstands⟩ := exists_planKind hr ha hkind hvalue hr.number
    refine ⟨.ok planned, ?_, ?_, fun effect heffect => hstands effect (Except.ok.inj heffect)⟩
    · rw [runOn_bind, runOn_ofExcept]
      dsimp only
      rw [runOn_bind, hr.owned.runOn_ownerOf]
      exact hplan
    · -- What is planned does not depend on the labels of the transaction.
      have hsame : ∀ owner, Direct.planKind kind a value (v.transaction h) owner =
          Direct.planKind kind a value (w.transaction h) owner :=
        fun owner => hr.own.field (Direct.planKind kind a value · owner) fun _ => rfl
      rw [runOn_bind, runOn_ofExcept]
      dsimp only
      rw [runOn_bind, hr.owned'.runOn_ownerOf]
      dsimp only
      rw [runOn_bind, runOn_transaction]
      dsimp only
      rw [hsame]
      exact hplan'

end

end Rulebook
