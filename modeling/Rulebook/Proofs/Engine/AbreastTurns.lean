import Rulebook.Proofs.Engine.Abreast

/-!
# The same course in two stores

The turns of `Abreast` go on: what was planned is carried out, logged and saved.  Carrying out is
where labels are added.  A name that one of the turns finds and the other does not is one that
another transaction has added.  Then the first turn takes the label that is there, the second one
adds a label, and from then on the two numbers stand for the same label (`exists_findOrAddLabel`).

A turn begins with the same transaction in both workspaces (`Workspace.Begins`), and in the end the
stores agree on its row and its tags up to the numbers of new labels.

## Main definitions

* `Store.Names` — a label of a name was found or added.
* `Workspace.Begins` — the turn of a transaction begins in both workspaces.

## Main statements

* `renumbers_perform`, `renumbers_runAction` — actions do the same in both turns.
* `renumbers_saveFields` — what is saved agrees.
* `Engine.renumbers_runTransaction` — the turn of a transaction.
-/

namespace Rulebook

open Program Workspace

section

variable {c : Renumbering} {h : Handle} {w v : Workspace} {i j : Id}

/-! ## Finding and adding labels -/

/-- The later store has the label of a name.  It is the one of the base, or a new one that was added
if it was not there yet. -/
structure Store.Names (c : Renumbering) (kind : LabelKind) (name : String) (s t : Store) (i : Id)
    (l : Label) : Prop where
  gains : c.base.GainsLabels c.user c.names t
  grows : ∀ other, (s.labels other).Grows (t.labels other)
  transactions : t.transactions = s.transactions
  links : t.links = s.links
  logs : t.logs = s.logs
  find : (t.labels kind).find? i = some l
  which : c.base.labelNamed? kind c.user name = some (i, l) ∨
    c.base.labelNamed? kind c.user name = none ∧ (c.base.labels kind).lastId < i ∧
      l = .created c.user name
  labels : ∀ other l', l' ∈ c.base.newLabels t other ↔ l' ∈ c.base.newLabels s other ∨
    c.base.labelNamed? kind c.user name = none ∧ other = kind ∧ l' = .created c.user name

namespace Store.Names

variable {kind : LabelKind} {name : String} {s t s' t' : Store} {l l' : Label}

/-- The numbers that were found in the two stores are those of the same label. -/
theorem sameLabel (hs : s.Names c kind name s' i l) (ht : t.Names c kind name t' j l') :
    l' = l ∧ c.base.SameLabel s' t' kind i j := by
  rcases hs.which with hbase | ⟨hnone, hi, hl⟩
  · rcases ht.which with hbase' | ⟨hnone', -⟩
    · cases hbase.symm.trans hbase'
      exact ⟨rfl, Store.sameLabel_of_find? (labelNamed?_eq_some hbase).1⟩
    · cases hbase.symm.trans hnone'
  · rcases ht.which with hbase' | ⟨-, hj, hl'⟩
    · cases hnone.symm.trans hbase'
    · obtain rfl : l' = l := hl'.trans hl.symm
      exact ⟨rfl, Or.inr ⟨hi, hj, l', hs.find, ht.find⟩⟩

/-- The stores agree on the transaction as before. -/
theorem renumbered (hs : s.Names c kind name s' i l) (ht : t.Names c kind name t' j l')
    (hst : s.Renumbered c t) : s'.Renumbered c t' where
  toSameFor := by
    refine hst.toSameFor.grows hs.grows ht.grows ?_ ?_ (fun tag => ?_) fun tag => ?_
    · rw [hs.transactions]
    · rw [ht.transactions]
    · rw [Store.hasLink, hs.links, Store.hasLink]
    · rw [Store.hasLink, ht.links, Store.hasLink]
  gains := hs.gains
  gains' := ht.gains
  known other l := by
    rw [hs.labels, ht.labels, hst.known, or_assoc]
  logs := by
    rw [hs.logs, ht.logs]
    exact hst.logs

end Store.Names

/-- A label that is found or added has the name afterwards. -/
theorem exists_names (hw : w.isChanging = true)
    (hs : c.base.GainsLabels c.user c.names w.store) (kind : LabelKind) {name : String}
    (hname : name ∈ c.names) :
    ∃ i l s events, (Direct.findOrAddLabel kind name c.user).runOn w =
      (.ok (i, l), { w with store := s, events }) ∧ w.store.Names c kind name s i l := by
  rw [runOn_direct_findOrAddLabel kind name c.user hw]
  rcases hnamed : w.store.labelNamed? kind c.user name with _ | ⟨i, l⟩
  · have hbase : c.base.labelNamed? kind c.user name = none := by
      rcases h : c.base.labelNamed? kind c.user name with _ | found
      · rfl
      · cases hnamed.symm.trans (labelNamed?_of_grows (hs.grows kind) h)
    refine ⟨_, _, _, _, rfl, ?_⟩
    refine
      { gains := hs.addLabel hname hnamed
        grows := fun other => Store.labels_setLabels_insert w.store kind other _
        transactions := by cases kind <;> rfl
        links := by cases kind <;> rfl
        logs := by cases kind <;> rfl
        find := by rw [Store.labels_setLabels, Table.find?_insert, if_pos rfl]
        which := Or.inr ⟨hbase, ?_, rfl⟩
        labels := fun other l' => ?_ }
    · exact Int.lt_add_one_of_le (hs.grows kind).lastId
    · rw [Store.newLabels_addLabel hs, List.mem_append]
      refine or_congr_right ⟨fun hmem => ?_, ?_⟩
      · split at hmem
        · next hother => exact ⟨hbase, hother, List.mem_singleton.1 hmem⟩
        · cases hmem
      · rintro ⟨-, rfl, rfl⟩
        rw [if_pos rfl]
        exact List.mem_singleton_self _
  · refine ⟨i, l, w.store, w.events, rfl, ?_⟩
    have hwhich := hs.of_labelNamed? hnamed
    refine
      { gains := hs
        grows := fun _ => Std.Refl.refl _
        transactions := rfl
        links := rfl
        logs := rfl
        find := (labelNamed?_eq_some hnamed).1
        which := hwhich.imp_right fun ⟨hnone, hi, hl, _⟩ => ⟨hnone, hi, hl⟩
        labels := fun other l' => ⟨Or.inl, ?_⟩ }
    rintro (hmem | ⟨hnone, rfl, rfl⟩)
    · exact hmem
    · rcases hwhich with hbase | ⟨-, -, rfl, hmem⟩
      · cases hnone.symm.trans hbase
      · exact hmem

/-- Both turns come to the same label, whether they find or add it. -/
theorem exists_findOrAddLabel (hr : Renumbered c h w v) (kind : LabelKind) {name : String}
    (hname : name ∈ c.names) :
    ∃ i j l w' v', (Direct.findOrAddLabel kind name c.user).runOn w = (.ok (i, l), w') ∧
      (Direct.findOrAddLabel kind name c.user).runOn v = (.ok (j, l), v') ∧
      Renumbered c h w' v' ∧ c.base.SameLabel w'.store v'.store kind i j := by
  obtain ⟨i, l, s, events, hrun, hs⟩ := exists_names hr.changing hr.store.gains kind hname
  obtain ⟨j, l', t, events', hrun', ht⟩ := exists_names hr.changing' hr.store.gains' kind hname
  obtain ⟨rfl, hsame⟩ := hs.sameLabel ht
  exact ⟨i, j, l', _, _, hrun, hrun',
    hr.restore (hs.renumbered ht hr.store) hs.grows ht.grows events events', hsame⟩

/-! ## Carrying effects out -/

namespace Store.Renumbered

variable {s t s' t' : Store}

/-- Stores with the same labels as before agree if they agree on the rest. -/
theorem of_labels (hst : s.Renumbered c t) (hs : ∀ kind, s'.labels kind = s.labels kind)
    (ht : ∀ kind, t'.labels kind = t.labels kind)
    (hrow : Option.Rel (Transaction.Renumbered c.base s t) (s'.transactions.find? c.id)
      (t'.transactions.find? c.id))
    (htags : ∀ i, s'.hasLink c.id i = true →
      ∃ j, c.base.SameLabel s t .tag i j ∧ t'.hasLink c.id j = true)
    (htags' : ∀ j, t'.hasLink c.id j = true →
      ∃ i, c.base.SameLabel s t .tag i j ∧ s'.hasLink c.id i = true)
    (hlogs : ∃ added, s'.logs = c.logs.insertAll added ∧ t'.logs = c.base.logs.insertAll added) :
    s'.Renumbered c t' := by
  have hgrows : ∀ kind, (s.labels kind).Grows (s'.labels kind) :=
    fun kind => hs kind ▸ Std.Refl.refl _
  have hgrows' : ∀ kind, (t.labels kind).Grows (t'.labels kind) :=
    fun kind => ht kind ▸ Std.Refl.refl _
  refine
    { row := optionRel_mono hrow fun _ _ hboth => hboth.grows hgrows hgrows'
      tags := fun i hi => ?_
      tags' := fun j hj => ?_
      gains := hst.gains.of_labels hs
      gains' := hst.gains'.of_labels ht
      known := fun kind l => ?_
      logs := hlogs }
  · obtain ⟨j, hsame, hj⟩ := htags i hi
    exact ⟨j, hsame.grows (hgrows .tag) (hgrows' .tag), hj⟩
  · obtain ⟨i, hsame, hi⟩ := htags' j hj
    exact ⟨i, hsame.grows (hgrows .tag) (hgrows' .tag), hi⟩
  · rw [newLabels_congr (hs kind), newLabels_congr (ht kind)]
    exact hst.known kind l

/-- The same tag is put on the transaction. -/
theorem addLink (hst : s.Renumbered c t) (hsame : c.base.SameLabel s t .tag i j) :
    (s.addLink c.id i).Renumbered c (t.addLink c.id j) := by
  have hkept : ∀ (u : Store) n, (∀ kind, (u.addLink c.id n).labels kind = u.labels kind) ∧
      (u.addLink c.id n).transactions = u.transactions ∧ (u.addLink c.id n).logs = u.logs := by
    intro u n
    rw [Store.addLink]
    split
    · exact ⟨fun _ => rfl, rfl, rfl⟩
    · exact ⟨fun kind => by cases kind <;> rfl, rfl, rfl⟩
  refine hst.of_labels (hkept s i).1 (hkept t j).1 ?_ (fun n hn => ?_) (fun n hn => ?_) ?_
  · rw [(hkept s i).2.1, (hkept t j).2.1]
    exact hst.row
  · rw [hasLink_addLink, Bool.or_eq_true] at hn
    rcases hn with hold | hnew
    · obtain ⟨m, hsame, hm⟩ := hst.tags n hold
      exact ⟨m, hsame, by rw [hasLink_addLink, hm, Bool.true_or]⟩
    · obtain rfl : i = n := by simpa using hnew
      exact ⟨j, hsame, by rw [hasLink_addLink]; simp⟩
  · rw [hasLink_addLink, Bool.or_eq_true] at hn
    rcases hn with hold | hnew
    · obtain ⟨m, hsame, hm⟩ := hst.tags' n hold
      exact ⟨m, hsame, by rw [hasLink_addLink, hm, Bool.true_or]⟩
    · obtain rfl : j = n := by simpa using hnew
      exact ⟨i, hsame, by rw [hasLink_addLink]; simp⟩
  · rw [(hkept s i).2.2, (hkept t j).2.2]
    exact hst.logs

/-- Tags are taken off the transaction by a test that finds the same ones. -/
theorem removeLinks (hst : s.Renumbered c t) {test : Id → Bool}
    (htest : ∀ i j, c.base.SameLabel s t .tag i j → test i = test j) :
    Store.Renumbered c
      { s with links := s.links.remove fun _ l => l.transaction = c.id && test l.tag }
      { t with links := t.links.remove fun _ l => l.transaction = c.id && test l.tag } := by
  refine hst.of_labels (fun kind => by cases kind <;> rfl) (fun kind => by cases kind <;> rfl)
    hst.row (fun n hn => ?_) (fun n hn => ?_) hst.logs <;>
    rw [hasLink_removeLinks, Bool.and_eq_true] at hn
  · obtain ⟨m, hsame, hm⟩ := hst.tags n hn.1
    exact ⟨m, hsame, by rw [hasLink_removeLinks, hm, ← htest n m hsame, hn.2, Bool.and_self]⟩
  · obtain ⟨m, hsame, hm⟩ := hst.tags' n hn.1
    exact ⟨m, hsame, by rw [hasLink_removeLinks, hm, htest m n hsame, hn.2, Bool.and_self]⟩

end Store.Renumbered

theorem renumbers_change (hr : Renumbered c h w v) {f g : LiveTransaction → LiveTransaction}
    (hfg : (f (w.transaction h)).Renumbered c.base w.store v.store (g (v.transaction h)))
    (hid : ∀ t, (f t).id = t.id) (haccount : ∀ t, (f t).account = t.account)
    (fields : List TransactionField) :
    Tracks (Renumbered c h) (do change h f; return fields) (do change h g; return fields) w v := by
  have hchange : Tracks (Renumbered c h) (Rulebook.change h f) (Rulebook.change h g) w v :=
    tracks_modify (hr.change hfg hid haccount)
  exact hchange.bind fun _ w v hr => tracks_pure fields hr

/-- Setting a field that has nothing to do with labels. -/
theorem renumbers_edit (hr : Renumbered c h w v) {f : LiveTransaction → LiveTransaction}
    (hrest : ∀ t, (f t).unlabelled = f t.unlabelled)
    (hroles : ∀ (role : LabelRole) t, role.get (f t) = role.get t)
    (hid : ∀ t, (f t).id = t.id) (haccount : ∀ t, (f t).account = t.account)
    (fields : List TransactionField) :
    Tracks (Renumbered c h) (do change h f; return fields) (do change h f; return fields) w v :=
  renumbers_change hr (hr.own.edit hrest hroles) hid haccount fields

theorem renumbers_setRole (hr : Renumbered c h w v) (role : LabelRole) (l : Label)
    (hsame : c.base.SameLabel w.store v.store role.kind i j) (fields : List TransactionField) :
    Tracks (Renumbered c h) (do change h (role.set (.known i l)); return fields)
      (do change h (role.set (.known j l)); return fields) w v := by
  have hid : Option.Rel (c.base.SameLabel w.store v.store role.kind) (Reference.known i l).id
      (Reference.known j l).id := .some hsame
  refine renumbers_change hr (hr.own.setRole role hid rfl) ?_ ?_ fields <;> intro t <;>
    cases role <;> rfl

theorem renumbers_putTag (hr : Renumbered c h w v)
    (hsame : c.base.SameLabel w.store v.store .tag i j) :
    Tracks (Renumbered c h) (putTag h i) (putTag h j) w v := by
  have hrun := runOn_putTag h i hr.changing
  have hrun' := runOn_putTag h j hr.changing'
  rw [hr.number] at hrun
  rw [hr.number'] at hrun'
  refine tracks_of_runs hrun hrun' (hr.restore (hr.store.addLink hsame) ?_ ?_ _ _)
  · exact (Store.unlogged_addLink c.id i).labels w.store
  · exact (Store.unlogged_addLink c.id j).labels v.store

theorem renumbers_takeTags (hr : Renumbered c h w v) {test : Id → Bool}
    (htest : ∀ i j, c.base.SameLabel w.store v.store .tag i j → test i = test j) :
    Tracks (Renumbered c h) (takeTags h test) (takeTags h test) w v := by
  have hrun := runOn_takeTags h test hr.changing
  have hrun' := runOn_takeTags h test hr.changing'
  rw [hr.number] at hrun
  rw [hr.number'] at hrun'
  refine tracks_of_runs hrun hrun' (hr.restore (hr.store.removeLinks htest) ?_ ?_ _ _)
  · exact (Store.unlogged_removeLinks c.id test).labels w.store
  · exact (Store.unlogged_removeLinks c.id test).labels v.store

/-- An effect does the same in both turns. -/
theorem renumbers_perform (hr : Renumbered c h w v) {effect : Effect}
    (heffect : effect.StandsIn c) :
    Tracks (Renumbered c h) (Direct.perform h effect) (Direct.perform h effect) w v := by
  have hbase : ∀ {kind : LabelKind} {n : Id}, (c.base.labels kind).has n = true →
      c.base.SameLabel w.store v.store kind n n := by
    intro kind n hn
    obtain ⟨l, hl⟩ := Option.isSome_iff_exists.1 hn
    exact Store.sameLabel_of_find? hl
  have hset : ∀ {f : LiveTransaction → LiveTransaction} (fields : List TransactionField),
      (∀ t, (f t).unlabelled = f t.unlabelled ∧ (∀ role : LabelRole, role.get (f t) = role.get t) ∧
        (f t).id = t.id ∧ (f t).account = t.account) →
      Tracks (Renumbered c h) (do change h f; return fields) (do change h f; return fields) w v :=
    fun fields hf => renumbers_edit hr (fun t => (hf t).1) (fun role t => (hf t).2.1 role)
      (fun t => (hf t).2.2.1) (fun t => (hf t).2.2.2) fields
  cases effect with
  | setLabel role n l => exact renumbers_setRole hr role l (hbase heffect) _
  | setNamedLabel role name owner =>
      obtain ⟨rfl, hname⟩ := heffect
      obtain ⟨i, j, l, w', v', hrun, hrun', hr', hsame⟩ :=
        exists_findOrAddLabel hr role.kind hname
      exact tracks_bind_of_ok hrun hrun' (renumbers_setRole hr' role l hsame _)
  | attachTag tag =>
      exact (renumbers_putTag hr (hbase heffect)).bind fun _ w v hr => tracks_pure [] hr
  | attachNamedTag name owner =>
      obtain ⟨rfl, hname⟩ := heffect
      obtain ⟨i, j, l, w', v', hrun, hrun', hr', hsame⟩ := exists_findOrAddLabel hr .tag hname
      refine tracks_bind_of_ok hrun hrun' ?_
      exact (renumbers_putTag hr' hsame).bind fun _ w v hr => tracks_pure [] hr
  | detachTag tag =>
      refine (renumbers_takeTags hr fun i j hsame => ?_).bind fun _ w v hr => tracks_pure [] hr
      obtain ⟨l, hl⟩ := Option.isSome_iff_exists.1 heffect
      rw [Bool.eq_iff_iff, beq_iff_eq, beq_iff_eq, hsame.eq_iff (Table.le_lastId_of_find? hl)]
  | detachAllTags =>
      exact (renumbers_takeTags hr fun _ _ _ => rfl).bind fun _ w v hr => tracks_pure [] hr
  | setDescription words => exact hset _ fun t => ⟨rfl, fun role => by cases role <;> rfl, rfl, rfl⟩
  | setNote words => exact hset _ fun t => ⟨rfl, fun role => by cases role <;> rfl, rfl, rfl⟩
  | setType words => exact hset _ fun t => ⟨rfl, fun role => by cases role <;> rfl, rfl, rfl⟩
  | markReconciled =>
      refine tracks_get_bind ?_
      dsimp only
      rw [hr.now]
      exact hset _ fun t => ⟨rfl, fun role => by cases role <;> rfl, rfl, rfl⟩
  | notify rule message =>
      have hsend : Tracks (Renumbered c h) (sendNotification h rule message)
          (sendNotification h rule message) w v :=
        ⟨rfl, { hr with owned := hr.owned.of_account rfl }⟩
      exact hsend.bind fun _ w v hr => tracks_pure [] hr

/-! ## Actions -/

theorem renumbers_runAction [Host] (hr : Renumbered c h w v) {a : Action} (ha : c.Provides a) :
    Tracks (Renumbered c h) (Direct.runAction a h false) (Direct.runAction a h false) w v := by
  have hdone : ∀ {w v : Workspace} (e e' : Event) (outcome : ActionOutcome), Renumbered c h w v →
      Tracks (Renumbered c h) (do report e; return outcome) (do report e'; return outcome) w v :=
    fun e e' outcome hr => (renumbers_report hr e e').bind fun _ w v hr => tracks_pure outcome hr
  rw [Direct.runAction]
  refine tracks_transaction ?_
  dsimp only
  rcases hkind : (Vocabulary.ofJson? a.kind : Option ActionKind) with _ | kind
  · exact hdone _ _ _ hr
  · refine Tracks.tryCatch ?_ fun failure w v hr => hdone _ _ _ hr
    rw [Direct.attemptAction]
    refine (renumbers_describe hr ha).bind fun description w v hr => ?_
    obtain ⟨planned, hplan, hplan', hstands⟩ := exists_plan hr ha hkind
    have hplanned := tracks_of_runs hplan hplan' hr
    refine hplanned.bind_run fun effect w' v' hrun _ hr => ?_
    cases effect with
    | none => exact tracks_pure _ hr
    | some effect =>
        have heffect : effect.StandsIn c := by
          rw [hplan] at hrun
          exact hstands effect (congrArg Prod.fst hrun)
        exact (renumbers_perform hr heffect).bind fun changes w v hr => tracks_pure _ hr

theorem renumbers_runActions [Host] (hr : Renumbered c h w v) (r : RuleDefinition)
    {actions : List Action} (hactions : ∀ a ∈ actions, c.Provides a) :
    Tracks (Renumbered c h) (Direct.runActions h r false actions)
      (Direct.runActions h r false actions) w v := by
  induction actions generalizing w v with
  | nil => exact tracks_pure [] hr
  | cons a rest ih =>
      rw [Direct.runActions]
      refine (renumbers_runAction hr (hactions a List.mem_cons_self)).bind fun outcome w v hr => ?_
      split
      · refine tracks_transaction ?_
        exact (renumbers_report hr _ _).bind fun _ w v hr => tracks_pure _ hr
      · refine (ih hr fun a ha => hactions a (List.mem_cons_of_mem _ ha)).bind ?_
        exact fun outcomes w v hr => tracks_pure _ hr

/-- A rule has the same outcome in both turns. -/
theorem renumbers_runRule [Host] (hr : Renumbered c h w v) {r : RuleDefinition}
    (hactions : ∀ a ∈ r.actions, c.Provides a) :
    Tracks (Renumbered c h) (Direct.runRule h r false) (Direct.runRule h r false) w v := by
  rw [Direct.runRule]
  refine (renumbers_ruleMatches hr r).bind fun matched w v hr => ?_
  split
  · exact (renumbers_runActions hr r hactions).bind fun outcomes w v hr => tracks_pure _ hr
  · exact tracks_pure _ hr

/-! ## Saving -/

/-- Numbers of which the same fit are refused or not. -/
theorem allFit_congr {ids ids' : List Id}
    (h : List.Forall₂ (fun i j => Column.fits j = Column.fits i) ids ids') :
    (∃ failure, Column.allFit ids = .error failure ∧ Column.allFit ids' = .error failure) ∨
      Column.allFit ids = .ok ids ∧ Column.allFit ids' = .ok ids' := by
  induction h with
  | nil => exact Or.inr ⟨rfl, rfl⟩
  | @cons i j rest rest' hfits _ ih =>
      simp only [Column.allFit, List.mapM_cons, Column.checkFits] at ih ⊢
      rw [hfits]
      split
      · rcases ih with ⟨failure, hrest, hrest'⟩ | ⟨hrest, hrest'⟩
        · exact Or.inl ⟨failure, by rw [hrest]; rfl, by rw [hrest']; rfl⟩
        · exact Or.inr ⟨by rw [hrest]; rfl, by rw [hrest']; rfl⟩
      · exact Or.inl ⟨_, rfl, rfl⟩

/-- What is to be stored is refused in both turns, or it agrees. -/
theorem contentOf_renumbered {s t : Store} {x y : LiveTransaction} (hst : s.Renumbered c t)
    (hxy : x.Renumbered c.base s t y) (fields : List TransactionField) (now : Calendar.Instant) :
    (∃ failure, x.contentOf fields now = .error failure ∧ y.contentOf fields now = .error failure) ∨
      ∃ a b, x.contentOf fields now = .ok a ∧ y.contentOf fields now = .ok b ∧
        a.Renumbered c.base s t b := by
  -- Nothing but the labels differs, and these are looked at when it is checked whether numbers fit.
  obtain ⟨category, merchant, rfl⟩ : ∃ category merchant, y = { x with category, merchant } := by
    refine ⟨y.category, y.merchant, ?_⟩
    have hrest := hxy.rest
    simp only [LiveTransaction.unlabelled, LiveTransaction.mk.injEq] at hrest
    cases x
    cases y
    simp_all
  have hfits : ∀ role : LabelRole, Option.Rel (fun i j => Column.fits j = Column.fits i)
      (role.get x).id (role.get { x with category, merchant }).id :=
    fun role => optionRel_mono (hxy.ids role) fun _ _ hsame => hst.fits_eq hsame
  have hreference : ∀ field, Option.Rel (fun i j => Column.fits j = Column.fits i)
      (x.reference? field) ({ x with category, merchant }.reference? field) := by
    intro field
    cases field with
    | account =>
        change Option.Rel _ x.account.id x.account.id
        cases x.account.id with
        | none => exact .none
        | some n => exact .some rfl
    | category => exact hfits .category
    | merchant => exact hfits .merchant
    | _ => exact .none
  have hallFit := allFit_congr (List.rel_filterMap (R := Eq)
    (by rintro field _ rfl; exact hreference field) (List.forall₂_refl fields))
  unfold LiveTransaction.contentOf
  split
  case' isTrue =>
    rcases storedAmount x.amount with failure | amount
    · exact Or.inl ⟨failure, rfl, rfl⟩
  all_goals
    rcases hallFit with ⟨failure, hrefused, hrefused'⟩ | ⟨hallowed, hallowed'⟩
    · exact Or.inl ⟨failure, by rw [hrefused]; rfl, by rw [hrefused']; rfl⟩
    · rw [hallowed, hallowed']
      rcases filled fields .account x.account.id with failure | account
      · exact Or.inl ⟨failure, rfl, rfl⟩
      · rcases filled fields .type x.type with failure | type
        · exact Or.inl ⟨failure, rfl, rfl⟩
        · refine Or.inr ⟨_, _, rfl, rfl, rfl, fun role => ?_⟩
          cases role with
          | category => exact hxy.ids .category
          | merchant => exact hxy.ids .merchant

/-- Rows that agree are written to the store. -/
theorem Store.Renumbered.updateRow {s t : Store} {a b : Transaction} (hst : s.Renumbered c t)
    (hab : a.Renumbered c.base s t b) (fields : List TransactionField) :
    Store.Renumbered c
      { s with transactions := s.transactions.update c.id (copyFields a fields) }
      { t with transactions := t.transactions.update c.id (copyFields b fields) } := by
  refine hst.of_labels (fun kind => by cases kind <;> rfl) (fun kind => by cases kind <;> rfl) ?_
    hst.tags hst.tags' hst.logs
  rw [Table.find?_update, Table.find?_update, if_pos rfl, if_pos rfl]
  have hrow := hst.row
  generalize s.transactions.find? c.id = row at hrow ⊢
  generalize t.transactions.find? c.id = row' at hrow ⊢
  cases hrow with
  | none => exact .none
  | some hboth => exact .some (hab.copyFields hboth fields)

/-- What is to be stored is refused in both turns, or it agrees. -/
theorem exists_prepareSaving (hr : Renumbered c h w v) (fields : List TransactionField) :
    ∃ u u', Renumbered c h u u' ∧
      ((∃ failure, (prepareSaving h fields).runOn w = (.error failure, u) ∧
          (prepareSaving h fields).runOn v = (.error failure, u')) ∨
        ∃ a b, (prepareSaving h fields).runOn w = (.ok a, u) ∧
          (prepareSaving h fields).runOn v = (.ok b, u') ∧
          a.Renumbered c.base u.store u'.store b) := by
  have hown : { w.transaction h with updatedAt := some w.now }.Renumbered c.base w.store v.store
      { v.transaction h with updatedAt := some v.now } := by
    have hedit := hr.own.edit (f := fun t => { t with updatedAt := some w.now }) (fun _ => rfl)
      fun role _ => by cases role <;> rfl
    rw [hr.now]
    exact hedit
  have hstamped := hr.change (f := fun t => { t with updatedAt := some w.now })
    (g := fun t => { t with updatedAt := some v.now }) hown (fun _ => rfl) fun _ => rfl
  refine ⟨_, _, hstamped, ?_⟩
  rw [runOn_prepareSaving, runOn_prepareSaving]
  rcases contentOf_renumbered hstamped.store hstamped.own fields w.now with
    ⟨failure, hrefused, hrefused'⟩ | ⟨a, b, hcontent, hcontent', hab⟩
  · rw [← hr.now] at hrefused'
    exact Or.inl ⟨failure, congrArg (·, _) hrefused, congrArg (·, _) hrefused'⟩
  · rw [← hr.now] at hcontent'
    exact Or.inr ⟨a, b, congrArg (·, _) hcontent, congrArg (·, _) hcontent', hab⟩

theorem renumbers_saveFields (hr : Renumbered c h w v) (fields : List TransactionField) :
    Tracks (Renumbered c h) (saveFields h fields) (saveFields h fields) w v := by
  rw [saveFields]
  refine tracks_transaction ?_
  rw [hr.number, hr.number']
  obtain ⟨u, u', hu, ⟨failure, hrun, hrun'⟩ | ⟨a, b, hrun, hrun', hab⟩⟩ :=
    exists_prepareSaving hr fields
  · exact (tracks_of_runs hrun hrun' hu).bind_run fun _ _ _ hok => by cases hrun.symm.trans hok
  · refine tracks_bind_of_ok hrun hrun' ?_
    have hhas : u'.store.transactions.has c.id = u.store.transactions.has c.id := by
      have hrow := hu.store.row
      rw [Table.has, Table.has]
      generalize u.store.transactions.find? c.id = row at hrow ⊢
      generalize u'.store.transactions.find? c.id = row' at hrow ⊢
      cases hrow <;> rfl
    have hgrows : ∀ (s : Store) (a : Transaction) kind, (s.labels kind).Grows
        (({ s with transactions := s.transactions.update c.id (copyFields a fields) } :
          Store).labels kind) :=
      fun s a => (Store.unlogged_updateTransaction c.id (copyFields a fields)).labels s
    by_cases hrow : u.store.transactions.has c.id = true
    · refine ⟨?_, ?_⟩ <;> rw [runOn_writeResult_of_changing _ hu.changing,
        runOn_writeResult_of_changing _ hu.changing', hhas, if_pos hrow, if_pos hrow]
      exact hu.restore (hu.store.updateRow hab fields) (hgrows _ a) (hgrows _ b) _ _
    · refine ⟨?_, ?_⟩ <;> rw [runOn_writeResult_of_changing _ hu.changing,
        runOn_writeResult_of_changing _ hu.changing', hhas, if_neg hrow, if_neg hrow]
      exact hu

theorem renumbers_persistChanges (hr : Renumbered c h w v) (summary : TransactionSummary) :
    Tracks (Renumbered c h) (persistChanges h summary) (persistChanges h summary) w v := by
  rw [persistChanges]
  split
  · exact tracks_pure () hr
  · exact renumbers_saveFields hr _

namespace Engine

variable {e : Engine} {trigger : Trigger} {log : Bool}

/-- What was changed is saved in both turns. -/
theorem renumbers_tellObserver (hsaves : e.observer = some persistChanges)
    (hr : Renumbered c h w v) (summary : TransactionSummary) :
    Tracks (Renumbered c h) (e.tellObserver h summary false) (e.tellObserver h summary false)
      w v := by
  rw [tellObserver, hsaves]
  exact renumbers_persistChanges hr summary

/-! ## Rules -/

/-- The same log is added to both stores. -/
theorem renumbers_logOutcome (he : e.failingLog = none) (hr : Renumbered c h w v)
    (outcome : RuleOutcome) :
    Tracks (Renumbered c h) (e.logOutcome h outcome trigger false)
      (e.logOutcome h outcome trigger false) w v := by
  have hwrite : ∀ entry : Log,
      Tracks (Renumbered c h) (e.writeLog entry) (e.writeLog entry) w v := by
    intro entry
    have hrun : ∀ u : Workspace, u.isChanging = true → (e.writeLog entry).runOn u =
        (.ok (), { u with
          logWrites := u.logWrites + 1
          store := { u.store with logs := u.store.logs.insert entry } }) := by
      intro u hu
      rw [runOn_writeLog e entry hu, he, if_neg (Option.some_ne_none _).symm]
    refine tracks_of_runs (hrun w hr.changing) (hrun v hr.changing') ?_
    have hlogged : Store.Renumbered c { w.store with logs := w.store.logs.insert entry }
        { v.store with logs := v.store.logs.insert entry } := by
      obtain ⟨added, hadded, hadded'⟩ := hr.store.logs
      refine hr.store.of_labels (fun kind => by cases kind <;> rfl)
        (fun kind => by cases kind <;> rfl) hr.store.row hr.store.tags hr.store.tags'
        ⟨added ++ [entry], ?_, ?_⟩ <;> rw [Table.insertAll_append]
      · rw [← hadded]
        rfl
      · rw [← hadded']
        rfl
    have hwritten := hr.restore hlogged (fun kind => ?_) (fun kind => ?_) w.events v.events
    · exact { hwritten with owned := hwritten.owned.of_account rfl }
    · cases kind <;> exact Std.Refl.refl _
    · cases kind <;> exact Std.Refl.refl _
  rw [logOutcome]
  refine tracks_transaction ?_
  rw [hr.number, hr.number']
  split
  · split
    · refine tracks_get_bind ?_
      rw [hr.now]
      exact hwrite _
    · exact tracks_pure () hr
  · exact tracks_pure () hr

/-- Rules have the same outcomes in both turns. -/
theorem renumbers_runRules [Host] (he : e.failingLog = none) (hr : Renumbered c h w v)
    {rules : List RuleDefinition} (hactions : ∀ r ∈ rules, ∀ a ∈ r.actions, c.Provides a) :
    Tracks (Renumbered c h) (Direct.runRules e h trigger false log rules)
      (Direct.runRules e h trigger false log rules) w v := by
  induction rules generalizing w v with
  | nil => exact tracks_pure [] hr
  | cons r rest ih =>
      rw [direct_runRules_cons]
      refine (renumbers_runRule hr (hactions r List.mem_cons_self)).bind fun outcome w v hr =>
        Tracks.bind ?_ fun _ w v hr => ?_
      · split
        · exact renumbers_logOutcome he hr outcome
        · exact tracks_pure () hr
      · split
        · exact tracks_pure _ hr
        · refine (ih hr fun r hr => hactions r (List.mem_cons_of_mem _ hr)).bind ?_
          exact fun outcomes w v hr => tracks_pure _ hr

end Engine

/-! ## Turns -/

/-- The turn of a transaction begins in both workspaces.  It has the same fields in both, and its
labels are of the base. -/
structure Workspace.Begins (c : Renumbering) (h : Handle) (w v : Workspace) : Prop where
  changing : w.isChanging = true
  changing' : v.isChanging = true
  now : v.now = w.now
  accounts : v.store.accounts = w.store.accounts
  transaction : v.transaction h = w.transaction h
  number : (w.transaction h).id = some c.id
  known : ∀ (role : LabelRole) n, (role.get (w.transaction h)).id = some n →
    n ≤ (c.base.labels role.kind).lastId
  store : w.store.Renumbered c v.store

/-- The caches do not matter. -/
theorem Workspace.Begins.withCaches (hb : Begins c h w v) (fields : FieldCache)
    (labels : LabelCache) : Begins c h (w.withCaches fields labels) (v.withCaches fields labels) :=
  ⟨hb.changing, hb.changing', hb.now, hb.accounts, hb.transaction, hb.number, hb.known, hb.store⟩

/-- The account is looked up in both turns, and afterwards the transaction has the same fields. -/
theorem exists_ownerOf (hb : Begins c h w v) :
    ∃ r w' v', (ownerOf h).runOn w = (r, w') ∧ (ownerOf h).runOn v = (r, v') ∧
      Begins c h w' v' := by
  have hfind : findAccount v.store = findAccount w.store := by
    funext id
    rw [findAccount, hb.accounts, findAccount]
  rw [ownerOf, runOn_bind, runOn_bind, runOn_transaction, runOn_transaction]
  dsimp only
  rw [hb.transaction]
  split
  · rw [runOn_bind, runOn_bind, runOn_accountOf, runOn_accountOf, hb.transaction, hfind]
    rcases (w.transaction h).account.resolve (findAccount w.store) with _ | r
    · exact ⟨_, _, _, rfl, rfl, hb⟩
    · refine ⟨_, _, _, rfl, rfl, ?_⟩
      have hlive := transaction_update_self (live_has_of_id hb.number)
        fun t => { t with account := r }
      have hlive' := transaction_update_self
        (live_has_of_id ((congrArg LiveTransaction.id hb.transaction).trans hb.number))
        fun t => { t with account := r }
      refine { hb with transaction := ?_, number := ?_, known := fun role n hn => ?_ }
      · rw [hlive, hlive', hb.transaction]
      · rw [hlive]
        exact hb.number
      · rw [hlive] at hn
        refine hb.known role n ?_
        cases role <;> exact hn
  · exact ⟨_, _, _, rfl, rfl, hb⟩

/-- Once the user is known to be the owner, the transaction of the user is worked on. -/
theorem Workspace.Begins.renumbered (hb : Begins c h w v) (howned : w.OwnedBy h c.user) :
    Renumbered c h w v where
  changing := hb.changing
  changing' := hb.changing'
  now := hb.now
  owned := howned
  number := hb.number
  own := by
    rw [hb.transaction]
    refine ⟨rfl, fun role => ?_, fun _ => rfl⟩
    have hknown := hb.known role
    generalize (role.get (w.transaction h)).id = n at hknown ⊢
    cases n with
    | none => exact .none
    | some n => exact .some (Store.sameLabel_of_le (hknown n rfl))
  store := hb.store

/-- The rules for a transaction have the same outcomes in both turns, and the stores agree in the
end. -/
theorem Engine.renumbers_runTransaction [Host] {e : Engine} {trigger : Trigger} {log : Bool}
    (he : e.failingLog = none) (hsaves : e.observer = some persistChanges) (huser : e.user = c.user)
    (hb : Begins c h w v) {rules : List RuleDefinition}
    (hactions : ∀ r ∈ rules, ∀ a ∈ r.actions, c.Provides a) :
    Tracks (fun w v => w.store.Renumbered c v.store)
      (Direct.runTransaction e h rules trigger false log)
      (Direct.runTransaction e h rules trigger false log) w v := by
  rw [direct_runTransaction_eq]
  refine tracks_transaction ?_
  rw [hb.transaction]
  obtain ⟨r, w', v', hrun, hrun', hb'⟩ := exists_ownerOf hb
  rcases r with failure | owner
  · refine ⟨?_, ?_⟩ <;> rw [runOn_bind, runOn_bind, hrun, hrun']
    exact hb'.store
  · refine tracks_bind_of_ok hrun hrun' ?_
    by_cases howner : owner = some e.user
    · subst howner
      rw [if_neg (not_not.2 rfl)]
      have hr := hb'.renumbered (huser ▸ ownedBy_of_ownerOf hrun)
      refine Tracks.mono (R := Renumbered c h) ?_ fun _ _ hr => hr.store
      refine (tracks_pure () hr).bind fun _ w v hr => ?_
      refine (renumbers_runRules he hr hactions).bind fun outcomes w v hr => ?_
      exact (renumbers_tellObserver hsaves hr _).bind fun _ w v hr => tracks_pure _ hr
    · rw [if_pos howner]
      exact ⟨rfl, hb'.store⟩

end

end Rulebook
