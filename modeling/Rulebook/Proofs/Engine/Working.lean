import Rulebook.Proofs.Engine.Looking
import Rulebook.Service.Running

/-!
# Working on one transaction

Carrying out effects, writing logs and saving change more than looking does, but only around the
transaction at hand.  `Workspace.Works` is the frame condition of all that is done for one
transaction of a run.  How the logs may change is a parameter: it is equality for everything but the
writing of logs.

Failures need care in two places.  Effects are carried out within a larger change, where they
cannot fail (`succeeds_perform`); hence an action that fails has only looked
(`looks_runAction_failed`).  And a change that fails as a whole leaves the store of its beginning
but not the transaction in memory, so `atomically` keeps the frame condition and nothing stronger.

## Main definitions

* `Workspace.steady` — the parts of the workspace that no work changes.
* `Workspace.Works` — the frame condition.
-/

namespace Rulebook

open Program Workspace

/-! ## The frame condition -/

/-- Logs that may have changed in any way. -/
abbrev AnyLogs : Table Log → Table Log → Prop := fun _ _ => True

instance : IsPreorder (Table Log) AnyLogs where
  refl _ := trivial
  trans _ _ _ _ _ := trivial

namespace Workspace

/-- The workspace without the parts that work on a transaction may change. -/
def steady (w : Workspace) : Workspace :=
  { w with
    store := {}
    live := {}
    fields := {}
    labels := []
    events := []
    notifications := []
    receivers := []
    observed := []
    logWrites := 0 }

/-- The later workspace is the earlier one after work on a transaction. -/
structure Works (L : Table Log → Table Log → Prop) (h : Handle) (w v : Workspace) : Prop where
  steady : v.steady = w.steady
  handles : v.live.ids = w.live.ids
  others : ∀ k, k ≠ h → v.transaction k = w.transaction k
  ownId : (v.transaction h).id = (w.transaction h).id
  entries : KeepsEntries (w.transaction h).id w.fields v.fields
  store : Store.WorkedOn L (w.transaction h).id w.store v.store

namespace Works

variable {L : Table Log → Table Log → Prop} {h : Handle} {w v u : Workspace}

theorem now (hw : Works L h w v) : v.now = w.now := by
  have hnow := congrArg Workspace.now hw.steady
  exact hnow

theorem isChanging (hw : Works L h w v) : v.isChanging = w.isChanging := by
  have hchanging := congrArg Workspace.isChanging hw.steady
  exact hchanging

theorem settings (hw : Works L h w v) : v.settings = w.settings := by
  have hsettings := congrArg Workspace.settings hw.steady
  exact hsettings

theorem has_live (hw : Works L h w v) (k : Handle) : v.live.has k = w.live.has k :=
  Table.has_congr hw.handles k

/-- The numbers of all transactions in memory stay. -/
theorem id_eq (hw : Works L h w v) (k : Handle) : (v.transaction k).id = (w.transaction k).id := by
  by_cases hk : k = h
  · rw [hk, hw.ownId]
  · rw [hw.others k hk]

theorem mono {M : Table Log → Table Log → Prop} (hw : Works L h w v)
    (hLM : ∀ a b, L a b → M a b) : Works M h w v :=
  { hw with store := hw.store.mono hLM }

/-- Where the logs are the same in the end, nothing was logged. -/
theorem unlogged (hw : Works L h w v) (hlogs : v.store.logs = w.store.logs) : Works Eq h w v :=
  { hw with store := { hw.store with logs := hlogs.symm } }

variable [IsPreorder (Table Log) L]

instance (h : Handle) : IsPreorder Workspace (Works L h) where
  refl _ := ⟨rfl, rfl, fun _ _ => rfl, rfl, fun _ _ _ => rfl, Std.Refl.refl _⟩
  trans w v u hwv hvu :=
    { steady := hvu.steady.trans hwv.steady
      handles := hvu.handles.trans hwv.handles
      others := fun k hk => (hvu.others k hk).trans (hwv.others k hk)
      ownId := hvu.ownId.trans hwv.ownId
      entries := by
        intro n field hn
        rw [← hwv.ownId] at hn
        rw [hvu.entries n field hn]
        rw [hwv.ownId] at hn
        exact hwv.entries n field hn
      store := by
        have hstore := hvu.store
        rw [hwv.ownId] at hstore
        exact IsTrans.trans _ _ _ hwv.store hstore }

theorem trans (hwv : Works L h w v) (hvu : Works L h v u) : Works L h w u :=
  IsTrans.trans _ _ _ hwv hvu

end Works

end Workspace

/-! ## Effects within a larger change -/

variable [Host]

section Changing

variable {h : Handle} {w v : Workspace}

omit [Host] in
theorem runOn_writeResult_of_changing {α : Type} (change : Store → Except Failure (α × Store))
    (hw : w.isChanging = true) :
    (writeResult change).runOn w =
      match change w.store with
      | .ok (a, store) => (.ok a, { w with store })
      | .error failure => (.error failure, w) := by
  rw [runOn_writeResult]
  rcases change w.store with failure | ⟨a, s⟩
  · rfl
  · have hkept : (w.isChanging || s.referencesHold) = true := by
      rw [hw]
      rfl
    exact if_pos hkept

omit [Host] in
theorem runOn_write (change : Store → Store) (hw : w.isChanging = true) :
    (write change).runOn w = (.ok (), { w with store := change w.store }) :=
  runOn_writeResult_of_changing _ hw

omit [Host] in
theorem runOn_findOrAddLabel (kind : LabelKind) (name : String) (owner : Id)
    (hw : w.isChanging = true) :
    (findOrAddLabel kind name owner).runOn w =
      match w.store.labelNamed? kind owner name with
      | some (id, label) =>
        (.ok (id, label), { w with labels := ((kind, id), some label) :: w.labels })
      | none =>
        let label : Label := ⟨owner, name, createdDescription, none⟩
        let id := (w.store.labels kind).nextId
        (.ok (id, label),
          { w with
            store := w.store.setLabels ((w.store.labels kind).insert label) kind
            labels := ((kind, id), some label) :: w.labels
            events := .labelCreated kind id name owner :: w.events }) := by
  rw [findOrAddLabel, runOn_bind, runOn_get]
  dsimp only
  rcases hnamed : w.store.labelNamed? kind owner name with _ | ⟨id, label⟩
  · dsimp only
    rw [runOn_bind, runOn_writeResult, Store.addLabel]
    simp only [hnamed, hw, Option.isSome_none, Bool.false_eq_true, if_false, Bool.true_or, if_true]
    rfl
  · rfl

omit [Host] in
/-- A label that was found or added is remembered as it is stored. -/
theorem labelsAgree_findOrAddLabel (hl : w.LabelsAgree) (kind : LabelKind) (name : String)
    (owner : Id) (hw : w.isChanging = true) :
    ((findOrAddLabel kind name owner).runOn w).2.LabelsAgree := by
  rw [runOn_findOrAddLabel kind name owner hw]
  split
  · next id label hnamed =>
    have hfind := Table.find?_eq_some_of_mem (List.mem_of_find?_eq_some hnamed)
    have hcons := labelsAgree_cons hl kind id
    rw [hfind] at hcons
    exact hcons
  · intro other n found hfound
    dsimp only at hfound ⊢
    rw [List.lookup_cons] at hfound
    split at hfound
    · next heq =>
      cases eq_of_beq heq
      cases hfound
      rw [Store.labels_setLabels, Table.find?_insert, if_pos rfl]
    · next hne =>
      rw [← hl other n found hfound]
      by_cases hkind : other = kind
      · subst hkind
        rw [Store.labels_setLabels, Table.find?_insert, if_neg]
        rintro rfl
        simp at hne
      · rw [Store.labels_setLabels_of_ne hkind]

omit [Host] in
theorem runOn_putTag (h : Handle) (tag : Id) (hw : w.isChanging = true) :
    (putTag h tag).runOn w =
      match (w.transaction h).id with
      | some id => (.ok (), { w with store := w.store.addLink id tag })
      | none => (.ok (), w) := by
  rw [putTag, runOn_bind, runOn_transaction]
  dsimp only
  cases (w.transaction h).id with
  | none => rfl
  | some id => exact runOn_write _ hw

omit [Host] in
theorem runOn_takeTags (h : Handle) (test : Id → Bool) (hw : w.isChanging = true) :
    (takeTags h test).runOn w =
      match (w.transaction h).id with
      | some id =>
        (.ok (),
          { w with
            store := { w.store with
              links := w.store.links.remove fun _ l => l.transaction = id && test l.tag } })
      | none => (.ok (), w) := by
  rw [takeTags, runOn_bind, runOn_transaction]
  dsimp only
  cases (w.transaction h).id with
  | none => rfl
  | some id => exact runOn_write _ hw

/-! ### What cannot fail -/

omit [Host] in
theorem succeeds_change (h : Handle) (f : LiveTransaction → LiveTransaction) :
    Succeeds (·.isChanging = true) (change h f) := fun _ hw => ⟨_, _, rfl, hw⟩

omit [Host] in
theorem succeeds_putTag (h : Handle) (tag : Id) :
    Succeeds (·.isChanging = true) (putTag h tag) := by
  intro w hw
  rw [runOn_putTag h tag hw]
  split
  · exact ⟨_, _, rfl, hw⟩
  · exact ⟨_, _, rfl, hw⟩

omit [Host] in
theorem succeeds_takeTags (h : Handle) (test : Id → Bool) :
    Succeeds (·.isChanging = true) (takeTags h test) := by
  intro w hw
  rw [runOn_takeTags h test hw]
  split
  · exact ⟨_, _, rfl, hw⟩
  · exact ⟨_, _, rfl, hw⟩

omit [Host] in
theorem succeeds_findOrAddLabel (kind : LabelKind) (name : String) (owner : Id) :
    Succeeds (·.isChanging = true) (findOrAddLabel kind name owner) := by
  intro w hw
  rw [runOn_findOrAddLabel kind name owner hw]
  split
  · exact ⟨_, _, rfl, hw⟩
  · exact ⟨_, _, rfl, hw⟩

omit [Host] in
/-- Within a larger change an effect can be carried out. -/
theorem succeeds_perform (h : Handle) (effect : Effect) :
    Succeeds (·.isChanging = true) (effect.perform h) := by
  have hchange : ∀ (f : LiveTransaction → LiveTransaction) (fields : List TransactionField),
      Succeeds (·.isChanging = true) (do change h f; return fields) :=
    fun f fields => (succeeds_change h f).bind fun _ => succeeds_pure fields
  cases effect with
  | setLabel role id label => exact hchange _ _
  | setNamedLabel role name owner =>
      exact (succeeds_findOrAddLabel role.kind name owner).bind fun label => hchange _ _
  | attachTag tag => exact (succeeds_putTag h tag).bind fun _ => succeeds_pure []
  | attachNamedTag name owner =>
      refine (succeeds_findOrAddLabel .tag name owner).bind fun label => ?_
      exact (succeeds_putTag h label.1).bind fun _ => succeeds_pure []
  | detachTag tag => exact (succeeds_takeTags h _).bind fun _ => succeeds_pure []
  | detachAllTags => exact (succeeds_takeTags h _).bind fun _ => succeeds_pure []
  | setDescription words => exact hchange _ _
  | setNote words => exact hchange _ _
  | setType words => exact hchange _ _
  | markReconciled => exact succeeds_get.bind fun w => hchange _ _
  | notify rule message =>
      have hsend : Succeeds (·.isChanging = true) (sendNotification h rule message) :=
        fun _ hw => ⟨_, _, rfl, hw⟩
      exact hsend.bind fun _ => succeeds_pure []

omit [Host] in
theorem succeeds_transaction (h : Handle) : Succeeds (fun _ => True) (transaction h) :=
  fun w _ => ⟨_, w, rfl, trivial⟩

omit [Host] in
theorem succeeds_report (e : Event) : Succeeds (fun _ => True) (report e) :=
  fun _ _ => ⟨_, _, rfl, trivial⟩

/-- Running an action always gives an outcome. -/
theorem succeeds_runAction (a : Action) (h : Handle) (dryRun : Bool) :
    Succeeds (fun _ => True) (runAction a h dryRun) := by
  rw [runAction]
  refine (succeeds_transaction h).bind fun t => ?_
  dsimp only
  rcases (Vocabulary.ofJson? a.kind : Option ActionKind) with _ | kind
  · exact (succeeds_report _).bind fun _ => succeeds_pure _
  · refine succeeds_tryCatch (fun _ _ => trivial) fun failure => ?_
    exact (succeeds_report _).bind fun _ => succeeds_pure _

theorem succeeds_runActions (h : Handle) (r : RuleDefinition) (dryRun : Bool)
    (actions : List Action) :
    Succeeds (fun _ => True) (Engine.runActions h r dryRun actions) := by
  induction actions with
  | nil => exact succeeds_pure []
  | cons a rest ih =>
      rw [Engine.runActions]
      refine (succeeds_runAction a h dryRun).bind fun outcome => ?_
      split
      · refine (succeeds_transaction h).bind fun t => ?_
        exact (succeeds_report _).bind fun _ => succeeds_pure _
      · exact ih.bind fun outcomes => succeeds_pure _

/-! ### Actions that fail -/

/-- Within a larger change an action that fails has only looked. -/
theorem looks_runAction_failed {a : Action} {outcome : ActionOutcome}
    (hw : w.isChanging = true) (hrun : (runAction a h false).runOn w = (.ok outcome, v))
    (hfailed : outcome.succeeded = false) : Looks h w v := by
  rw [runAction, runOn_bind, runOn_transaction] at hrun
  dsimp only at hrun
  split at hrun
  · cases hrun
    exact looks_report _ w
  · next kind _ =>
    have hdescribe := looks_describe (h := h) a w
    rw [runOn_tryCatch, attemptAction, runOn_bind] at hrun
    rcases hfirst : (describe a).runOn w with ⟨failure | description, w₁⟩ <;>
      rw [hfirst] at hrun hdescribe <;> dsimp only at hrun hdescribe
    · cases hrun
      exact hdescribe.trans (looks_report _ w₁)
    · have hplan := looks_plan kind a h w₁
      rw [runOn_bind] at hrun
      rcases hsecond : (plan kind a h).runOn w₁ with ⟨failure | effect, w₂⟩ <;>
        rw [hsecond] at hrun hplan <;> dsimp only at hrun hplan
      · cases hrun
        exact (hdescribe.trans hplan).trans (looks_report _ w₂)
      · cases effect with
        | none =>
            cases hrun
            exact hdescribe.trans hplan
        | some effect =>
            -- Once there is an effect the action succeeds, against the assumption.
            have hw₂ : w₂.isChanging = true := by
              rw [hplan.isChanging, hdescribe.isChanging, hw]
            obtain ⟨changes, w₃, hperform, -⟩ := succeeds_perform h effect w₂ hw₂
            simp only [Bool.false_eq_true, if_false, runOn_bind, hperform] at hrun
            cases hrun
            cases hfailed

/-- Actions none of which succeeds have only looked. -/
theorem looks_runActions_failed {r : RuleDefinition} {actions : List Action}
    {outcomes : List ActionOutcome} (hw : w.isChanging = true)
    (hrun : (Engine.runActions h r false actions).runOn w = (.ok outcomes, v))
    (hfailed : outcomes.any (·.succeeded) = false) : Looks h w v := by
  induction actions generalizing w outcomes with
  | nil =>
      cases hrun
      exact Std.Refl.refl _
  | cons a rest ih =>
      obtain ⟨outcome, u, hfirst, -⟩ := succeeds_runAction a h false w trivial
      rw [Engine.runActions, runOn_bind, hfirst] at hrun
      dsimp only at hrun
      split at hrun
      · cases hrun
        rw [List.any_cons, List.any_nil, Bool.or_false] at hfailed
        exact (looks_runAction_failed hw hfirst hfailed).trans (looks_report _ u)
      · obtain ⟨later, x, hlater, -⟩ := succeeds_runActions h r false rest u trivial
        rw [runOn_bind, hlater] at hrun
        cases hrun
        rw [List.any_cons, Bool.or_eq_false_iff] at hfailed
        have hlooks := looks_runAction_failed hw hfirst hfailed.1
        exact hlooks.trans (ih (hlooks.isChanging.trans hw) hlater hfailed.2)

end Changing

section Frame

variable {L : Table Log → Table Log → Prop} [IsPreorder (Table Log) L] {h : Handle}
  {w v : Workspace}

omit [Host] in
/-- Looking is work. -/
theorem Workspace.Looks.works (hl : Looks h w v) : Works L h w v where
  steady := by
    have hsteady := congrArg Workspace.steady hl.still
    exact hsteady
  handles := hl.handles
  others := hl.others
  ownId := hl.own.id_eq
  entries := hl.entries
  store := by
    rw [hl.store]
    exact Std.Refl.refl _

omit [Host] in
theorem works_of_looks {α : Type} {x : Operation α} (hx : Keeps (Looks h) x) :
    Keeps (Works L h) x := hx.mono fun _ _ hl => hl.works

omit [Host] in
/-- Changing the transaction at hand, but not its number, is work. -/
theorem works_change {f : LiveTransaction → LiveTransaction}
    (hf : (f (w.transaction h)).id = (w.transaction h).id) :
    Works L h w { w with live := w.live.update h f } := by
  refine ⟨rfl, Table.ids_update _ _ _, fun k hk => transaction_update_of_ne hk f, ?_,
    fun _ _ _ => rfl, Std.Refl.refl _⟩
  by_cases hlive : w.live.has h = true
  · rw [transaction_update_self hlive]
    exact hf
  · rw [Table.update_of_not_has (Bool.not_eq_true _ ▸ hlive)]

omit [IsPreorder (Table Log) L] in
omit [Host] in
theorem works_store {s : Store} (hs : Store.WorkedOn L (w.transaction h).id w.store s) :
    Works L h w { w with store := s } :=
  ⟨rfl, rfl, fun _ _ => rfl, rfl, fun _ _ _ => rfl, hs⟩

omit [Host] in
theorem works_writeResult {α : Type} {change : Store → Except Failure (α × Store)}
    (hchange : ∀ a s, change w.store = .ok (a, s) →
      Store.WorkedOn L (w.transaction h).id w.store s) :
    Works L h w ((writeResult change).runOn w).2 := by
  rw [runOn_writeResult]
  split
  · next a s hrun =>
    split
    · exact works_store (hchange a s hrun)
    · exact Std.Refl.refl w
  · exact Std.Refl.refl w

omit [Host] in
theorem works_write {change : Store → Store}
    (hchange : Store.WorkedOn L (w.transaction h).id w.store (change w.store)) :
    Works L h w ((write change).runOn w).2 := by
  refine works_writeResult fun _ s hs => ?_
  cases hs
  exact hchange

omit [Host] in
/-- What fails as a whole leaves at least the store as it was. -/
theorem works_atomically {α : Type} {x : Operation α} (hx : Keeps (Works L h) x) :
    Keeps (Works L h) (atomically x) := by
  intro w
  have hinside : Works L h { w with isChanging := true }
      (x.runOn { w with isChanging := true }).2 :=
    hx _
  have hsteady :=
    congrArg (fun v : Workspace => { v with isChanging := w.isChanging }) hinside.steady
  have hback : Works L h w { (x.runOn { w with isChanging := true }).2 with
      isChanging := w.isChanging, store := w.store } :=
    ⟨hsteady, hinside.handles, hinside.others, hinside.ownId, hinside.entries, Std.Refl.refl _⟩
  rw [runOn_atomically, settle.eq_def]
  split
  · split
    · exact { hback with store := hinside.store }
    · exact hback
  · exact hback

omit [IsPreorder (Table Log) L] in
omit [Host] in
theorem gives_atomically {α : Type} {P : α → Prop} {x : Operation α} (hx : Gives P x) :
    Gives P (atomically x) := by
  intro w a v hrun
  rw [runOn_atomically] at hrun
  rcases hinside : x.runOn { w with isChanging := true } with ⟨failure | b, u⟩ <;>
    rw [hinside] at hrun <;> dsimp only [settle] at hrun
  · cases hrun
  · split at hrun
    · cases hrun
      exact hx _ _ _ hinside
    · cases hrun

/-! ## Effects -/

omit [Host] in
theorem works_findOrAddLabel (kind : LabelKind) (name : String) (owner : Id) :
    Keeps (Works L h) (findOrAddLabel kind name owner) := by
  rw [findOrAddLabel]
  refine Keeps.bind keeps_get fun w => ?_
  have hcache : ∀ labels : Workspace → LabelCache,
      Keeps (Works L h) (modify fun w => { w with labels := labels w }) := fun labels v =>
    ⟨rfl, rfl, fun _ _ => rfl, rfl, fun _ _ _ => rfl, Std.Refl.refl _⟩
  split
  · exact (keeps_pure _).bind fun found => (hcache _).bind fun _ => keeps_pure _
  · dsimp only
    refine Keeps.bind ?_ fun id => ?_
    · exact fun v => works_writeResult fun _ _ hadd => Store.workedOn_addLabel hadd
    · refine Keeps.bind (works_of_looks (looks_report _)) fun _ => ?_
      exact (keeps_pure _).bind fun found => (hcache _).bind fun _ => keeps_pure _

omit [Host] in
theorem works_putTag (h : Handle) (tag : Id) : Keeps (Works L h) (putTag h tag) := by
  intro w
  rw [putTag, runOn_bind, runOn_transaction]
  dsimp only
  split
  · next id hid =>
    refine works_write ?_
    rw [hid]
    exact Store.workedOn_addLink _ id tag
  · exact Std.Refl.refl w

omit [Host] in
theorem works_takeTags (h : Handle) (test : Id → Bool) : Keeps (Works L h) (takeTags h test) := by
  intro w
  rw [takeTags, runOn_bind, runOn_transaction]
  dsimp only
  split
  · next id hid =>
    refine works_write ?_
    rw [hid]
    exact Store.workedOn_removeLinks _ id test
  · exact Std.Refl.refl w

omit [Host] in
theorem works_sendNotification (h : Handle) (rule : Option Id) (message : String) :
    Keeps (Works L h) (sendNotification h rule message) := fun _ =>
  ⟨rfl, rfl, fun _ _ => rfl, rfl, fun _ _ _ => rfl, Std.Refl.refl _⟩

omit [Host] in
theorem works_perform (h : Handle) (effect : Effect) : Keeps (Works L h) (effect.perform h) := by
  have hchange : ∀ {f : LiveTransaction → LiveTransaction} {fields : List TransactionField},
      (∀ t, (f t).id = t.id) → Keeps (Works L h) (do change h f; return fields) := by
    intro f fields hf
    exact Keeps.bind (fun w => works_change (hf _)) fun _ => keeps_pure fields
  have hset : ∀ (role : LabelRole) (reference : Reference Label) (t : LiveTransaction),
      (role.set reference t).id = t.id := by
    intro role reference t
    cases role <;> rfl
  cases effect with
  | setLabel role id label => exact hchange (hset role _)
  | setNamedLabel role name owner =>
      exact (works_findOrAddLabel _ name owner).bind fun label => hchange (hset role _)
  | attachTag tag => exact (works_putTag h tag).bind fun _ => keeps_pure _
  | attachNamedTag name owner =>
      refine (works_findOrAddLabel _ name owner).bind fun label => ?_
      exact (works_putTag h label.1).bind fun _ => keeps_pure _
  | detachTag tag => exact (works_takeTags h _).bind fun _ => keeps_pure _
  | detachAllTags => exact (works_takeTags h _).bind fun _ => keeps_pure _
  | setDescription s => exact hchange fun _ => rfl
  | setNote s => exact hchange fun _ => rfl
  | setType s => exact hchange fun _ => rfl
  | markReconciled => exact Keeps.bind keeps_get fun w => hchange fun _ => rfl
  | notify rule message => exact (works_sendNotification h rule message).bind fun _ => keeps_pure _

/-! ## Rules -/

section Parts

omit [IsPreorder (Table Log) L]

variable {R : Workspace → Workspace → Prop} [IsPreorder Workspace R]
  (hlooks : ∀ w v, Looks h w v → R w v)

include hlooks

/-- An action keeps whatever looking and carrying out effects keep. -/
theorem keeps_runAction (hperform : ∀ effect : Effect, Keeps R (effect.perform h)) (a : Action)
    (dryRun : Bool) : Keeps R (runAction a h dryRun) := by
  have hreport : ∀ e, Keeps R (report e) := fun e => (looks_report e).mono hlooks
  rw [runAction]
  refine ((looks_transaction h).mono hlooks).bind fun t => ?_
  dsimp only
  split
  · exact (hreport _).bind fun _ => keeps_pure _
  · next kind _ =>
    refine Keeps.tryCatch ?_ fun _ => (hreport _).bind fun _ => keeps_pure _
    rw [attemptAction]
    refine ((looks_describe a).mono hlooks).bind fun description => ?_
    refine ((looks_plan kind a h).mono hlooks).bind fun effect => ?_
    cases effect with
    | none => exact keeps_pure _
    | some effect =>
        dsimp only
        split
        · exact (keeps_pure []).bind fun changes => keeps_pure _
        · exact (hperform effect).bind fun changes => keeps_pure _

namespace Engine

variable {dryRun : Bool} (haction : ∀ a, Keeps R (runAction a h dryRun))

include haction

theorem keeps_runActions (r : RuleDefinition) (actions : List Action) :
    Keeps R (runActions h r dryRun actions) := by
  induction actions with
  | nil => exact keeps_pure []
  | cons a rest ih =>
      rw [runActions]
      refine (haction a).bind fun outcome => ?_
      split
      · refine ((looks_transaction h).mono hlooks).bind fun t => ?_
        exact ((looks_report _).mono hlooks).bind fun _ => keeps_pure _
      · exact ih.bind fun outcomes => keeps_pure _

theorem keeps_runRule (r : RuleDefinition) : Keeps R (runRule h r dryRun) := by
  rw [runRule]
  refine ((looks_ruleMatches h r).mono hlooks).bind fun matched => ?_
  split
  · refine (keeps_runActions hlooks haction r r.actions).bind fun actions => ?_
    dsimp only
    split
    · exact ((looks_invalidate h).mono hlooks).bind fun _ => keeps_pure _
    · exact keeps_pure _
  · exact keeps_pure _

end Engine

end Parts

omit [IsPreorder (Table Log) L] in
/-- The actions of a rule only look in a dry run. -/
theorem looks_runActions_dry (h : Handle) (r : RuleDefinition) (actions : List Action) :
    Keeps (Looks h) (Engine.runActions h r true actions) :=
  Engine.keeps_runActions (fun _ _ hl => hl) (looks_runAction_dry · h) r actions

theorem works_runAction (a : Action) (h : Handle) (dryRun : Bool) :
    Keeps (Works L h) (runAction a h dryRun) :=
  keeps_runAction (fun _ _ hl => hl.works) (works_perform h) a dryRun

namespace Engine

theorem works_runRule (h : Handle) (r : RuleDefinition) (dryRun : Bool) :
    Keeps (Works L h) (runRule h r dryRun) :=
  keeps_runRule (fun _ _ hl => hl.works) (works_runAction · h dryRun) r

end Engine

/-! ## Saving -/

omit [Host] in
theorem works_saveFields (h : Handle) (fields : List TransactionField) :
    Keeps (Works L h) (saveFields h fields) := by
  intro w
  rw [saveFields, runOn_bind, runOn_transaction]
  dsimp only
  split
  · exact Std.Refl.refl w
  · next id hid =>
    have hprepare : Keeps (Works L h) (prepareSaving h fields) := by
      rw [prepareSaving]
      refine Keeps.bind keeps_get fun w => Keeps.bind ?_ fun _ => ?_
      · exact fun w => works_change rfl
      · exact (works_of_looks (looks_transaction h)).bind fun t => keeps_ofExcept _
    have hfirst := hprepare w
    rw [runOn_bind]
    split
    · next content v hrun =>
      rw [hrun] at hfirst
      refine hfirst.trans (works_writeResult ?_)
      intro _ s hs
      split at hs
      · cases hs
        rw [hfirst.ownId, hid]
        exact Store.workedOn_updateTransaction _ id _
      · cases hs
    · next failure v hrun =>
      rw [hrun] at hfirst
      exact hfirst

omit [Host] in
theorem works_persistChanges (h : Handle) (summary : TransactionSummary) :
    Keeps (Works L h) (persistChanges h summary) := by
  rw [persistChanges]
  split
  · exact keeps_pure ()
  · exact works_saveFields h _

omit [Host] in
theorem runOn_refresh (h : Handle) (w : Workspace) :
    (refresh h).runOn w =
      match (w.transaction h).id with
      | none => (.ok (), w)
      | some id =>
        match w.store.transactions.find? id with
        | some stored => (.ok (), { w with live := w.live.update h fun _ => .ofRow id stored })
        | none => (.error (.missingRow .transaction), w) := by
  rw [refresh, runOn_bind, runOn_transaction]
  dsimp only
  cases (w.transaction h).id with
  | none => rfl
  | some id =>
      dsimp only
      rw [runOn_bind, runOn_row]
      cases w.store.transactions.find? id <;> rfl

omit [Host] in
theorem works_refresh (h : Handle) : Keeps (Works L h) (refresh h) := by
  intro w
  rw [runOn_refresh]
  split
  · exact Std.Refl.refl w
  · next id hid =>
    split
    · exact works_change hid.symm
    · exact Std.Refl.refl w

omit [Host] in
/-- Nothing goes wrong when a change is dropped, unless the row is gone. -/
theorem runOn_discard (h : Handle) (w : Workspace) :
    (Engine.discard h).runOn w =
      (refresh h).runOn
        { w with labels := [], fields := w.fields.forget (w.transaction h).id } := rfl

omit [Host] in
theorem works_discard (h : Handle) : Keeps (Works L h) (Engine.discard h) := by
  rw [Engine.discard]
  have hforget : Keeps (Works L h) (modify fun w => { w with labels := [] }) := fun v =>
    (looks_caches h v v.events (fun _ _ _ => rfl) fun _ => labelsAgree_nil v).works
  exact hforget.bind fun _ => (works_of_looks (looks_invalidate h)).bind fun _ => works_refresh h

/-- What is left of a transaction when its change was taken back and is dropped. -/
structure Workspace.Dropped (h : Handle) (w v : Workspace) : Prop extends Works Eq h w v where
  store_eq : v.store = w.store
  labels : v.labels = []
  reread : ∀ id, (w.transaction h).id = some id →
    ∃ stored, w.store.transactions.find? id = some stored ∧ v.transaction h = .ofRow id stored

omit [IsPreorder (Table Log) L] in
omit [Host] in
/-- The change of a transaction can be dropped if its row is there. -/
theorem dropped_discard
    (hrow : ∀ id, (w.transaction h).id = some id → w.store.transactions.has id = true) :
    ∃ v, (Engine.discard h).runOn w = (.ok (), v) ∧ Dropped h w v := by
  have hworks := works_discard (L := Eq) h w
  rw [runOn_discard, runOn_refresh] at hworks ⊢
  split at hworks
  · next hunsaved =>
    refine ⟨_, rfl, hworks, rfl, rfl, fun id hid => ?_⟩
    exact nomatch hunsaved.symm.trans hid
  · next id hid =>
    obtain ⟨stored, hstored⟩ := Option.isSome_iff_exists.1 (hrow id hid)
    dsimp only at hworks ⊢
    rw [hstored] at hworks ⊢
    refine ⟨_, rfl, hworks, rfl, rfl, fun n hn => ⟨stored, ?_⟩⟩
    obtain rfl : id = n := Option.some.inj (hid.symm.trans hn)
    exact ⟨hstored, transaction_update_self (live_has_of_id hid) _⟩

/-! ## A transaction of a run -/

/-- The entry of a transaction for which the rules had these outcomes. -/
def TransactionSummary.ofOutcomes (id : Option Id) (outcomes : List RuleOutcome) :
    TransactionSummary where
  transaction := id
  rules := outcomes
  changes := outcomes.foldl (fun done outcome => mergeChanges done outcome.changes) []

namespace Engine

/-- The first rule is run and logged before it is known whether the others follow. -/
theorem runRules_cons (e : Engine) (h : Handle) (trigger : Trigger) (dryRun log : Bool)
    (r : RuleDefinition) (rest : List RuleDefinition) :
    e.runRules h trigger dryRun log (r :: rest) = (do
      let outcome ← runRule h r dryRun
      let _ ← (if log then e.logOutcome h outcome trigger dryRun else return () : Operation Unit)
      if outcome.matched && r.stopProcessing.isTruthy then return [outcome]
      else return outcome :: (← e.runRules h trigger dryRun log rest)) := by
  cases log <;> rfl

/-- The rules and the observer follow unless the transaction belongs to somebody else. -/
theorem runTransaction_eq (e : Engine) (h : Handle) (rules : List RuleDefinition)
    (trigger : Trigger) (dryRun log : Bool) :
    e.runTransaction h rules trigger dryRun log = (do
      let t ← transaction h
      let owner ← ownerOf h
      let _ ← (if owner ≠ some e.user then throw (.foreignTransaction t.id e.user) else return () :
        Operation Unit)
      let outcomes ← e.runRules h trigger dryRun log rules
      let _ ← e.tellObserver h (.ofOutcomes t.id outcomes) dryRun
      return .ofOutcomes t.id outcomes) := by
  unfold runTransaction
  refine bind_congr fun t => bind_congr fun owner => ?_
  dsimp only
  split <;> rfl

section Run

variable {e : Engine} {trigger : Trigger} {dryRun : Bool}

omit [IsPreorder (Table Log) L] in
omit [Host] in
/-- Within a larger change a log is written, unless the writing of this very log is made to fail. -/
theorem runOn_writeLog (e : Engine) (log : Log) {w : Workspace} (hw : w.isChanging = true) :
    (e.writeLog log).runOn w =
      let u := { w with logWrites := w.logWrites + 1 }
      if e.failingLog = some (u.logWrites : Int) then (.error .logWriteFailed, u)
      else (.ok (), { u with store := { w.store with logs := w.store.logs.insert log } }) := by
  have hinsert := runOn_writeResult_of_changing (w := { w with logWrites := w.logWrites + 1 })
    (fun s => .ok (s.logs.nextId, { s with logs := s.logs.insert log })) hw
  rw [writeLog, runOn_bind, runOn_modify]
  dsimp only
  rw [runOn_bind, runOn_get]
  dsimp only
  split
  · rfl
  · rw [insertRow, runOn_bind, hinsert]
    rfl

omit [Host] in
theorem works_writeLog {log : Log} (hlog : ∀ logs, L logs (logs.insert log)) (h : Handle) :
    Keeps (Works L h) (e.writeLog log) := by
  have hinsert : Keeps (Works L h)
      (insertRow Store.logs (fun s t => { s with logs := t }) log) := by
    intro v
    refine works_writeResult fun _ s hs => ?_
    cases hs
    exact Store.workedOn_addLog (hlog _)
  rw [writeLog]
  refine Keeps.bind ?_ fun _ => Keeps.bind keeps_get fun w => ?_
  · exact fun w => ⟨rfl, rfl, fun _ _ => rfl, rfl, fun _ _ _ => rfl, Std.Refl.refl _⟩
  · dsimp only
    split
    · exact (keeps_throw _).bind fun _ => hinsert.bind fun _ => keeps_pure _
    · exact hinsert.bind fun _ => keeps_pure _

variable (hlog : ∀ logs rule id outcome now,
  L logs (logs.insert (logOf rule id outcome trigger dryRun now)))

include hlog

omit [Host] in
theorem works_logOutcome (h : Handle) (outcome : RuleOutcome) :
    Keeps (Works L h) (e.logOutcome h outcome trigger dryRun) := by
  rw [logOutcome]
  refine (works_of_looks (looks_transaction h)).bind fun t => ?_
  split
  · split
    · refine Keeps.bind keeps_get fun w => ?_
      exact works_writeLog (fun logs => hlog logs _ _ outcome _) h
    · exact keeps_pure _
  · exact keeps_pure _

omit hlog [IsPreorder (Table Log) L] in
/-- The outcome of a rule says which rule it is of. -/
theorem gives_runRule (h : Handle) (r : RuleDefinition) :
    Gives (fun outcome => outcome.rule = r.id) (runRule h r dryRun) := by
  rw [runRule]
  refine gives_bind fun matched => ?_
  split
  · refine gives_bind fun actions => ?_
    dsimp only
    split
    · exact gives_bind fun _ => gives_pure rfl
    · exact gives_pure rfl
  · exact gives_pure rfl

omit hlog [IsPreorder (Table Log) L] in
/-- The rules keep whatever looking, running actions and logging their outcomes keep. -/
theorem keeps_runRules {R : Workspace → Workspace → Prop} [IsPreorder Workspace R] {h : Handle}
    (hlooks : ∀ w v, Looks h w v → R w v) (haction : ∀ a, Keeps R (runAction a h dryRun))
    {log : Bool} {rules : List RuleDefinition}
    (hlogs : ∀ r ∈ rules, ∀ outcome, log = true → outcome.rule = r.id →
      Keeps R (e.logOutcome h outcome trigger dryRun)) :
    Keeps R (e.runRules h trigger dryRun log rules) := by
  induction rules with
  | nil => exact keeps_pure []
  | cons r rest ih =>
      rw [runRules_cons]
      refine (keeps_runRule hlooks haction r).bind_run fun w outcome v hrun => ?_
      have hrule := gives_runRule h r w outcome v hrun
      refine Keeps.bind ?_ (fun _ => ?_) v
      · split
        · next hlogged => exact hlogs r List.mem_cons_self outcome hlogged hrule
        · exact keeps_pure ()
      · split
        · exact keeps_pure _
        · exact (ih fun r hr => hlogs r (List.mem_cons_of_mem _ hr)).bind fun _ => keeps_pure _

theorem works_runRules (h : Handle) (log : Bool) (rules : List RuleDefinition) :
    Keeps (Works L h) (e.runRules h trigger dryRun log rules) :=
  keeps_runRules (fun _ _ hl => hl.works) (works_runAction · h dryRun)
    fun _ _ outcome _ _ => works_logOutcome hlog h outcome

omit hlog [IsPreorder (Table Log) L] in
/-- A transaction of a run keeps whatever looking, the rules and the observer keep. -/
theorem keeps_runTransaction {R : Workspace → Workspace → Prop} [IsPreorder Workspace R]
    {h : Handle} {rules : List RuleDefinition} {log : Bool}
    (hlooks : ∀ w v, Looks h w v → R w v) (hrules : Keeps R (e.runRules h trigger dryRun log rules))
    (hobserver : ∀ observer summary, e.observer = some observer → dryRun = false →
      Keeps R (observer h summary)) :
    Keeps R (e.runTransaction h rules trigger dryRun log) := by
  have htell : ∀ summary, Keeps R (e.tellObserver h summary dryRun) := by
    intro summary
    rw [tellObserver]
    split
    · next observer hsome =>
      split
      · exact keeps_pure ()
      · next hlive => exact hobserver observer summary hsome (Bool.not_eq_true _ ▸ hlive)
    · exact keeps_pure ()
  rw [runTransaction_eq]
  refine ((looks_transaction h).mono hlooks).bind fun t => ?_
  refine ((looks_ownerOf h).mono hlooks).bind fun owner => Keeps.bind ?_ fun _ => ?_
  · split
    · exact keeps_throw _
    · exact keeps_pure ()
  · exact hrules.bind fun outcomes => (htell _).bind fun _ => keeps_pure _

omit hlog [IsPreorder (Table Log) L] in
/-- The entry for a transaction that went through. -/
theorem gives_runTransaction {P : List RuleOutcome → Prop} {h : Handle} {log : Bool}
    {rules : List RuleDefinition} (hrules : Gives P (e.runRules h trigger dryRun log rules)) :
    Gives (fun t => P t.rules ∧ t.error = none ∧
        t.changes = t.rules.foldl (fun done outcome => mergeChanges done outcome.changes) [])
      (e.runTransaction h rules trigger dryRun log) := by
  rw [runTransaction_eq]
  refine gives_bind fun t => gives_bind fun owner => gives_bind fun _ => ?_
  refine hrules.bind fun outcomes houtcomes => ?_
  exact gives_bind fun _ => gives_pure ⟨houtcomes, rfl, rfl⟩

omit hlog [IsPreorder (Table Log) L] in
/-- A transaction that fails is dropped and reported. -/
theorem runOn_processOne (rules : List RuleDefinition) (log : Bool) (h : Handle) (w : Workspace) :
    (e.processOne rules trigger dryRun log h).runOn w =
      match (atomically (e.runTransaction h rules trigger dryRun log)).runOn w with
      | (.ok t, v) => (.ok t, v)
      | (.error failure, v) =>
        match (discard h).runOn v with
        | (.ok _, u) =>
          (.ok { transaction := (w.transaction h).id, error := some failure.message },
            { u with
              events := .transactionFailed e.user (rules.map (·.id)) (w.transaction h).id dryRun ::
                u.events })
        | (.error failure, u) => (.error failure, u) := by
  rw [processOne, runOn_bind, runOn_transaction]
  dsimp only
  rw [runOn_tryCatch]
  rcases (atomically (e.runTransaction h rules trigger dryRun log)).runOn w with ⟨failure | t, v⟩
  · dsimp only
    rw [runOn_bind]
    rcases (discard h).runOn v with ⟨failure | _, u⟩
    · rfl
    · rfl
  · rfl

/-- The change for a transaction is work on it, made or taken back. -/
theorem works_attempt (rules : List RuleDefinition) (log : Bool) (h : Handle)
    (hobserver : ∀ observer summary, e.observer = some observer → dryRun = false →
      Keeps (Works L h) (observer h summary)) :
    Keeps (Works L h) (atomically (e.runTransaction h rules trigger dryRun log)) := by
  refine works_atomically (keeps_runTransaction (fun _ _ hl => hl.works) ?_ hobserver)
  exact works_runRules hlog h log rules

theorem works_processOne (rules : List RuleDefinition) (log : Bool) (h : Handle)
    (hobserver : ∀ observer summary, e.observer = some observer → dryRun = false →
      Keeps (Works L h) (observer h summary)) :
    Keeps (Works L h) (e.processOne rules trigger dryRun log h) := by
  rw [processOne]
  refine (works_of_looks (looks_transaction h)).bind fun t => ?_
  refine (works_attempt hlog rules log h hobserver).tryCatch fun failure => ?_
  refine (works_discard h).bind fun _ => ?_
  exact (works_of_looks (looks_report _)).bind fun _ => keeps_pure _

end Run

end Engine

end Frame

end Rulebook
