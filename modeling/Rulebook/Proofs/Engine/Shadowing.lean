import Rulebook.Proofs.Engine.Direct
import Rulebook.Proofs.Engine.Shown

/-!
# A rule with and without caches

The engine and the engine without caches (`Rulebook.Direct`) run a rule on the same transaction.
Within a change their workspaces differ in nothing but the caches, which the second engine has
never touched.

The label cache holds what is stored at every step, because labels are only added and an added
label is remembered at once.  The field cache holds what the transaction shows while conditions are
checked.  This is violated as soon as an action succeeds, so while actions run the field cache is
only known to stay as it is.  When the rule is done the fields are forgotten.  If no action
succeeded they are not forgotten, but then the actions have only looked.

## Main definitions

* `Workspace.Shadowed` — the workspaces of the two engines within a change.

## Main statements

* `shadows_ruleMatches` — both engines agree on whether a rule matches.
* `shadows_runActions` — both engines do the same for the actions of a rule.
* `shadows_runRule` — after a rule the field cache tells the truth again.
-/

namespace Rulebook

open Program Workspace

namespace Workspace

/-- The second workspace is the first one with the given caches.  Within a change, the label cache
of the first holds the truth, no link dangles, and the rest is up to `P`. -/
structure Shadowed (fields : FieldCache) (labels : LabelCache) (P : Workspace → Prop)
    (w s : Workspace) : Prop where
  same : s = w.withCaches fields labels
  changing : w.isChanging = true
  agree : w.LabelsAgree
  links : w.store.LinksResolve
  rest : P w

end Workspace

section Shadowed

variable {f : FieldCache} {l : LabelCache} {P : Workspace → Prop} {h : Handle} {w s v : Workspace}
  {α : Type}

theorem Workspace.Shadowed.store (hs : Shadowed f l P w s) : s.store = w.store := by
  rw [hs.same]
  rfl

/-- Both engines use an operation that does not touch the caches. -/
theorem tracks_ignoring {x : Operation α} (hs : Shadowed f l P w s) (hx : IgnoresCaches x)
    (hchanging : (x.runOn w).2.isChanging = true)
    (hlabels : ∀ kind, (x.runOn w).2.store.labels kind = w.store.labels kind)
    (hlinks : (x.runOn w).2.store.LinksResolve) (hP : P (x.runOn w).2) :
    Tracks (Shadowed f l P) x x w s := by
  have hsame := hs.same
  subst hsame
  have hcaches := (hx.caches w).2
  refine ⟨?_, ?_⟩ <;> rw [hx w f l]
  refine ⟨rfl, hchanging, ?_, hlinks, hP⟩
  intro kind id found hfound
  rw [hcaches] at hfound
  rw [hlabels]
  exact hs.agree kind id found hfound

/-- Operations of which the caches need not hear are used by both engines. -/
theorem tracks_unnoticed {x : Operation α} (hs : Shadowed f l P w s) (hx : Unnoticed h x)
    (hP : P (x.runOn w).2) : Tracks (Shadowed f l P) x x w s := by
  have hunseen := hx.keeps w
  refine tracks_ignoring hs hx.ignores (hunseen.changing.trans hs.changing) hunseen.labels ?_ hP
  exact Store.linksResolve_congr (hunseen.labels .tag) hunseen.links hs.links

/-- What a transaction shows is kept. -/
theorem tracks_unseen {x : Operation α} (hs : Shadowed f l (·.FieldsAgree h) w s)
    (hx : Unnoticed h x) : Tracks (Shadowed f l (·.FieldsAgree h)) x x w s := by
  have hunseen := hx.keeps w
  refine tracks_unnoticed hs hx fun id hid field value hvalue => ?_
  rw [hunseen.id] at hid
  rw [(hx.ignores.caches w).1] at hvalue
  exact hunseen.shown field value (hs.rest id hid field value hvalue)

/-! ## Conditions -/

/-- The field cache goes on telling the truth when rows are looked up, whatever it counts. -/
theorem Workspace.Shadowed.looked (hs : Shadowed f l (·.FieldsAgree h) w s) (hl : Looks h w v)
    (fields : FieldCache)
    (hfields : ∀ id, (w.transaction h).id = some id → ∀ field value,
      fields.values.lookup (id, field) = some value →
        w.fields.values.lookup (id, field) = some value ∨
          (v.transaction h).shown? v.store field = some value) :
    Shadowed f l (·.FieldsAgree h) { v with fields, labels := w.labels } (v.withCaches f l) where
  same := rfl
  changing := hl.isChanging.trans hs.changing
  agree := by
    intro kind id found hfound
    have hfind := hs.agree kind id found hfound
    rw [← hl.store] at hfind
    exact hfind
  links := by
    have hlinks := hs.links
    rw [← hl.store] at hlinks
    exact hlinks
  rest := by
    intro id hid field value hvalue
    have hid' := hl.own.id_eq.symm.trans hid
    rcases hfields id hid' field value hvalue with hold | hnew
    · exact hl.unseen.shown field value (hs.rest id hid' field value hold)
    · exact hnew

theorem shadows_fieldValue (hs : Shadowed f l (·.FieldsAgree h) w s) (field : Field) :
    Tracks (Shadowed f l (·.FieldsAgree h)) (fieldValue h field) (resolveField h field) w s := by
  have hdirect := ignores_resolveField h field w f l
  rw [← hs.same] at hdirect
  have hrefl : Looks h w w := Std.Refl.refl w
  rcases hfind : w.fields.find? (w.transaction h).id field with _ | value
  · -- The field is looked up, and the value is what can be read afterwards.
    have hmiss := ignores_resolveField h field w { w.fields with misses := w.fields.misses + 1 }
      w.labels
    have hlooks := looks_resolveField h field w
    rcases hrun : (resolveField h field).runOn w with ⟨failure | value, v⟩ <;>
      rw [hrun] at hdirect hmiss hlooks <;> dsimp only [Workspace.withCaches] at hmiss
    · have hafter := hs.looked hlooks { w.fields with misses := w.fields.misses + 1 }
        fun _ _ _ _ hvalue => Or.inl hvalue
      refine ⟨?_, ?_⟩ <;> rw [runOn_fieldValue, hfind, hdirect] <;> dsimp only <;> rw [hmiss]
      exact hafter
    · have hkept : ∀ id, (w.transaction h).id = some id → ∀ other found,
          ({ w.fields with misses := w.fields.misses + 1 }.keep (w.transaction h).id field
            value).values.lookup (id, other) = some found →
            w.fields.values.lookup (id, other) = some found ∨
              (v.transaction h).shown? v.store other = some found := by
        intro id hid other found hfound
        rw [hid, FieldCache.keep, List.lookup_cons] at hfound
        split at hfound
        · next heq =>
          cases (Prod.mk.inj (eq_of_beq heq)).2
          cases hfound
          exact Or.inr (shown_of_runOn_resolveField (live_has_of_id hid) hrun)
        · exact Or.inl hfound
      have hafter := hs.looked hlooks _ hkept
      refine ⟨?_, ?_⟩ <;> rw [runOn_fieldValue, hfind, hdirect] <;> dsimp only <;> rw [hmiss]
      exact hafter
  · -- The value in the cache is what a look-up would find.
    have hshown : (w.transaction h).shown? w.store field = some value := by
      obtain ⟨id, hid, hvalue⟩ := Option.bind_eq_some_iff.1 hfind
      exact hs.rest id hid field value hvalue
    rw [runOn_resolveField_of_shown hshown] at hdirect
    have hafter := hs.looked hrefl { w.fields with hits := w.fields.hits + 1 }
      fun _ _ _ _ hvalue => Or.inl hvalue
    refine ⟨?_, ?_⟩ <;> rw [runOn_fieldValue, hfind, hdirect]
    exact hafter

theorem shadows_conditionMatches [Host] (hs : Shadowed f l (·.FieldsAgree h) w s) (c : Condition) :
    Tracks (Shadowed f l (·.FieldsAgree h)) (conditionMatches h c) (Direct.conditionMatches h c)
      w s := by
  have hevaluate : Tracks (Shadowed f l (·.FieldsAgree h)) (evaluateCondition h c)
      (Direct.evaluateCondition h c) w s := by
    rw [evaluateCondition, Direct.evaluateCondition]
    rcases c.recognised? with _ | ⟨field, op⟩
    · exact tracks_ofExcept _ hs
    · exact (shadows_fieldValue hs field).bind fun value v s hv => tracks_ofExcept _ hv
  rw [conditionMatches, checkCondition, Direct.conditionMatches, bind_assoc]
  refine hevaluate.bind fun outcome v s hv => ?_
  dsimp only
  split
  · rw [bind_assoc]
    refine (tracks_unseen hv (unnoticed_transaction h h)).bind fun t u s hu => ?_
    rw [bind_assoc]
    refine (tracks_unseen hu (unnoticed_report h _)).bind fun _ v s hv => ?_
    exact tracks_pure _ hv
  · exact tracks_pure _ hv

theorem shadows_ruleMatches [Host] (hs : Shadowed f l (·.FieldsAgree h) w s) (r : RuleDefinition) :
    Tracks (Shadowed f l (·.FieldsAgree h)) (ruleMatches h r) (Direct.ruleMatches h r) w s := by
  refine tracks_allM (fun g v s hv => ?_) hs
  rw [groupMatches, Direct.groupMatches]
  split
  · exact tracks_pure true hv
  · split
    · exact tracks_allM (fun c _ _ hu => shadows_conditionMatches hu c) hv
    · exact tracks_anyM (fun c _ _ hu => shadows_conditionMatches hu c) hv

/-! ## Planning actions -/

variable {F : FieldCache}

/-- The field cache stays as it is. -/
theorem tracks_still {x : Operation α} (hs : Shadowed f l (·.fields = F) w s)
    (hx : Unnoticed h x) : Tracks (Shadowed f l (·.fields = F)) x x w s :=
  tracks_unnoticed hs hx ((hx.ignores.caches w).1.trans hs.rest)

/-- What the label cache answers is what is stored. -/
theorem shadows_answer {β : Type} {x : Operation β} {b : β}
    (hs : Shadowed f l (·.fields = F) w s)
    (hx : ∃ labels, x.runOn w = (.ok b, { w with labels }) ∧ LabelsAgree { w with labels })
    (g : β → α) :
    Tracks (Shadowed f l (·.fields = F)) (x >>= fun b => pure (g b)) (pure (g b)) w s := by
  obtain ⟨labels, hrun, hagree⟩ := hx
  have hbind : (x >>= fun b => pure (g b)).runOn w = (.ok (g b), { w with labels }) := by
    rw [runOn_bind, hrun]
    rfl
  refine ⟨?_, ?_⟩ <;> rw [hbind]
  · rfl
  · exact { hs with agree := hagree }

theorem runOn_labelText (hw : w.LabelsAgree) (kind : LabelKind) (value : Option ActionValue) :
    ∃ labels, (labelText kind value).runOn w =
        (.ok (Direct.labelText w.store kind value), { w with labels }) ∧
      LabelsAgree { w with labels } := by
  rcases value with _ | value
  · exact ⟨w.labels, rfl, hw⟩
  · cases value with
    | text words => exact ⟨w.labels, rfl, hw⟩
    | identifier id =>
        obtain ⟨labels, hrun, hagree⟩ := cachedLabel_eq_find? hw kind id
        refine ⟨labels, ?_, hagree⟩
        rw [labelText, runOn_bind, hrun, Direct.labelText]
        dsimp only
        cases (w.store.labels kind).find? id <;> rfl

theorem runOn_ownedLabel (hw : w.LabelsAgree) (kind : LabelKind) (value : Option ActionValue)
    (owner : Id) :
    ∃ labels, (ownedLabel kind value owner).runOn w =
        (.ok (Direct.ownedLabel w.store kind value owner), { w with labels }) ∧
      LabelsAgree { w with labels } := by
  rcases value with _ | value
  · exact ⟨w.labels, rfl, hw⟩
  · cases value with
    | text words => exact ⟨w.labels, rfl, hw⟩
    | identifier id =>
        obtain ⟨labels, hrun, hagree⟩ := cachedLabel_eq_find? hw kind id
        refine ⟨labels, ?_, hagree⟩
        rw [ownedLabel, runOn_bind, hrun]
        rfl

theorem shadows_describe [Host] (hs : Shadowed f l (·.fields = F) w s) (a : Action) :
    Tracks (Shadowed f l (·.fields = F)) (describe a) (Direct.describe a) w s := by
  rw [describe, Direct.describe]
  rcases (Vocabulary.ofJson? a.kind : Option ActionKind) with _ | kind
  · exact tracks_pure _ hs
  · refine (tracks_ofExcept _ hs).bind fun value v s hv => ?_
    have hlabel : ∀ kind (g : String → String),
        Tracks (Shadowed f l (·.fields = F)) (labelText kind value >>= fun text => pure (g text))
          (pure (g (Direct.labelText s.store kind value))) v s := by
      intro kind g
      rw [hv.store]
      exact shadows_answer hv (runOn_labelText hv.agree kind value) g
    refine tracks_get_right ?_
    cases kind with
    | setCategory => exact hlabel .category _
    | setMerchant => exact hlabel .merchant _
    | addTag => exact hlabel .tag _
    | removeTag => exact hlabel .tag _
    | _ => exact tracks_pure _ hv

theorem shadows_planKind (hs : Shadowed f l (·.fields = F) w s) (kind : ActionKind) (a : Action)
    (value : Option ActionValue) (t : LiveTransaction) (owner : Id) :
    Tracks (Shadowed f l (·.fields = F)) (planKind kind a value t owner)
      (Direct.planKind kind a value t owner) w s := by
  have hlabel : ∀ kind (g : Option (Id × Label) → Option Effect),
      Tracks (Shadowed f l (·.fields = F))
        (ownedLabel kind value owner >>= fun found => pure (g found))
        (pure (g (Direct.ownedLabel s.store kind value owner))) w s := by
    intro kind g
    rw [hs.store]
    exact shadows_answer hs (runOn_ownedLabel hs.agree kind value owner) g
  refine tracks_get_right ?_
  cases kind with
  | setCategory => exact hlabel .category _
  | setMerchant => exact hlabel .merchant _
  | addTag =>
      exact hlabel .tag fun tag =>
        if t.id.isSome then tag.map fun found => .attachTag found.1 else none
  | removeTag => exact hlabel .tag _
  | removeAllTags => exact tracks_pure _ hs
  | markReconciled => exact tracks_pure _ hs
  | sendNotification => exact tracks_pure _ hs
  | _ => rcases value with _ | ⟨_ | _⟩ <;> exact tracks_pure _ hs

theorem shadows_plan [Host] (hs : Shadowed f l (·.fields = F) w s) (kind : ActionKind) (a : Action)
    (h : Handle) :
    Tracks (Shadowed f l (·.fields = F)) (plan kind a h) (Direct.plan kind a h) w s := by
  rw [plan, Direct.plan]
  refine (tracks_ofExcept _ hs).bind fun value v s hv => ?_
  refine (tracks_still hv (unnoticed_ownerOf h)).bind fun owner u s hu => ?_
  cases owner with
  | none => exact tracks_pure none hu
  | some owner =>
      refine (tracks_still hu (unnoticed_transaction h h)).bind ?_
      exact fun t v s hv => shadows_planKind hv kind a value t owner

/-- A tag that is to be attached is there. -/
def Effect.TagExists (s : Store) (effect : Effect) : Prop :=
  ∀ tag, effect = .attachTag tag → s.tags.has tag = true

theorem planText_ne_attachTag (kind : ActionKind) (t : LiveTransaction) (owner : Id)
    (words : String) (tag : Id) : planText kind t owner words ≠ some (.attachTag tag) := by
  cases kind <;> simp [planText]

namespace Direct

variable {s t : Store} {kind : LabelKind} {value : Option ActionValue} {owner : Id}

/-- A label that its owner may use is stored, and it is the owner's. -/
theorem ownedLabel_eq_some {found : Id × Label} (h : ownedLabel s kind value owner = some found) :
    (s.labels kind).find? found.1 = some found.2 ∧ found.2.user = owner := by
  unfold ownedLabel at h
  split at h
  · obtain ⟨stored, hfind, hmine⟩ := Option.bind_eq_some_iff.1 h
    split at hmine
    · next huser =>
      cases hmine
      exact ⟨hfind, huser⟩
    · cases hmine
  · cases h

/-- A label that a value names by number is found as long as it is there. -/
theorem ownedLabel_of_grows (hgrows : (s.labels kind).Grows (t.labels kind))
    (hnamed : ∀ n, value = some (.identifier n) → (s.labels kind).has n = true) :
    ownedLabel t kind value owner = ownedLabel s kind value owner := by
  rcases value with _ | n | words
  · rfl
  · obtain ⟨l, hl⟩ := Option.isSome_iff_exists.1 (hnamed n rfl)
    simp only [ownedLabel, hgrows.find? hl, hl]
  · rfl

theorem labelText_of_grows (hgrows : (s.labels kind).Grows (t.labels kind))
    (hnamed : ∀ n, value = some (.identifier n) → (s.labels kind).has n = true) :
    labelText t kind value = labelText s kind value := by
  rcases value with _ | n | words
  · rfl
  · obtain ⟨l, hl⟩ := Option.isSome_iff_exists.1 (hnamed n rfl)
    simp only [labelText, hgrows.find? hl, hl]
  · rfl

end Direct

/-- Only tags that are there are planned to be attached. -/
theorem tagExists_of_planKind {kind : ActionKind} {a : Action} {value : Option ActionValue}
    {t : LiveTransaction} {owner : Id} {effect : Effect}
    (hrun : (Direct.planKind kind a value t owner).runOn s = (.ok (some effect), v)) :
    effect.TagExists v.store := by
  rintro tag rfl
  have hresult := congrArg Prod.fst hrun
  have hsame := congrArg Prod.snd hrun
  have hother : ∀ (g : Id × Label → Effect) {found : Option (Id × Label)},
      (∀ label, g label ≠ .attachTag tag) → found.map g = some (.attachTag tag) →
        v.store.tags.has tag = true := by
    intro g found hg hfound
    obtain ⟨label, -, heq⟩ := Option.map_eq_some_iff.1 hfound
    exact absurd heq (hg label)
  cases kind with
  | setCategory =>
      exact hother (fun found => .setLabel .category found.1 found.2) (fun _ h => nomatch h)
        (Except.ok.inj hresult)
  | setMerchant =>
      exact hother (fun found => .setLabel .merchant found.1 found.2) (fun _ h => nomatch h)
        (Except.ok.inj hresult)
  | removeTag =>
      exact hother (fun found => .detachTag found.1) (fun _ h => nomatch h) (Except.ok.inj hresult)
  | addTag =>
      have hplanned : (if t.id.isSome then (Direct.ownedLabel s.store .tag value owner).map
          fun found => Effect.attachTag found.1 else none) = some (.attachTag tag) :=
        Except.ok.inj hresult
      have hstate : s = v := hsame
      split at hplanned
      · obtain ⟨⟨id, label⟩, howned, heq⟩ := Option.map_eq_some_iff.1 hplanned
        cases heq
        rw [← hstate]
        exact Table.has_of_find? (Direct.ownedLabel_eq_some howned).1
      · cases hplanned
  | removeAllTags => cases hresult
  | markReconciled => cases hresult
  | sendNotification => cases hresult
  | _ =>
      rcases value with _ | value
      · cases hresult
      · cases value with
        | identifier id => cases hresult
        | text words =>
            exact absurd (Except.ok.inj hresult) (planText_ne_attachTag _ t owner words tag)

theorem tagExists_of_plan [Host] {kind : ActionKind} {a : Action} {effect : Effect}
    (hrun : (Direct.plan kind a h).runOn s = (.ok (some effect), v)) :
    effect.TagExists v.store := by
  rw [Direct.plan, runOn_bind, runOn_ofExcept] at hrun
  rcases hvalue : a.typedValue with failure | value <;> rw [hvalue] at hrun <;> dsimp only at hrun
  · cases hrun
  · rw [runOn_bind] at hrun
    rcases howner : (ownerOf h).runOn s with ⟨failure | owner, u⟩ <;> rw [howner] at hrun
    · cases hrun
    · cases owner with
      | none => cases hrun
      | some owner => exact tagExists_of_planKind hrun

/-! ## Carrying actions out -/

theorem shadows_change (hs : Shadowed f l (·.fields = F) w s) (h : Handle)
    (g : LiveTransaction → LiveTransaction) :
    Tracks (Shadowed f l (·.fields = F)) (change h g) (change h g) w s :=
  tracks_ignoring hs (ignores_change h g) hs.changing (fun _ => rfl) hs.links hs.rest

theorem shadows_putTag (hs : Shadowed f l (·.fields = F) w s) (h : Handle) {tag : Id}
    (htag : w.store.tags.has tag = true) :
    Tracks (Shadowed f l (·.fields = F)) (putTag h tag) (putTag h tag) w s := by
  have hlabels : ∀ id kind, (w.store.addLink id tag).labels kind = w.store.labels kind := by
    intro id kind
    rw [Store.addLink]
    split
    · rfl
    · cases kind <;> rfl
  have hrun := runOn_putTag h tag hs.changing
  rcases hid : (w.transaction h).id with _ | id <;> rw [hid] at hrun <;>
    refine tracks_ignoring hs (ignores_putTag h tag) ?_ ?_ ?_ ?_ <;> rw [hrun]
  · exact hs.changing
  · exact fun _ => rfl
  · exact hs.links
  · exact hs.rest
  · exact hs.changing
  · exact hlabels id
  · exact Store.linksResolve_addLink hs.links id htag
  · exact hs.rest

theorem shadows_takeTags (hs : Shadowed f l (·.fields = F) w s) (h : Handle) (test : Id → Bool) :
    Tracks (Shadowed f l (·.fields = F)) (takeTags h test) (takeTags h test) w s := by
  have hrun := runOn_takeTags h test hs.changing
  rcases hid : (w.transaction h).id with _ | id <;> rw [hid] at hrun <;>
    refine tracks_ignoring hs (ignores_takeTags h test) ?_ ?_ ?_ ?_ <;> rw [hrun]
  · exact hs.changing
  · exact fun _ => rfl
  · exact hs.links
  · exact hs.rest
  · exact hs.changing
  · intro kind
    cases kind <;> rfl
  · exact Store.linksResolve_removeLinks hs.links _
  · exact hs.rest

theorem runOn_direct_findOrAddLabel (kind : LabelKind) (name : String) (owner : Id)
    (hw : w.isChanging = true) :
    (Direct.findOrAddLabel kind name owner).runOn w =
      match w.store.labelNamed? kind owner name with
      | some found => (.ok found, w)
      | none =>
        let label : Label := ⟨owner, name, createdDescription, none⟩
        let id := (w.store.labels kind).nextId
        (.ok (id, label),
          { w with
            store := w.store.setLabels ((w.store.labels kind).insert label) kind
            events := .labelCreated kind id name owner :: w.events }) := by
  rw [Direct.findOrAddLabel, runOn_bind, runOn_get]
  dsimp only
  rcases hnamed : w.store.labelNamed? kind owner name with _ | found
  · dsimp only
    rw [runOn_bind, runOn_writeResult, Store.addLabel]
    simp only [hnamed, hw, Option.isSome_none, Bool.false_eq_true, if_false, Bool.true_or, if_true]
    rfl
  · rfl

theorem shadows_findOrAddLabel (hs : Shadowed f l (·.fields = F) w s) (kind : LabelKind)
    (name : String) (owner : Id) :
    Tracks (Shadowed f l (·.fields = F)) (findOrAddLabel kind name owner)
      (Direct.findOrAddLabel kind name owner) w s := by
  have hagree := labelsAgree_findOrAddLabel hs.agree kind name owner hs.changing
  have hsame := hs.same
  subst hsame
  have hrun := runOn_findOrAddLabel kind name owner hs.changing
  have hdirect := runOn_direct_findOrAddLabel kind name owner (w := w.withCaches f l) hs.changing
  have hstore : (w.withCaches f l).store = w.store := rfl
  rw [hstore] at hdirect
  rcases hnamed : w.store.labelNamed? kind owner name with _ | ⟨id, label⟩ <;>
    rw [hnamed] at hrun hdirect <;> rw [hrun] at hagree <;> refine ⟨?_, ?_⟩ <;> rw [hrun, hdirect]
  · exact ⟨rfl, hs.changing, hagree, Store.linksResolve_setLabels_insert hs.links kind _, hs.rest⟩
  · exact ⟨rfl, hs.changing, hagree, hs.links, hs.rest⟩

/-- A tag that was found or added is there. -/
theorem has_of_findOrAddLabel {name : String} {owner tag : Id} {label : Label}
    (hw : w.isChanging = true)
    (hrun : (findOrAddLabel .tag name owner).runOn w = (.ok (tag, label), v)) :
    v.store.tags.has tag = true := by
  rw [runOn_findOrAddLabel .tag name owner hw] at hrun
  rcases hnamed : w.store.labelNamed? .tag owner name with _ | ⟨id, found⟩ <;>
    rw [hnamed] at hrun <;> cases hrun
  · change (w.store.tags.insert ⟨owner, name, createdDescription, none⟩).has
      w.store.tags.nextId = true
    rw [Table.has, Table.find?_insert, if_pos rfl]
    rfl
  · exact Table.has_of_find? (Table.find?_eq_some_of_mem (List.mem_of_find?_eq_some hnamed))

theorem shadows_perform (hs : Shadowed f l (·.fields = F) w s) (h : Handle) {effect : Effect}
    (heffect : effect.TagExists w.store) :
    Tracks (Shadowed f l (·.fields = F)) (effect.perform h) (Direct.perform h effect) w s := by
  have hchange : ∀ {v s : Workspace}, Shadowed f l (·.fields = F) v s →
      ∀ (g : LiveTransaction → LiveTransaction) (fields : List TransactionField),
        Tracks (Shadowed f l (·.fields = F)) (do change h g; return fields)
          (do change h g; return fields) v s :=
    fun hv g fields => (shadows_change hv h g).bind fun _ _ _ hu => tracks_pure fields hu
  cases effect with
  | setLabel role id label => exact hchange hs _ _
  | setNamedLabel role name owner =>
      exact (shadows_findOrAddLabel hs role.kind name owner).bind fun label v s hv => hchange hv _ _
  | attachTag tag =>
      exact (shadows_putTag hs h (heffect tag rfl)).bind fun _ v s hv => tracks_pure [] hv
  | attachNamedTag name owner =>
      refine (shadows_findOrAddLabel hs .tag name owner).bind_run fun label v s hrun _ hv => ?_
      have htag := has_of_findOrAddLabel hs.changing hrun
      exact (shadows_putTag hv h htag).bind fun _ u s hu => tracks_pure [] hu
  | detachTag tag => exact (shadows_takeTags hs h _).bind fun _ v s hv => tracks_pure [] hv
  | detachAllTags => exact (shadows_takeTags hs h _).bind fun _ v s hv => tracks_pure [] hv
  | setDescription words => exact hchange hs _ _
  | setNote words => exact hchange hs _ _
  | setType words => exact hchange hs _ _
  | markReconciled =>
      have hnow : s.now = w.now := by
        rw [hs.same]
        rfl
      refine tracks_get_bind ?_
      dsimp only
      rw [hnow]
      exact hchange hs _ _
  | notify rule message =>
      have hignores : IgnoresCaches (sendNotification h rule message) := fun _ _ _ => rfl
      have hsend := tracks_ignoring hs hignores hs.changing (fun _ => rfl) hs.links hs.rest
      exact hsend.bind fun _ v s hv => tracks_pure [] hv

/-! ## Actions -/

theorem shadows_runAction [Host] (hs : Shadowed f l (·.fields = F) w s) (a : Action) (h : Handle)
    (dryRun : Bool) :
    Tracks (Shadowed f l (·.fields = F)) (runAction a h dryRun) (Direct.runAction a h dryRun)
      w s := by
  rw [runAction, Direct.runAction]
  refine (tracks_still hs (unnoticed_transaction h h)).bind fun t v s hv => ?_
  dsimp only
  rcases (Vocabulary.ofJson? a.kind : Option ActionKind) with _ | kind
  · refine (tracks_still hv (unnoticed_report h _)).bind fun _ u s hu => ?_
    exact tracks_pure _ hu
  · refine Tracks.tryCatch ?_ fun failure u s hu => ?_
    · rw [attemptAction, Direct.attemptAction]
      refine (shadows_describe hv a).bind fun description u s hu => ?_
      refine (shadows_plan hu kind a h).bind_run fun effect x s _ hplan hx => ?_
      cases effect with
      | none => exact tracks_pure _ hx
      | some effect =>
          dsimp only
          split
          · exact (tracks_pure [] hx).bind fun changes _ _ hy => tracks_pure _ hy
          · -- The tag was found when the action was planned, and nothing was removed since.
            have heffect : effect.TagExists x.store := by
              have hplanned := tagExists_of_plan hplan
              rw [hx.same] at hplanned
              exact hplanned
            exact (shadows_perform hx h heffect).bind fun changes _ _ hy => tracks_pure _ hy
    · refine (tracks_still hu (unnoticed_report h _)).bind fun _ x s hx => ?_
      exact tracks_pure _ hx

theorem shadows_runActions [Host] (hs : Shadowed f l (·.fields = F) w s) (h : Handle)
    (r : RuleDefinition) (dryRun : Bool) (actions : List Action) :
    Tracks (Shadowed f l (·.fields = F)) (Engine.runActions h r dryRun actions)
      (Direct.runActions h r dryRun actions) w s := by
  induction actions generalizing w s with
  | nil => exact tracks_pure [] hs
  | cons a rest ih =>
      rw [Engine.runActions, Direct.runActions]
      refine (shadows_runAction hs a h dryRun).bind fun outcome v s hv => ?_
      split
      · refine (tracks_still hv (unnoticed_transaction h h)).bind fun t u s hu => ?_
        refine (tracks_still hu (unnoticed_report h _)).bind fun _ v s hv => ?_
        exact tracks_pure _ hv
      · exact (ih hv).bind fun outcomes u s hu => tracks_pure _ hu

/-! ## Rules -/

/-- After a rule the field cache tells the truth again. -/
theorem shadows_runRule [Host] (hs : Shadowed f l (·.FieldsAgree h) w s) (r : RuleDefinition)
    (dryRun : Bool) :
    Tracks (Shadowed f l (·.FieldsAgree h)) (Engine.runRule h r dryRun) (Direct.runRule h r dryRun)
      w s := by
  rw [Engine.runRule, Direct.runRule]
  refine (shadows_ruleMatches hs r).bind fun matched v s hv => ?_
  split
  · have hacting : Shadowed f l (·.fields = v.fields) v s := { hv with rest := rfl }
    rcases (shadows_runActions hacting h r dryRun r.actions).cases with
      ⟨outcomes, u, u', hrun, hdirect, hu⟩ | ⟨failure, u, u', hrun, -, -⟩
    · refine tracks_bind_of_ok hrun hdirect ?_
      dsimp only
      split
      · -- The fields of the transaction are forgotten.
        refine ⟨rfl, hu.same, hu.changing, hu.agree, hu.links, fun id hid field value hvalue => ?_⟩
        have hforgotten : (u.fields.forget (u.transaction h).id).values.lookup (id, field) =
            some value := hvalue
        have hown : (u.transaction h).id = some id := hid
        rw [lookup_forget, if_pos hown.symm] at hforgotten
        cases hforgotten
      · next hkept =>
        -- They are kept, but the actions have only looked, so nothing that is shown has changed.
        have hlooks : Looks h v u := by
          cases dryRun with
          | true =>
              have hdry := looks_runActions_dry h r r.actions v
              rw [hrun] at hdry
              exact hdry
          | false =>
              rw [Bool.not_false, Bool.true_and, Bool.not_eq_true] at hkept
              exact looks_runActions_failed hv.changing hrun hkept
        refine tracks_pure _ ⟨hu.same, hu.changing, hu.agree, hu.links, ?_⟩
        intro id hid field value hvalue
        rw [hu.rest] at hvalue
        exact hlooks.unseen.shown field value
          (hv.rest id (hlooks.own.id_eq.symm.trans hid) field value hvalue)
    · -- Running the actions cannot fail.
      obtain ⟨outcomes, x, hok, -⟩ := succeeds_runActions h r dryRun r.actions v trivial
      rw [hok] at hrun
      cases hrun
  · exact tracks_pure _ hv

end Shadowed

end Rulebook
