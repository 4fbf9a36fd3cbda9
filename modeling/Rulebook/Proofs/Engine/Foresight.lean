import Mathlib.Data.List.Pairwise
import Rulebook.Proofs.Engine.Account
import Rulebook.Proofs.Engine.Caching
import Rulebook.Proofs.Engine.DryRun
import Rulebook.Proofs.Engine.Restriction
import Rulebook.Proofs.Engine.Verdict

/-!
# What a dry run foretells

A dry run and a live run part company as soon as an action has been carried out.  Up to then they
see the same transaction, so they find the same rules not to match, and they arrive at the same
first rule that matches.  The outcomes of its actions are the same as well, although the live run
carries each of them out before it comes to the next.  An action is planned among the labels of the
owner, and none of the labels that were there at first goes away.  Whether it can be carried out
depends on nothing else that actions change, and neither does its description.

Labels that are added on the way do matter to an action that names one of them by number: the dry
run cannot know it, and the live run finds it.  Hence the numbers that the actions of the rule name
have to be those of labels that are there (`RuleDefinition.NamesStored`).

In a batch the live run works on earlier transactions before it comes to a given one.  These may
have added labels, so the two runs come to the turn of the transaction with stores that differ.  It
is as it was, though, and it is still shown what it was shown (`Workspace.Awaits`).

## Main definitions

* `RuleDefinition.NamesStored` — the labels that the actions of a rule name are there.
* `Workspace.ActsOver` — the states of the actions of a rule, in a dry run or a live one.
* `RuleOutcome.reported`, `untilMatch` — what a summary reports of a rule, and the rules up to the
  first that matches.
* `Workspace.Awaits` — what is left for a transaction when its turn comes.

## Main statements

* `exists_shows_runActions` — the actions of a rule have the same outcomes in both runs.
* `untilMatch_runRules` — so have the rules, up to the first that matches.
* `Engine.dry_run_foretells` — every entry of a dry run foretells that of a live run.
-/

namespace Rulebook

open Program Workspace

section

/-! ## Actions -/

variable [Host]

/-- The labels that the action names by number are there. -/
def Action.NamesStored (s : Store) (a : Action) : Prop :=
  ∀ kind n, a.Names kind n → (s.labels kind).has n = true

/-- The labels that the actions of the rule name by number are there. -/
def RuleDefinition.NamesStored (s : Store) (r : RuleDefinition) : Prop :=
  ∀ a ∈ r.actions, a.NamesStored s

/-- A kind of action that takes the number of a label names the label with its value. -/
theorem Action.NamesStored.has {s : Store} {a : Action} (ha : a.NamesStored s) {kind : ActionKind}
    (hkind : (Vocabulary.ofJson? a.kind : Option ActionKind) = some kind)
    {value : Option ActionValue} (hvalue : a.typedValue = .ok value) {labelKind : LabelKind}
    (hlabel : match kind with
      | .setCategory => labelKind = .category
      | .setMerchant => labelKind = .merchant
      | .addTag | .removeTag => labelKind = .tag
      | _ => False) {n : Id} (hn : value = some (.identifier n)) :
    (s.labels labelKind).has n = true := by
  subst hn
  refine ha labelKind n ⟨hvalue, ?_⟩
  rw [hkind]
  cases kind <;> exact hlabel

/-- The outcome as a summary reports it, without the fields that were changed. -/
def ActionOutcome.reported (o : ActionOutcome) : ActionOutcome := { o with changes := [] }

/-- A transaction of the user is being worked on, the label cache tells the truth, and the labels of
an earlier store are still there. -/
structure Workspace.ActsOver (h : Handle) (id user : Id) (s : Store) (w : Workspace) : Prop
    extends w.IsWorkedOn h id user where
  agree : w.LabelsAgree
  labels : ∀ kind, (s.labels kind).Grows (w.store.labels kind)

section Actions

variable {h : Handle} {id user : Id} {s : Store} {w v : Workspace} {α : Type}

omit [Host] in
/-- Whoever only looks can go on. -/
theorem Workspace.ActsOver.looks (hw : w.ActsOver h id user s) (hl : Looks h w v) :
    v.ActsOver h id user s where
  toIsWorkedOn := (hl.yields hw.toIsWorkedOn).workedOn
  agree := hl.agree hw.agree
  labels kind := by
    rw [hl.store]
    exact hw.labels kind

omit [Host] in
theorem tells_acting {x : Operation α} {r : Except Failure α} (hx : Keeps (Looks h) x)
    (hr : ∀ w, w.ActsOver h id user s → (x.runOn w).1 = r) : Tells (ActsOver h id user s) r x :=
  fun w hw => ⟨hr w hw, hw.looks (hx w)⟩

omit [Host] in
/-- The transaction that is read on the way has its number. -/
theorem shows_transaction {β : Type} {f : LiveTransaction → Operation α} {g : α → β}
    {r : Except Failure β}
    (hf : ∀ t : LiveTransaction, t.id = some id → Shows (ActsOver h id user s) g r (f t)) :
    Shows (ActsOver h id user s) g r (transaction h >>= f) := fun w hw => hf _ hw.id w hw

omit [Host] in
/-- A label that a value names by number shows the same as long as it is there. -/
theorem tells_labelText_acting {kind : LabelKind} {value : Option ActionValue}
    (hnamed : ∀ n, value = some (.identifier n) → (s.labels kind).has n = true) :
    Tells (ActsOver h id user s) (.ok (Direct.labelText s kind value)) (labelText kind value) := by
  refine tells_acting (looks_labelText kind value) fun w hw => ?_
  obtain ⟨labels, hrun, -⟩ := runOn_labelText hw.agree kind value
  rw [hrun, Direct.labelText_of_grows (hw.labels kind) hnamed]

omit [Host] in
theorem tells_ownedLabel_acting {kind : LabelKind} {value : Option ActionValue}
    (hnamed : ∀ n, value = some (.identifier n) → (s.labels kind).has n = true) (owner : Id) :
    Tells (ActsOver h id user s) (.ok (Direct.ownedLabel s kind value owner))
      (ownedLabel kind value owner) := by
  refine tells_acting (looks_ownedLabel kind value owner) fun w hw => ?_
  obtain ⟨labels, hrun, -⟩ := runOn_ownedLabel hw.agree kind value owner
  rw [hrun, Direct.ownedLabel_of_grows (hw.labels kind) hnamed]

/-- What an action says that it does is the same as long as the labels it names are there. -/
theorem exists_tells_describe_acting (h : Handle) (id user : Id) {a : Action}
    (ha : a.NamesStored s) :
    ∃ r, Tells (ActsOver h id user s) r (describe a) := by
  rw [describe]
  rcases hkind : (Vocabulary.ofJson? a.kind : Option ActionKind) with _ | kind
  · exact ⟨_, tells_pure _⟩
  · have hlabel : ∀ value labelKind (f : String → String),
        (∀ n, value = some (.identifier n) → (s.labels labelKind).has n = true) →
        ∃ text, Tells (ActsOver h id user s) (.ok text)
          (do return f (← labelText labelKind value)) :=
      fun value labelKind f hnamed =>
        ⟨_, (tells_labelText_acting hnamed).bind_ok (tells_pure _)⟩
    have htext : ∀ value, a.typedValue = .ok value →
        ∃ text, Tells (ActsOver h id user s) (.ok text) (describeKind kind value) := by
      intro value hvalue
      cases kind with
      | setCategory => exact hlabel value .category _ fun n => ha.has hkind hvalue rfl
      | setMerchant => exact hlabel value .merchant _ fun n => ha.has hkind hvalue rfl
      | addTag => exact hlabel value .tag _ fun n => ha.has hkind hvalue rfl
      | removeTag => exact hlabel value .tag _ fun n => ha.has hkind hvalue rfl
      | _ => exact ⟨_, tells_pure _⟩
    rcases hvalue : a.typedValue with failure | value
    · exact ⟨_, (tells_ofExcept (.error failure)).bind
        (g := fun _ => (.error failure : Except Failure String)) fun _ h => by cases h⟩
    · obtain ⟨text, htells⟩ := htext value hvalue
      exact ⟨_, (tells_ofExcept (.ok value)).bind_ok htells⟩

omit [Host] in
/-- Whether a text can be used does not depend on the transaction, apart from its having a row. -/
theorem isSome_planText (kind : ActionKind) {t u : LiveTransaction}
    (hsaved : u.id.isSome = t.id.isSome) (owner : Id) (words : String) :
    (planText kind u owner words).isSome = (planText kind t owner words).isSome := by
  cases kind with
  | createTag => simp only [planText, hsaved]
  | _ => rfl

/-- Whether an action can be planned does not depend on what other actions change. -/
theorem exists_shows_planKind (h : Handle) (id user : Id) {a : Action} (ha : a.NamesStored s)
    {kind : ActionKind}
    (hkind : (Vocabulary.ofJson? a.kind : Option ActionKind) = some kind)
    {value : Option ActionValue} (hvalue : a.typedValue = .ok value) (owner : Id) :
    ∃ can, ∀ t : LiveTransaction, t.id = some id →
      Shows (ActsOver h id user s) Option.isSome (.ok can) (planKind kind a value t owner) := by
  have howned : ∀ labelKind (f : Option (Id × Label) → Option Effect),
      (∀ n, value = some (.identifier n) → (s.labels labelKind).has n = true) →
      Shows (ActsOver h id user s) Option.isSome
        (.ok (f (Direct.ownedLabel s labelKind value owner)).isSome)
        (do return f (← ownedLabel labelKind value owner)) :=
    fun labelKind f hnamed =>
      (tells_ownedLabel_acting hnamed owner).bind_shows_ok (shows_pure rfl)
  cases kind with
  | setCategory =>
      exact ⟨_, fun t _ => howned .category _ fun n => ha.has hkind hvalue rfl⟩
  | setMerchant =>
      exact ⟨_, fun t _ => howned .merchant _ fun n => ha.has hkind hvalue rfl⟩
  | addTag =>
      have hattach := howned .tag (Option.map fun found => .attachTag found.1)
        fun n => ha.has hkind hvalue rfl
      refine ⟨((Direct.ownedLabel s .tag value owner).map fun found =>
        Effect.attachTag found.1).isSome, fun t ht => ?_⟩
      simp only [planKind, ht, Option.isSome_some, if_true]
      exact hattach
  | removeTag =>
      exact ⟨_, fun t _ => howned .tag _ fun n => ha.has hkind hvalue rfl⟩
  | removeAllTags => exact ⟨true, fun t _ => shows_pure rfl⟩
  | markReconciled => exact ⟨true, fun t _ => shows_pure rfl⟩
  | sendNotification => exact ⟨true, fun t _ => shows_pure rfl⟩
  | _ =>
      rcases value with _ | ⟨n | words⟩
      · exact ⟨false, fun t _ => shows_pure rfl⟩
      · exact ⟨false, fun t _ => shows_pure rfl⟩
      · refine ⟨(planText _ { (default : LiveTransaction) with id := some id } owner words).isSome,
          fun t ht => shows_pure (isSome_planText _ ?_ owner words)⟩
        rw [ht]

theorem exists_shows_plan (h : Handle) (id user : Id) {a : Action} (ha : a.NamesStored s)
    {kind : ActionKind}
    (hkind : (Vocabulary.ofJson? a.kind : Option ActionKind) = some kind) :
    ∃ r, Shows (ActsOver h id user s) Option.isSome r (plan kind a h) := by
  have howner : Tells (ActsOver h id user s) (.ok (some user)) (ownerOf h) :=
    tells_acting (looks_ownerOf h) fun w hw => congrArg Prod.fst hw.owned.runOn_ownerOf
  rw [plan]
  rcases hvalue : a.typedValue with failure | value
  · exact ⟨.error failure, fun w hw => ⟨rfl, hw⟩⟩
  · obtain ⟨can, hcan⟩ := exists_shows_planKind h id user ha hkind hvalue user
    refine ⟨.ok can, (tells_ofExcept (.ok value)).bind_shows_ok (howner.bind_shows_ok ?_)⟩
    exact shows_transaction hcan

omit [Host] in
/-- Carrying out an effect keeps the label cache truthful. -/
theorem labelsAgree_perform (hw : w.isChanging = true) (hagree : w.LabelsAgree) (effect : Effect) :
    ((effect.perform h).runOn w).2.LabelsAgree := by
  have hfound : ∀ kind name owner {β : Type} (f : Id × Label → Operation β),
      (∀ found v, v.isChanging = true → v.LabelsAgree → ((f found).runOn v).2.LabelsAgree) →
      ((findOrAddLabel kind name owner >>= f).runOn w).2.LabelsAgree := by
    intro kind name owner β f hf
    have hagree' := labelsAgree_findOrAddLabel hagree kind name owner hw
    obtain ⟨found, v, hrun, hv⟩ := succeeds_findOrAddLabel kind name owner w hw
    rw [hrun] at hagree'
    rw [runOn_bind, hrun]
    exact hf found v hv hagree'
  have hput : ∀ tag v, v.isChanging = true → v.LabelsAgree →
      ((putTag h tag >>= fun _ => pure [] : Operation (List TransactionField)).runOn
        v).2.LabelsAgree := by
    intro tag v hv hagree
    rw [runOn_bind, runOn_putTag h tag hv]
    cases (v.transaction h).id with
    | none => exact hagree
    | some n =>
        refine labelsAgree_store hagree fun kind => ?_
        rw [Store.addLink]
        split <;> cases kind <;> rfl
  have htake : ∀ test, ((takeTags h test >>= fun _ => pure [] :
      Operation (List TransactionField)).runOn w).2.LabelsAgree := by
    intro test
    rw [runOn_bind, runOn_takeTags h test hw]
    cases (w.transaction h).id with
    | none => exact hagree
    | some n =>
        refine labelsAgree_store hagree fun kind => ?_
        cases kind <;> rfl
  cases effect with
  | setNamedLabel role name owner => exact hfound role.kind name owner _ fun _ _ _ hv => hv
  | attachTag tag => exact hput tag w hw hagree
  | attachNamedTag name owner => exact hfound .tag name owner _ fun found => hput found.1
  | detachTag tag => exact htake _
  | detachAllTags => exact htake _
  | _ => exact hagree

omit [Host] in
theorem succeeds_perform_acting (effect : Effect) :
    Succeeds (ActsOver h id user s) (effect.perform h) := by
  intro w hw
  obtain ⟨fields, v, hrun, hchanging⟩ := succeeds_perform h effect w hw.changing
  have hworks := works_perform (L := Eq) h effect w
  have hagree := labelsAgree_perform (h := h) hw.changing hw.agree effect
  rw [hrun] at hworks hagree
  have haccount := (standing_perform hw.changing hw.id hrun fun kind =>
    Std.Refl.refl (v.store.labels kind)).2
  exact ⟨fields, v, hrun,
    { changing := hchanging
      id := hworks.ownId.trans hw.id
      owned := hw.owned.of_account haccount
      agree := hagree
      labels := fun kind => IsTrans.trans _ _ _ (hw.labels kind) (hworks.store.labels kind) }⟩

/-- An action has the same outcome in every run, whatever the actions before it changed. -/
theorem exists_shows_runAction (h : Handle) (id user : Id) {a : Action} (ha : a.NamesStored s) :
    ∃ outcome, ∀ dryRun, Shows (ActsOver h id user s) ActionOutcome.reported (.ok outcome)
      (runAction a h dryRun) := by
  have hreport : ∀ (e : Event) (o : ActionOutcome),
      Shows (ActsOver h id user s) ActionOutcome.reported (.ok o.reported)
        (do report e; return o) := fun e o =>
    (tells_acting (looks_report e) fun _ _ => rfl).bind_shows_ok (shows_pure rfl)
  rcases hkind : (Vocabulary.ofJson? a.kind : Option ActionKind) with _ | kind
  · refine ⟨⟨a.kind.display, false, "Unknown action", []⟩, fun dryRun => ?_⟩
    rw [runAction]
    refine shows_transaction fun t _ => ?_
    rw [hkind]
    exact hreport _ ⟨a.kind.display, false, "Unknown action", []⟩
  · obtain ⟨description, hdescription⟩ := exists_tells_describe_acting h id user ha
    obtain ⟨can, hcan⟩ := exists_shows_plan h id user ha hkind
    let failed : ActionOutcome :=
      ⟨Vocabulary.code kind, false, "Failed: " ++ Vocabulary.label kind, []⟩
    refine ⟨handled (fun _ => failed) (do
      let text ← description
      return ⟨Vocabulary.code kind, ← can, text, []⟩), fun dryRun => ?_⟩
    rw [runAction]
    refine shows_transaction fun t _ => ?_
    rw [hkind]
    refine Shows.tryCatch ?_ fun failure => hreport _ failed
    rw [attemptAction]
    refine hdescription.bind_shows fun text _ => hcan.bind fun effect _ => ?_
    cases effect with
    | none => exact shows_pure rfl
    | some effect =>
        -- Carrying the effect out cannot fail, and it shows at most in the fields changed.
        cases dryRun with
        | true => exact shows_pure rfl
        | false =>
            exact (succeeds_perform_acting effect).shows.bind_ok fun changes _ => shows_pure rfl

/-- The actions of a rule have the same outcomes in every run, and the run may end with the same one
of them. -/
theorem exists_shows_runActions (h : Handle) (id user : Id) {actions : List Action}
    (hnames : ∀ a ∈ actions, a.NamesStored s) :
    ∃ outcomes, ∀ (r : RuleDefinition) (dryRun : Bool),
      Shows (ActsOver h id user s) (List.map ActionOutcome.reported) (.ok outcomes)
        (Engine.runActions h r dryRun actions) := by
  induction actions with
  | nil => exact ⟨[], fun r dryRun => shows_pure rfl⟩
  | cons a rest ih =>
      obtain ⟨outcome, houtcome⟩ := exists_shows_runAction h id user (hnames a List.mem_cons_self)
      obtain ⟨outcomes, houtcomes⟩ := ih fun b hb => hnames b (List.mem_cons_of_mem a hb)
      refine ⟨if !outcome.succeeded && a.stopProcessing.isTruthy then [outcome]
        else outcome :: outcomes, fun r dryRun => ?_⟩
      rw [Engine.runActions]
      refine (houtcome dryRun).bind_ok fun o ho => ?_
      subst ho
      have hsucceeded : o.reported.succeeded = o.succeeded := rfl
      rw [hsucceeded]
      split
      · refine shows_transaction fun t _ => ?_
        exact (tells_acting (looks_report _) fun _ _ => rfl).bind_shows_ok (shows_pure rfl)
      · exact (houtcomes r dryRun).bind_ok fun later hlater => shows_pure (by rw [← hlater]; rfl)

end Actions

/-! ## Rules -/

/-- The outcome as a summary reports it, without the fields that were changed. -/
def RuleOutcome.reported (o : RuleOutcome) : RuleOutcome :=
  { o with actions := o.actions.map ActionOutcome.reported }

/-- What is reported of the rules up to the first that matches, and of that one. -/
def untilMatch : List RuleOutcome → List RuleOutcome
  | [] => []
  | o :: rest => if o.matched then [o.reported] else o.reported :: untilMatch rest

/-- The first rule that matches. -/
def firstMatch? (rules : List RuleDefinition) (outcomes : List RuleOutcome) :
    Option RuleDefinition :=
  ((rules.zip outcomes).find? fun entry => entry.2.matched).map (·.1)

section Rules

variable {h : Handle} {id user : Id} {s s' : Store} {t : LiveTransaction} {w v w' v' : Workspace}

omit [Host] in
/-- A transaction shows the same while evaluations are logged. -/
theorem Workspace.Sees.logged (hw : w.Sees h s t) (hl : Logged w v) : v.Sees h v.store t := by
  obtain ⟨rfl, hown, hfields, hlabels⟩ := hw
  have hstore := hl.store
  generalize v.store.logs = logs at hstore
  refine ⟨rfl, ?_, ?_, ?_⟩
  · rw [hl.transaction, hstore]
    exact ⟨hown.bare, hown.account, hown.category, hown.merchant⟩
  · intro n hn field value hvalue
    rw [hl.fields] at hvalue
    rw [hstore, ← hfields n hn field value hvalue]
    cases field <;> rfl
  · intro kind n found hfound
    rw [hl.labels] at hfound
    rw [hstore, ← hlabels kind n found hfound]
    cases kind <;> rfl

omit [Host] in
theorem Store.StillShows.of_logs (hs : s.StillShows (some id) s') {u u' : Store}
    (hu : u = { s with logs := u.logs }) (hu' : u' = { s' with logs := u'.logs }) :
    u.StillShows (some id) u' := by
  generalize u.logs = logs at hu
  generalize u'.logs = logs' at hu'
  subst hu hu'
  refine ⟨hs.accounts, fun kind => ?_, hs.tags⟩
  have hlabels := hs.labels kind
  cases kind <;> exact hlabels

/-- The outcome of a rule is that of its definition, apart from whether it matched and what became
of its actions. -/
theorem gives_runRule_reported {r : RuleDefinition} {dryRun : Bool} :
    Gives (fun o => o.reported = ⟨r.id, r.name, o.matched, o.actions.map ActionOutcome.reported,
        if o.matched then r.stopProcessing else .bool false⟩ ∧
        (o.matched = false → o.actions = [])) (Engine.runRule h r dryRun) := by
  rw [Engine.runRule]
  refine gives_bind fun matched => ?_
  split
  · refine gives_bind fun actions => ?_
    dsimp only
    split
    · exact gives_bind fun _ => gives_pure ⟨rfl, fun hnone => by cases hnone⟩
    · exact gives_pure ⟨rfl, fun hnone => by cases hnone⟩
  · exact gives_pure ⟨rfl, fun _ => rfl⟩

/-- How far a rule is foretold: whether it matches, and what its actions come to if it does. -/
theorem reported_runRule {base : Store} (hbase : ∀ kind, (base.labels kind).Grows (s.labels kind))
    (hs : s.StillShows (some id) s') (hw : w.Sees h s t) (hw' : w'.Sees h s' t)
    (hwork : w.IsWorkedOn h id user) (hwork' : w'.IsWorkedOn h id user) {r : RuleDefinition}
    {o o' : RuleOutcome} {dryRun dryRun' : Bool}
    (hnames : o.matched = true → r.NamesStored base)
    (hrun : (Engine.runRule h r dryRun).runOn w = (.ok o, v))
    (hrun' : (Engine.runRule h r dryRun').runOn w' = (.ok o', v')) :
    o'.reported = o.reported ∧
      (o.matched = false → v.Sees h s t ∧ v'.Sees h s' t ∧ v.IsWorkedOn h id user ∧
        v'.IsWorkedOn h id user) := by
  obtain ⟨hshape, hidle⟩ := gives_runRule_reported w o v hrun
  obtain ⟨hshape', hidle'⟩ := gives_runRule_reported w' o' v' hrun'
  obtain ⟨u, hmatches, hrest⟩ := Engine.runRule_eq_ok hrun
  obtain ⟨u', hmatches', hrest'⟩ := Engine.runRule_eq_ok hrun'
  obtain ⟨hverdict, hu⟩ := tells_rule_verdict r w hw
  obtain ⟨hverdict', hu'⟩ := tells_rule_verdict r w' hw'
  have hlooks := looks_ruleMatches h r w
  have hlooks' := looks_ruleMatches h r w'
  rw [hmatches] at hverdict hu hlooks
  rw [hmatches'] at hverdict' hu' hlooks'
  have hworku := (hlooks.yields hwork).workedOn
  have hworku' := (hlooks'.yields hwork').workedOn
  -- Nothing that the rule looks at has changed, so both runs find it to match, or neither does.
  have hid : t.id = some id := hw.own.id_eq.symm.trans hwork.id
  have hmatched : o'.matched = o.matched := by
    have hsame := (hid ▸ hs : s.StillShows t.id s').verdict hverdict.symm
    exact Except.ok.inj (hverdict'.trans hsame)
  cases hm : o.matched with
  | false =>
      rw [hshape, hshape', hmatched, hm, hidle hm, hidle' (hmatched.trans hm)]
      refine ⟨rfl, fun _ => ?_⟩
      rcases hrest with ⟨-, -, rfl⟩ | ⟨_, hyes, -⟩
      · rcases hrest' with ⟨-, -, rfl⟩ | ⟨_, hyes, -⟩
        · exact ⟨hu, hu', hworku, hworku'⟩
        · exact nomatch (hmatched.trans hm).symm.trans hyes
      · exact nomatch hm.symm.trans hyes
  | true =>
      obtain ⟨outcomes, hshown⟩ := exists_shows_runActions h id user (hnames hm)
      have hacts : u.ActsOver h id user base := ⟨hworku, hu.labels, hu.store ▸ hbase⟩
      have hacts' : u'.ActsOver h id user base :=
        ⟨hworku', hu'.labels, fun kind =>
          IsTrans.trans _ _ _ (hbase kind) (hu'.store ▸ hs.labels kind)⟩
      have hactions : o.actions.map ActionOutcome.reported = outcomes := by
        rcases hrest with ⟨hno, -⟩ | ⟨x, -, hrun, -⟩
        · exact nomatch hm.symm.trans hno
        · have hresult := (hshown r dryRun u hacts).1
          rw [hrun] at hresult
          exact Except.ok.inj hresult
      have hactions' : o'.actions.map ActionOutcome.reported = outcomes := by
        rcases hrest' with ⟨hno, -⟩ | ⟨x, -, hrun, -⟩
        · exact nomatch (hmatched.trans hm).symm.trans hno
        · have hresult := (hshown r dryRun' u' hacts').1
          rw [hrun] at hresult
          exact Except.ok.inj hresult
      rw [hshape, hshape', hmatched, hm, hactions, hactions']
      exact ⟨rfl, fun hno => nomatch hno⟩

/-- Two runs over a transaction that see the same of it report the same, up to the first rule that
matches. -/
theorem untilMatch_runRules {e : Engine} {trigger : Trigger} {base : Store}
    (hbase : ∀ kind, (base.labels kind).Grows (s.labels kind)) (hs : s.StillShows (some id) s')
    (hw : w.Sees h s t) (hw' : w'.Sees h s' t) (hwork : w.IsWorkedOn h id user)
    (hwork' : w'.IsWorkedOn h id user) {rules : List RuleDefinition}
    {outcomes outcomes' : List RuleOutcome} {dryRun dryRun' log log' : Bool}
    (hnames : ∀ r, firstMatch? rules outcomes = some r → r.NamesStored base)
    (hrun : (e.runRules h trigger dryRun log rules).runOn w = (.ok outcomes, v))
    (hrun' : (e.runRules h trigger dryRun' log' rules).runOn w' = (.ok outcomes', v')) :
    untilMatch outcomes' = untilMatch outcomes := by
  induction rules generalizing s s' w w' outcomes outcomes' with
  | nil =>
      cases hrun
      cases hrun'
      rfl
  | cons r rest ih =>
      obtain ⟨o, u, x, hrule, hlogged, hrest⟩ := Engine.runRules_cons_eq_ok hrun
      obtain ⟨o', u', x', hrule', hlogged', hrest'⟩ := Engine.runRules_cons_eq_ok hrun'
      have hfirst : o.matched = true → r.NamesStored base := by
        intro hmatched
        refine hnames r ?_
        rcases hrest with ⟨rfl, -⟩ | ⟨later, rfl, -⟩ <;> simp [firstMatch?, hmatched]
      obtain ⟨hreported, hunmatched⟩ :=
        reported_runRule hbase hs hw hw' hwork hwork' hfirst hrule hrule'
      have hflag := congrArg RuleOutcome.matched hreported
      have hmatched : o'.matched = o.matched := hflag
      cases hm : o.matched with
      | true =>
          have huntil : ∀ {o : RuleOutcome} {outcomes : List RuleOutcome}, o.matched = true →
              (outcomes = [o] ∨ ∃ later, outcomes = o :: later) →
              untilMatch outcomes = [o.reported] := by
            rintro o outcomes hm (rfl | ⟨later, rfl⟩) <;> rw [untilMatch, if_pos hm]
          rw [huntil hm (hrest.imp And.left fun ⟨later, heq, _⟩ => ⟨later, heq⟩),
            huntil (hmatched.trans hm)
              (hrest'.imp And.left fun ⟨later, heq, _⟩ => ⟨later, heq⟩), hreported]
      | false =>
          obtain ⟨later, rfl, hlater⟩ : ∃ later, outcomes = o :: later ∧
              (e.runRules h trigger dryRun log rest).runOn x = (.ok later, v) :=
            hrest.resolve_left fun ⟨_, _, hyes⟩ => nomatch hm.symm.trans hyes
          obtain ⟨later', rfl, hlater'⟩ : ∃ later, outcomes' = o' :: later ∧
              (e.runRules h trigger dryRun' log' rest).runOn x' = (.ok later, v') :=
            hrest'.resolve_left fun ⟨_, _, hyes⟩ => nomatch (hmatched.trans hm).symm.trans hyes
          obtain ⟨hu, hu', hworku, hworku'⟩ := hunmatched hm
          have hstore := hu.store ▸ hlogged.store
          have hstore' := hu'.store ▸ hlogged'.store
          rw [untilMatch, untilMatch, hmatched, hm, if_neg Bool.false_ne_true,
            if_neg Bool.false_ne_true, hreported]
          refine congrArg _ (ih ?_ (hs.of_logs hstore hstore') (hu.logged hlogged)
            (hu'.logged hlogged') (hlogged.yields hworku).workedOn
            (hlogged'.yields hworku').workedOn (fun r hr => hnames r ?_) hlater hlater')
          · intro kind
            have hgrows := hbase kind
            rw [hstore]
            cases kind <;> exact hgrows
          · simpa [firstMatch?, hm] using hr

end Rules

/-! ## Turns -/

/-- What is left for a transaction when its turn comes: it is as it was, and it still shows what it
showed.  In a dry run no labels were added. -/
structure Workspace.Awaits (dryRun : Bool) (h : Handle) (w u : Workspace) : Prop where
  transaction : u.transaction h = w.transaction h
  shows : w.store.StillShows (w.transaction h).id u.store
  labels : dryRun = true → ∀ kind, u.store.labels kind = w.store.labels kind

section Turns

variable {h k : Handle} {w u v : Workspace} {dryRun : Bool}

instance (dryRun : Bool) (h : Handle) : IsPreorder Workspace (Awaits dryRun h) where
  refl _ := ⟨rfl, ⟨rfl, fun _ => Std.Refl.refl _, fun _ _ => rfl⟩, fun _ _ => rfl⟩
  trans _ _ _ hv hu :=
    { transaction := hu.transaction.trans hv.transaction
      shows :=
        { accounts := hu.shows.accounts.trans hv.shows.accounts
          labels := fun kind => IsTrans.trans _ _ _ (hv.shows.labels kind) (hu.shows.labels kind)
          tags := fun n hn =>
            (hu.shows.tags n (hv.transaction ▸ hn)).trans (hv.shows.tags n hn) }
      labels := fun hdry kind => (hu.labels hdry kind).trans (hv.labels hdry kind) }

omit [Host] in
/-- A transaction sees itself where the caches are right about it. -/
theorem sees_of_agree (hagree : w.LabelsAgree) (hfields : w.FieldsAgree h) :
    w.Sees h w.store (w.transaction h) where
  store := rfl
  own := Std.Refl.refl _
  fields id hid field value hvalue := by
    have hshown := runOn_resolveField_of_shown (hfields id hid field value hvalue)
    rw [← result_resolveField, hshown]
  labels := hagree

omit [Host] in
instance (w : Workspace) : Std.Symm w.Apart where
  symm _ _ hapart := hapart.symm

namespace Engine

variable {e : Engine} {rules : List RuleDefinition} {trigger : Trigger} {log log' : Bool}

/-- A dry run of a transaction adds no labels, not even when it fails. -/
theorem labels_processOne_dry (h : Handle) (kind : LabelKind) (w : Workspace) :
    ((e.processOne rules trigger true log h).runOn w).2.store.labels kind =
      w.store.labels kind := by
  have hrun : Rehearsed log w
      ((atomically (e.runTransaction h rules trigger true log)).runOn w).2 :=
    rehearsed_attempt h rules log w
  have hlabels : ∀ {v : Workspace}, Rehearsed log w v →
      v.store.labels kind = w.store.labels kind := by
    intro v hv
    rw [hv.store]
    cases kind <;> rfl
  rw [runOn_processOne]
  rcases hattempt : (atomically (e.runTransaction h rules trigger true log)).runOn w with
    ⟨failure | t, v⟩ <;> rw [hattempt] at hrun
  · have hdropped : ((discard h).runOn v).2.store = v.store := by
      rw [runOn_discard, store_refresh]
    dsimp only
    rcases hdiscard : (discard h).runOn v with ⟨failure' | _, u⟩ <;> rw [hdiscard] at hdropped
    · exact (congrArg (Store.labels · kind) hdropped).trans (hlabels hrun)
    · exact (congrArg (Store.labels · kind) hdropped).trans (hlabels hrun)
  · exact hlabels hrun

/-- The turn of one transaction leaves the others waiting. -/
theorem awaits_processOne (hsaving : e.IsSaving) (hlinks : w.store.LinksResolve)
    (hapart : w.Apart h k) :
    Awaits dryRun h w ((e.processOne rules trigger dryRun log k).runOn w).2 := by
  have hworks : Works AnyLogs k w ((e.processOne rules trigger dryRun log k).runOn w).2 :=
    works_processOne_saving hsaving k w
  refine ⟨hworks.others h hapart.1, ⟨hworks.store.accounts, hworks.store.labels, fun n hn => ?_⟩,
    fun hdry kind => ?_⟩
  · exact hworks.store.tagsOf_eq hlinks (hapart.2 n hn).symm
  · subst hdry
    exact labels_processOne_dry k kind w

omit [Host] in
/-- Caches that are empty are right. -/
theorem coherent_opened {source : Source} (hlinks : w.store.LinksResolve)
    (hapart : (source.handles e w).Pairwise (source.opened e w).Apart) :
    Coherent (source.handles e w) (source.opened e w) := by
  refine ⟨?_, hlinks, ?_, fun h hh k hk id hid hkid => ?_⟩
  · rintro kind id found ⟨⟩
  · rintro h hh id hid field value ⟨⟩
  · by_contra hne
    exact (hapart.forall hh hk (Ne.symm hne)).2 id hid hkid

/-- A pass over transactions that are apart, seen from each of them: it waits for its turn, and the
caches are right when the turn comes. -/
theorem forall₂_awaited (hsaving : e.IsSaving) {handles batch : List Handle}
    (hbatch : ∀ h ∈ batch, h ∈ handles) (hc : Coherent handles w)
    (hapart : batch.Pairwise w.Apart) {entries : List TransactionSummary}
    (hrun : (batch.mapM (e.processOne rules trigger dryRun log)).runOn w = (.ok entries, v)) :
    List.Forall₂
      (fun h t => ∃ u u', Awaits dryRun h w u ∧ u.LabelsAgree ∧ u.FieldsAgree h ∧
        (e.processOne rules trigger dryRun log h).runOn u = (.ok t, u'))
      batch entries := by
  induction batch generalizing w entries with
  | nil =>
      cases hrun
      exact .nil
  | cons h rest ih =>
      rw [List.mapM_cons] at hrun
      obtain ⟨t, u, hfirst, hrun⟩ := runOn_bind_eq_ok hrun
      obtain ⟨later, v', hrest, hrun⟩ := runOn_bind_eq_ok hrun
      cases hrun
      obtain ⟨hthis, hothers⟩ := List.pairwise_cons.1 hapart
      have hh := hbatch h List.mem_cons_self
      have hworks : Works AnyLogs h w ((e.processOne rules trigger dryRun log h).runOn w).2 :=
        works_processOne_saving hsaving h w
      have hfollows : Tracks (Follows handles {} []) (e.processOne rules trigger dryRun log h)
          (Direct.processOne e rules trigger dryRun log h) w (w.withCaches {} []) :=
        follows_processOne hsaving rules hc hh
      have hcoherent := hfollows.state.2
      rw [hfirst] at hworks hcoherent
      refine .cons ⟨w, u, Std.Refl.refl w, hc.agree, hc.fields h hh, hfirst⟩ ?_
      have hturns := ih (fun k hk => hbatch k (List.mem_cons_of_mem h hk)) hcoherent
        (hothers.imp fun hk => hworks.apart hk) hrest
      refine List.forall₂_iff_zip.2 ⟨hturns.length_eq, fun {k s} hks => ?_⟩
      obtain ⟨x, x', hx, hagree, hfields, hturn⟩ := (List.forall₂_iff_zip.1 hturns).2 hks
      have hwaits : Awaits dryRun k w ((e.processOne rules trigger dryRun log h).runOn w).2 :=
        awaits_processOne hsaving hc.links (hthis k (List.of_mem_zip hks).1).symm
      rw [hfirst] at hwaits
      exact ⟨x, x', IsTrans.trans _ _ _ hwaits hx, hagree, hfields, hturn⟩

/-- The turns of a transaction that sees the same in both of them. -/
theorem untilMatch_processOne {id : Id} {base : Store} {dryRun' : Bool} {u u' x x' : Workspace}
    {t t' : TransactionSummary} (hu : u.LabelsAgree ∧ u.FieldsAgree h)
    (hu' : u'.LabelsAgree ∧ u'.FieldsAgree h) (hsame : u'.transaction h = u.transaction h)
    (hid : (u.transaction h).id = some id)
    (hbase : ∀ kind, (base.labels kind).Grows (u.store.labels kind))
    (hs : u.store.StillShows (some id) u'.store)
    (hnames : ∀ r, firstMatch? rules t.rules = some r → r.NamesStored base)
    (hrun : (e.processOne rules trigger dryRun log h).runOn u = (.ok t, x))
    (hrun' : (e.processOne rules trigger dryRun' log' h).runOn u' = (.ok t', x'))
    (ht : t.error = none) (ht' : t'.error = none) : untilMatch t'.rules = untilMatch t.rules := by
  obtain ⟨y, hinside, -⟩ := processOne_eq_ok hrun ht
  obtain ⟨y', hinside', -⟩ := processOne_eq_ok hrun' ht'
  obtain ⟨z, outcomes, _, howner, hrules, -, rfl⟩ := runTransaction_eq_ok hinside
  obtain ⟨z', outcomes', _, howner', hrules', -, rfl⟩ := runTransaction_eq_ok hinside'
  have hsees : Sees h u.store (u.transaction h) { u with isChanging := true } :=
    sees_of_agree (w := { u with isChanging := true }) hu.1 hu.2
  have hsees' : Sees h u'.store (u.transaction h) { u' with isChanging := true } :=
    hsame ▸ sees_of_agree (w := { u' with isChanging := true }) hu'.1 hu'.2
  have hz := (tells_ownerOf _ hsees).2
  have hz' := (tells_ownerOf _ hsees').2
  have hlooks := looks_ownerOf h { u with isChanging := true }
  have hlooks' := looks_ownerOf h { u' with isChanging := true }
  rw [howner] at hz hlooks
  rw [howner'] at hz' hlooks'
  have hwork : z.IsWorkedOn h id e.user :=
    ⟨hlooks.isChanging, hlooks.own.id_eq.trans hid, ownedBy_of_ownerOf howner⟩
  have hid' : (u'.transaction h).id = some id := hsame ▸ hid
  have hwork' : z'.IsWorkedOn h id e.user :=
    ⟨hlooks'.isChanging, hlooks'.own.id_eq.trans hid', ownedBy_of_ownerOf howner'⟩
  exact untilMatch_runRules hbase hs hz hz' hwork hwork' hnames hrules hrules'

/-- A run over transactions whose rows are there is a pass that gives a summary. -/
theorem exists_pass_of_rows (hsaving : e.IsSaving) {source : Source} (hrows : source.RowsExist w)
    (rules : List RuleDefinition) (trigger : Trigger) (dryRun log : Bool) :
    ∃ entries x, (e.process (source.batch e) rules trigger dryRun log).runOn w =
        (.ok ⟨dryRun, Vocabulary.code trigger, entries⟩, x) ∧
      ∃ v, ((source.handles e w).mapM (e.processOne rules trigger dryRun log)).runOn
        (source.opened e w) = (.ok entries, v) := by
  have hobserver : ∀ observer, e.observer = some observer →
      ∀ h summary, Keeps StillThere (observer h summary) := fun observer hsome h summary =>
    (works_observer (L := AnyLogs) hsaving hsome h summary).mono fun _ _ hw => hw.stillThere
  obtain ⟨x, hrun⟩ := process_gives_entries hobserver source rules trigger dryRun log hrows
  refine ⟨_, x, hrun, ?_⟩
  rw [runOn_process] at hrun
  rcases hpass : ((source.handles e w).mapM (e.processOne rules trigger dryRun log)).runOn
    (source.opened e w) with ⟨failure | entries, v⟩ <;> rw [hpass] at hrun <;> cases hrun
  exact ⟨v, rfl⟩

/-- A dry run foretells the live run as long as nothing has changed.  Two runs over the same
transactions, the one dry and the other live, give summaries from the same workspace.  For every
saved transaction that fails in neither of them, they report the same of all rules up to the first
that matches, and of that rule: whether it matches, what its actions are, which of them succeed and
how they are described, and whether it stops processing.  The labels that the actions of this rule
name by number have to be there when the run begins. -/
theorem dry_run_foretells {e : Engine} (hsaving : e.IsSaving) (source : Source)
    (rules : List RuleDefinition) (trigger : Trigger) (log log' : Bool) {w : Workspace}
    (hlinks : w.store.LinksResolve) (hrows : source.RowsExist w)
    (hapart : (source.handles e w).Pairwise (source.opened e w).Apart) :
    ∃ dry live v v',
      (e.process (source.batch e) rules trigger true log).runOn w = (.ok dry, v) ∧
      (e.process (source.batch e) rules trigger false log').runOn w = (.ok live, v') ∧
      dry.transactions.map (·.transaction) =
        (source.handles e w).map (fun h => ((source.opened e w).transaction h).id) ∧
      List.Forall₂
        (fun t t' => t'.transaction = t.transaction ∧
          (t.transaction.isSome = true → t.error = none → t'.error = none →
            (∀ r, firstMatch? rules t.rules = some r → r.NamesStored w.store) →
              untilMatch t'.rules = untilMatch t.rules))
        dry.transactions live.transactions := by
  have hc := coherent_opened hlinks hapart
  obtain ⟨dry, x, hdry, v, hpass⟩ :=
    exists_pass_of_rows hsaving hrows rules trigger true log
  obtain ⟨live, x', hlive, v', hpass'⟩ :=
    exists_pass_of_rows hsaving hrows rules trigger false log'
  have hturns := forall₂_awaited hsaving (fun _ hh => hh) hc hapart hpass
  have hturns' := forall₂_awaited hsaving (fun _ hh => hh) hc hapart hpass'
  refine ⟨_, _, x, x', hdry, hlive, ?_, forall₂_of_both ?_ hturns hturns'⟩
  · exact map_eq_of_forall₂ hturns fun h t ⟨u, u', hu, _, _, hturn⟩ =>
      (transaction_processOne hturn).trans (congrArg LiveTransaction.id hu.transaction)
  · rintro h t t' ⟨u, y, hu, hagree, hfields, hturn⟩ ⟨u', y', hu', hagree', hfields', hturn'⟩
    have hsame : u'.transaction h = u.transaction h := hu'.transaction.trans hu.transaction.symm
    have hnumber := transaction_processOne hturn
    refine ⟨?_, fun hsaved ht ht' hnames => ?_⟩
    · rw [hnumber, transaction_processOne hturn', hsame]
    · obtain ⟨id, hid⟩ := Option.isSome_iff_exists.1 hsaved
      rw [hnumber] at hid
      have hown : ((source.opened e w).transaction h).id = some id := hu.transaction ▸ hid
      refine untilMatch_processOne ⟨hagree, hfields⟩ ⟨hagree', hfields'⟩ hsame hid ?_ ?_ hnames
        hturn hturn' ht ht'
      · exact hu.shows.labels
      · -- In the dry run nothing was added, so the live run has whatever the dry run has.
        refine ⟨hu'.shows.accounts.trans hu.shows.accounts.symm, fun kind => ?_, fun n hn => ?_⟩
        · rw [hu.labels rfl kind]
          exact hu'.shows.labels kind
        · exact (hu'.shows.tags n (hown.trans hn)).trans (hu.shows.tags n (hown.trans hn)).symm

end Engine

end Turns

end

namespace Engine

/-- In the small ledger the category that is to be set is there, both transactions go through, and
the dry run tells what the live run does. -/
theorem foretold_in_smallLedger :
    let e : Engine := { user := 1, isLogging := true, observer := some persistChanges }
    let rules := SmallLedger.store.rulesForTrigger 1 .manual
    ∃ dry live v v',
      (e.process (return [1, 2]) rules .manual true).runOn SmallLedger.workspace = (.ok dry, v) ∧
      (e.process (return [1, 2]) rules .manual false).runOn SmallLedger.workspace =
        (.ok live, v') ∧
      dry.transactions.map (·.transaction) = [some 1, some 2] ∧
      List.Forall₂ (fun t t' => t'.transaction = t.transaction ∧
        untilMatch t'.rules = untilMatch t.rules) dry.transactions live.transactions := by
  intro e rules
  have herrors : ∀ dryRun, ((e.process (return [1, 2]) rules .manual dryRun).runOn
      SmallLedger.workspace).1.toOption.map (fun s => s.transactions.map (·.error)) =
        some [none, none] := by
    rintro (_ | _) <;> decide +kernel
  have hnone : ∀ {dryRun summary v}, (e.process (return [1, 2]) rules .manual dryRun).runOn
      SmallLedger.workspace = (.ok summary, v) → ∀ t ∈ summary.transactions, t.error = none := by
    intro dryRun summary v hrun t ht
    have hmap := herrors dryRun
    rw [hrun] at hmap
    have hall : summary.transactions.map (·.error) = [none, none] := Option.some.inj hmap
    have hmem := List.mem_map_of_mem (f := (·.error)) ht
    rw [hall] at hmem
    simpa using hmem
  have hnames : ∀ r ∈ rules, r.NamesStored SmallLedger.store := by
    rintro r hr a ha kind n ⟨hvalue, hkind⟩
    obtain ⟨id, row, -, rfl⟩ := EntryPoint.exists_of_rulesForTrigger hr
    obtain ⟨⟨m, action⟩, haction, rfl⟩ := List.mem_map.1 ha
    have hrow := (List.mem_filter.1 (List.mem_mergeSort.1 haction)).1
    cases List.mem_singleton.1 hrow
    have hread : (Action.ofRow 1 ⟨1, "set_category", some "1", 1, false⟩).typedValue =
        .ok (some (.identifier 1)) := by
      rfl
    cases hread.symm.trans hvalue
    have hcategory : kind = .category := hkind
    subst hcategory
    rfl
  obtain ⟨dry, live, v, v', hdry, hlive, hnumbers, hentries⟩ := dry_run_foretells
    (e := e) (fun observer hsome => Or.inl (Option.some.inj hsome).symm) (.held [1, 2]) rules
    .manual true true (w := SmallLedger.workspace) (Store.linksResolve_of_referencesHold rfl)
    (by
      intro h hh id hid
      rcases List.mem_pair.1 hh with rfl | rfl <;> cases hid <;> rfl)
    (by
      refine List.pairwise_pair.2 ⟨by decide, fun id hid hid' => ?_⟩
      cases hid
      cases hid')
  refine ⟨dry, live, v, v', hdry, hlive, hnumbers, ?_⟩
  refine List.forall₂_iff_zip.2 ⟨hentries.length_eq, fun {t t'} hboth => ?_⟩
  obtain ⟨hsame, hforetold⟩ := (List.forall₂_iff_zip.1 hentries).2 hboth
  obtain ⟨ht, ht'⟩ := List.of_mem_zip hboth
  refine ⟨hsame, hforetold ?_ (hnone hdry t ht) (hnone hlive t' ht') fun r hr => hnames r ?_⟩
  · have hnumber := List.mem_map_of_mem (f := (·.transaction)) ht
    rw [hnumbers] at hnumber
    rcases List.mem_pair.1 hnumber with heq | heq <;> rw [heq] <;> rfl
  · obtain ⟨⟨r', o⟩, hfind, rfl⟩ := Option.map_eq_some_iff.1 hr
    exact (List.of_mem_zip (List.mem_of_find?_eq_some hfind)).1

end Engine

end Rulebook
