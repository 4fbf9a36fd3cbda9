import Rulebook.Json.Writer
import Rulebook.Proofs.Engine.RestrictedRun

/-!
# What a run tells about the data of others

Two stores that differ only in what belongs to others have the same share of the user.  A run for
the user does in either of them what it does in the share, so the two runs do the same, with the one
exception of descriptions.  The description of an action that names a label by its number has the
label's name in it, whoever owns the label, whereas the action itself refuses labels of others.  So
a user who writes a rule with somebody else's number reads somebody else's label in the summary and
in the log (`EntryPoint.foreign_label_shows`).

Everything else is kept from the user (`EntryPoint.run_shows_own`).  This takes that nothing of the
user's refers to what belongs to somebody else, which is what it means that the references of the
share hold.

## Main definitions

* `RunSummary.withoutTexts`, `Log.withoutTexts` — what is told apart from descriptions.
* `Source.IsOwn` — the transactions of a run are the user's.
* `EntryPoint.NamesOwn` — the rules of a run name no labels of others.

## Main statements

* `EntryPoint.run_shows_own` — the data of others does not show.
-/

namespace Rulebook

open Program Workspace

section

/-! ## What is told apart from descriptions -/

/-- The outcome without the description. -/
def ActionOutcome.withoutText (o : ActionOutcome) : ActionOutcome := { o with description := "" }

/-- The outcome without the descriptions of the actions. -/
def RuleOutcome.withoutTexts (r : RuleOutcome) : RuleOutcome :=
  { r with actions := r.actions.map (·.withoutText) }

/-- The entry without the descriptions of the actions. -/
def TransactionSummary.withoutTexts (t : TransactionSummary) : TransactionSummary :=
  { t with rules := t.rules.map (·.withoutTexts) }

/-- The summary without the descriptions of the actions. -/
def RunSummary.withoutTexts (s : RunSummary) : RunSummary :=
  { s with transactions := s.transactions.map (·.withoutTexts) }

/-- An object without its description. -/
def Json.withoutDescription : Json → Json
  | object members => object (members.filter fun member => member.1 ≠ "description")
  | j => j

/-- The log without the descriptions of the actions. -/
def Log.withoutTexts (l : Log) : Log :=
  { l with
    actions := match l.actions with
      | .list entries => .list (entries.map Json.withoutDescription)
      | j => j }

section Texts

variable {texts : Prop}

theorem ActionOutcome.Alike.withoutText_eq {o o' : ActionOutcome} (h : o.Alike texts o') :
    o'.withoutText = o.withoutText := by
  rw [withoutText, withoutText, h.kind, h.succeeded, h.changes]

theorem ActionOutcome.Alike.eq {o o' : ActionOutcome} (h : o.Alike texts o') (htexts : texts) :
    o' = o := by
  obtain ⟨kind, succeeded, description, changes⟩ := o'
  obtain ⟨rfl, rfl, rfl, hdescription⟩ := h
  obtain rfl := hdescription htexts
  rfl

theorem RuleOutcome.Alike.withoutTexts_eq {r r' : RuleOutcome} (h : r.Alike texts r') :
    r'.withoutTexts = r.withoutTexts := by
  rw [withoutTexts, withoutTexts, h.rule, h.name, h.matched, h.stopped,
    map_eq_of_forall₂ h.actions fun _ _ ho => ho.withoutText_eq]

theorem RuleOutcome.Alike.eq {r r' : RuleOutcome} (h : r.Alike texts r') (htexts : texts) :
    r' = r := by
  have hactions := eq_of_forall₂ h.actions fun _ _ ho => ho.eq htexts
  obtain ⟨rule, name, matched, actions, stopped⟩ := r'
  obtain ⟨rfl, rfl, rfl, rfl, -⟩ := h
  obtain rfl := hactions
  rfl

theorem TransactionSummary.Alike.withoutTexts_eq {t t' : TransactionSummary}
    (h : t.Alike texts t') : t'.withoutTexts = t.withoutTexts := by
  rw [withoutTexts, withoutTexts, h.transaction, h.changes, h.error,
    map_eq_of_forall₂ h.rules fun _ _ hr => hr.withoutTexts_eq]

theorem TransactionSummary.Alike.eq {t t' : TransactionSummary} (h : t.Alike texts t')
    (htexts : texts) : t' = t := by
  have hrules := eq_of_forall₂ h.rules fun _ _ hr => hr.eq htexts
  obtain ⟨transaction, rules, changes, error⟩ := t'
  obtain ⟨rfl, -, rfl, rfl⟩ := h
  obtain rfl := hrules
  rfl

theorem RunSummary.Alike.withoutTexts_eq {s s' : RunSummary} (h : s.Alike texts s') :
    s'.withoutTexts = s.withoutTexts := by
  rw [withoutTexts, withoutTexts, h.isDryRun, h.trigger,
    map_eq_of_forall₂ h.transactions fun _ _ ht => ht.withoutTexts_eq]

theorem RunSummary.Alike.eq {s s' : RunSummary} (h : s.Alike texts s') (htexts : texts) :
    s' = s := by
  have htransactions := eq_of_forall₂ h.transactions fun _ _ ht => ht.eq htexts
  obtain ⟨isDryRun, trigger, transactions⟩ := s'
  obtain ⟨rfl, rfl, -⟩ := h
  obtain rfl := htransactions
  rfl

/-- Of an outcome the log keeps the kind, whether it succeeded, and the description. -/
theorem ActionOutcome.Alike.withoutDescription_eq {o o' : ActionOutcome} (h : o.Alike texts o') :
    o'.toJson.withoutDescription = o.toJson.withoutDescription := by
  simp [toJson, Json.withoutDescription, h.kind, h.succeeded]

theorem Log.Alike.withoutTexts_eq {l l' : Log} (h : l.Alike texts l') :
    l'.withoutTexts = l.withoutTexts := by
  obtain ⟨outcomes, outcomes', halike, hactions, hactions'⟩ := h.actions
  have hentries := map_eq_of_forall₂ (f := fun o => o.toJson.withoutDescription) halike
    fun _ _ ho => ho.withoutDescription_eq
  rw [withoutTexts, withoutTexts, h.rule, h.transaction, h.matched, h.context, h.createdAt,
    hactions, hactions']
  dsimp only
  rw [List.map_map, List.map_map]
  exact congrArg (fun entries => Log.mk _ _ _ (.list entries) _ _) hentries

theorem Log.Alike.eq {l l' : Log} (h : l.Alike texts l') (htexts : texts) : l' = l := by
  obtain ⟨outcomes, outcomes', halike, hactions, hactions'⟩ := h.actions
  rw [eq_of_forall₂ halike fun _ _ ho => ho.eq htexts, ← hactions] at hactions'
  obtain ⟨rule, transaction, matched, actions, context, createdAt⟩ := l'
  obtain ⟨rfl, rfl, rfl, rfl, rfl, -⟩ := h
  obtain rfl := hactions'
  rfl

end Texts

/-! ## Starting a run in the share -/

/-- The transactions of the run are the user's: nothing that they refer to belongs to others. -/
def Source.IsOwn (user : Id) (w : Workspace) : Source → Prop
  | held handles => ∀ h ∈ handles, (w.transaction h).HasItsAccount (w.store.share user) ∧
      (w.transaction h).ResolvesIn (w.store.share user)
  | stored _ => True

variable [Host]

/-- No rule of the run names a label of somebody else. -/
def EntryPoint.NamesOwn (e : Engine) (w : Workspace) (p : EntryPoint) : Prop :=
  ∀ trigger rules, p.candidates e w = .ok (trigger, rules) → ∀ r ∈ rules, ∀ a ∈ r.actions,
    ∀ kind id, a.Names kind id → ∀ l, (w.store.labels kind).find? id = some l → l.user = e.user

section Share

variable {e : Engine} {w : Workspace}

/-- The workspace with the user's share of the store. -/
def Workspace.shareOf (w : Workspace) (user : Id) : Workspace :=
  { w with store := w.store.share user }

omit [Host] in
/-- The same transactions are loaded from the share. -/
theorem Source.loaded_share (source : Source) (hs : (w.store.share e.user).IsClosed) :
    source.loaded e (w.store.share e.user) = source.loaded e w.store := by
  cases source with
  | held handles => rfl
  | stored test =>
      rw [loaded, loaded, Store.transactionsInOrder_share]
      refine List.map_congr_left fun row hrow => ?_
      have hmine := (List.mem_filter.1 (List.mem_mergeSort.1 hrow)).1
      obtain ⟨hmem, howner⟩ := List.mem_filter.1 hmine
      exact Store.ofRowWithReferences_share hs (Table.find?_eq_some_of_mem hmem)
        (of_decide_eq_true howner)

/-- The same rules take part in the share. -/
theorem EntryPoint.candidates_share (p : EntryPoint) (hs : (w.store.share e.user).IsClosed) :
    p.candidates e (w.shareOf e.user) = p.candidates e w := by
  have hlisted : ∀ ids, rulesListed e (w.shareOf e.user).store ids = rulesListed e w.store ids := by
    intro ids
    have hrules := Store.rulesWithIds_share hs
    simp only [rulesListed, shareOf, hrules]
  have htriggered := Store.rulesForTrigger_share hs
  cases p with
  | forTrigger source trigger => simp only [candidates, shareOf, htriggered]
  | forRules source ids => rw [candidates, candidates, hlisted]
  | inRange first last ids =>
      have hrules : rulesOfRange e (w.shareOf e.user).store ids = rulesOfRange e w.store ids := by
        cases ids with
        | none => exact congrArg Except.ok (htriggered .manual)
        | some ids => exact hlisted ids
      rw [candidates, candidates, hrules]
      rfl
  | preview source definition => rfl

omit [Host] in
theorem Source.handles_share (source : Source) (hs : (w.store.share e.user).IsClosed) :
    source.handles e (w.shareOf e.user) = source.handles e w := by
  cases source with
  | held handles => rfl
  | stored test =>
      have hloaded := Source.loaded_share (.stored test) hs
      rw [handles, handles, shareOf, hloaded]

/-- How a run is compared with the run in the share.  Texts count if no label of somebody else is
named. -/
def EntryPoint.restriction (e : Engine) (w : Workspace) (p : EntryPoint) : Restriction where
  user := e.user
  named kind id := p.NamesOwn e w ∧ ∃ trigger rules, p.candidates e w = .ok (trigger, rules) ∧
    ∃ r ∈ rules, ∃ a ∈ r.actions, a.Names kind id
  texts := p.NamesOwn e w
  logs := w.store.logs
  logs' := (w.store.share e.user).logs

/-- A run that begins in the share begins as in the store. -/
theorem EntryPoint.restricted_opened (p : EntryPoint) (hs : (w.store.share e.user).IsClosed) :
    Restricted (p.restriction e w) (p.source.opened e w)
      (p.source.opened e (w.shareOf e.user)) where
  rest := by
    rw [Source.opened, Source.opened, shareOf, Source.loaded_share p.source hs]
  store := rfl
  logs := ⟨[], [], .nil, rfl, rfl⟩
  named := by
    rintro kind id ⟨hown, trigger, rules, hcandidates, r, hr, a, ha, hnames⟩
    exact hown trigger rules hcandidates r hr a ha kind id hnames
  agree := labelsAgree_nil _
  agree' := labelsAgree_nil _

/-- When a run begins in the share, all that it needs is there. -/
theorem EntryPoint.provided_opened (p : EntryPoint) (hs : (w.store.share e.user).IsClosed)
    (huser : w.store.users.has e.user = true) (hbatch : p.source.IsOwn e.user w)
    {trigger : Trigger} {rules : List RuleDefinition}
    (hcandidates : p.candidates e w = .ok (trigger, rules)) :
    e.Provided rules p.isLogged (p.source.handles e w)
      (p.source.opened e (w.shareOf e.user)) := by
  have haccounts : p.source.HaveTheirAccounts (w.shareOf e.user) := by
    generalize p.source = source at hbatch
    cases source with
    | held handles => exact fun h hh => (hbatch h hh).1
    | stored test => trivial
  rw [← p.source.handles_share hs]
  refine ⟨⟨labelsAgree_nil _, fun h hh => ?_, fun hlogged r hr n hn => ?_⟩, hs, ?_, fun h hh => ?_⟩
  · exact Source.hasItsAccount_opened haccounts hh
  · rw [← p.candidates_share hs] at hcandidates
    obtain ⟨id, row, hmem, rfl⟩ := exists_of_candidates hlogged hcandidates hr
    cases hn
    exact Store.isRuleOf_of_mem_candidates hmem
  · exact (Store.has_users_share w.store e.user).trans huser
  · generalize p.source = source at hbatch hh
    cases source with
    | held handles => exact (hbatch h hh).2
    | stored test =>
        obtain ⟨id, t, hmem, hloaded⟩ := Source.transaction_opened_stored hh
        have hrow := Table.find?_eq_some_of_mem hmem
        rw [hloaded]
        refine ⟨fun _ n hn => ?_, fun role _ n hn => ?_⟩
        · cases hn
          exact hs.transactions id t hrow
        · refine hs.roles id t hrow role n ?_
          cases role <;> exact hn

/-- A run compared with the run in the share.  Results and logs are the same apart from
descriptions, and these are the same as well if no label of somebody else is named. -/
theorem EntryPoint.run_in_share (hsaving : e.IsSaving) (p : EntryPoint) (dryRun : Bool)
    (hclosed : w.store.IsClosed) (hs : (w.store.share e.user).IsClosed)
    (huser : w.store.users.has e.user = true) (hbatch : p.source.IsOwn e.user w) :
    let run := (p.start e dryRun).runOn w
    let other := (p.start e dryRun).runOn (w.shareOf e.user)
    ∃ added added',
      run.2.store.logs = w.store.logs.insertAll added ∧
      other.2.store.logs = (w.store.share e.user).logs.insertAll added' ∧
      other.1.map (·.withoutTexts) = run.1.map (·.withoutTexts) ∧
      added'.map (·.withoutTexts) = added.map (·.withoutTexts) ∧
      (p.NamesOwn e w → other.1 = run.1 ∧ added' = added) := by
  have hrelated : Relates (RunSummary.Alike (p.NamesOwn e w))
      (fun u x => (p.restriction e w).LogsAlike u.store.logs x.store.logs) (p.start e dryRun)
      (p.start e dryRun) w (w.shareOf e.user) := by
    rw [Relates, runOn_start, runOn_start, p.candidates_share hs]
    cases hcandidates : p.candidates e w with
    | error failure => exact Or.inr ⟨failure, _, _, rfl, rfl, [], [], .nil, rfl, rfl⟩
    | ok candidates =>
        obtain ⟨trigger, rules⟩ := candidates
        have hopened := p.restricted_opened hs
        have hprovided := p.provided_opened hs huser hbatch hcandidates
        refine Engine.restricts_process hsaving rfl ?_ (p.source.handles_share hs) hopened
          (hprovided.of_restricted rfl hopened hclosed) hprovided
        intro hown r hr a ha kind id hnames
        exact ⟨hown, trigger, rules, hcandidates, r, hr, a, ha, hnames⟩
  obtain ⟨added, added', hadded, hlogs, hlogs'⟩ := hrelated.state
  refine ⟨added, added', hlogs, hlogs', ?_, ?_, fun hown => ⟨?_, ?_⟩⟩
  · rcases hrelated with ⟨s, s', u, x, hu, hx, halike, -⟩ | ⟨failure, u, x, hu, hx, -⟩ <;>
      rw [hu, hx]
    exact congrArg Except.ok halike.withoutTexts_eq
  · exact map_eq_of_forall₂ hadded fun _ _ hl => hl.withoutTexts_eq
  · rcases hrelated with ⟨s, s', u, x, hu, hx, halike, -⟩ | ⟨failure, u, x, hu, hx, -⟩ <;>
      rw [hu, hx]
    rw [halike.eq hown]
  · exact eq_of_forall₂ hadded fun _ _ hl => hl.eq hown

end Share

/-! ## Two stores -/

/-- What belongs to others does not show to a user.  Take two stores with the same share of the
user, in which no reference dangles and in which nothing of the user's refers to what belongs to
somebody else, and any way to start a run for the user, live or dry, over transactions of the user.
The two runs end in the same way with the same summary, and they add the same logs, apart from the
descriptions of actions.  The descriptions are the same as well if the rules of the run name no
label of somebody else. -/
theorem EntryPoint.run_shows_own {e : Engine} (hsaving : e.IsSaving) (p : EntryPoint)
    (dryRun : Bool) {w : Workspace} {s : Store} (hshare : s.share e.user = w.store.share e.user)
    (hw : w.store.referencesHold = true) (hs : s.referencesHold = true)
    (hown : (w.store.share e.user).referencesHold = true)
    (huser : w.store.users.has e.user = true) (hbatch : p.source.IsOwn e.user w) :
    let run := (p.start e dryRun).runOn w
    let other := (p.start e dryRun).runOn { w with store := s }
    ∃ added added',
      run.2.store.logs = w.store.logs.insertAll added ∧
      other.2.store.logs = s.logs.insertAll added' ∧
      other.1.map (·.withoutTexts) = run.1.map (·.withoutTexts) ∧
      added'.map (·.withoutTexts) = added.map (·.withoutTexts) ∧
      (p.NamesOwn e w → p.NamesOwn e { w with store := s } →
        other.1 = run.1 ∧ added' = added) := by
  have hbatch' : p.source.IsOwn e.user { w with store := s } := by
    generalize p.source = source at hbatch ⊢
    cases source with
    | held handles =>
        intro h hh
        have hmine := hbatch h hh
        rw [← hshare] at hmine
        exact hmine
    | stored test => trivial
  have huser' : s.users.has e.user = true := by
    rw [← Store.has_users_share, hshare, Store.has_users_share]
    exact huser
  have hfirst := p.run_in_share hsaving dryRun (Store.isClosed_iff.2 hw) (Store.isClosed_iff.2 hown)
    huser hbatch
  have hsecond := p.run_in_share (w := { w with store := s }) hsaving dryRun
    (Store.isClosed_iff.2 hs) (hshare ▸ Store.isClosed_iff.2 hown) huser' hbatch'
  -- The share of the second store is that of the first one, and so is the run in it.
  have hsame : shareOf { w with store := s } e.user = w.shareOf e.user := by
    rw [shareOf, shareOf, hshare]
  rw [hsame] at hsecond
  obtain ⟨added, shared, hlogs, hshared, hresult, hadded, htexts⟩ := hfirst
  obtain ⟨added', shared', hlogs', hshared', hresult', hadded', htexts'⟩ := hsecond
  dsimp only at hshared'
  rw [hshare, hshared] at hshared'
  obtain rfl := Table.insertAll_inj hshared'
  refine ⟨added, added', hlogs, hlogs', hresult'.symm.trans hresult, hadded'.symm.trans hadded,
    fun hnames hnames' => ?_⟩
  obtain ⟨hsummary, hlog⟩ := htexts hnames
  obtain ⟨hsummary', hlog'⟩ := htexts' hnames'
  exact ⟨hsummary'.symm.trans hsummary, hlog'.symm.trans hlog⟩

end

namespace SmallLedger

/-- The shared ledger with another name for the category of the second user. -/
def sharedNaming (name : String) : Store :=
  { shared with categories := store.categories.insert ⟨2, name, "", none⟩ }

/-- The same, with a rule of the first user that names the category of the second one. -/
def pryingNaming (name : String) : Store :=
  { sharedNaming name with actions := Table.insert {} ⟨1, "set_category", some "2", 1, false⟩ }

end SmallLedger

/-- A run of the first user's rule is the same whatever the second user calls a category. -/
theorem EntryPoint.shows_own_in_shared :
    let result : String → Except Failure RunSummary := fun name =>
      (((EntryPoint.forTrigger (.held [1]) (.text "manual")).start
        { user := 1, isLogging := true, observer := some persistChanges } false).runOn
        { SmallLedger.sharedWorkspace with store := SmallLedger.sharedNaming name }).1
    result "Hidden" = result "Secret" := by
  -- The only action names the user's own category.
  have hnames : ∀ name, (EntryPoint.forTrigger (.held [1]) (.text "manual")).NamesOwn
      { user := 1, isLogging := true, observer := some persistChanges }
      { SmallLedger.sharedWorkspace with store := SmallLedger.sharedNaming name } := by
    rintro name trigger rules hcandidates r hr a ha kind id ⟨hvalue, hkind⟩ l hfind
    obtain ⟨n, row, -, rfl⟩ := exists_of_candidates rfl hcandidates hr
    obtain ⟨⟨m, action⟩, haction, rfl⟩ := List.mem_map.1 ha
    have hrow := (List.mem_filter.1 (List.mem_mergeSort.1 haction)).1
    cases List.mem_singleton.1 hrow
    have hread : (Action.ofRow 1 ⟨1, "set_category", some "1", 1, false⟩).typedValue =
        .ok (some (.identifier 1)) := by
      rfl
    cases hread.symm.trans hvalue
    have hcategory : kind = .category := hkind
    subst hcategory
    cases hfind
    rfl
  obtain ⟨added, added', -, -, -, -, htexts⟩ := EntryPoint.run_shows_own
    (e := { user := 1, isLogging := true, observer := some persistChanges }) (fun _ hsome => by
      cases hsome
      exact Or.inl rfl)
    (.forTrigger (.held [1]) (.text "manual")) false
    (w := { SmallLedger.sharedWorkspace with store := SmallLedger.sharedNaming "Secret" })
    (s := SmallLedger.sharedNaming "Hidden") rfl (by decide +kernel) (by decide +kernel)
    (by decide +kernel) rfl (by
      intro h hh
      cases List.mem_singleton.1 hh
      refine ⟨?_, ?_, ?_⟩
      · rintro _ ⟨⟩
        exact ⟨SmallLedger.transaction, rfl, rfl, fun _ ha => nomatch ha⟩
      · rintro - _ ⟨⟩
        rfl
      · rintro (_ | _) - _ ⟨⟩)
  exact (htexts (hnames "Secret") (hnames "Hidden")).1

/-- The descriptions of a rule that names somebody else's category tell what it is called, and so do
the logs. -/
theorem EntryPoint.foreign_label_shows :
    let run : String → Except Failure RunSummary × Workspace := fun name =>
      ((EntryPoint.forTrigger (.held [1]) (.text "manual")).start
        { user := 1, isLogging := true, observer := some persistChanges } false).runOn
      { SmallLedger.sharedWorkspace with store := SmallLedger.pryingNaming name }
    let descriptions : String → Option (List (List (List String))) := fun name =>
      (run name).1.toOption.map fun summary => summary.transactions.map fun t =>
        t.rules.map fun r => r.actions.map (·.description)
    (SmallLedger.pryingNaming "Hidden").share 1 = (SmallLedger.pryingNaming "Secret").share 1 ∧
      descriptions "Hidden" = some [[["Set category to: Hidden"]]] ∧
      descriptions "Secret" = some [[["Set category to: Secret"]]] ∧
      (run "Hidden").2.store.logs.rows.map (fun row => row.2.actions.compact) ≠
        (run "Secret").2.store.logs.rows.map (fun row => row.2.actions.compact) := by
  refine ⟨rfl, by decide +kernel, by decide +kernel, by decide +kernel⟩

end Rulebook
