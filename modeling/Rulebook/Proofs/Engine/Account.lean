import Rulebook.Proofs.Engine.Edits
import Rulebook.Proofs.Engine.Turns

/-!
# The account of a run

The outcomes of rules account for all that was done to a transaction.  Each action has a meaning
that does not speak of workspaces: it is a function on what actions can change (`Standing`), the
seven settable fields and the set of tags.  To apply the meanings of the actions that are reported
as successful, rule by rule in the reported order, to what the transaction was before gives what it
is afterwards.

Names need some care.  An action that asks for a label by its name finds it, or adds it with a
number that nobody can tell beforehand.  The meaning of such an action therefore refers to the
labels of the owner at the end of the run.  This is the label that the action used, because labels
are only added, and a label that has the name first keeps having it first (`labelNamed?_of_grows`).

The owner is the user for whom the run is made.  A transaction of somebody else fails before any
rule is looked at, and the account of a transaction is not among the fields that change
(`Workspace.OwnedBy`).

## Main definitions

* `Standing` — what actions can change about a transaction.
* `Action.meaning` — what a successful action does to it.
* `accounted` — what the outcomes of rules come to.
* `Workspace.Yields` — work that gives the standing of a transaction another value.

## Main statements

* `Engine.yields_runRules` — the rules for a transaction do to it what their outcomes come to.
-/

namespace Rulebook

open Program Workspace Calendar Text

/-! ## Standings and meanings -/

/-- What actions can change about a transaction. -/
@[ext] structure Standing where
  description : Option String
  note : Option String
  type : Option String
  category : Option Id
  merchant : Option Id
  isReconciled : Bool
  reconciledAt : Option Instant
  tags : Id → Bool

namespace Standing

/-- The standing with another category or merchant. -/
def setLabel (role : LabelRole) (id : Option Id) (x : Standing) : Standing :=
  match role with
  | .category => { x with category := id }
  | .merchant => { x with merchant := id }

/-- The standing with one tag more. -/
def addTag (tag : Option Id) (x : Standing) : Standing :=
  { x with tags := fun n => x.tags n || tag == some n }

/-- The standing without the tags that satisfy a test. -/
def removeTags (test : Id → Bool) (x : Standing) : Standing :=
  { x with tags := fun n => x.tags n && !test n }

end Standing

/-- The number of the label of a user with a name. -/
def Store.namedId (s : Store) (kind : LabelKind) (owner : Id) (name : String) : Option Id :=
  (s.labelNamed? kind owner name).map (·.1)

/-- What a successful action of a kind does to a transaction of the owner.  Names are those of the
labels in the store. -/
def ActionKind.meaning (s : Store) (owner : Id) (now : Instant) (kind : ActionKind)
    (value : Option ActionValue) (x : Standing) : Standing :=
  match kind, value with
  | .setCategory, some (.identifier id) => x.setLabel .category (some id)
  | .setMerchant, some (.identifier id) => x.setLabel .merchant (some id)
  | .addTag, some (.identifier id) => x.addTag (some id)
  | .removeTag, some (.identifier id) => x.removeTags (· == id)
  | .removeAllTags, _ => x.removeTags fun _ => true
  | .setDescription, some (.text words) => { x with description := some words }
  | .appendDescription, some (.text words) =>
    { x with description := some (x.description.getD "" ++ words) }
  | .prependDescription, some (.text words) =>
    { x with description := some (words ++ x.description.getD "") }
  | .setNote, some (.text words) => { x with note := some words }
  | .appendNote, some (.text words) => { x with note := some (x.note.getD "" ++ words) }
  | .setType, some (.text words) => { x with type := some (upper (strip words)) }
  | .markReconciled, _ => { x with isReconciled := true, reconciledAt := some now }
  | .createTag, some (.text name) => x.addTag (s.namedId .tag owner name)
  | .createCategory, some (.text name) => x.setLabel .category (s.namedId .category owner name)
  | .createMerchant, some (.text name) => x.setLabel .merchant (s.namedId .merchant owner name)
  | _, _ => x

/-- What an action does to a transaction of the owner if it is successful. -/
def Action.meaning [Host] (s : Store) (owner : Id) (now : Instant) (a : Action) (x : Standing) :
    Standing :=
  match (Vocabulary.ofJson? a.kind : Option ActionKind), a.typedValue with
  | some kind, .ok value => kind.meaning s owner now value x
  | _, _ => x

/-- What the outcomes of actions come to: those that are reported as successful have their meaning,
the others none. -/
def accountedActions [Host] (s : Store) (owner : Id) (now : Instant) (actions : List Action)
    (outcomes : List ActionOutcome) (x : Standing) : Standing :=
  (actions.zip outcomes).foldl
    (fun x entry => if entry.2.succeeded then entry.1.meaning s owner now x else x) x

/-- What the outcomes of rules come to: those that are reported as matching have their actions
accounted for, the others come to nothing. -/
def accounted [Host] (s : Store) (owner : Id) (now : Instant) (rules : List RuleDefinition)
    (outcomes : List RuleOutcome) (x : Standing) : Standing :=
  (rules.zip outcomes).foldl
    (fun x entry =>
      if entry.2.matched then
        accountedActions s owner now entry.1.actions entry.2.actions x
      else x) x

/-- The standing of a transaction: what it has in memory, and the tags that are stored. -/
def LiveTransaction.standing (t : LiveTransaction) (s : Store) : Standing where
  description := t.description
  note := t.note
  type := t.type
  category := t.category.id
  merchant := t.merchant.id
  isReconciled := t.isReconciled
  reconciledAt := t.reconciledAt
  tags tag := t.id.any fun id => s.hasLink id tag

/-- The standing of a transaction in memory. -/
def Workspace.standing (w : Workspace) (h : Handle) : Standing :=
  (w.transaction h).standing w.store

/-- What an effect does. -/
def Effect.meaning (s : Store) (now : Instant) (x : Standing) : Effect → Standing
  | .setLabel role id _ => x.setLabel role (some id)
  | .setNamedLabel role name owner => x.setLabel role (s.namedId role.kind owner name)
  | .attachTag tag => x.addTag (some tag)
  | .attachNamedTag name owner => x.addTag (s.namedId .tag owner name)
  | .detachTag tag => x.removeTags (· == tag)
  | .detachAllTags => x.removeTags fun _ => true
  | .setDescription words => { x with description := some words }
  | .setNote words => { x with note := some words }
  | .setType words => { x with type := some words }
  | .markReconciled => { x with isReconciled := true, reconciledAt := some now }
  | .notify _ _ => x

/-! ## Labels by name -/

/-- A label that has a name first keeps having it first. -/
theorem labelNamed?_of_grows {s t : Store} {kind : LabelKind} {owner : Id} {name : String}
    {found : Id × Label} (hgrows : (s.labels kind).Grows (t.labels kind))
    (hfound : s.labelNamed? kind owner name = some found) :
    t.labelNamed? kind owner name = some found := by
  obtain ⟨added, hadded⟩ := hgrows.rows
  rw [Store.labelNamed?] at hfound ⊢
  rw [← hadded, List.find?_append, hfound]
  rfl

/-- A label that has a name is stored, and it is that of the owner. -/
theorem labelNamed?_eq_some {s : Store} {kind : LabelKind} {owner : Id} {name : String}
    {found : Id × Label} (h : s.labelNamed? kind owner name = some found) :
    (s.labels kind).find? found.1 = some found.2 ∧ found.2.user = owner ∧ found.2.name = name := by
  have htest := List.find?_some h
  simp only [Bool.and_eq_true, decide_eq_true_eq] at htest
  exact ⟨Table.find?_eq_some_of_mem (List.mem_of_find?_eq_some h), htest⟩

/-- A label that was added because nobody had the name is the one that has it. -/
theorem labelNamed?_insert {s : Store} {kind : LabelKind} {owner : Id} {name description : String}
    (hnone : s.labelNamed? kind owner name = none) :
    (s.setLabels ((s.labels kind).insert ⟨owner, name, description, none⟩) kind).labelNamed? kind
      owner name = some ((s.labels kind).nextId, ⟨owner, name, description, none⟩) := by
  rw [Store.labelNamed?] at hnone ⊢
  rw [Store.labels_setLabels, Table.insert, List.find?_append, hnone]
  simp

/-! ## Standings that stay -/

namespace Workspace

variable {h : Handle} {w v : Workspace}

/-- The standing depends on the fields and on the tags. -/
theorem standing_congr (hbare : (v.transaction h).bare = (w.transaction h).bare)
    (htags : ∀ id, (w.transaction h).id = some id → ∀ tag,
      v.store.hasLink id tag = w.store.hasLink id tag) :
    v.standing h = w.standing h := by
  have hstored : (w.transaction h).standing v.store = w.standing h := by
    refine Standing.ext rfl rfl rfl rfl rfl rfl rfl (funext fun tag => ?_)
    simp only [LiveTransaction.standing, standing]
    cases hid : (w.transaction h).id with
    | none => rfl
    | some id => exact htags id hid tag
  calc v.standing h
      _ = (v.transaction h).bare.standing v.store := rfl
      _ = (w.transaction h).bare.standing v.store := by rw [hbare]
      _ = w.standing h := hstored

theorem Looks.standing (hl : Looks h w v) : v.standing h = w.standing h :=
  standing_congr hl.own.bare fun _ _ _ => by rw [hl.store]

theorem Logged.standing (hv : Logged w v) : v.standing h = w.standing h := by
  refine standing_congr (by rw [hv.transaction]) fun id _ tag => ?_
  rw [hv.store]
  rfl

end Workspace

/-! ## Links after a change -/

theorem hasLink_addLink (s : Store) (n tag m other : Id) :
    (s.addLink n tag).hasLink m other = (s.hasLink m other || (n == m && tag == other)) := by
  rw [Store.addLink]
  split
  · next hthere =>
    -- The tag is there already, so that one more would not show.
    by_cases hsame : n = m ∧ tag = other
    · obtain ⟨rfl, rfl⟩ := hsame
      simp [hthere]
    · rcases not_and_or.1 hsame with hn | htag
      · simp [hn]
      · simp [htag]
  · simp only [Store.hasLink, Table.insert, List.any_append, List.any_cons, List.any_nil,
      Bool.or_false]
    rfl

theorem hasLink_removeLinks (s : Store) (n other : Id) (test : Id → Bool) :
    Store.hasLink
        { s with links := s.links.remove fun _ l => l.transaction = n && test l.tag } n other =
      (s.hasLink n other && !test other) := by
  rw [Bool.eq_iff_iff, Bool.and_eq_true, Store.hasLink_iff, Store.hasLink_iff]
  constructor
  · rintro ⟨row, hrow, hn, htag⟩
    obtain ⟨hrow, hkept⟩ := List.mem_filter.1 hrow
    refine ⟨⟨row, hrow, hn, htag⟩, ?_⟩
    simpa [hn, htag] using hkept
  · rintro ⟨⟨row, hrow, hn, htag⟩, hkept⟩
    refine ⟨row, List.mem_filter.2 ⟨hrow, ?_⟩, hn, htag⟩
    simpa [hn, htag] using hkept

/-! ## Carrying effects out -/

section Perform

variable {h : Handle} {w v : Workspace} {id : Id} {s : Store}

/-- Of the store only the links count. -/
theorem standing_of_links {t : Store} (hlinks : t.links = s.links) (x : LiveTransaction) :
    x.standing t = x.standing s := by
  have hsame : t.hasLink = s.hasLink := by
    funext n tag
    rw [Store.hasLink, hlinks, Store.hasLink]
  rw [LiveTransaction.standing, hsame, LiveTransaction.standing]

/-- Setting fields of a stored transaction in memory, but not its account. -/
theorem standing_change (hid : (w.transaction h).id = some id)
    {f : LiveTransaction → LiveTransaction} (hf : ∀ t, (f t).account = t.account) {x : Standing}
    (hx : (f (w.transaction h)).standing w.store = x) :
    { w with live := w.live.update h f }.standing h = x ∧
      ({ w with live := w.live.update h f }.transaction h).account =
        (w.transaction h).account := by
  rw [standing, transaction_update_self (live_has_of_id hid), hf]
  exact ⟨hx, rfl⟩

/-- The standing with other links. -/
theorem standing_links (hid : (w.transaction h).id = some id) (t : Store) :
    { w with store := t }.standing h = { w.standing h with tags := t.hasLink id } := by
  refine Standing.ext rfl rfl rfl rfl rfl rfl rfl (funext fun tag => ?_)
  change ((w.transaction h).id.any fun id => t.hasLink id tag) = t.hasLink id tag
  rw [hid]
  rfl

theorem tags_standing (hid : (w.transaction h).id = some id) :
    (w.standing h).tags = w.store.hasLink id := by
  funext tag
  change ((w.transaction h).id.any fun id => w.store.hasLink id tag) = _
  rw [hid]
  rfl

/-- A label that is found or added is the one that has the name from then on, and the transaction
stays as it is. -/
theorem findOrAddLabel_eq_ok {kind : LabelKind} {name : String} {owner : Id} {found : Id × Label}
    (hw : w.isChanging = true)
    (hrun : (findOrAddLabel kind name owner).runOn w = (.ok found, v)) :
    v.store.labelNamed? kind owner name = some found ∧ v.live = w.live ∧
      v.store.links = w.store.links ∧ v.isChanging = true := by
  rw [runOn_findOrAddLabel kind name owner hw] at hrun
  split at hrun
  · next n label hnamed =>
    cases hrun
    exact ⟨hnamed, rfl, rfl, hw⟩
  · next hnone =>
    cases hrun
    refine ⟨labelNamed?_insert hnone, rfl, ?_, hw⟩
    cases kind <;> rfl

/-- Carrying an effect out gives the standing its meaning, and the account stays as it is. -/
theorem standing_perform {effect : Effect} {fields : List TransactionField}
    (hw : w.isChanging = true) (hid : (w.transaction h).id = some id)
    (hrun : (effect.perform h).runOn w = (.ok fields, v))
    (hs : ∀ kind, (v.store.labels kind).Grows (s.labels kind)) :
    v.standing h = effect.meaning s w.now (w.standing h) ∧
      (v.transaction h).account = (w.transaction h).account := by
  have hput : ∀ {tag : Id} {w v : Workspace}, w.isChanging = true →
      (w.transaction h).id = some id →
      (putTag h tag >>= fun _ => pure [] : Operation (List TransactionField)).runOn w =
        (.ok fields, v) →
      v.standing h = (w.standing h).addTag (some tag) ∧ v.live = w.live := by
    intro tag w v hw hid hrun
    rw [runOn_bind, runOn_putTag h tag hw, hid] at hrun
    cases hrun
    refine ⟨?_, rfl⟩
    rw [standing_links hid, Standing.addTag, tags_standing hid]
    refine Standing.ext rfl rfl rfl rfl rfl rfl rfl (funext fun other => ?_)
    have hlink := hasLink_addLink w.store id tag id other
    rw [beq_self_eq_true, Bool.true_and] at hlink
    exact hlink
  have htake : ∀ {test : Id → Bool},
      (takeTags h test >>= fun _ => pure [] : Operation (List TransactionField)).runOn w =
        (.ok fields, v) →
      v.standing h = (w.standing h).removeTags test ∧ v.live = w.live := by
    intro test hrun
    rw [runOn_bind, runOn_takeTags h test hw, hid] at hrun
    cases hrun
    refine ⟨?_, rfl⟩
    rw [standing_links hid, Standing.removeTags, tags_standing hid]
    exact Standing.ext rfl rfl rfl rfl rfl rfl rfl
      (funext fun other => hasLink_removeLinks _ _ _ _)
  have hsame : v.live = w.live → (v.transaction h).account = (w.transaction h).account := by
    intro hlive
    rw [Workspace.transaction, hlive, Workspace.transaction]
  have hrole : ∀ (role : LabelRole) (reference : Reference Label) (t : LiveTransaction),
      (role.set reference t).account = t.account := by
    intro role reference t
    cases role <;> rfl
  cases effect with
  | setLabel role n label =>
      cases hrun
      refine standing_change hid (hrole role _) ?_
      cases role <;> rfl
  | setNamedLabel role name owner =>
      obtain ⟨⟨n, label⟩, u, hfind, hrun⟩ := runOn_bind_eq_ok hrun
      obtain ⟨hnamed, hlive, hlinks, -⟩ := findOrAddLabel_eq_ok hw hfind
      have htransaction : u.transaction h = w.transaction h := by
        rw [Workspace.transaction, hlive, Workspace.transaction]
      cases hrun
      have hname : s.namedId role.kind owner name = some n := by
        rw [Store.namedId, labelNamed?_of_grows (hs role.kind) hnamed]
        rfl
      rw [← htransaction] at hid ⊢
      refine standing_change hid (hrole role _) ?_
      rw [standing_of_links hlinks, Effect.meaning, hname, standing, htransaction]
      cases role <;> rfl
  | attachTag tag =>
      obtain ⟨hstanding, hlive⟩ := hput hw hid hrun
      exact ⟨hstanding, hsame hlive⟩
  | attachNamedTag name owner =>
      obtain ⟨⟨n, label⟩, u, hfind, hrun⟩ := runOn_bind_eq_ok hrun
      obtain ⟨hnamed, hlive, hlinks, hu⟩ := findOrAddLabel_eq_ok hw hfind
      have htransaction : u.transaction h = w.transaction h := by
        rw [Workspace.transaction, hlive, Workspace.transaction]
      obtain ⟨hstanding, hlive'⟩ := hput hu (htransaction ▸ hid) hrun
      have hlabels : v.store.labels .tag = u.store.labels .tag := by
        rw [runOn_bind, runOn_putTag h n hu, htransaction, hid] at hrun
        cases hrun
        change (u.store.addLink id n).tags = u.store.tags
        rw [Store.addLink]
        split <;> rfl
      have hname : s.namedId .tag owner name = some n := by
        have hgrows := hs .tag
        rw [hlabels] at hgrows
        rw [Store.namedId, labelNamed?_of_grows hgrows hnamed]
        rfl
      refine ⟨?_, hsame (hlive'.trans hlive)⟩
      rw [hstanding, Effect.meaning, hname, standing, htransaction, standing_of_links hlinks]
      rfl
  | detachTag tag =>
      obtain ⟨hstanding, hlive⟩ := htake hrun
      exact ⟨hstanding, hsame hlive⟩
  | detachAllTags =>
      obtain ⟨hstanding, hlive⟩ := htake hrun
      exact ⟨hstanding, hsame hlive⟩
  | setDescription words =>
      cases hrun
      refine standing_change hid (fun _ => ?_) ?_ <;> rfl
  | setNote words =>
      cases hrun
      refine standing_change hid (fun _ => ?_) ?_ <;> rfl
  | setType words =>
      cases hrun
      refine standing_change hid (fun _ => ?_) ?_ <;> rfl
  | markReconciled =>
      cases hrun
      refine standing_change hid (fun _ => ?_) ?_ <;> rfl
  | notify rule message =>
      cases hrun
      exact ⟨rfl, rfl⟩

end Perform

/-! ## What a plan means -/

section Plan

variable {h : Handle} {w v : Workspace} {user : Id} {kind : ActionKind} {a : Action}
  {value : Option ActionValue} {effect : Effect}

/-- The account of the transaction was looked up, and it is the user's. -/
structure Workspace.OwnedBy (w : Workspace) (h : Handle) (user : Id) : Prop where
  isSet : (w.transaction h).account.isSet = true
  loaded : ∃ account, (w.transaction h).account.loaded = some account ∧ account.account.user = user

namespace Workspace.OwnedBy

/-- Whether a transaction is the user's depends on its account alone. -/
theorem of_account (hw : w.OwnedBy h user)
    (haccount : (v.transaction h).account = (w.transaction h).account) : v.OwnedBy h user := by
  refine ⟨?_, ?_⟩ <;> rw [haccount]
  · exact hw.isSet
  · exact hw.loaded

/-- A row that was looked up is not looked up again. -/
theorem account_eq (hw : w.OwnedBy h user) {row : Id → LoadedAccount → Prop}
    (hlooked : (w.transaction h).account.LookedUp row (v.transaction h).account) :
    (v.transaction h).account = (w.transaction h).account := by
  obtain ⟨account, hloaded, -⟩ := hw.loaded
  generalize (v.transaction h).account = r at hlooked ⊢
  generalize (w.transaction h).account = r' at hlooked hloaded ⊢
  cases hlooked with
  | same => rfl
  | found hrow => cases hloaded

theorem looks (hw : w.OwnedBy h user) (hl : Looks h w v) : v.OwnedBy h user :=
  hw.of_account (hw.account_eq hl.own.account)

/-- An account that was looked up is not looked up again. -/
theorem runOn_accountOf (hw : w.OwnedBy h user) :
    (accountOf h).runOn w = (.ok (w.transaction h).account.loaded, w) := by
  obtain ⟨account, hloaded, -⟩ := hw.loaded
  rw [accountOf, runOn_bind, runOn_transaction]
  dsimp only
  rw [hloaded]
  rfl

theorem runOn_ownerOf (hw : w.OwnedBy h user) : (ownerOf h).runOn w = (.ok (some user), w) := by
  obtain ⟨account, hloaded, rfl⟩ := hw.loaded
  rw [ownerOf, runOn_bind, runOn_transaction]
  dsimp only
  rw [if_pos hw.isSet, runOn_bind, hw.runOn_accountOf, hloaded]
  rfl

end Workspace.OwnedBy

/-- A name under which nothing is held stands for a transaction without an account. -/
theorem live_has_of_isSet (hset : (w.transaction h).account.isSet = true) :
    w.live.has h = true := by
  cases hfind : w.live.find? h with
  | none =>
      rw [Workspace.transaction, hfind] at hset
      cases hset
  | some t =>
      rw [Table.has, hfind]
      rfl

/-- Whoever asks for the owner of a transaction has its account looked up. -/
theorem ownedBy_of_ownerOf (hrun : (ownerOf h).runOn w = (.ok (some user), v)) :
    v.OwnedBy h user := by
  rw [ownerOf, runOn_bind, runOn_transaction] at hrun
  dsimp only at hrun
  split at hrun
  · next hset =>
    rw [runOn_bind, runOn_accountOf] at hrun
    split at hrun
    · next found hfound =>
      split at hfound
      · next r hr =>
        cases hfound
        have hlooked : (w.transaction h).account.LookedUp (fun _ _ => True) r :=
          Reference.lookedUp_resolve (fun _ _ _ => trivial) hr
        have hrid : r.id = (w.transaction h).account.id := hlooked.id_eq
        obtain ⟨howner, rfl⟩ := Prod.mk.inj hrun
        obtain ⟨account, hloaded, huser⟩ := Option.map_eq_some_iff.1 (Except.ok.inj howner)
        have haccount := congrArg LiveTransaction.account (transaction_update_self
          (live_has_of_isSet hset) fun t => { t with account := r })
        refine ⟨?_, account, ?_, huser⟩
        · rw [haccount, Reference.isSet, hrid]
          exact hset
        · exact (congrArg Reference.loaded haccount).trans hloaded
      · cases hfound
    · cases hrun
  · cases hrun

/-- The label that an action names is the one that is found for it. -/
theorem ownedLabel_eq_ok {role : LabelKind} {owner : Id} {found : Id × Label}
    (hrun : (ownedLabel role value owner).runOn w = (.ok (some found), v)) :
    value = some (.identifier found.1) := by
  rw [ownedLabel.eq_def] at hrun
  split at hrun
  · next id =>
    obtain ⟨label, u, -, hrun⟩ := runOn_bind_eq_ok hrun
    have hfound := congrArg Prod.fst hrun
    obtain ⟨l, -, hl⟩ := Option.bind_eq_some_iff.1 (Except.ok.inj hfound)
    split at hl <;> cases hl
    rfl
  · cases hrun

/-- A plan that uses a label is made for a label that was found. -/
theorem exists_found_of_plan {role : LabelKind} {owner : Id}
    {f : Option (Id × Label) → Option Effect} (hnone : f none = none)
    (hrun : (do return f (← ownedLabel role value owner) : Operation (Option Effect)).runOn w =
      (.ok (some effect), v)) :
    ∃ found x, (ownedLabel role value owner).runOn w = (.ok (some found), x) ∧
      f (some found) = some effect := by
  obtain ⟨found, x, hfound, hrun⟩ := runOn_bind_eq_ok hrun
  have heffect := Except.ok.inj (congrArg Prod.fst hrun)
  cases found with
  | none => exact nomatch hnone.symm.trans heffect
  | some label => exact ⟨label, x, hfound, heffect⟩

/-- A plan that takes a text is made for an action that has one. -/
theorem exists_words_of_plan {t : LiveTransaction}
    (hrun : (match value with
      | some (.text words) => return planText kind t user words
      | _ => return none : Operation (Option Effect)).runOn w = (.ok (some effect), v)) :
    ∃ words, value = some (.text words) ∧ planText kind t user words = some effect := by
  split at hrun
  · next words => exact ⟨words, rfl, Except.ok.inj (congrArg Prod.fst hrun)⟩
  · cases hrun

/-- The effect that an action is planned to have is what the action means. -/
theorem meaning_planKind {s : Store} {now : Instant} {t : LiveTransaction} {links : Store}
    (hrun : (planKind kind a value t user).runOn w = (.ok (some effect), v)) :
    effect.meaning s now (t.standing links) =
      kind.meaning s user now value (t.standing links) := by
  -- The kinds that name a label by number find it under this number.
  have hlabel : ∀ {role : LabelKind} {f : Option (Id × Label) → Option Effect}, f none = none →
      (do return f (← ownedLabel role value user) : Operation (Option Effect)).runOn w =
        (.ok (some effect), v) →
      ∃ found, value = some (.identifier found.1) ∧ f (some found) = some effect := by
    intro role f hnone hrun
    obtain ⟨found, x, hfound, hplan⟩ := exists_found_of_plan hnone hrun
    exact ⟨found, ownedLabel_eq_ok hfound, hplan⟩
  cases kind with
  | setCategory =>
      obtain ⟨found, rfl, hplan⟩ := hlabel rfl hrun
      cases hplan
      rfl
  | setMerchant =>
      obtain ⟨found, rfl, hplan⟩ := hlabel rfl hrun
      cases hplan
      rfl
  | addTag =>
      have hnone : (if t.id.isSome then Option.map (fun tag => Effect.attachTag tag.1)
          (none : Option (Id × Label)) else none) = none := by
        split <;> rfl
      obtain ⟨found, rfl, hplan⟩ := hlabel hnone hrun
      split at hplan <;> cases hplan
      rfl
  | removeTag =>
      obtain ⟨found, rfl, hplan⟩ := hlabel rfl hrun
      cases hplan
      rfl
  | removeAllTags =>
      cases hrun
      rfl
  | markReconciled =>
      cases hrun
      rfl
  | sendNotification =>
      cases hrun
      rfl
  | setType =>
      obtain ⟨words, rfl, hplan⟩ := exists_words_of_plan hrun
      simp only [planText] at hplan
      split at hplan <;> cases hplan
      rfl
  | createTag =>
      obtain ⟨words, rfl, hplan⟩ := exists_words_of_plan hrun
      simp only [planText] at hplan
      split at hplan <;> cases hplan
      rfl
  | _ =>
      obtain ⟨words, rfl, hplan⟩ := exists_words_of_plan hrun
      cases hplan
      rfl

/-- The same of an action of the user's. -/
theorem meaning_plan [Host] {s : Store} {now : Instant} (hw : w.OwnedBy h user)
    (hkind : (Vocabulary.ofJson? a.kind : Option ActionKind) = some kind)
    (hrun : (plan kind a h).runOn w = (.ok (some effect), v)) :
    effect.meaning s now (w.standing h) = a.meaning s user now (w.standing h) := by
  rw [plan, runOn_bind, runOn_ofExcept] at hrun
  cases hvalue : a.typedValue with
  | error failure =>
      rw [hvalue] at hrun
      cases hrun
  | ok value =>
      rw [hvalue] at hrun
      dsimp only at hrun
      rw [runOn_bind, hw.runOn_ownerOf] at hrun
      dsimp only at hrun
      rw [runOn_bind, runOn_transaction] at hrun
      rw [Action.meaning, hkind, hvalue]
      exact meaning_planKind hrun

end Plan

/-! ## What the parts of a run come to -/

section Parts

variable {h : Handle} {id user : Id} {w v u : Workspace}

/-- A change is under way for a stored transaction of the user. -/
structure Workspace.IsWorkedOn (w : Workspace) (h : Handle) (id user : Id) : Prop where
  changing : w.isChanging = true
  id : (w.transaction h).id = some id
  owned : w.OwnedBy h user

/-- Work on the transaction has given its standing another value.  The value may refer to labels by
name, and it is the same for all later states of the labels. -/
structure Workspace.Yields (h : Handle) (id user : Id) (f : Store → Standing → Standing)
    (w v : Workspace) : Prop where
  workedOn : v.IsWorkedOn h id user
  now : v.now = w.now
  labels : ∀ kind, (w.store.labels kind).Grows (v.store.labels kind)
  standing : ∀ s : Store, (∀ kind, (v.store.labels kind).Grows (s.labels kind)) →
    v.standing h = f s (w.standing h)

namespace Workspace

variable {f g : Store → Standing → Standing}

theorem Yields.trans (hv : Yields h id user f w v) (hu : Yields h id user g v u) :
    Yields h id user (fun s x => g s (f s x)) w u where
  workedOn := hu.workedOn
  now := hu.now.trans hv.now
  labels kind := IsTrans.trans _ _ _ (hv.labels kind) (hu.labels kind)
  standing s hs := by
    rw [hu.standing s hs, hv.standing s fun kind => IsTrans.trans _ _ _ (hu.labels kind) (hs kind)]

theorem yields_refl (hw : w.IsWorkedOn h id user) : Yields h id user (fun _ x => x) w w where
  workedOn := hw
  now := rfl
  labels _ := Std.Refl.refl _
  standing _ _ := rfl

theorem Looks.yields (hl : Looks h w v) (hw : w.IsWorkedOn h id user) :
    Yields h id user (fun _ x => x) w v where
  workedOn := ⟨hl.isChanging.trans hw.changing, hl.own.id_eq.trans hw.id, hw.owned.looks hl⟩
  now := hl.now
  labels kind := by
    rw [hl.store]
    exact Std.Refl.refl _
  standing _ _ := hl.standing

theorem Logged.yields (hv : Logged w v) (hw : w.IsWorkedOn h id user) :
    Yields h id user (fun _ x => x) w v where
  workedOn := by
    have htransaction := hv.transaction h
    refine ⟨hv.isChanging.trans hw.changing, ?_, hw.owned.of_account ?_⟩
    · rw [htransaction, hw.id]
    · rw [htransaction]
  now := hv.now
  labels kind := by
    have hlabels : v.store.labels kind = w.store.labels kind := by
      rw [hv.store]
      cases kind <;> rfl
    rw [hlabels]
    exact Std.Refl.refl _
  standing _ _ := hv.standing

end Workspace

/-- An action yields its meaning if it is reported as successful. -/
theorem yields_runAction [Host] {a : Action} {outcome : ActionOutcome} (hw : w.IsWorkedOn h id user)
    (hrun : (runAction a h false).runOn w = (.ok outcome, v)) :
    Yields h id user
      (fun s x => if outcome.succeeded then a.meaning s user w.now x else x) w v := by
  rcases runAction_cases hw.changing hrun with
    ⟨hfailed, -, hlooks⟩ | ⟨hsucceeded, kind, u, effect, u', hkind, hlooks, hplan, hperform⟩
  · simp only [hfailed, Bool.false_eq_true, if_false]
    exact hlooks.yields hw
  · simp only [hsucceeded, if_true]
    have hplanned := looks_plan kind a h u
    rw [hplan] at hplanned
    have hu := (hlooks.yields hw).workedOn
    have hu' := (hplanned.yields hu).workedOn
    have hworks := works_perform (L := Eq) h effect u'
    rw [hperform] at hworks
    have hnow : u'.now = w.now := hplanned.now.trans hlooks.now
    have hmeaning : ∀ s, effect.meaning s w.now (u'.standing h) =
        a.meaning s user w.now (w.standing h) := by
      intro s
      rw [hplanned.standing, meaning_plan hu.owned hkind hplan, hlooks.standing]
    refine ⟨⟨hworks.isChanging.trans hu'.changing, hworks.ownId.trans hu'.id, ?_⟩,
      hworks.now.trans hnow, fun kind => ?_, fun s hs => ?_⟩
    · have haccount := (standing_perform hu'.changing hu'.id hperform fun kind =>
        Std.Refl.refl (v.store.labels kind)).2
      exact hu'.owned.of_account haccount
    · have hgrows := hworks.store.labels kind
      rwa [hplanned.store, hlooks.store] at hgrows
    · have hstanding := (standing_perform hu'.changing hu'.id hperform hs).1
      rw [hstanding, hnow, hmeaning]

namespace Engine

/-- The actions of a rule yield what their outcomes come to. -/
theorem yields_runActions [Host] {r : RuleDefinition} {actions : List Action}
    {outcomes : List ActionOutcome} (hw : w.IsWorkedOn h id user)
    (hrun : (runActions h r false actions).runOn w = (.ok outcomes, v)) :
    Yields h id user (fun s => accountedActions s user w.now actions outcomes) w v := by
  induction actions generalizing w outcomes with
  | nil =>
      cases hrun
      exact yields_refl hw
  | cons a rest ih =>
      obtain ⟨outcome, u, hfirst, hrest⟩ := runActions_cons_eq_ok hrun
      have hyields := yields_runAction hw hfirst
      rcases hrest with ⟨rfl, hlooks⟩ | ⟨later, rfl, hrest⟩
      · -- What is left of the actions has no outcomes.
        have hall := hyields.trans (hlooks.yields hyields.workedOn)
        cases rest <;> exact hall
      · have hlater := ih hyields.workedOn hrest
        rw [hyields.now] at hlater
        exact hyields.trans hlater

/-- A rule yields what its outcome comes to. -/
theorem yields_runRule [Host] {r : RuleDefinition} {outcome : RuleOutcome}
    (hw : w.IsWorkedOn h id user) (hrun : (runRule h r false).runOn w = (.ok outcome, v)) :
    Yields h id user (fun s x =>
      if outcome.matched then accountedActions s user w.now r.actions outcome.actions x else x)
      w v := by
  obtain ⟨u, hmatches, hrest⟩ := runRule_eq_ok hrun
  have hlooks := looks_ruleMatches h r w
  rw [hmatches] at hlooks
  rcases hrest with ⟨hidle, -, rfl⟩ | ⟨u', hmatched, hactions, hafter⟩
  · simp only [hidle, Bool.false_eq_true, if_false]
    exact hlooks.yields hw
  · simp only [hmatched, if_true]
    have hbefore := hlooks.yields hw
    have hyields := yields_runActions hbefore.workedOn hactions
    rw [hlooks.now] at hyields
    exact (hbefore.trans hyields).trans (hafter.yields hyields.workedOn)

/-- The rules yield what their outcomes come to. -/
theorem yields_runRules [Host] {e : Engine} {trigger : Trigger} {log : Bool}
    {rules : List RuleDefinition} {outcomes : List RuleOutcome} (hw : w.IsWorkedOn h id user)
    (hrun : (e.runRules h trigger false log rules).runOn w = (.ok outcomes, v)) :
    Yields h id user (fun s => accounted s user w.now rules outcomes) w v := by
  induction rules generalizing w outcomes with
  | nil =>
      cases hrun
      exact yields_refl hw
  | cons r rest ih =>
      obtain ⟨outcome, u, u', hrule, hlogged, hrest⟩ := runRules_cons_eq_ok hrun
      have hyields := yields_runRule hw hrule
      have hlogging := hyields.trans (hlogged.yields hyields.workedOn)
      rcases hrest with ⟨rfl, rfl, -⟩ | ⟨later, rfl, hrest⟩
      · cases rest <;> exact hlogging
      · have hlater := ih hlogging.workedOn hrest
        rw [hlogging.now] at hlater
        exact hlogging.trans hlater

end Engine

end Parts

end Rulebook
