import Rulebook.Proofs.Engine.Shadowing

/-!
# What a dry run sees

A dry run only looks, and what it says about a transaction depends on two things: the store, and the
transaction as it was when the run began.  Rows that are looked up on the way and values that are
kept in the caches change nothing about it, because they show again what was there.
`Workspace.Sees` is the property that all states of a dry run have, and `Program.Tells` the
judgement that a part of the run always has the same result in such states.

For conditions the result is written down (`LiveTransaction.holds`, `Condition.outcome`).  Matching
stops as soon as it is known how it ends, so the order of groups decides which conditions are looked
at.  But if no condition raises, the order does not decide how it ends (`tells_ruleMatches`).

For actions it is enough that there is one result, and that it depends on nothing of the action but
what it does, its value and whether it stops (`Action.core`).

## Main definitions

* `LiveTransaction.holds`, `Condition.outcome` — fields and conditions, without a run.
* `RuleDefinition.Agrees` — rules that differ in the order of their groups, in numbers and places.
* `Workspace.Sees` — the states of a dry run.

## Main statements

* `exists_tells_runRule` — rules that agree have the same outcome.
-/

namespace Rulebook

open Program Workspace

/-! ## Fields -/

/-- The name of the row that a reference names, or the failure to look it up. -/
def Reference.nameHeld {α : Type} (find : Id → Option α) (e : Entity) (name : α → String)
    (r : Reference α) : Except Failure FieldValue :=
  if r.isSet then
    match r.resolve find with
    | some r => .ok (.ofText? (r.loaded.map name))
    | none => .error (.missingRow e)
  else .ok .absent

/-- A name is the same after it was looked up. -/
theorem Reference.nameHeld_lookedUp {α : Type} {find : Id → Option α} {row : Id → α → Prop}
    (hrow : ∀ id a, row id a → find id = some a) {r s : Reference α} (h : r.LookedUp row s)
    (e : Entity) (name : α → String) : s.nameHeld find e name = r.nameHeld find e name := by
  cases h with
  | same => rfl
  | found ha =>
      have hfind := hrow _ _ ha
      simp [nameHeld, resolve, byId, known, isSet, hfind]

namespace LiveTransaction

/-- What a field of a transaction holds, or the failure to look it up. -/
def holds (s : Store) (t : LiveTransaction) : Field → Except Failure FieldValue
  | .amount => .ok (.amount t.amount)
  | .description => .ok (.ofText? t.description)
  | .partner => .ok (.ofText? t.partner)
  | .category => t.category.nameHeld s.categories.find? .category Label.name
  | .merchant => t.merchant.nameHeld s.merchants.find? .merchant Label.name
  | .account => t.account.nameHeld (findAccount s) .account (·.account.name)
  | .type => .ok (.ofText? t.type)
  | .note => .ok (.ofText? t.note)
  | .recipientNote => .ok (.ofText? t.recipientNote)
  | .place => .ok (.ofText? t.place)
  | .targetIban => .ok (.ofText? t.targetIban)
  | .sourceIban => .ok (.ofText? t.sourceIban)
  | .date => .ok (.date t.bookedDate)
  | .tags => .ok (.names ((t.id.map fun id => (s.tagsOf id).map (·.2.name)).getD []))

/-- The user who owns a transaction, or the failure to look it up. -/
def owner (s : Store) (t : LiveTransaction) : Except Failure (Option Id) :=
  if t.account.isSet then
    match t.account.resolve (findAccount s) with
    | some r => .ok (r.loaded.map (·.account.user))
    | none => .error (.missingRow .account)
  else .ok none

variable {s : Store} {t u : LiveTransaction}

theorem findAccount_of_accountRow {id : Id} {a : LoadedAccount} (h : AccountRow s id a) :
    findAccount s id = some a := by
  obtain ⟨hrow, hseen⟩ := h
  rw [findAccount, hrow, ← hseen]
  rfl

/-- Looking up rows does not change what a field holds. -/
theorem LookedUp.holds_eq (h : t.LookedUp s u) (field : Field) :
    u.holds s field = t.holds s field := by
  have hbare := h.bare
  simp only [LiveTransaction.bare, mk.injEq] at hbare
  cases field with
  | category => exact Reference.nameHeld_lookedUp (fun _ _ ha => ha) h.category _ _
  | merchant => exact Reference.nameHeld_lookedUp (fun _ _ ha => ha) h.merchant _ _
  | account =>
      exact Reference.nameHeld_lookedUp (fun _ _ ha => findAccount_of_accountRow ha) h.account _ _
  | _ => simp only [holds, hbare]

theorem LookedUp.owner_eq (h : t.LookedUp s u) : u.owner s = t.owner s := by
  have haccount := h.account
  unfold owner
  generalize u.account = r at haccount ⊢
  generalize t.account = r' at haccount ⊢
  cases haccount with
  | same => rfl
  | found ha =>
      have hfind := findAccount_of_accountRow ha
      simp [Reference.resolve, Reference.byId, Reference.known, Reference.isSet, hfind]

end LiveTransaction

section Results

variable {h : Handle} {w : Workspace}

/-- Looking up a name gives what the reference holds. -/
theorem result_labelName (role : LabelRole) :
    ((labelName role h).runOn w).1 =
      (role.get (w.transaction h)).nameHeld (w.store.labels role.kind).find? role.kind.entity
        Label.name := by
  rw [labelName, runOn_bind, runOn_transaction]
  dsimp only
  unfold Reference.nameHeld
  split
  · rw [runOn_bind, runOn_labelOf]
    cases (role.get (w.transaction h)).resolve (w.store.labels role.kind).find? <;> rfl
  · rfl

theorem result_accountName :
    ((accountName h).runOn w).1 =
      (w.transaction h).account.nameHeld (findAccount w.store) .account (·.account.name) := by
  rw [accountName, runOn_bind, runOn_transaction]
  dsimp only
  unfold Reference.nameHeld
  split
  · rw [runOn_bind, runOn_accountOf]
    cases (w.transaction h).account.resolve (findAccount w.store) <;> rfl
  · rfl

theorem result_resolveField (field : Field) :
    ((resolveField h field).runOn w).1 = (w.transaction h).holds w.store field := by
  rw [resolveField, runOn_bind, runOn_transaction]
  dsimp only
  cases field with
  | category => exact result_labelName .category
  | merchant => exact result_labelName .merchant
  | account => exact result_accountName
  | tags =>
      dsimp only
      rw [tagNames, runOn_bind, runOn_transaction]
      dsimp only [LiveTransaction.holds]
      cases (w.transaction h).id <;> rfl
  | _ => rfl

theorem result_ownerOf : ((ownerOf h).runOn w).1 = (w.transaction h).owner w.store := by
  rw [ownerOf, runOn_bind, runOn_transaction]
  dsimp only
  unfold LiveTransaction.owner
  split
  · rw [runOn_bind, runOn_accountOf]
    cases (w.transaction h).account.resolve (findAccount w.store) <;> rfl
  · rfl

end Results

/-! ## The states of a dry run -/

/-- The workspace of a dry run that began with this store and this transaction. -/
structure Workspace.Sees (h : Handle) (s : Store) (t : LiveTransaction) (w : Workspace) : Prop where
  store : w.store = s
  own : t.LookedUp s (w.transaction h)
  fields : ∀ id, t.id = some id → ∀ field value,
    w.fields.values.lookup (id, field) = some value → t.holds s field = .ok value
  labels : w.LabelsAgree

section Sees

variable {h : Handle} {s : Store} {t : LiveTransaction} {w v : Workspace} {α : Type}

namespace Workspace

/-- Looking at the transaction does not change what is seen, as long as the caches are
truthful. -/
theorem Sees.of_looks (hw : w.Sees h s t) (hl : Looks h w v)
    (hfields : ∀ id, t.id = some id → ∀ field value,
      v.fields.values.lookup (id, field) = some value → t.holds s field = .ok value)
    (hlabels : v.LabelsAgree) : v.Sees h s t where
  store := hl.store.trans hw.store
  own := by
    have hown := hl.own
    rw [hw.store] at hown
    exact IsTrans.trans _ _ _ hw.own hown
  fields := hfields
  labels := hlabels

end Workspace

/-- An operation that looks without touching the caches tells what it gives. -/
theorem tells_of_looks {x : Operation α} {r : Except Failure α} (hx : IgnoresCaches x)
    (hlooks : Keeps (Looks h) x) (hr : ∀ w, w.Sees h s t → (x.runOn w).1 = r) :
    Tells (Sees h s t) r x := by
  intro w hw
  obtain ⟨hfields, hlabels⟩ := hx.caches w
  have hl := hlooks w
  refine ⟨hr w hw, hw.of_looks hl ?_ ?_⟩
  · rw [hfields]
    exact hw.fields
  · intro kind id found hfound
    rw [hlabels] at hfound
    rw [hl.store]
    exact hw.labels kind id found hfound

theorem tells_report (e : Event) : Tells (Sees h s t) (.ok ()) (report e) :=
  tells_of_looks (ignores_report e) (looks_report e) fun _ _ => rfl

/-- Whoever reads the transaction finds it as it was, but perhaps with rows looked up. -/
theorem tells_transaction {f : LiveTransaction → Operation α} {r : Except Failure α}
    (hf : ∀ u, t.LookedUp s u → Tells (Sees h s t) r (f u)) :
    Tells (Sees h s t) r (transaction h >>= f) := by
  intro w hw
  rw [runOn_bind, runOn_transaction]
  exact hf _ hw.own w hw

theorem tells_ownerOf : Tells (Sees h s t) (t.owner s) (ownerOf h) :=
  tells_of_looks (ignores_ownerOf h) (looks_ownerOf h) fun w hw => by
    rw [result_ownerOf, hw.store, hw.own.owner_eq]

theorem tells_resolveField (field : Field) :
    Tells (Sees h s t) (t.holds s field) (resolveField h field) :=
  tells_of_looks (ignores_resolveField h field) (looks_resolveField h field) fun w hw => by
    rw [result_resolveField, hw.store, hw.own.holds_eq]

/-- A value from the cache is what a look-up gives, and so is a value that is put there. -/
theorem tells_fieldValue (field : Field) :
    Tells (Sees h s t) (t.holds s field) (fieldValue h field) := by
  intro w hw
  -- A value that is found was put there; one that is not found is looked up, and then put there.
  have hlooks := looks_fieldValue h field w
  have hid : (w.transaction h).id = t.id := hw.own.id_eq
  rw [runOn_fieldValue, hid] at hlooks ⊢
  rcases hfind : w.fields.find? t.id field with _ | value <;> rw [hfind] at hlooks
  · dsimp only at hlooks ⊢
    have hcounted :
        Sees h s t { w with fields := { w.fields with misses := w.fields.misses + 1 } } :=
      ⟨hw.store, hw.own, hw.fields, hw.labels⟩
    obtain ⟨hresult, hkept⟩ := tells_resolveField field _ hcounted
    rcases hrun : (resolveField h field).runOn
      { w with fields := { w.fields with misses := w.fields.misses + 1 } } with
      ⟨failure | value, v⟩ <;> rw [hrun] at hresult hkept hlooks
    · exact ⟨hresult, hkept⟩
    · refine ⟨hresult, hkept.store, hkept.own, fun id ht other found hfound => ?_, hkept.labels⟩
      dsimp only at hfound
      rw [ht, FieldCache.keep, List.lookup_cons] at hfound
      split at hfound
      · next heq =>
        cases (Prod.mk.inj (eq_of_beq heq)).2
        cases hfound
        exact hresult.symm
      · exact hkept.fields id ht other found hfound
  · obtain ⟨id, ht, hvalue⟩ := Option.bind_eq_some_iff.1 hfind
    exact ⟨(hw.fields id ht field value hvalue).symm, hw.store, hw.own, hw.fields, hw.labels⟩

end Sees

/-! ## Conditions -/

variable [Host]

namespace Condition

/-- The condition without its number and place. -/
def core (c : Condition) : Condition := { c with id := none, order := .null }

/-- The outcome of a condition on a transaction before negation, or why it raises. -/
def outcome (s : Store) (t : LiveTransaction) (c : Condition) : Except Failure Evaluation :=
  match c.recognised? with
  | some (field, op) => do c.apply field op (← t.holds s field)
  | none => c.unrecognised

/-- Whether a condition matches a transaction; one that raises does not. -/
def matchesOn (s : Store) (t : LiveTransaction) (c : Condition) : Bool :=
  match c.outcome s t with
  | .ok outcome => (c.finish outcome).matched
  | .error _ => false

theorem outcome_core (s : Store) (t : LiveTransaction) (c : Condition) :
    c.core.outcome s t = c.outcome s t := rfl

theorem matchesOn_core (s : Store) (t : LiveTransaction) (c : Condition) :
    c.core.matchesOn s t = c.matchesOn s t := rfl

end Condition

namespace ConditionGroup

/-- The group with the numbers and places of its conditions left out. -/
def core (g : ConditionGroup) : ConditionGroup := { g with conditions := g.conditions.map .core }

/-- Whether a group matches a transaction; one without conditions does. -/
def matchesOn (s : Store) (t : LiveTransaction) (g : ConditionGroup) : Bool :=
  g.conditions.isEmpty ||
    if g.wantsAll then g.conditions.all (·.matchesOn s t) else g.conditions.any (·.matchesOn s t)

theorem matchesOn_core (s : Store) (t : LiveTransaction) (g : ConditionGroup) :
    g.core.matchesOn s t = g.matchesOn s t := by
  simp only [matchesOn, core, List.isEmpty_map, List.all_map, List.any_map]
  rfl

/-- No condition of the group raises on the transaction. -/
def NeverRaises (s : Store) (t : LiveTransaction) (g : ConditionGroup) : Prop :=
  ∀ c ∈ g.conditions, ∃ outcome, c.outcome s t = .ok outcome

theorem neverRaises_core {s : Store} {t : LiveTransaction} {g : ConditionGroup} :
    g.core.NeverRaises s t ↔ g.NeverRaises s t := by
  simp [NeverRaises, core, Condition.outcome_core]

end ConditionGroup

/-- An action without its number and place and the number of its rule. -/
def Action.core (a : Action) : Action := { a with id := none, rule := none, order := .null }

namespace RuleDefinition

/-- The rules ask for the same conditions, though their groups may be in another order, and have the
same actions. -/
structure Agrees (r r' : RuleDefinition) : Prop where
  groups : (r.groups.map ConditionGroup.core).Perm (r'.groups.map ConditionGroup.core)
  actions : r.actions.map Action.core = r'.actions.map Action.core
  stops : r.stopProcessing = r'.stopProcessing

omit [Host] in
theorem Agrees.refl (r : RuleDefinition) : r.Agrees r := ⟨.refl _, rfl, rfl⟩

omit [Host] in
theorem Agrees.symm {r r' : RuleDefinition} (h : r.Agrees r') : r'.Agrees r :=
  ⟨h.groups.symm, h.actions.symm, h.stops.symm⟩

omit [Host] in
theorem Agrees.trans {r r' r'' : RuleDefinition} (h : r.Agrees r') (k : r'.Agrees r'') :
    r.Agrees r'' :=
  ⟨h.groups.trans k.groups, h.actions.trans k.actions, h.stops.trans k.stops⟩

/-- No condition of the rule raises on the transaction. -/
def NeverRaises (s : Store) (t : LiveTransaction) (r : RuleDefinition) : Prop :=
  ∀ g ∈ r.groups, g.NeverRaises s t

/-- Whether a rule matches a transaction: all its groups do. -/
def matchesOn (s : Store) (t : LiveTransaction) (r : RuleDefinition) : Bool :=
  r.groups.all (·.matchesOn s t)

variable {s : Store} {t : LiveTransaction} {r r' : RuleDefinition}

theorem Agrees.neverRaises (h : r.Agrees r') (hr : r.NeverRaises s t) : r'.NeverRaises s t := by
  intro g hg
  obtain ⟨g', hg', hsame⟩ := List.mem_map.1 (h.groups.mem_iff.2 (List.mem_map_of_mem hg))
  rw [← ConditionGroup.neverRaises_core, ← hsame, ConditionGroup.neverRaises_core]
  exact hr g' hg'

theorem Agrees.matchesOn_eq (h : r.Agrees r') : r'.matchesOn s t = r.matchesOn s t := by
  have hcores : ∀ r : RuleDefinition,
      r.matchesOn s t = (r.groups.map ConditionGroup.core).all (·.matchesOn s t) := by
    intro r
    simp only [matchesOn, List.all_map]
    congr 1
    funext g
    exact (g.matchesOn_core s t).symm
  rw [hcores, hcores]
  exact (List.Perm.all_eq h.groups).symm

end RuleDefinition

section Matching

variable {h : Handle} {s : Store} {t : LiveTransaction}

theorem tells_evaluateCondition (c : Condition) :
    Tells (Sees h s t) (c.outcome s t) (evaluateCondition h c) := by
  unfold evaluateCondition Condition.outcome
  rcases c.recognised? with _ | ⟨field, op⟩
  · exact tells_ofExcept c.unrecognised
  · exact (tells_fieldValue field).bind fun value _ => tells_ofExcept (c.apply field op value)

theorem tells_conditionMatches {c : Condition} (hc : ∃ outcome, c.outcome s t = .ok outcome) :
    Tells (Sees h s t) (.ok (c.matchesOn s t)) (conditionMatches h c) := by
  obtain ⟨outcome, houtcome⟩ := hc
  have hevaluate := tells_evaluateCondition (h := h) (s := s) (t := t) c
  have hcheck : Tells (Sees h s t) (.ok (c.finish outcome)) (checkCondition h c) := by
    rw [houtcome] at hevaluate
    refine hevaluate.bind_ok ?_
    dsimp only
    split
    · exact tells_transaction fun u _ => (tells_report _).bind_ok (tells_pure _)
    · exact tells_pure _
  rw [conditionMatches, Condition.matchesOn, houtcome]
  exact hcheck.bind_ok (tells_pure _)

theorem tells_groupMatches {g : ConditionGroup} (hg : g.NeverRaises s t) :
    Tells (Sees h s t) (.ok (g.matchesOn s t)) (groupMatches h g) := by
  have hconditions : ∀ c ∈ g.conditions,
      Tells (Sees h s t) (.ok (c.matchesOn s t)) (conditionMatches h c) :=
    fun c hc => tells_conditionMatches (hg c hc)
  unfold groupMatches ConditionGroup.matchesOn
  cases g.conditions.isEmpty with
  | true => exact tells_pure true
  | false =>
      cases g.wantsAll with
      | true => exact tells_allM hconditions
      | false => exact tells_anyM hconditions

/-- Where no condition raises, a rule matches if all its groups do, in whatever order they come. -/
theorem tells_ruleMatches {r : RuleDefinition} (hr : r.NeverRaises s t) :
    Tells (Sees h s t) (.ok (r.matchesOn s t)) (ruleMatches h r) :=
  tells_allM fun g hg => tells_groupMatches (hr g hg)

end Matching

/-! ## Actions -/

section Actions

variable {h : Handle} {s : Store} {t : LiveTransaction}

omit [Host] in
theorem tells_labelText (kind : LabelKind) (value : Option ActionValue) :
    Tells (Sees h s t) (.ok (Direct.labelText s kind value)) (labelText kind value) := by
  intro w hw
  obtain ⟨labels, hrun, hagree⟩ := runOn_labelText hw.labels kind value
  rw [hrun]
  exact ⟨by rw [hw.store], hw.store, hw.own, hw.fields, hagree⟩

omit [Host] in
theorem tells_ownedLabel (kind : LabelKind) (value : Option ActionValue) (owner : Id) :
    Tells (Sees h s t) (.ok (Direct.ownedLabel s kind value owner))
      (ownedLabel kind value owner) := by
  intro w hw
  obtain ⟨labels, hrun, hagree⟩ := runOn_ownedLabel hw.labels kind value owner
  rw [hrun]
  exact ⟨by rw [hw.store], hw.store, hw.own, hw.fields, hagree⟩

theorem exists_tells_describe (a : Action) : ∃ r, Tells (Sees h s t) r (describe a) := by
  rw [describe]
  split
  · exact ⟨_, tells_pure _⟩
  · next kind _ =>
    have hlabel : ∀ value labelKind (f : String → String), ∃ text,
        Tells (Sees h s t) (.ok text) (do return f (← labelText labelKind value)) :=
      fun value labelKind f => ⟨_, (tells_labelText labelKind value).bind_ok (tells_pure _)⟩
    have hkind : ∀ value, ∃ text, Tells (Sees h s t) (.ok text) (describeKind kind value) := by
      intro value
      cases kind with
      | setCategory => exact hlabel value .category _
      | setMerchant => exact hlabel value .merchant _
      | addTag => exact hlabel value .tag _
      | removeTag => exact hlabel value .tag _
      | _ => exact ⟨_, tells_pure _⟩
    choose text htext using hkind
    exact ⟨_, (tells_ofExcept _).bind fun value _ => htext value⟩

/-- Whether an action can be carried out. -/
def canCarryOut (kind : ActionKind) (a : Action) (h : Handle) : Operation Bool :=
  return (← plan kind a h).isSome

/-- In a dry run only the description of an action is reported, and whether it could be done. -/
theorem attemptAction_dry (kind : ActionKind) (a : Action) (h : Handle) :
    attemptAction kind a h true = do
      let description ← describe a
      return ⟨Vocabulary.code kind, ← canCarryOut kind a h, description, []⟩ := by
  simp only [attemptAction, canCarryOut, bind_assoc, pure_bind]
  congr 1
  funext description
  congr 1
  funext effect
  cases effect <;> rfl

omit [Host] in
/-- Whether an action can be done does not depend on its number and place.  The number of its rule
is part of a plan, but every notification can be sent. -/
theorem exists_tells_planKind (kind : ActionKind) (value : Option ActionValue) (owner : Id) :
    ∃ can, ∀ a u, t.LookedUp s u →
      Tells (Sees h s t) (.ok can) (do return (← planKind kind a value u owner).isSome) := by
  -- A plan does not look at the rows behind references, so the transaction may as well have none.
  have hbare : ∀ can : Bool, (∀ a, Tells (Sees h s t) (.ok can)
      (do return (← planKind kind a value t.bare owner).isSome)) → ∀ a u, t.LookedUp s u →
      Tells (Sees h s t) (.ok can) (do return (← planKind kind a value u owner).isSome) := by
    intro can hcan a u hu
    rw [planKind_bare, hu.bare]
    exact hcan a
  have howned : ∀ labelKind (f : Option (Id × Label) → Option Effect),
      Tells (Sees h s t) (.ok (f (Direct.ownedLabel s labelKind value owner)).isSome)
        ((do return f (← ownedLabel labelKind value owner)) >>= fun effect =>
          pure effect.isSome) :=
    fun labelKind f =>
      Tells.bind_ok (a := f (Direct.ownedLabel s labelKind value owner))
        ((tells_ownedLabel labelKind value owner).bind_ok (tells_pure _)) (tells_pure _)
  cases kind with
  | setCategory => exact ⟨_, hbare _ fun a => howned .category _⟩
  | setMerchant => exact ⟨_, hbare _ fun a => howned .merchant _⟩
  | addTag => exact ⟨_, hbare _ fun a => howned .tag _⟩
  | removeTag => exact ⟨_, hbare _ fun a => howned .tag _⟩
  | sendNotification => exact ⟨true, hbare _ fun a => tells_pure true⟩
  | _ => rcases value with _ | ⟨_ | _⟩ <;> exact ⟨_, hbare _ fun a => tells_pure _⟩

theorem exists_tells_canCarryOut (kind : ActionKind) (a : Action) :
    ∃ r, ∀ b : Action, b.typedValue = a.typedValue →
      Tells (Sees h s t) r (canCarryOut kind b h) := by
  choose can hcan using fun value owner =>
    exists_tells_planKind (h := h) (s := s) (t := t) kind value owner
  refine ⟨do
    let value ← a.typedValue
    return (← t.owner s).elim false (can value), fun b hb => ?_⟩
  simp only [canCarryOut, plan, bind_assoc]
  rw [hb]
  refine (tells_ofExcept _).bind fun value _ => tells_ownerOf.bind fun owner _ => ?_
  cases owner with
  | none => exact tells_pure false
  | some owner =>
      simp only [bind_assoc]
      exact tells_transaction fun u hu => hcan value owner b u hu

omit [Host] in
/-- The kind, value and switch of an action are part of its core. -/
theorem Action.core_eq_iff {a b : Action} : b.core = a.core ↔
    b.kind = a.kind ∧ b.value = a.value ∧ b.stopProcessing = a.stopProcessing := by
  simp [core]

/-- Actions with the same core describe and do the same. -/
theorem Action.same_of_core {a b : Action} (hb : b.core = a.core) :
    b.kind = a.kind ∧ b.typedValue = a.typedValue ∧ describe b = describe a := by
  obtain ⟨hkind, hvalue, -⟩ := Action.core_eq_iff.1 hb
  have htyped : b.typedValue = a.typedValue := by
    rw [Action.typedValue, hkind, hvalue]
    rfl
  exact ⟨hkind, htyped, by rw [describe, describe, hkind, htyped]⟩

theorem exists_tells_attemptAction (kind : ActionKind) (a : Action) :
    ∃ r, ∀ b : Action, b.core = a.core →
      Tells (Sees h s t) r (attemptAction kind b h true) := by
  obtain ⟨description, hdescription⟩ := exists_tells_describe (h := h) (s := s) (t := t) a
  obtain ⟨can, hcan⟩ := exists_tells_canCarryOut (h := h) (s := s) (t := t) kind a
  refine ⟨do
    let text ← description
    return ⟨Vocabulary.code kind, ← can, text, []⟩, fun b hb => ?_⟩
  obtain ⟨-, htyped, hdescribe⟩ := Action.same_of_core hb
  rw [attemptAction_dry, hdescribe]
  exact hdescription.bind fun text _ => (hcan b htyped).bind fun can _ => tells_pure _

/-- A dry run of an action reports what it does and whether it could be done, and both depend only
on its kind and value. -/
theorem exists_tells_runAction (a : Action) : ∃ outcome, ∀ b : Action, b.core = a.core →
    Tells (Sees h s t) (.ok outcome) (runAction b h true) := by
  rcases hkind : (Vocabulary.ofJson? a.kind : Option ActionKind) with _ | kind
  · refine ⟨⟨a.kind.display, false, "Unknown action", []⟩, fun b hb => ?_⟩
    refine tells_transaction fun u _ => ?_
    rw [(Action.same_of_core hb).1, hkind]
    exact (tells_report _).bind_ok (tells_pure _)
  · obtain ⟨r, hr⟩ := exists_tells_attemptAction (h := h) (s := s) (t := t) kind a
    let failed : ActionOutcome :=
      ⟨Vocabulary.code kind, false, "Failed: " ++ Vocabulary.label kind, []⟩
    refine ⟨handled (fun _ => failed) r, fun b hb => tells_transaction fun u _ => ?_⟩
    rw [(Action.same_of_core hb).1, hkind]
    exact (hr b hb).tryCatch fun failure => (tells_report _).bind_ok (tells_pure failed)

theorem exists_tells_runActions (actions : List Action) :
    ∃ outcomes, ∀ (r : RuleDefinition) (others : List Action),
      others.map Action.core = actions.map Action.core →
        Tells (Sees h s t) (.ok outcomes) (Engine.runActions h r true others) := by
  induction actions with
  | nil =>
      refine ⟨[], fun r others hothers => ?_⟩
      rw [List.map_eq_nil_iff.1 hothers]
      exact tells_pure []
  | cons a rest ih =>
      obtain ⟨outcome, houtcome⟩ := exists_tells_runAction (h := h) (s := s) (t := t) a
      obtain ⟨outcomes, houtcomes⟩ := ih
      refine ⟨if !outcome.succeeded && a.stopProcessing.isTruthy then [outcome]
        else outcome :: outcomes, fun r others hothers => ?_⟩
      obtain ⟨b, others, rfl, hb, hrest⟩ := List.map_eq_cons_iff.1 hothers
      rw [Engine.runActions]
      refine (houtcome b hb).bind_ok ?_
      rw [(Action.core_eq_iff.1 hb).2.2]
      split
      · exact tells_transaction fun u _ => (tells_report _).bind_ok (tells_pure _)
      · exact (houtcomes r others hrest).bind_ok (tells_pure _)

/-- The dry runs of two rules that agree have the same outcome.  The rules keep their own numbers
and names. -/
theorem exists_tells_runRule {r : RuleDefinition} (hr : r.NeverRaises s t) :
    ∃ outcome : RuleOutcome, ∀ r', r.Agrees r' →
      Tells (Sees h s t) (.ok { outcome with rule := r'.id, name := r'.name })
        (Engine.runRule h r' true) := by
  obtain ⟨outcomes, houtcomes⟩ := exists_tells_runActions (h := h) (s := s) (t := t) r.actions
  refine ⟨if r.matchesOn s t then
      { rule := r.id, name := r.name, matched := true, actions := outcomes,
        stopped := r.stopProcessing }
    else { rule := r.id, name := r.name, matched := false }, fun r' hagrees => ?_⟩
  rw [Engine.runRule]
  refine (tells_ruleMatches (hagrees.neverRaises hr)).bind_ok ?_
  rw [hagrees.matchesOn_eq, ← hagrees.stops]
  cases r.matchesOn s t with
  | false => exact tells_pure _
  | true => exact (houtcomes r' r'.actions hagrees.actions.symm).bind_ok (tells_pure _)

end Actions

end Rulebook
