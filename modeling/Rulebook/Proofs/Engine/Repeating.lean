import Rulebook.Proofs.Engine.Assigning
import Rulebook.Proofs.Engine.Carrying

/-!
# Running actions twice

To run the actions of a rule twice is the same as to run them once, unless one of them appends or
prepends.  This does not follow from the single actions, each of which may well be repeated.  In the
second pass more can go through than in the first: a label that was not there when an action asked
for it by its number may have been added by a later action, under this very number.  And since an
action that fails may end the list, what is run depends on what goes through.

The passes agree for two reasons.  What the first pass comes to see are labels that it has itself
put on the transaction, so that an action that goes through only later writes to places that are
written to after it anyway (`Workspace.Advances.goes_or_fresh`, `Assigns.absorb`).  And where the
first pass ends nothing is added any more, so that the second pass ends in the same place.

Accordingly a pass is described by an assignment, together with the promise that it comes to the same
assignment in all workspaces that offer what is offered at its end (`Workspace.Repeats`).

## Main definitions

* `Workspace.Offers` — the label with a number is seen as that of the owner.
* `Workspace.Advances`, `Workspace.SameOffer` — more is offered than before, or the same.
* `Workspace.Repeats` — a program that comes to the same when it is repeated.

## Main statements

* `Engine.exists_repeats_runActions` — the actions of a rule repeat.
* `Engine.runActions_twice` — running them twice leaves what running them once does.
-/

namespace Rulebook

open Program Workspace

section

variable {h : Handle} {w v u : Workspace} {id : Id}

/-! ## What is offered -/

namespace Workspace

/-- The label with a number is seen as that of the owner of the transaction. -/
def Offers (w : Workspace) (h : Handle) (kind : LabelKind) (n : Id) : Prop :=
  ∃ owner, w.owner? h = some owner ∧ w.SeesLabel owner kind n

theorem offers_iff {owner : Id} (howner : w.owner? h = some owner) {kind : LabelKind} {n : Id} :
    w.Offers h kind n ↔ w.SeesLabel owner kind n := by
  rw [Offers, howner]
  exact ⟨fun ⟨_, heq, hsees⟩ => Option.some.inj heq ▸ hsees, fun hsees => ⟨owner, rfl, hsees⟩⟩

/-- In the later workspace no less is offered and stored, and nothing more but labels that belong in
certain places. -/
structure Advances (h : Handle) (D : Set Slot) (w v : Workspace) : Prop where
  isChanging : v.isChanging = w.isChanging
  now : v.now = w.now
  users : v.store.users = w.store.users
  owner : v.owner? h = w.owner? h
  labels : ∀ kind, (w.store.labels kind).Grows (v.store.labels kind)
  offers : ∀ kind n, w.Offers h kind n → v.Offers h kind n
  fresh : ∀ kind n, kind.slot n ∉ D → (v.Offers h kind n → w.Offers h kind n) ∧
    ((v.store.labels kind).has n = true → (w.store.labels kind).has n = true)

/-- In the later workspace the same is offered and stored. -/
structure SameOffer (h : Handle) (w v : Workspace) : Prop extends Advances h ∅ w v where
  stored : ∀ kind, v.store.labels kind = w.store.labels kind

namespace Advances

variable {D E : Set Slot}

theorem trans (hv : Advances h D w v) (hu : Advances h E v u) : Advances h (D ∪ E) w u where
  isChanging := hu.isChanging.trans hv.isChanging
  now := hu.now.trans hv.now
  users := hu.users.trans hv.users
  owner := hu.owner.trans hv.owner
  labels kind := IsTrans.trans _ _ _ (hv.labels kind) (hu.labels kind)
  offers kind n hn := hu.offers kind n (hv.offers kind n hn)
  fresh kind n hslot := by
    rw [Set.mem_union, not_or] at hslot
    obtain ⟨hoffered, hstored⟩ := hv.fresh kind n hslot.1
    obtain ⟨hoffered', hstored'⟩ := hu.fresh kind n hslot.2
    exact ⟨fun hn => hoffered (hoffered' hn), fun hn => hstored (hstored' hn)⟩

end Advances

namespace SameOffer

variable {D : Set Slot}

theorem advances (hv : SameOffer h w v) (hu : Advances h D v u) : Advances h D w u := by
  have hboth := hv.toAdvances.trans hu
  rwa [Set.empty_union] at hboth

theorem advances_left (hv : Advances h D w v) (hu : SameOffer h v u) : Advances h D w u := by
  have hboth := hv.trans hu.toAdvances
  rwa [Set.union_empty] at hboth

theorem refl (h : Handle) (w : Workspace) : SameOffer h w w where
  isChanging := rfl
  now := rfl
  users := rfl
  owner := rfl
  labels _ := Std.Refl.refl _
  offers _ _ hn := hn
  fresh _ _ _ := ⟨fun hn => hn, fun hn => hn⟩
  stored _ := rfl

theorem trans (hv : SameOffer h w v) (hu : SameOffer h v u) : SameOffer h w u where
  toAdvances := hv.advances hu.toAdvances
  stored kind := (hu.stored kind).trans (hv.stored kind)

theorem symm (hv : SameOffer h w v) : SameOffer h v w where
  isChanging := hv.isChanging.symm
  now := hv.now.symm
  users := hv.users.symm
  owner := hv.owner.symm
  labels kind := by
    rw [hv.stored]
    exact Std.Refl.refl _
  offers kind n hn := (hv.fresh kind n (Set.notMem_empty _)).1 hn
  fresh kind n _ := by
    rw [hv.stored]
    exact ⟨hv.offers kind n, fun hn => hn⟩
  stored kind := (hv.stored kind).symm

end SameOffer

/-- Where the same is seen, the same is offered. -/
theorem Glances.sameOffer (hv : Glances h w v) : SameOffer h w v := by
  have hstore := hv.toLooks.store
  have howner := hv.toLooks.owner?
  have hoffers : ∀ kind n, v.Offers h kind n ↔ w.Offers h kind n := by
    intro kind n
    simp only [Offers, howner, hv.toSameSight.seesLabel_iff]
  refine ⟨⟨hv.toLooks.isChanging, hv.now, by rw [hstore], howner, fun kind => ?_,
    fun kind n => (hoffers kind n).2, fun kind n _ => ⟨(hoffers kind n).1, ?_⟩⟩, fun kind => ?_⟩
  · rw [hstore]
    exact Std.Refl.refl _
  · rw [hstore]
    exact fun hn => hn
  · rw [hstore]

end Workspace

/-! ## Actions where more is offered -/

section Offered

variable {D : Set Slot} {kind : ActionKind} {value : Option ActionValue} {owner : Id}

/-- What goes through goes through later, too. -/
theorem Workspace.Advances.goes (hv : Advances h D w v) (howner : w.owner? h = some owner)
    (hgoes : kind.Goes w owner value) : kind.Goes v owner value := by
  refine hgoes.transport hv.isChanging hv.users fun labelKind n _ => ⟨fun hn => ?_, fun hn => ?_⟩
  · rw [← offers_iff howner] at hn
    exact (offers_iff (hv.owner.trans howner)).1 (hv.offers _ _ hn)
  · exact (hv.labels labelKind).has hn

/-- An action that asks for a label by its number writes to the place of the label. -/
theorem slots_of_numbered {labelKind : LabelKind} {n : Id} (s : Store) (owner : Id)
    (hnumbered : kind.numbered? value = some (labelKind, n)) :
    kind.slots s owner value = {labelKind.slot n} ∧ kind.named? owner value = none := by
  rw [ActionKind.numbered?.eq_def] at hnumbered
  split at hnumbered <;> cases hnumbered <;> exact ⟨rfl, rfl⟩

/-- What goes through only later writes to a place where something new belongs, and asks for no label
by its name. -/
theorem Workspace.Advances.goes_or_fresh (hv : Advances h D w v) (howner : w.owner? h = some owner)
    (hgoes : kind.Goes v owner value) (s : Store) :
    kind.Goes w owner value ∨ kind.slots s owner value ⊆ D ∧ kind.named? owner value = none := by
  refine or_iff_not_imp_right.2 fun hold => ?_
  refine hgoes.transport hv.isChanging.symm hv.users.symm fun labelKind n hnumbered => ?_
  obtain ⟨hslots, hnamed⟩ := slots_of_numbered s owner hnumbered
  have hplace : labelKind.slot n ∉ D :=
    fun hslot => hold ⟨hslots ▸ Set.singleton_subset_iff.2 hslot, hnamed⟩
  obtain ⟨hoffered, hstored⟩ := hv.fresh labelKind n hplace
  rw [offers_iff (hv.owner.trans howner), offers_iff howner] at hoffered
  exact ⟨hoffered, hstored⟩

/-- A label that is asked for by its name belongs in a place that the action writes to. -/
theorem slot_mem_slots {s : Store} {labelKind : LabelKind} {name : String} {user n : Id} {l : Label}
    (hasked : kind.named? owner value = some (labelKind, name, user))
    (hnamed : s.labelNamed? labelKind user name = some (n, l)) :
    user = owner ∧ labelKind.slot n ∈ kind.slots s owner value := by
  rw [ActionKind.named?.eq_def] at hasked
  split at hasked <;> cases hasked
  · exact ⟨rfl, n, by rw [Store.namedId, hnamed]; rfl, rfl⟩
  · exact ⟨rfl, rfl⟩
  · exact ⟨rfl, rfl⟩

/-- Work advances a transaction if each label is as before, or is offered from then on and either was
before or belongs in one of the places. -/
theorem Workspace.Works.advances (hworks : Works Eq h w v) (howner : v.owner? h = w.owner? h)
    (hlabels : ∀ k m,
      v.label? k m = w.label? k m ∧ (v.store.labels k).has m = (w.store.labels k).has m ∨
      v.Offers h k m ∧ (k.slot m ∈ D ∨ w.Offers h k m ∧ (w.store.labels k).has m = true)) :
    Advances h D w v := by
  have hoffers : ∀ {k m}, v.label? k m = w.label? k m → (v.Offers h k m ↔ w.Offers h k m) := by
    intro k m hseen
    simp only [Offers, SeesLabel, howner, hseen]
  refine ⟨hworks.isChanging, hworks.now, ?_, howner, hworks.store.labels, fun k m hn => ?_,
    fun k m hslot => ?_⟩
  · have husers := congrArg Store.users hworks.store.fixed
    exact husers
  · rcases hlabels k m with ⟨hseen, -⟩ | ⟨hoffered, -⟩
    · exact (hoffers hseen).2 hn
    · exact hoffered
  · rcases hlabels k m with ⟨hseen, hhas⟩ | ⟨-, hplace | ⟨hoffered, hhas⟩⟩
    · exact ⟨(hoffers hseen).1, fun hn => hhas ▸ hn⟩
    · exact absurd hplace hslot
    · exact ⟨fun _ => hoffered, fun _ => hhas⟩

namespace Workspace

/-- The label that was asked for is offered. -/
theorem LearnsLabel.offers {labelKind : LabelKind} {name : String} {n : Id} {l : Label}
    (hl : w.LearnsLabel v labelKind name owner n l) (howner : v.owner? h = some owner) :
    v.Offers h labelKind n :=
  ⟨owner, howner, l, hl.seen, (labelNamed?_eq_some hl.named).2.1⟩

/-- A successful action advances the transaction in the places that it writes to. -/
theorem Learns.advances (hlearns : w.Learns v (kind.named? owner value)) (hworks : Works Eq h w v)
    (howner : w.owner? h = some owner) (hsame : v.owner? h = w.owner? h) {s : Store}
    (hs : ∀ k, (v.store.labels k).Grows (s.labels k)) :
    Advances h (kind.slots s owner value) w v := by
  refine hworks.advances hsame fun k m => ?_
  rcases hasked : kind.named? owner value with _ | ⟨labelKind, name, user⟩ <;>
    rw [hasked] at hlearns
  · exact .inl ⟨(hlearns k).2 m, by rw [(hlearns k).1]⟩
  · obtain ⟨n, l, hlabel⟩ := hlearns
    by_cases hlearned : (k, m) = (labelKind, n)
    · cases hlearned
      obtain ⟨rfl, hslot⟩ := slot_mem_slots hasked (labelNamed?_of_grows (hs _) hlabel.named)
      exact .inr ⟨hlabel.offers (hsame.trans howner), .inl hslot⟩
    · exact .inl (hlabel.others k m hlearned)

/-- Where the label is offered that an action asks for by its name, the action leaves the offer as it
is. -/
theorem Learns.sameOffer (hlearns : w.Learns v (kind.named? owner value))
    (hworks : Works Eq h w v) (howner : w.owner? h = some owner) (hsame : v.owner? h = w.owner? h)
    (hknown : ∀ labelKind name user, kind.named? owner value = some (labelKind, name, user) →
      ∃ n l, w.store.labelNamed? labelKind user name = some (n, l) ∧ w.Offers h labelKind n) :
    SameOffer h w v := by
  rcases hasked : kind.named? owner value with _ | ⟨labelKind, name, user⟩ <;>
    rw [hasked] at hlearns
  · refine ⟨hworks.advances hsame fun k m => .inl ⟨(hlearns k).2 m, ?_⟩, fun k => (hlearns k).1⟩
    rw [(hlearns k).1]
  · obtain ⟨n, l, hlabel⟩ := hlearns
    obtain ⟨n', l', hnamed, hoffered⟩ := hknown labelKind name user hasked
    have hstored := hlabel.known (by rw [hnamed]; rfl)
    have hfound := hlabel.named
    rw [Store.labelNamed?, hstored, ← Store.labelNamed?, hnamed] at hfound
    cases hfound
    refine ⟨hworks.advances hsame fun k m => ?_, hstored⟩
    by_cases hlearned : (k, m) = (labelKind, n)
    · cases hlearned
      obtain ⟨rfl, -⟩ := slot_mem_slots hasked hnamed
      exact .inr ⟨hlabel.offers (hsame.trans howner),
        .inr ⟨hoffered, Table.has_of_find? (labelNamed?_eq_some hnamed).1⟩⟩
    · exact .inl (hlabel.others k m hlearned)

end Workspace

end Offered

/-! ## What may be repeated -/

/-- From a workspace the program leads to another in which it has assigned to certain places, and in
all workspaces with the same offer as there it assigns the same and leaves the offer as it is. -/
structure Workspace.Repeats {α : Type} (x : Operation α) (h : Handle) (id : Id) (D : Set Slot)
    (f : Standing → Standing) (w v : Workspace) : Prop where
  run : ∃ a, x.runOn w = (.ok a, v)
  ready : v.IsReady h id
  advances : Advances h D w v
  assigns : Assigns D f
  standing : v.standing h = f (w.standing h)
  again : ∀ u, u.IsReady h id → SameOffer h v u → ∃ a u', x.runOn u = (.ok a, u') ∧
    u'.IsReady h id ∧ SameOffer h v u' ∧ u'.standing h = f (u.standing h)

/-- What is repeated leaves the standing as the first time. -/
theorem Workspace.Repeats.twice {α : Type} {x : Operation α} {D : Set Slot}
    {f : Standing → Standing} (hx : Repeats x h id D f w v) :
    ∃ a u, x.runOn v = (.ok a, u) ∧ SameOffer h v u ∧ u.standing h = v.standing h := by
  obtain ⟨a, u, hrun, -, hoffer, hstanding⟩ := hx.again v hx.ready (.refl h v)
  exact ⟨a, u, hrun, hoffer, by rw [hstanding, hx.standing, hx.assigns.twice]⟩

variable [Host]

namespace Engine

variable {r : RuleDefinition} {a : Action} {rest : List Action}

theorem works_of_runOn {outcome : ActionOutcome}
    (hrun : (runAction a h false).runOn w = (.ok outcome, v)) : Works Eq h w v := by
  have hworks := works_runAction (L := Eq) a h false w
  rwa [hrun] at hworks

/-- The actions that follow are run unless the first fails and ends them. -/
theorem runOn_runActions_cons {outcome : ActionOutcome} {later : List ActionOutcome}
    (hfirst : (runAction a h false).runOn w = (.ok outcome, v))
    (hgoesOn : outcome.succeeded = true ∨ a.stopProcessing.isTruthy = false)
    (hrest : (runActions h r false rest).runOn v = (.ok later, u)) :
    (runActions h r false (a :: rest)).runOn w = (.ok (outcome :: later), u) := by
  have hends : ¬(!outcome.succeeded && a.stopProcessing.isTruthy) = true := by
    rcases hgoesOn with h | h <;> simp [h]
  rw [runActions, runOn_bind, hfirst]
  dsimp only
  rw [if_neg hends, runOn_bind, hrest]
  rfl

theorem runOn_runActions_cons_ended (r : RuleDefinition) (rest : List Action)
    {outcome : ActionOutcome}
    (hfirst : (runAction a h false).runOn w = (.ok outcome, v))
    (hfailed : outcome.succeeded = false) (hstop : a.stopProcessing.isTruthy = true) :
    ∃ e, (runActions h r false (a :: rest)).runOn w =
      (.ok [outcome], { v with events := e :: v.events }) := by
  rw [runActions, runOn_bind, hfirst]
  dsimp only
  rw [if_pos (by simp [hfailed, hstop])]
  exact ⟨_, rfl⟩

/-- An action that goes through in a later pass, and finds what it asks for by its name, does what it
means and leaves the offer as it is. -/
theorem exists_runOn_of_offered {kind : ActionKind} {value : Option ActionValue} {owner : Id}
    (hu : u.IsReady h id) (hoffer : SameOffer h v u) (hasks : a.Asks u h kind value owner)
    (hgoes : kind.Goes u owner value)
    (hknown : ∀ labelKind name user, kind.named? owner value = some (labelKind, name, user) →
      ∃ n l, u.store.labelNamed? labelKind user name = some (n, l) ∧ u.Offers h labelKind n) :
    ∃ outcome u₁, (runAction a h false).runOn u = (.ok outcome, u₁) ∧ outcome.succeeded = true ∧
      u₁.IsReady h id ∧ SameOffer h v u₁ ∧
      u₁.standing h = kind.meaning v.store owner u.now value (u.standing h) := by
  obtain ⟨outcome, u₁, hrun, hsucceeded, hu₁, howner, hlearns, hmeaning⟩ :=
    hu.runAction_of_goes hasks hgoes
  have hsame := hoffer.trans
    (hlearns.sameOffer (works_of_runOn hrun) hasks.owned howner hknown)
  refine ⟨outcome, u₁, hrun, hsucceeded, hu₁, hsame, hmeaning v.store fun k => ?_⟩
  rw [hsame.stored]
  exact Std.Refl.refl _

variable (hrest : ∀ {w : Workspace}, w.IsReady h id →
  ∃ D f v, Repeats (runActions h r false rest) h id D f w v)

include hrest

/-- A list may be repeated that begins with an action that goes through: it goes through again, and
finds what it asks for by its name. -/
theorem exists_repeats_cons_of_goes (hw : w.IsReady h id) {kind : ActionKind}
    {value : Option ActionValue} {owner : Id} (hasks : a.Asks w h kind value owner)
    (hgoes : kind.Goes w owner value) (hkind : kind.isRepeatable = true) :
    ∃ D f v, Repeats (runActions h r false (a :: rest)) h id D f w v := by
  obtain ⟨outcome, w₁, hfirst, hsucceeded, hw₁, howner, hlearns, hmeaning⟩ :=
    hw.runAction_of_goes hasks hgoes
  obtain ⟨D, f, v, hv⟩ := hrest hw₁
  have hgrows := hv.advances.labels
  have hadvances :=
    (hlearns.advances (works_of_runOn hfirst) hasks.owned howner hgrows).trans hv.advances
  have hassigns := (assigns_meaning v.store owner w.now hkind value).comp hv.assigns
  obtain ⟨later, hlater⟩ := hv.run
  refine ⟨_, _, v, ⟨_, runOn_runActions_cons hfirst (.inl hsucceeded) hlater⟩, hv.ready, hadvances,
    hassigns, ?_, fun u hu hoffer => ?_⟩
  · rw [hv.standing, hmeaning v.store hgrows]
  · have hboth := hoffer.advances_left hadvances
    have hasks' : a.Asks u h kind value owner :=
      ⟨hasks.kind, hasks.value, hboth.owner.trans hasks.owned⟩
    -- What was asked for by its name is there since the first pass.
    have hknown : ∀ labelKind name user, kind.named? owner value = some (labelKind, name, user) →
        ∃ n l, u.store.labelNamed? labelKind user name = some (n, l) ∧ u.Offers h labelKind n := by
      intro labelKind name user hasked
      rw [hasked] at hlearns
      obtain ⟨n, l, hlabel⟩ := hlearns
      have hnamed := labelNamed?_of_grows (hgrows labelKind) hlabel.named
      obtain ⟨rfl, -⟩ := slot_mem_slots hasked hnamed
      refine ⟨n, l, ?_, ?_⟩
      · rw [Store.labelNamed?, hoffer.stored, ← Store.labelNamed?, hnamed]
      · have hoffered := hlabel.offers (howner.trans hasks.owned)
        exact hoffer.offers _ _ (hv.advances.offers _ _ hoffered)
    obtain ⟨outcome', u₁, hfirst', hsucceeded', hu₁, hsame, hmeaning'⟩ :=
      exists_runOn_of_offered hu hoffer hasks' (hboth.goes hasks.owned hgoes) hknown
    obtain ⟨later', u', hlater', hu', hoffer', hstanding⟩ := hv.again u₁ hu₁ hsame
    refine ⟨_, u', runOn_runActions_cons hfirst' (.inl hsucceeded') hlater', hu', hoffer', ?_⟩
    rw [hstanding, hmeaning', hboth.now]

/-- So may a list that goes on after an action that does not.  If the action goes through the second
time, it writes to places that are written to after it. -/
theorem exists_repeats_cons_of_not_goes (hw : w.IsReady h id) (hnot : ¬a.Goes w h)
    (hstop : a.stopProcessing.isTruthy = false)
    (hkind : ∀ kind, (Vocabulary.ofJson? a.kind : Option ActionKind) = some kind →
      kind.isRepeatable = true) :
    ∃ D f v, Repeats (runActions h r false (a :: rest)) h id D f w v := by
  obtain ⟨outcome, w₁, hfirst, -, hglances⟩ := hw.runAction_of_not_goes hnot
  obtain ⟨D, f, v, hv⟩ := hrest (hw.glances hglances)
  have hadvances := hglances.sameOffer.advances hv.advances
  obtain ⟨later, hlater⟩ := hv.run
  refine ⟨D, f, v, ⟨_, runOn_runActions_cons hfirst (.inr hstop) hlater⟩, hv.ready, hadvances,
    hv.assigns, by rw [hv.standing, hglances.toLooks.standing], fun u hu hoffer => ?_⟩
  by_cases hgoes : a.Goes u h
  · obtain ⟨kind, value, owner, hasks, hgoes⟩ := hgoes
    have howner : w.owner? h = some owner := by
      rw [← hadvances.owner, ← hoffer.owner, hasks.owned]
    have hboth := hoffer.advances_left hadvances
    have hfresh : kind.slots v.store owner value ⊆ D ∧ kind.named? owner value = none := by
      refine (hboth.goes_or_fresh howner hgoes v.store).resolve_left fun hgoes => ?_
      exact hnot ⟨kind, value, owner, ⟨hasks.kind, hasks.value, howner⟩, hgoes⟩
    obtain ⟨outcome', u₁, hfirst', -, hu₁, hsame, hmeaning⟩ :=
      exists_runOn_of_offered hu hoffer hasks hgoes fun labelKind name user hasked => by
        cases hfresh.2.symm.trans hasked
    obtain ⟨later', u', hlater', hu', hoffer', hstanding⟩ := hv.again u₁ hu₁ hsame
    have hassigns := assigns_meaning v.store owner u.now (hkind kind hasks.kind) value
    refine ⟨_, u', runOn_runActions_cons hfirst' (.inr hstop) hlater', hu', hoffer', ?_⟩
    rw [hstanding, hmeaning, hv.assigns.absorb hassigns hfresh.1]
  · obtain ⟨outcome', u₁, hfirst', -, hglances'⟩ := hu.runAction_of_not_goes hgoes
    obtain ⟨later', u', hlater', hu', hoffer', hstanding⟩ :=
      hv.again u₁ (hu.glances hglances') (hoffer.trans hglances'.sameOffer)
    refine ⟨_, u', runOn_runActions_cons hfirst' (.inr hstop) hlater', hu', hoffer', ?_⟩
    rw [hstanding, hglances'.toLooks.standing]

omit hrest in
/-- Where an action ends the list it does so again, since nothing has been added since. -/
theorem exists_repeats_cons_of_ends (hw : w.IsReady h id) (hnot : ¬a.Goes w h)
    (hstop : a.stopProcessing.isTruthy = true) :
    ∃ D f v, Repeats (runActions h r false (a :: rest)) h id D f w v := by
  have hends : ∀ {u}, u.IsReady h id → ¬a.Goes u h → ∃ outcomes u',
      (runActions h r false (a :: rest)).runOn u = (.ok outcomes, u') ∧ u'.IsReady h id ∧
        SameOffer h u u' ∧ u'.standing h = u.standing h := by
    intro u hu hnot
    obtain ⟨outcome, u₁, hfirst, hfailed, hglances⟩ := hu.runAction_of_not_goes hnot
    obtain ⟨e, hrun⟩ := runOn_runActions_cons_ended r rest hfirst hfailed hstop
    have hended : Glances h u _ := IsTrans.trans _ _ _ hglances (glances_report e u₁)
    exact ⟨_, _, hrun, hu.glances hended, hended.sameOffer, hended.toLooks.standing⟩
  obtain ⟨outcomes, v, hrun, hv, hoffer, hstanding⟩ := hends hw hnot
  refine ⟨∅, fun x => x, v, ⟨outcomes, hrun⟩, hv, hoffer.toAdvances, .nothing, hstanding,
    fun u hu hoffer' => ?_⟩
  have hnot' : ¬a.Goes u h := by
    rintro ⟨kind, value, owner, hasks, hgoes⟩
    have hback := (hoffer.trans hoffer').symm
    exact hnot ⟨kind, value, owner,
      ⟨hasks.kind, hasks.value, hback.owner.trans hasks.owned⟩,
      hback.toAdvances.goes hasks.owned hgoes⟩
  obtain ⟨again, u', hrun', hu', hsame, hstanding'⟩ := hends hu hnot'
  exact ⟨again, u', hrun', hu', hoffer'.trans hsame, hstanding'⟩

omit hrest in
/-- The actions of a rule may be repeated, unless one of them appends or prepends. -/
theorem exists_repeats_runActions {actions : List Action} (hw : w.IsReady h id)
    (hactions : ∀ a ∈ actions, ∀ kind,
      (Vocabulary.ofJson? a.kind : Option ActionKind) = some kind → kind.isRepeatable = true) :
    ∃ D f v, Repeats (runActions h r false actions) h id D f w v := by
  induction actions generalizing w with
  | nil =>
    exact ⟨∅, fun x => x, w, ⟨[], rfl⟩, hw, (SameOffer.refl h w).toAdvances, .nothing, rfl,
      fun u hu hoffer => ⟨[], u, rfl, hu, hoffer, rfl⟩⟩
  | cons a rest ih =>
    obtain ⟨hkind, hlater⟩ := List.forall_mem_cons.1 hactions
    have hrest : ∀ {w : Workspace}, w.IsReady h id →
        ∃ D f v, Repeats (runActions h r false rest) h id D f w v := fun hw => ih hw hlater
    by_cases hgoes : a.Goes w h
    · obtain ⟨kind, value, owner, hasks, hgoes⟩ := hgoes
      exact exists_repeats_cons_of_goes hrest hw hasks hgoes (hkind kind hasks.kind)
    · cases hstop : a.stopProcessing.isTruthy with
      | false => exact exists_repeats_cons_of_not_goes hrest hw hgoes hstop hkind
      | true => exact exists_repeats_cons_of_ends hw hgoes hstop

end Engine

/-! ## What no action sets -/

/-- Nothing of the transaction has changed in memory but what actions set. -/
structure Workspace.Resets (h : Handle) (w v : Workspace) : Prop where
  id : (v.transaction h).id = (w.transaction h).id
  content : ∀ field ∉ TransactionField.settable,
    (v.transaction h).content field = (w.transaction h).content field
  updatedAt : (v.transaction h).updatedAt = (w.transaction h).updatedAt

instance (h : Handle) : IsPreorder Workspace (Resets h) where
  refl _ := ⟨rfl, fun _ _ => rfl, rfl⟩
  trans _ _ _ hv hu :=
    { id := hu.id.trans hv.id
      content := fun field hfield => (hu.content field hfield).trans (hv.content field hfield)
      updatedAt := hu.updatedAt.trans hv.updatedAt }

omit [Host] in
theorem Workspace.Edits.resets {fields : List TransactionField} (hv : Edits h fields w v) :
    Resets h w v :=
  ⟨hv.id, fun field hfield => hv.content field fun hmem => hfield (hv.settable hmem), hv.updatedAt⟩

theorem resets_runAction (a : Action) (h : Handle) : Keeps (Resets h) (runAction a h false) := by
  intro w
  obtain ⟨outcome, v, hrun, -⟩ := succeeds_runAction a h false w trivial
  rw [hrun]
  have hlooks : ∀ {w v}, Looks h w v → Resets h w v := fun hl => hl.edits.resets
  rcases runAction_parts ((looks_describe a).mono fun _ _ => hlooks)
      (fun kind => (looks_plan kind a h).mono fun _ _ => hlooks)
      (fun e => (looks_report e).mono fun _ _ => hlooks) hrun with
    ⟨-, hkept⟩ | ⟨kind, description, w₁, effect, w₂, -, hdescribe, hplan, hdone⟩
  · exact hkept
  · have hdescribed := looks_describe (h := h) a w
    have hplanned := looks_plan kind a h w₁
    rw [hdescribe] at hdescribed
    rw [hplan] at hplanned
    have hbefore := hlooks (hdescribed.trans hplanned)
    rcases hdone with ⟨-, hperform⟩ | ⟨-, failure, u, e, hperform, rfl⟩
    · exact IsTrans.trans _ _ _ hbefore (edits_perform hperform).resets
    · have hsame : ({ u with events := e :: u.events } : Workspace).transaction h =
          w₂.transaction h := by
        change (u.live.find? h).getD default = _
        rw [(perform_failed hperform).1]
        rfl
      refine IsTrans.trans _ _ _ hbefore ⟨?_, fun _ _ => ?_, ?_⟩ <;> rw [hsame]

omit [Host] in
/-- What a transaction is in memory can be told from what actions set and what they do not. -/
theorem Workspace.Resets.bare_eq (hv : Resets h w v) (hstanding : v.standing h = w.standing h) :
    (v.transaction h).bare = (w.transaction h).bare := by
  obtain ⟨hid, hcontent, hupdated⟩ := hv
  simp only [standing, LiveTransaction.standing, Standing.mk.injEq] at hstanding
  obtain ⟨hdescription, hnote, htype, hcategory, hmerchant, hflag, htime, -⟩ := hstanding
  have haccount := FieldContent.reference.inj (hcontent .account (by decide))
  have hamount := FieldContent.amount.inj (hcontent .amount (by decide))
  have hcurrency := Option.some.inj (FieldContent.text.inj (hcontent .currency (by decide)))
  have hdate := FieldContent.date.inj (hcontent .bookedDate (by decide))
  have hpartner := FieldContent.text.inj (hcontent .partner (by decide))
  have hrecipient := FieldContent.text.inj (hcontent .recipientNote (by decide))
  have hplace := FieldContent.text.inj (hcontent .place (by decide))
  have htarget := FieldContent.text.inj (hcontent .targetIban (by decide))
  have hsource := FieldContent.text.inj (hcontent .sourceIban (by decide))
  simp only [LiveTransaction.bare, LiveTransaction.mk.injEq]
  simp only [*, and_self]

/-! ## Twice -/

/-- To run the actions of a rule twice leaves what running them once leaves: the same fields of the
transaction, the same tags and the same labels.  The transaction is stored, and either a larger change
is under way or all references hold; no action appends or prepends. -/
theorem Engine.runActions_twice {r : RuleDefinition} {actions : List Action}
    (hid : (w.transaction h).id = some id) (hrow : w.store.transactions.has id = true)
    (hrefs : w.isChanging = true ∨ w.store.referencesHold = true)
    (hactions : ∀ a ∈ actions, ∀ kind,
      (Vocabulary.ofJson? a.kind : Option ActionKind) = some kind → kind.isRepeatable = true) :
    ∃ first v second u, (runActions h r false actions).runOn w = (.ok first, v) ∧
      (runActions h r false actions).runOn v = (.ok second, u) ∧
      (u.transaction h).bare = (v.transaction h).bare ∧
      (∀ tag, u.store.hasLink id tag = v.store.hasLink id tag) ∧
      ∀ kind, u.store.labels kind = v.store.labels kind := by
  have hw : w.IsReady h id :=
    ⟨hid, hrefs.imp_right fun hholds => ⟨Store.isClosed_iff.2 hholds, hrow⟩⟩
  obtain ⟨D, f, v, hv⟩ := exists_repeats_runActions (r := r) hw hactions
  obtain ⟨first, hfirst⟩ := hv.run
  obtain ⟨second, u, hsecond, hoffer, hstanding⟩ := hv.twice
  have hresets := keeps_runActions (R := Resets h) (fun _ _ hl => hl.edits.resets)
    (resets_runAction · h) r actions v
  rw [hsecond] at hresets
  refine ⟨first, v, second, u, hfirst, hsecond, hresets.bare_eq hstanding, fun tag => ?_,
    hoffer.stored⟩
  have htags := congrArg Standing.tags hstanding
  rw [tags_standing (hresets.id.trans hv.ready.id_eq), tags_standing hv.ready.id_eq] at htags
  exact congrFun htags tag

end

namespace SmallLedger

/-- The first action sets a category that only the second adds, under this very number. -/
def early : List Action :=
  [unstored "set_category" "2", unstored "create_category_if_not_exists" "Bread"]

/-- The first action goes through only the second time, and this makes no difference. -/
theorem early_category_twice :
    ∃ first v second u, (Engine.runActions 1 (.ofRow store 1 rule) false early).runOn workspace =
        (.ok first, v) ∧
      (Engine.runActions 1 (.ofRow store 1 rule) false early).runOn v = (.ok second, u) ∧
      first.map (·.succeeded) = [false, true] ∧ second.map (·.succeeded) = [true, true] ∧
      (u.transaction 1).bare = (v.transaction 1).bare ∧
      (∀ tag, u.store.hasLink 1 tag = v.store.hasLink 1 tag) ∧
      ∀ kind, u.store.labels kind = v.store.labels kind := by
  have hrepeatable : ∀ a ∈ early, ∀ kind,
      (Vocabulary.ofJson? a.kind : Option ActionKind) = some kind → kind.isRepeatable = true := by
    intro a ha kind hkind
    rcases List.mem_pair.1 ha with rfl | rfl
    · cases hkind
      rfl
    · cases hkind
      rfl
  obtain ⟨first, v, second, u, hfirst, hsecond, hsame⟩ := Engine.runActions_twice
    (r := .ofRow store 1 rule) (w := workspace) (h := 1) rfl rfl (.inr rfl) hrepeatable
  have hv : v = ((Engine.runActions 1 (.ofRow store 1 rule) false early).runOn workspace).2 := by
    rw [hfirst]
  refine ⟨first, v, second, u, hfirst, hsecond, ?_, ?_, hsame⟩
  · have hmapped := congrArg (fun run => run.1.toOption.map (·.map (·.succeeded))) hfirst
    exact Option.some.inj (hmapped.symm.trans rfl)
  · have hmapped := congrArg (fun run => run.1.toOption.map (·.map (·.succeeded))) hsecond
    rw [hv] at hmapped
    exact Option.some.inj (hmapped.symm.trans rfl)

end SmallLedger

end Rulebook
