import Mathlib.Data.List.Forall2
import Rulebook.Proofs.Engine.Evaluating

/-!
# Matching as a formula

A rule is written as a formula: its groups are joined by "and", and each group joins its conditions
by its own connective.  The engine does not work out the formula.  It goes through the groups and
conditions in the order in which they are stored, stops as soon as the rest cannot matter, and
remembers each field that it has read.  Which conditions are looked at, and what is found in the
cache when they are, depends on the order.

If no condition raises, none of this shows.  What a condition comes to is settled by the transaction
alone (`Workspace.passes`: the condition is checked by itself, before anything was remembered), and
the rule matches exactly if the formula holds.  So the laws of formulas are laws of rules: the order
of groups and of conditions does not matter, and a group is turned into its opposite by negating its
conditions and exchanging the connectives.

The last law is not obvious.  A condition that cannot be evaluated does not match, and it might be
thought that its negation does not match either.  But the negation of a condition is taken after the
evaluation, whether or not there was anything to evaluate, so the two always differ
(`passes_toggled`).  A group without conditions has no opposite: it matches under both connectives.

## Main definitions

* `Workspace.passes` — what a condition comes to when it is checked by itself.
* `Workspace.CacheAgrees` — what is remembered of a transaction is what would be read.
* `RuleDefinition.formula` — the formula that a rule stands for.
* `RuleDefinition.Rearranged`, `ConditionGroup.dual` — another order, and the opposite of a group.

## Main statements

* `ruleMatches_formula` — a rule matches exactly if its formula holds, and the two laws.
-/

namespace Rulebook

open Program Workspace

section

/-! ## Formulas -/

namespace ConditionGroup

/-- The formula of a group over the truth values of its conditions; without conditions it holds. -/
def formula (p : Condition → Bool) (g : ConditionGroup) : Bool :=
  g.conditions.isEmpty || if g.wantsAll then g.conditions.all p else g.conditions.any p

/-- The same conditions in another order. -/
def Rearranged (g g' : ConditionGroup) : Prop :=
  g'.connective = g.connective ∧ g.conditions.Perm g'.conditions

theorem Rearranged.formula_eq {p : Condition → Bool} {g g' : ConditionGroup}
    (h : g.Rearranged g') : g'.formula p = g.formula p := by
  obtain ⟨hconnective, hconditions⟩ := h
  have hempty : g'.conditions.isEmpty = g.conditions.isEmpty := by
    rw [Bool.eq_iff_iff, List.isEmpty_iff, List.isEmpty_iff, ← List.length_eq_zero_iff,
      ← List.length_eq_zero_iff, hconditions.length_eq]
  simp only [formula, wantsAll, hconnective, hempty, hconditions.all_eq, hconditions.any_eq]

end ConditionGroup

/-- The condition with its negation taken back, or negated if it was not. -/
def Condition.toggled (c : Condition) : Condition :=
  { c with isNegated := .bool (!c.isNegated.isTruthy) }

namespace ConditionGroup

/-- The group with the other connective and every condition toggled. -/
def dual (g : ConditionGroup) : ConditionGroup where
  connective := .text (Vocabulary.code (if g.wantsAll then Connective.any else .all))
  conditions := g.conditions.map .toggled

theorem wantsAll_dual (g : ConditionGroup) : g.dual.wantsAll = !g.wantsAll := by
  cases hall : g.wantsAll <;> rw [dual, hall] <;> rfl

/-- The laws of De Morgan; a group without conditions is its own opposite. -/
theorem formula_dual {p q : Condition → Bool} {g : ConditionGroup}
    (hq : ∀ c ∈ g.conditions, q c.toggled = !p c) (hne : g.conditions ≠ []) :
    g.dual.formula q = !g.formula p := by
  have hempty : g.conditions.isEmpty = false := List.isEmpty_eq_false_iff.2 hne
  have hall : (g.conditions.map .toggled).all q = !g.conditions.any p := by
    rw [List.not_any_eq_all_not, List.all_map, Bool.eq_iff_iff, List.all_eq_true, List.all_eq_true]
    exact forall₂_congr fun c hc => by rw [Function.comp_apply, hq c hc]
  have hany : (g.conditions.map .toggled).any q = !g.conditions.all p := by
    rw [List.not_all_eq_any_not, List.any_map, Bool.eq_iff_iff, List.any_eq_true, List.any_eq_true]
    exact exists_congr fun c => and_congr_right fun hc => by rw [Function.comp_apply, hq c hc]
  rw [formula, formula, wantsAll_dual, dual, List.isEmpty_map, hall, hany, hempty]
  cases g.wantsAll <;> rfl

end ConditionGroup

namespace RuleDefinition

/-- The formula of a rule over the truth values of its conditions: all its groups hold. -/
def formula (p : Condition → Bool) (r : RuleDefinition) : Bool := r.groups.all (·.formula p)

/-- The same groups in another order, each with its conditions in another order. -/
def Rearranged (r r' : RuleDefinition) : Prop :=
  ∃ groups, r.groups.Perm groups ∧ List.Forall₂ ConditionGroup.Rearranged groups r'.groups

variable {r r' : RuleDefinition}

theorem Rearranged.formula_eq {p : Condition → Bool} (h : r.Rearranged r') :
    r'.formula p = r.formula p := by
  obtain ⟨groups, hperm, hgroups⟩ := h
  have hsame : r'.groups.map (·.formula p) = groups.map (·.formula p) :=
    map_eq_of_forall₂ hgroups fun g g' hg => hg.formula_eq
  have hfold : ∀ l : List ConditionGroup,
      l.all (·.formula p) = (l.map (·.formula p)).all fun b => b := fun l => by
    rw [List.all_map]
    rfl
  rw [formula, formula, hfold, hsame, ← hfold, hperm.all_eq]

/-- A rearranged rule has the same conditions. -/
theorem Rearranged.exists_mem (h : r.Rearranged r') {g' : ConditionGroup} (hg' : g' ∈ r'.groups)
    {c : Condition} (hc : c ∈ g'.conditions) : ∃ g ∈ r.groups, c ∈ g.conditions := by
  obtain ⟨groups, hperm, hgroups⟩ := h
  have hmem : ∀ {l l' : List ConditionGroup}, List.Forall₂ ConditionGroup.Rearranged l l' →
      g' ∈ l' → ∃ g ∈ l, g.Rearranged g' := by
    intro l l' hl hg
    induction hl with
    | nil => cases hg
    | cons hfirst _ ih =>
        rcases List.mem_cons.1 hg with rfl | hrest
        · exact ⟨_, List.mem_cons_self, hfirst⟩
        · obtain ⟨g, hg, hsame⟩ := ih hrest
          exact ⟨g, List.mem_cons_of_mem _ hg, hsame⟩
  obtain ⟨g, hg, -, hconditions⟩ := hmem hgroups hg'
  exact ⟨g, hperm.mem_iff.2 hg, hconditions.mem_iff.2 hc⟩

end RuleDefinition

/-! ## Conditions by themselves -/

variable [Host]

namespace Workspace

/-- What checking a condition comes to, by itself and with nothing remembered. -/
def verdict (w : Workspace) (h : Handle) (c : Condition) : Except Failure Bool :=
  ((withFreshCaches (conditionMatches h c)).runOn w).1

/-- Whether a condition matches by itself; one that raises does not. -/
def passes (w : Workspace) (h : Handle) (c : Condition) : Bool :=
  match w.verdict h c with
  | .ok b => b
  | .error _ => false

/-- What is remembered of the transaction is what would be read if nothing were. -/
def CacheAgrees (w : Workspace) (h : Handle) : Prop :=
  ∀ field value, w.fields.find? (w.transaction h).id field = some value →
    ((withFreshCaches (fieldValue h field)).runOn w).1 = .ok value

end Workspace

section Verdicts

variable {h : Handle} {w : Workspace} {c : Condition}

omit [Host] in
theorem result_fieldValue_fresh (field : Field) :
    ((withFreshCaches (fieldValue h field)).runOn w).1 = (w.transaction h).holds w.store field := by
  refine (result_fieldValue (w := { w with fields := {}, labels := [] }) field).trans ?_
  have hnone : FieldCache.find? {} (w.transaction h).id field = none := by
    cases (w.transaction h).id <;> rfl
  rw [Workspace.seen]
  split
  · next hfound => cases hnone.symm.trans hfound
  · rfl

theorem verdict_eq (c : Condition) :
    w.verdict h c =
      (c.outcome w.store (w.transaction h)).map fun outcome => (c.finish outcome).matched := by
  have hsees : Sees h w.store (w.transaction h) { w with fields := {}, labels := [] } :=
    ⟨rfl, Std.Refl.refl _, nofun, labelsAgree_nil w⟩
  have hevaluate := (tells_evaluateCondition c _ hsees).1
  have hcheck := result_checkCondition (h := h) (w := { w with fields := {}, labels := [] }) c
  rw [hevaluate] at hcheck
  change ((conditionMatches h c).runOn { w with fields := {}, labels := [] }).1 = _
  rw [conditionMatches, runOn_bind]
  rcases hrun : (checkCondition h c).runOn { w with fields := {}, labels := [] } with
    ⟨failure | outcome, v⟩ <;> rw [hrun] at hcheck <;>
    cases houtcome : c.outcome w.store (w.transaction h) <;> rw [houtcome] at hcheck <;>
    cases hcheck <;> rfl

/-- A condition that does not raise has an outcome. -/
theorem verdict_eq_ok_iff :
    (∃ b, w.verdict h c = .ok b) ↔ ∃ outcome, c.outcome w.store (w.transaction h) = .ok outcome := by
  rw [verdict_eq]
  cases c.outcome w.store (w.transaction h) <;> simp [Except.map]

theorem passes_eq (c : Condition) : w.passes h c = c.matchesOn w.store (w.transaction h) := by
  rw [Workspace.passes, verdict_eq, Condition.matchesOn]
  cases c.outcome w.store (w.transaction h) <;> rfl

/-- Negation turns what a condition comes to around, also if it cannot be evaluated. -/
theorem verdict_toggled (c : Condition) :
    w.verdict h c.toggled = (w.verdict h c).map (!·) := by
  have hnegated : c.toggled.isNegated.isTruthy = !c.isNegated.isTruthy := rfl
  rw [verdict_eq, verdict_eq]
  change (c.outcome w.store (w.transaction h)).map _ = _
  cases c.outcome w.store (w.transaction h) with
  | error failure => rfl
  | ok outcome =>
      simp only [Except.map, Condition.matched_finish, hnegated]
      cases outcome.matched <;> cases c.isNegated.isTruthy <;> rfl

theorem passes_toggled (hc : ∃ b, w.verdict h c = .ok b) :
    w.passes h c.toggled = !w.passes h c := by
  obtain ⟨b, hb⟩ := hc
  simp [Workspace.passes, verdict_toggled, hb, Except.map]

end Verdicts

/-! ## The label cache

What is remembered of labels serves actions only.  Matching is the same whatever is in there. -/

section Labels

variable {h : Handle} {w v : Workspace} {α : Type}

/-- The workspaces differ in nothing but what is remembered of labels. -/
def Workspace.SameButLabels (w v : Workspace) : Prop := ∃ labels, v = { w with labels }

omit [Host] in
theorem tracks_sameButLabels {x : Operation α} (hx : IgnoresCaches x) (hv : w.SameButLabels v) :
    Tracks SameButLabels x x w v := by
  obtain ⟨labels, rfl⟩ := hv
  have hrun : x.runOn { w with labels } = ((x.runOn w).1, (x.runOn w).2.withCaches w.fields labels) :=
    hx w w.fields labels
  refine ⟨(congrArg Prod.fst hrun).symm, labels, ?_⟩
  rw [hrun, ← (hx.caches w).1]
  rfl

omit [Host] in
theorem tracks_fieldValue_labels (field : Field) (hv : w.SameButLabels v) :
    Tracks SameButLabels (fieldValue h field) (fieldValue h field) w v := by
  rw [fieldValue]
  refine (tracks_sameButLabels (ignores_transaction h) hv).bind fun t w v hv => tracks_get_bind ?_
  have hfields : v.fields = w.fields := by
    obtain ⟨labels, rfl⟩ := hv
    rfl
  dsimp only
  rw [hfields]
  split
  · refine Tracks.bind (tracks_modify ?_) fun _ _ _ h => tracks_pure _ h
    obtain ⟨labels, rfl⟩ := hv
    exact ⟨labels, rfl⟩
  · refine Tracks.bind (tracks_modify ?_) fun _ w v hv => ?_
    · obtain ⟨labels, rfl⟩ := hv
      exact ⟨labels, rfl⟩
    · refine (tracks_sameButLabels (ignores_resolveField h field) hv).bind fun value w v hv => ?_
      refine Tracks.bind (tracks_modify ?_) fun _ _ _ h => tracks_pure _ h
      obtain ⟨labels, rfl⟩ := hv
      exact ⟨labels, rfl⟩

theorem tracks_conditionMatches_labels (c : Condition) (hv : w.SameButLabels v) :
    Tracks SameButLabels (conditionMatches h c) (conditionMatches h c) w v := by
  have hevaluate : Tracks SameButLabels (evaluateCondition h c) (evaluateCondition h c) w v := by
    unfold evaluateCondition
    split
    · exact (tracks_fieldValue_labels _ hv).bind fun value w v hv => tracks_ofExcept _ hv
    · exact tracks_ofExcept _ hv
  rw [conditionMatches, checkCondition]
  refine Tracks.bind (hevaluate.bind fun outcome w v hv => ?_) fun _ _ _ hv => tracks_pure _ hv
  dsimp only
  split
  · refine (tracks_sameButLabels (ignores_transaction h) hv).bind fun t w v hv => ?_
    exact (tracks_sameButLabels (ignores_report _) hv).bind fun _ w v hv => tracks_pure _ hv
  · exact tracks_pure _ hv

theorem tracks_groupMatches_labels (g : ConditionGroup) (hv : w.SameButLabels v) :
    Tracks SameButLabels (groupMatches h g) (groupMatches h g) w v := by
  rw [groupMatches]
  split
  · exact tracks_pure true hv
  · split
    · exact tracks_allM (fun c _ _ hv => tracks_conditionMatches_labels c hv) hv
    · exact tracks_anyM (fun c _ _ hv => tracks_conditionMatches_labels c hv) hv

end Labels

/-! ## Groups and rules -/

section Matching

variable {h : Handle} {w : Workspace} {r : RuleDefinition}

/-- No condition of the group raises when it is checked by itself. -/
def Workspace.Decides (w : Workspace) (h : Handle) (g : ConditionGroup) : Prop :=
  ∀ c ∈ g.conditions, ∃ b, w.verdict h c = .ok b

omit [Host] in
/-- What is remembered of the transaction is what a dry run that begins now would see. -/
theorem sees_of_cacheAgrees (hcache : w.CacheAgrees h) :
    Sees h w.store (w.transaction h) { w with labels := [] } where
  store := rfl
  own := Std.Refl.refl _
  fields := fun id hid field value hvalue => by
    have hfound : w.fields.find? (w.transaction h).id field = some value := by
      rw [hid]
      exact hvalue
    rw [← hcache field value hfound, result_fieldValue_fresh]
  labels := labelsAgree_nil w

/-- Whatever is remembered, a group matches if its formula holds. -/
theorem result_groupMatches (hcache : w.CacheAgrees h) {g : ConditionGroup} (hg : w.Decides h g) :
    ((groupMatches h g).runOn w).1 = .ok (g.formula (w.passes h)) := by
  have hraises : g.NeverRaises w.store (w.transaction h) :=
    fun c hc => verdict_eq_ok_iff.1 (hg c hc)
  have hpasses : w.passes h = (·.matchesOn w.store (w.transaction h)) := funext passes_eq
  have hsees := sees_of_cacheAgrees hcache
  rw [(tracks_groupMatches_labels g ⟨[], rfl⟩).result, (tells_groupMatches hraises _ hsees).1,
    hpasses]
  rfl

theorem result_ruleMatches (hcache : w.CacheAgrees h) (hr : ∀ g ∈ r.groups, w.Decides h g) :
    ((ruleMatches h r).runOn w).1 = .ok (r.formula (w.passes h)) := by
  have hraises : r.NeverRaises w.store (w.transaction h) :=
    fun g hg c hc => verdict_eq_ok_iff.1 (hr g hg c hc)
  have hpasses : w.passes h = (·.matchesOn w.store (w.transaction h)) := funext passes_eq
  have hsees := sees_of_cacheAgrees hcache
  have htracks : Tracks SameButLabels (ruleMatches h r) (ruleMatches h r) w { w with labels := [] } :=
    tracks_allM (fun g _ _ hv => tracks_groupMatches_labels g hv) ⟨[], rfl⟩
  rw [htracks.result, (tells_ruleMatches hraises _ hsees).1, hpasses]
  rfl

/-- The opposite of a group raises as little as the group. -/
theorem Workspace.Decides.dual {g : ConditionGroup} (hg : w.Decides h g) : w.Decides h g.dual := by
  intro c hc
  obtain ⟨plain, hplain, rfl⟩ := List.mem_map.1 hc
  obtain ⟨b, hb⟩ := hg plain hplain
  refine ⟨!b, ?_⟩
  rw [verdict_toggled, hb]
  rfl

/-- If no condition of a rule raises, the rule matches exactly if its formula over what the
conditions come to by themselves holds.  So neither the order of its groups nor that of the
conditions within them matters, and a group with conditions is turned into its opposite by toggling
them and exchanging the connective.  The cache may be filled in any way that agrees with the
transaction, and the conditions may be malformed. -/
theorem ruleMatches_formula {h : Handle} {w : Workspace} {r : RuleDefinition}
    (hcache : w.CacheAgrees h)
    (hr : ∀ g ∈ r.groups, ∀ c ∈ g.conditions, ∃ b, w.verdict h c = .ok b) :
    ((ruleMatches h r).runOn w).1 = .ok (r.formula (w.passes h)) ∧
    (∀ r', r.Rearranged r' → ((ruleMatches h r').runOn w).1 = ((ruleMatches h r).runOn w).1) ∧
    ∀ g ∈ r.groups, g.conditions ≠ [] → ∃ b, ((groupMatches h g).runOn w).1 = .ok b ∧
      ((groupMatches h g.dual).runOn w).1 = .ok (!b) := by
  refine ⟨result_ruleMatches hcache hr, fun r' hsame => ?_, fun g hg hne => ?_⟩
  · have hr' : ∀ g ∈ r'.groups, w.Decides h g := by
      intro g' hg' c hc
      obtain ⟨g, hg, hc⟩ := hsame.exists_mem hg' hc
      exact hr g hg c hc
    rw [result_ruleMatches hcache hr', result_ruleMatches hcache hr, hsame.formula_eq]
  · have hdecides : w.Decides h g := hr g hg
    refine ⟨g.formula (w.passes h), result_groupMatches hcache hdecides, ?_⟩
    rw [result_groupMatches hcache hdecides.dual]
    exact congrArg Except.ok
      (ConditionGroup.formula_dual (fun c hc => passes_toggled (hdecides c hc)) hne)

end Matching

end

namespace SmallLedger

/-- The ledger while the description of the second transaction is remembered. -/
def remembering : Workspace :=
  { workspace with fields := { values := [((2, .description), .text "Bakery")] } }

theorem remembering_agrees : remembering.CacheAgrees 2 := by
  intro field value hfound
  have hid : (remembering.transaction 2).id = some 2 := rfl
  rw [hid, FieldCache.find?, Option.bind_some, remembering, List.lookup_cons] at hfound
  split at hfound
  · next hfield =>
    cases (Prod.mk.inj (eq_of_beq hfield)).2
    cases hfound
    rfl
  · cases hfound

/-- Something from the bakery, or anything dear.  The case of the first condition is wrong, and the
second is malformed and negated. -/
def bakeryOrDear : ConditionGroup where
  connective := .text "OR"
  conditions := [
    ⟨none, .text "description", .text "contains", .text "bakery", .bool true, .bool false, .int 0⟩,
    ⟨none, .text "amount", .text "greater_than", .text "dear", .bool false, .bool true, .int 1⟩]

/-- A rule with a group that asks for nothing and one with two conditions. -/
def bakeryRule : RuleDefinition where
  id := .null
  name := .text "Bakery"
  trigger := .text "manual"
  stopProcessing := .bool false
  groups := [⟨.text "AND", []⟩, bakeryOrDear]
  actions := []

theorem bakeryRule_decides :
    ∀ g ∈ bakeryRule.groups, ∀ c ∈ g.conditions, ∃ b, remembering.verdict 2 c = .ok b := by
  have hdecided : (bakeryRule.groups.all fun g =>
      g.conditions.all fun c => (remembering.verdict 2 c).toOption.isSome) = true := by decide +kernel
  intro g hg c hc
  have hsome := List.all_eq_true.1 (List.all_eq_true.1 hdecided g hg) c hc
  obtain ⟨b, hb⟩ := Option.isSome_iff_exists.1 hsome
  exact ⟨b, eq_ok_of_toOption hb⟩

/-- The malformed condition matches because it is negated, and the opposite group does not match. -/
theorem bakeryRule_matches :
    remembering.CacheAgrees 2 ∧
    (∀ g ∈ bakeryRule.groups, ∀ c ∈ g.conditions, ∃ b, remembering.verdict 2 c = .ok b) ∧
    ((ruleMatches 2 bakeryRule).runOn remembering).1 = .ok true ∧
    ((groupMatches 2 bakeryOrDear.dual).runOn remembering).1 = .ok false := by
  obtain ⟨hformula, -, hdual⟩ := ruleMatches_formula remembering_agrees bakeryRule_decides
  have hholds : bakeryRule.formula (remembering.passes 2) = true := by decide +kernel
  obtain ⟨b, hb, hopposite⟩ := hdual bakeryOrDear (by simp [bakeryRule]) (by simp [bakeryOrDear])
  have hgroup : ((groupMatches 2 bakeryOrDear).runOn remembering).1 = .ok true :=
    eq_ok_of_toOption (by decide +kernel)
  obtain rfl := Except.ok.inj (hb.symm.trans hgroup)
  exact ⟨remembering_agrees, bakeryRule_decides, hformula.trans (congrArg Except.ok hholds),
    hopposite⟩

end SmallLedger

end Rulebook
