import Rulebook.Proofs.Engine.Inversion
import Rulebook.Proofs.Engine.Sight

/-!
# The verdict on a rule

Whether a rule matches a transaction depends on what the transaction holds and on what is stored,
and on nothing else: the caches and the log only help to find it out.  `RuleDefinition.verdict`
computes it from these two, with a failure where a condition raises.

A store that has grown shows whatever the earlier one shows, as long as no accounts changed and the
transaction has the same tags (`Store.StillShows`).  Labels may have been added, so a verdict can
change in one way only.  A condition that raised, because the row of a label was missing, may go
through later.  A rule that was found to match still matches, and one that was found not to match
still does not.

## Main definitions

* `RuleDefinition.verdict` — whether a rule matches, or why a condition raises.
* `Store.StillShows` — a later store shows what an earlier one shows of a transaction.

## Main statements

* `tells_rule_verdict` — a run finds what the verdict says.
* `Store.StillShows.verdict` — a rule that does not raise matches later if it matches earlier.
-/

namespace Rulebook

open Program Workspace

/-! ## Verdicts -/

variable [Host]

namespace Condition

/-- Whether a condition matches a transaction, or why it raises. -/
def verdict (s : Store) (t : LiveTransaction) (c : Condition) : Except Failure Bool := do
  return (c.finish (← c.outcome s t)).matched

end Condition

namespace ConditionGroup

/-- Whether a group matches a transaction, or why one of its conditions raises. -/
def verdict (s : Store) (t : LiveTransaction) (g : ConditionGroup) : Except Failure Bool :=
  if g.conditions.isEmpty then return true
  else if g.wantsAll then g.conditions.allM (·.verdict s t)
  else g.conditions.anyM (·.verdict s t)

end ConditionGroup

/-- Whether a rule matches a transaction, or why one of its conditions raises. -/
def RuleDefinition.verdict (s : Store) (t : LiveTransaction) (r : RuleDefinition) :
    Except Failure Bool :=
  r.groups.allM (·.verdict s t)

section Verdicts

variable {h : Handle} {s : Store} {t : LiveTransaction}

theorem tells_condition_verdict (c : Condition) :
    Tells (Sees h s t) (c.verdict s t) (conditionMatches h c) := by
  have hreport : ∀ outcome, Tells (Sees h s t) (.ok (c.finish outcome).matched) (do
      if outcome.isMalformed then report (.conditionMalformed c.id (← transaction h).id)
      return (c.finish outcome).matched) := by
    intro outcome
    split
    · exact tells_transaction fun u _ => (tells_report _).bind_ok (tells_pure _)
    · exact tells_pure _
  have hsame : conditionMatches h c = (do
      let outcome ← evaluateCondition h c
      if outcome.isMalformed then report (.conditionMalformed c.id (← transaction h).id)
      return (c.finish outcome).matched) := by
    simp only [conditionMatches, checkCondition, bind_assoc]
    refine bind_congr fun outcome => ?_
    split <;> simp only [bind_assoc, pure_bind]
  rw [hsame]
  exact (tells_evaluateCondition c).bind fun outcome _ => hreport outcome

/-- A run finds that a rule matches or not, as its verdict says. -/
theorem tells_rule_verdict (r : RuleDefinition) :
    Tells (Sees h s t) (r.verdict s t) (ruleMatches h r) := by
  refine Tells.allM fun g _ => ?_
  unfold groupMatches ConditionGroup.verdict
  split
  · exact tells_pure true
  · split
    · exact Tells.allM fun c _ => tells_condition_verdict c
    · exact Tells.anyM fun c _ => tells_condition_verdict c

end Verdicts

/-! ## Stores that show the same -/

/-- The later store shows whatever the earlier one shows of the transaction with a number. -/
structure Store.StillShows (id : Option Id) (s s' : Store) : Prop where
  accounts : s'.accounts = s.accounts
  labels : ∀ kind, (s.labels kind).Grows (s'.labels kind)
  tags : ∀ n, id = some n → s'.tagsOf n = s.tagsOf n

omit [Host] in
/-- A name that can be looked up is the same where more can be looked up. -/
theorem Reference.nameHeld_of_find {α : Type} {find find' : Id → Option α} {e : Entity}
    {name : α → String} {r : Reference α} {value : FieldValue}
    (hfind : ∀ id a, find id = some a → find' id = some a)
    (hr : r.nameHeld find e name = .ok value) : r.nameHeld find' e name = .ok value := by
  obtain ⟨id, loaded⟩ := r
  rw [nameHeld] at hr ⊢
  split at hr
  · next hset =>
    rw [if_pos hset]
    cases loaded with
    | some a =>
        cases id <;> exact hr
    | none =>
        cases id with
        | none => exact hr
        | some id =>
            simp only [resolve] at hr ⊢
            cases hrow : find id with
            | none => simp [hrow] at hr
            | some a =>
                rw [hfind id a hrow]
                rw [hrow] at hr
                exact hr
  · next hunset =>
    rw [if_neg hunset]
    exact hr

section StillShows

variable {s s' : Store} {t : LiveTransaction}

omit [Host] in
theorem Store.StillShows.holds (hs : s.StillShows t.id s') {field : Field} {value : FieldValue}
    (hvalue : t.holds s field = .ok value) : t.holds s' field = .ok value := by
  cases field with
  | category => exact Reference.nameHeld_of_find (fun _ _ => (hs.labels .category).find?) hvalue
  | merchant => exact Reference.nameHeld_of_find (fun _ _ => (hs.labels .merchant).find?) hvalue
  | account =>
      refine Reference.nameHeld_of_find (fun id a ha => ?_) hvalue
      rwa [findAccount, hs.accounts]
  | tags =>
      rw [← hvalue]
      simp only [LiveTransaction.holds]
      cases hid : t.id with
      | none => rfl
      | some n => rw [Option.map_some, Option.map_some, hs.tags n hid]
  | _ => exact hvalue

omit [Host] in
/-- Tests that are made until one decides are decided in the same way if each goes the same way. -/
theorem allM_eq_ok {α : Type} {q q' : α → Except Failure Bool} {l : List α} {b : Bool}
    (hq : ∀ a ∈ l, ∀ b, q a = .ok b → q' a = .ok b) (hl : l.allM q = .ok b) :
    l.allM q' = .ok b := by
  induction l with
  | nil => exact hl
  | cons a rest ih =>
      rw [List.allM_cons] at hl ⊢
      obtain ⟨c, hfirst, hl⟩ := eq_ok_of_bind hl
      rw [hq a List.mem_cons_self c hfirst]
      cases c with
      | true => exact ih (fun c hc => hq c (List.mem_cons_of_mem a hc)) hl
      | false => exact hl

omit [Host] in
theorem anyM_eq_ok {α : Type} {q q' : α → Except Failure Bool} {l : List α} {b : Bool}
    (hq : ∀ a ∈ l, ∀ b, q a = .ok b → q' a = .ok b) (hl : l.anyM q = .ok b) :
    l.anyM q' = .ok b := by
  induction l with
  | nil => exact hl
  | cons a rest ih =>
      rw [List.anyM_cons] at hl ⊢
      obtain ⟨c, hfirst, hl⟩ := eq_ok_of_bind hl
      rw [hq a List.mem_cons_self c hfirst]
      cases c with
      | true => exact hl
      | false => exact ih (fun c hc => hq c (List.mem_cons_of_mem a hc)) hl

/-- A rule that does not raise matches in the later store if it matches in the earlier one, and only
then. -/
theorem Store.StillShows.verdict (hs : s.StillShows t.id s') {r : RuleDefinition} {b : Bool}
    (hb : r.verdict s t = .ok b) : r.verdict s' t = .ok b := by
  have hcondition : ∀ (c : Condition) (b : Bool), c.verdict s t = .ok b →
      c.verdict s' t = .ok b := by
    intro c b hc
    obtain ⟨outcome, houtcome, hc⟩ := eq_ok_of_bind hc
    have hsame : c.outcome s' t = .ok outcome := by
      rw [Condition.outcome] at houtcome ⊢
      split at houtcome
      · obtain ⟨value, hvalue, happly⟩ := eq_ok_of_bind houtcome
        rw [hs.holds hvalue]
        exact happly
      · exact houtcome
    rw [Condition.verdict, hsame]
    exact hc
  refine allM_eq_ok (fun g _ b hg => ?_) hb
  rw [ConditionGroup.verdict] at hg ⊢
  split at hg
  · next hempty =>
    rw [if_pos hempty]
    exact hg
  · next hsome =>
    rw [if_neg hsome]
    split at hg
    · next hall =>
      rw [if_pos hall]
      exact allM_eq_ok (fun c _ => hcondition c) hg
    · next hany =>
      rw [if_neg hany]
      exact anyM_eq_ok (fun c _ => hcondition c) hg

end StillShows

end Rulebook
