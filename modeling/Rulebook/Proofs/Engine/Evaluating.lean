import Rulebook.Proofs.Engine.EntryPoint
import Rulebook.Proofs.Engine.Sight

/-!
# Evaluating any condition

The value of a condition is whatever somebody typed.  It is read as a number, as a date, as a list
and as a pattern, and each reading may fail; a condition whose value cannot be read does not match,
and its evaluation says why.  This module says when that happens, for every operator and every kind
of value.  `Unreadable` lists the ways, each with the complaint that it leads to.

The way out that is meant for all failures has gaps.  A text that breaks the grammar of patterns is
caught, but there are patterns that are refused in another way: a repetition count that is too large
or has too many digits, switches for ASCII and Unicode at once, and groups that are nested too
deeply.  And a value that was never stored need not be a text, and may be one that cannot become a
text.  Such a refusal is not caught, so it ends the evaluation (`Condition.Raises`), and with it
whatever asked for it.

Nothing is asked of the caches.  A field is taken from the cache if it is there, also when it is out
of date, and `Workspace.seen` is the value that a condition is going to see.  If a value is not in
the cache it is looked up, and this is where rows have to exist
(`LiveTransaction.ReferencesExist`).

## Main definitions

* `Unreadable` — a value to which an operator cannot be applied, with the complaint.
* `LiveTransaction.ReferencesExist` — what a transaction references was loaded or is stored.
* `Condition.Complains`, `Condition.Raises` — the two ways in which a condition has no truth value.

## Main statements

* `check_complains_or_raises` — a condition on a transaction whose references exist is evaluated
  unless its pattern is refused or one of its texts is none and cannot become one, and it is
  malformed exactly if it cannot be evaluated.
-/

namespace Rulebook

open Program Workspace Text

section

/-! ## Operators -/

namespace Operator

/-- Whether the operator puts the field's value and the expected text in order. -/
def comparesOrder : Operator → Bool
  | .greater | .greaterOrEqual | .less | .lessOrEqual => true
  | _ => false

end Operator

variable [Host]

/-- What is raised when the pattern that a text stands for is read, if anything is. -/
def patternFailure? (expected : String) (caseSensitive : Bool) : Option Failure :=
  match Pattern.parse (patternOf expected caseSensitive).1 (patternOf expected caseSensitive).2 with
  | .ok _ => none
  | .error fault => Failure.ofPatternFault? fault

/-- An operator that cannot be applied to a value and a text, and the complaint about it. -/
inductive Unreadable (kind : ValueKind) (actual : FieldValue) (expected : String)
    (caseSensitive : Bool) : Operator → Malformation → Prop where
  | comparison {op : Operator} (hop : op.comparesOrder = true)
      (hpair : orderedPair? kind actual expected = none) :
      Unreadable kind actual expected caseSensitive op (.invalidComparison actual expected)
  | bounds (hbounds : (splitList expected).length ≠ 2) :
      Unreadable kind actual expected caseSensitive .between (.invalidBounds expected)
  | range {low high : String} (hbounds : splitList expected = [low, high])
      (hpair : orderedPair? kind actual low = none ∨ orderedPair? kind actual high = none) :
      Unreadable kind actual expected caseSensitive .between (.invalidRange actual expected)
  | pattern (hexpected : expected ≠ "")
      (hparse : Pattern.parse (patternOf expected caseSensitive).1
        (patternOf expected caseSensitive).2 = .error .malformed) :
      Unreadable kind actual expected caseSensitive .regex (.invalidPattern expected)

/-- There is something to complain of: a value that is not missing cannot be read. -/
def HasComplaint (kind : ValueKind) (actual : FieldValue) (expected : String)
    (caseSensitive : Bool) (op : Operator) (why : Malformation) : Prop :=
  actual ≠ .absent ∧ Unreadable kind actual expected caseSensitive op why

namespace Evaluation

/-- The evaluation has exactly the complaints that there are, and matches only if there are none. -/
structure Honest (complaint : Malformation → Prop) (e : Evaluation) : Prop where
  unmatched : e.isMalformed = true → e.matched = false
  error_iff : ∀ why, e.error = some why ↔ complaint why

variable {complaint : Malformation → Prop}

omit [Host] in
/-- Where there is nothing to complain of, any outcome without a complaint is honest. -/
theorem honest_of_error {e : Evaluation} (he : e.error = none) (hnone : ∀ why, ¬ complaint why) :
    e.Honest complaint where
  unmatched hmalformed := by
    rw [isMalformed, he] at hmalformed
    cases hmalformed
  error_iff why := by
    rw [he]
    exact ⟨nofun, fun hwhy => (hnone why hwhy).elim⟩

omit [Host] in
theorem honest_of (b : Bool) (hnone : ∀ why, ¬ complaint why) :
    (Evaluation.of b).Honest complaint := honest_of_error rfl hnone

omit [Host] in
theorem honest_failed {cause : Malformation} (honly : ∀ why, complaint why ↔ why = cause) :
    (failed cause).Honest complaint where
  unmatched _ := rfl
  error_iff why := by
    rw [honly]
    exact ⟨fun hwhy => (Option.some.inj hwhy).symm, fun hwhy => congrArg some hwhy.symm⟩

omit [Host] in
theorem error_invert (e : Evaluation) : e.invert.error = e.error := by
  obtain ⟨matched, _ | why⟩ := e <;> rfl

end Evaluation

section Operators

variable {kind : ValueKind} {actual : FieldValue} {expected : String} {caseSensitive : Bool}
  {op : Operator} {e : Evaluation} {failure : Failure} {why : Malformation}

open Evaluation

/-! Texts, equality and globs never lead to a complaint. -/

omit [Host] in
theorem error_matchEqual : (matchEqual kind actual expected caseSensitive).error = none := by
  unfold matchEqual
  split
  · rfl
  · cases kind with
    | number => dsimp only; split <;> rfl
    | date => dsimp only; split <;> rfl
    | _ => rfl

omit [Host] in
theorem error_matchIn : (matchIn kind actual expected caseSensitive).error = none := by
  unfold matchIn
  split
  · rfl
  · cases kind with
    | number => dsimp only; split <;> rfl
    | _ => rfl

omit [Host] in
theorem error_matchText (relation : List Char → List Char → Bool) :
    (matchText relation actual expected caseSensitive).error = none := by
  unfold matchText
  split <;> rfl

theorem error_matchGlob : (matchGlob actual expected caseSensitive).error = none := by
  unfold matchGlob
  split <;> rfl

/-! Order, ranges and patterns may. -/

theorem unreadable_iff_of_comparesOrder (hop : op.comparesOrder = true) :
    Unreadable kind actual expected caseSensitive op why ↔
      orderedPair? kind actual expected = none ∧ why = .invalidComparison actual expected := by
  constructor
  · intro h
    cases h with
    | comparison _ hpair => exact ⟨hpair, rfl⟩
    | bounds | range | pattern => cases hop
  · rintro ⟨hpair, rfl⟩
    exact .comparison hop hpair

theorem unreadable_between_iff :
    Unreadable kind actual expected caseSensitive .between why ↔
      ((splitList expected).length ≠ 2 ∧ why = .invalidBounds expected) ∨
      ∃ low high, splitList expected = [low, high] ∧
        (orderedPair? kind actual low = none ∨ orderedPair? kind actual high = none) ∧
        why = .invalidRange actual expected := by
  constructor
  · intro h
    cases h with
    | comparison hop => cases hop
    | bounds hbounds => exact .inl ⟨hbounds, rfl⟩
    | range hbounds hpair => exact .inr ⟨_, _, hbounds, hpair, rfl⟩
  · rintro (⟨hbounds, rfl⟩ | ⟨low, high, hbounds, hpair, rfl⟩)
    · exact .bounds hbounds
    · exact .range hbounds hpair

theorem unreadable_regex_iff :
    Unreadable kind actual expected caseSensitive .regex why ↔
      expected ≠ "" ∧ Pattern.parse (patternOf expected caseSensitive).1
        (patternOf expected caseSensitive).2 = .error .malformed ∧
        why = .invalidPattern expected := by
  constructor
  · intro h
    cases h with
    | comparison hop => cases hop
    | pattern hexpected hparse => exact ⟨hexpected, hparse, rfl⟩
  · rintro ⟨hexpected, hparse, rfl⟩
    exact .pattern hexpected hparse

theorem not_unreadable (hop : op.comparesOrder = false) (hbetween : op ≠ .between)
    (hregex : op ≠ .regex) : ¬ Unreadable kind actual expected caseSensitive op why := by
  intro h
  cases h with
  | comparison horder => simp [hop] at horder
  | bounds | range => exact hbetween rfl
  | pattern => exact hregex rfl

theorem honest_matchOrder (relation : OrderedPair → Bool) (hop : op.comparesOrder = true) :
    (matchOrder relation kind actual expected).Honest
      (HasComplaint kind actual expected caseSensitive op) := by
  unfold matchOrder
  split
  · next habsent => exact honest_of _ fun why hwhy => hwhy.1 habsent
  · next hpresent =>
    rcases hpair : orderedPair? kind actual expected with _ | pair
    · refine honest_failed fun why => ?_
      rw [HasComplaint, unreadable_iff_of_comparesOrder hop]
      simp [hpresent, hpair]
    · refine honest_of _ fun why hwhy => ?_
      obtain ⟨hnone, -⟩ := (unreadable_iff_of_comparesOrder hop).1 hwhy.2
      rw [hpair] at hnone
      cases hnone

theorem honest_matchBetween :
    (matchBetween kind actual expected).Honest
      (HasComplaint kind actual expected caseSensitive .between) := by
  unfold matchBetween
  split
  · next habsent => exact honest_of _ fun why hwhy => hwhy.1 habsent
  · next hpresent =>
    split
    · next low high hbounds =>
      have hiff : ∀ why, HasComplaint kind actual expected caseSensitive .between why ↔
          (orderedPair? kind actual low = none ∨ orderedPair? kind actual high = none) ∧
            why = .invalidRange actual expected := by
        intro why
        rw [HasComplaint, unreadable_between_iff, hbounds]
        simp [hpresent]
      rcases hlow : orderedPair? kind actual low with _ | l
      · exact honest_failed fun why => by simp [hiff, hlow]
      · rcases hhigh : orderedPair? kind actual high with _ | h
        · exact honest_failed fun why => by simp [hiff, hhigh]
        · exact honest_of _ fun why => by simp [hiff, hlow, hhigh]
    · next hbounds =>
      have hlength : (splitList expected).length ≠ 2 := by
        intro hlength
        obtain ⟨low, high, hlist⟩ := List.length_eq_two.1 hlength
        exact hbounds low high hlist
      have hnone : ∀ low high, splitList expected ≠ [low, high] := hbounds
      refine honest_failed fun why => ?_
      rw [HasComplaint, unreadable_between_iff]
      simp [hpresent, hlength, hnone]

theorem matchPattern_eq :
    matchPattern actual expected caseSensitive =
      if actual = .absent ∨ expected = "" then .ok (.of false)
      else
        match Pattern.parse (patternOf expected caseSensitive).1
          (patternOf expected caseSensitive).2 with
        | .ok pattern => .ok (.of (anyText actual pattern.search))
        | .error fault =>
          match Failure.ofPatternFault? fault with
          | some failure => .error failure
          | none => .ok (.failed (.invalidPattern expected)) := by
  unfold matchPattern
  congr 1
  simp only [Bool.or_eq_true, decide_eq_true_eq]

omit [Host] in
/-- A fault in a pattern is caught only if the grammar is broken. -/
theorem ofPatternFault?_eq_none_iff {fault : Pattern.Fault} :
    Failure.ofPatternFault? fault = none ↔ fault = .malformed := by
  cases fault <;> simp [Failure.ofPatternFault?]

theorem matchPattern_eq_error_iff :
    matchPattern actual expected caseSensitive = .error failure ↔
      actual ≠ .absent ∧ expected ≠ "" ∧
        patternFailure? expected caseSensitive = some failure := by
  rw [matchPattern_eq, patternFailure?]
  split
  · next hnothing =>
    constructor
    · intro h
      cases h
    · rintro ⟨hpresent, hexpected, -⟩
      exact (hnothing.elim hpresent hexpected).elim
  · next hsomething =>
    obtain ⟨hpresent, hexpected⟩ := not_or.1 hsomething
    split
    · simp
    · next fault _ =>
      cases Failure.ofPatternFault? fault <;> simp [hpresent, hexpected]

theorem honest_matchPattern (h : matchPattern actual expected caseSensitive = .ok e) :
    e.Honest (HasComplaint kind actual expected caseSensitive .regex) := by
  rw [matchPattern_eq] at h
  split at h
  · next hnothing =>
    cases h
    refine honest_of _ fun why hwhy => ?_
    obtain ⟨hexpected, -⟩ := unreadable_regex_iff.1 hwhy.2
    exact hnothing.elim hwhy.1 hexpected
  · next hsomething =>
    obtain ⟨hpresent, hexpected⟩ := not_or.1 hsomething
    split at h
    · next hparse =>
      cases h
      refine honest_of _ fun why hwhy => ?_
      obtain ⟨-, hmalformed, -⟩ := unreadable_regex_iff.1 hwhy.2
      rw [hparse] at hmalformed
      cases hmalformed
    · next fault hparse =>
      split at h
      · cases h
      · next hfault =>
        cases h
        rw [ofPatternFault?_eq_none_iff.1 hfault] at hparse
        refine honest_failed fun why => ?_
        rw [HasComplaint, unreadable_regex_iff]
        simp [hpresent, hexpected, hparse]

/-- Only the search for a pattern raises, and only if the pattern is refused. -/
theorem evaluate_eq_error_iff :
    evaluate op kind actual expected caseSensitive = .error failure ↔
      op = .regex ∧ actual ≠ .absent ∧ expected ≠ "" ∧
        patternFailure? expected caseSensitive = some failure := by
  cases op with
  | regex => simpa [evaluate] using matchPattern_eq_error_iff
  | _ => simp [evaluate]

/-- An operator that gives an outcome complains exactly if the value cannot be read, and then it
does not match. -/
theorem honest_evaluate (h : evaluate op kind actual expected caseSensitive = .ok e) :
    e.Honest (HasComplaint kind actual expected caseSensitive op) := by
  -- Most operators read every value, so all there is to see is that they have no complaint.
  have hreads : e.error = none → op.comparesOrder = false → op ≠ .between → op ≠ .regex →
      e.Honest (HasComplaint kind actual expected caseSensitive op) :=
    fun hnone hop hbetween hregex =>
      honest_of_error hnone fun why hwhy => not_unreadable hop hbetween hregex hwhy.2
  cases op with
  | regex => exact honest_matchPattern h
  | between => cases h; exact honest_matchBetween
  | greater | greaterOrEqual | less | lessOrEqual => cases h; exact honest_matchOrder _ rfl
  | equals => cases h; exact hreads error_matchEqual rfl nofun nofun
  | notEquals => cases h; exact hreads ((error_invert _).trans error_matchEqual) rfl nofun nofun
  | contains | startsWith | endsWith =>
      cases h
      exact hreads (error_matchText _) rfl nofun nofun
  | notContains =>
      cases h
      exact hreads ((error_invert _).trans (error_matchText _)) rfl nofun nofun
  | wildcard => cases h; exact hreads error_matchGlob rfl nofun nofun
  | isEmpty | isNotEmpty => cases h; exact hreads rfl rfl nofun nofun
  | inList => cases h; exact hreads error_matchIn rfl nofun nofun
  | notInList => cases h; exact hreads ((error_invert _).trans error_matchIn) rfl nofun nofun

end Operators

/-! ## Fields -/

/-- A reference that is set was loaded, or its row is in the table. -/
def Reference.Exists {α : Type} (has : Id → Bool) (r : Reference α) : Prop :=
  r.isSet = true → r.loaded.isSome = true ∨ r.id.any has = true

/-- What the transaction references was loaded or is stored. -/
structure LiveTransaction.ReferencesExist (s : Store) (t : LiveTransaction) : Prop where
  account : t.account.Exists s.accounts.has
  category : t.category.Exists s.categories.has
  merchant : t.merchant.Exists s.merchants.has

section Fields

variable {s : Store} {t : LiveTransaction} {h : Handle} {w : Workspace}

omit [Host] in
/-- The name behind a reference that exists can be told. -/
theorem Reference.Exists.nameHeld {α : Type} {has : Id → Bool} {r : Reference α}
    (hr : r.Exists has) {find : Id → Option α} (hfind : ∀ id, has id = true → (find id).isSome)
    (e : Entity) (name : α → String) : ∃ value, r.nameHeld find e name = .ok value := by
  unfold Reference.nameHeld
  split
  · next hset =>
    obtain ⟨_ | id, _ | row⟩ := r
    · cases hset
    · cases hset
    · have hid : has id = true := (hr hset).resolve_left nofun
      obtain ⟨row, hrow⟩ := Option.isSome_iff_exists.1 (hfind id hid)
      refine ⟨.text (name row), ?_⟩
      simp [Reference.resolve, Reference.known, hrow, FieldValue.ofText?]
    · exact ⟨_, rfl⟩
  · exact ⟨_, rfl⟩

omit [Host] in
/-- Each field of a transaction whose references exist holds something. -/
theorem LiveTransaction.ReferencesExist.holds (ht : t.ReferencesExist s) (field : Field) :
    ∃ value, t.holds s field = .ok value := by
  have hrow : ∀ {α : Type} (table : Table α) id, table.has id = true →
      (table.find? id).isSome = true := fun table id hid => hid
  cases field with
  | category => exact ht.category.nameHeld (hrow s.categories) _ _
  | merchant => exact ht.merchant.nameHeld (hrow s.merchants) _ _
  | account =>
      refine ht.account.nameHeld (fun id hid => ?_) _ _
      rw [findAccount, Option.isSome_map]
      exact hrow s.accounts id hid
  | _ => exact ⟨_, rfl⟩

/-- The value that a condition is going to see: the one in the cache, else what the field holds. -/
def Workspace.seen (w : Workspace) (h : Handle) (field : Field) : Except Failure FieldValue :=
  match w.fields.find? (w.transaction h).id field with
  | some value => .ok value
  | none => (w.transaction h).holds w.store field

omit [Host] in
theorem result_fieldValue (field : Field) :
    ((fieldValue h field).runOn w).1 = w.seen h field := by
  rw [runOn_fieldValue, Workspace.seen]
  cases w.fields.find? (w.transaction h).id field with
  | some value => rfl
  | none =>
      have hresult := result_resolveField (h := h)
        (w := { w with fields := { w.fields with misses := w.fields.misses + 1 } }) field
      dsimp only
      split <;> next hrun => rw [hrun] at hresult; exact hresult

omit [Host] in
theorem exists_seen (hrefs : (w.transaction h).ReferencesExist w.store) (field : Field) :
    ∃ value, w.seen h field = .ok value := by
  unfold Workspace.seen
  split
  · exact ⟨_, rfl⟩
  · exact hrefs.holds field

end Fields

/-! ## Conditions -/

namespace Condition

/-- The condition cannot be evaluated on what is seen of a transaction, and what is complained of:
it has an unknown word, or its operator cannot be applied. -/
inductive Complains (seen : Field → Except Failure FieldValue) (c : Condition) :
    Malformation → Prop where
  | unrecognised (hwords : c.recognised? = none) :
      Complains seen c (.unknownCondition c.field c.operator)
  | unreadable {field : Field} {op : Operator} {actual : FieldValue} {expected : String}
      {why : Malformation} (hwords : c.recognised? = some (field, op))
      (hseen : seen field = .ok actual) (hexpected : expectedText c.value = .ok expected)
      (hpresent : actual ≠ .absent)
      (hread : Unreadable field.kind actual expected c.isCaseSensitive.isTruthy op why) :
      Complains seen c why

/-- The ways in which the evaluation of a condition is broken off: it asks for a pattern that is
refused in a way that is not caught, its value cannot become a text, or it has an unknown word and
the complaint about it cannot be written. -/
inductive Raises (seen : Field → Except Failure FieldValue) (c : Condition) (failure : Failure) :
    Prop where
  | pattern {field : Field} {actual : FieldValue} {expected : String}
      (hwords : c.recognised? = some (field, .regex)) (hseen : seen field = .ok actual)
      (hexpected : expectedText c.value = .ok expected) (hpresent : actual ≠ .absent)
      (hasked : expected ≠ "")
      (hfailure : patternFailure? expected c.isCaseSensitive.isTruthy = some failure)
  | value (hwords : c.recognised?.isSome = true)
      (hhidden : expectedText c.value = .error failure)
  | words (hwords : c.recognised? = none)
      (hhidden : (c.field.hidden? .message).or (c.operator.hidden? .message) = some failure)

section Words

variable {c : Condition} {seen : Field → Except Failure FieldValue} {field : Field} {op : Operator}
  {actual : FieldValue} {expected : String} {why : Malformation} {failure : Failure}

/-- A condition with an unknown word is complained of, and not looked at further. -/
theorem complains_iff_of_unrecognised (hwords : c.recognised? = none) :
    c.Complains seen why ↔ why = .unknownCondition c.field c.operator := by
  constructor
  · intro hwhy
    cases hwhy with
    | unrecognised => rfl
    | unreadable hknown =>
        rw [hwords] at hknown
        cases hknown
  · rintro rfl
    exact .unrecognised hwords

theorem raises_iff_of_unrecognised (hwords : c.recognised? = none) :
    c.Raises seen failure ↔
      (c.field.hidden? .message).or (c.operator.hidden? .message) = some failure := by
  constructor
  · intro hraises
    cases hraises with
    | words _ hhidden => exact hhidden
    | pattern hknown | value hknown =>
        rw [hwords] at hknown
        cases hknown
  · exact .words hwords

/-- What is complained of is what the operator cannot be applied to. -/
theorem complains_iff_of_recognised (hwords : c.recognised? = some (field, op))
    (hseen : seen field = .ok actual) (htext : expectedText c.value = .ok expected) :
    c.Complains seen why ↔
      HasComplaint field.kind actual expected c.isCaseSensitive.isTruthy op why := by
  constructor
  · intro hwhy
    cases hwhy with
    | unrecognised hunknown =>
        rw [hwords] at hunknown
        cases hunknown
    | unreadable hwords' hseen' htext' hpresent hread =>
        obtain ⟨rfl, rfl⟩ := Prod.mk.inj (Option.some.inj (hwords.symm.trans hwords'))
        obtain rfl := Except.ok.inj (hseen.symm.trans hseen')
        obtain rfl := Except.ok.inj (htext.symm.trans htext')
        exact ⟨hpresent, hread⟩
  · rintro ⟨hpresent, hread⟩
    exact .unreadable hwords hseen htext hpresent hread

theorem raises_iff_of_recognised (hwords : c.recognised? = some (field, op))
    (hseen : seen field = .ok actual) (htext : expectedText c.value = .ok expected) :
    c.Raises seen failure ↔ op = .regex ∧ actual ≠ .absent ∧ expected ≠ "" ∧
      patternFailure? expected c.isCaseSensitive.isTruthy = some failure := by
  constructor
  · intro hraises
    cases hraises with
    | words hnone => rw [hwords] at hnone; cases hnone
    | value _ hhidden => rw [htext] at hhidden; cases hhidden
    | pattern hwords' hseen' htext' hpresent hasked hfailure =>
        obtain ⟨rfl, rfl⟩ := Prod.mk.inj (Option.some.inj (hwords.symm.trans hwords'))
        obtain rfl := Except.ok.inj (hseen.symm.trans hseen')
        obtain rfl := Except.ok.inj (htext.symm.trans htext')
        exact ⟨rfl, hpresent, hasked, hfailure⟩
  · rintro ⟨rfl, hpresent, hasked, hfailure⟩
    exact .pattern hwords hseen htext hpresent hasked hfailure

/-- Without a text to compare with, only the failure to make one is left. -/
theorem raises_iff_of_hidden {hidden : Failure} (hwords : c.recognised? = some (field, op))
    (htext : expectedText c.value = .error hidden) : c.Raises seen failure ↔ hidden = failure := by
  constructor
  · intro hraises
    cases hraises with
    | words hnone => rw [hwords] at hnone; cases hnone
    | pattern _ _ hexpected => rw [htext] at hexpected; cases hexpected
    | value _ hhidden => exact Except.error.inj (htext.symm.trans hhidden)
  · rintro rfl
    exact .value (by rw [hwords]; rfl) htext

end Words

theorem unrecognised_eq_ok_iff {c : Condition} {e : Evaluation} :
    c.unrecognised = .ok e ↔ (c.field.hidden? .message).or (c.operator.hidden? .message) = none ∧
      Evaluation.failed (.unknownCondition c.field c.operator) = e := by
  unfold unrecognised
  cases (c.field.hidden? .message).or (c.operator.hidden? .message) <;> simp

theorem unrecognised_eq_error_iff {c : Condition} {failure : Failure} :
    c.unrecognised = .error failure ↔
      (c.field.hidden? .message).or (c.operator.hidden? .message) = some failure := by
  unfold unrecognised
  cases (c.field.hidden? .message).or (c.operator.hidden? .message) <;> simp

omit [Host] in
theorem error_finish (c : Condition) (e : Evaluation) : (c.finish e).error = e.error := by
  unfold finish
  split <;> rfl

omit [Host] in
theorem matched_finish (c : Condition) (e : Evaluation) :
    (c.finish e).matched = (e.matched != c.isNegated.isTruthy) := by
  unfold finish
  split
  · next hnegated => simp [hnegated, Evaluation.negate]
  · next hplain => simp [hplain]

end Condition

section Checking

variable {h : Handle} {w : Workspace}

theorem result_evaluateCondition (c : Condition) :
    ((evaluateCondition h c).runOn w).1 =
      match c.recognised? with
      | some (field, op) => (w.seen h field).bind (c.apply field op)
      | none => c.unrecognised := by
  unfold evaluateCondition
  rcases c.recognised? with _ | ⟨field, op⟩
  · rfl
  · have hvalue := result_fieldValue (h := h) (w := w) field
    dsimp only
    rw [runOn_bind]
    rcases hrun : (fieldValue h field).runOn w with ⟨failure | value, v⟩ <;>
      rw [hrun] at hvalue <;> rw [← hvalue]
    · rfl
    · cases hresult : c.apply field op value <;> simp [Except.bind, hresult]

/-- A check passes the outcome on, with the negation, and reports what is malformed. -/
theorem result_checkCondition (c : Condition) :
    ((checkCondition h c).runOn w).1 = (((evaluateCondition h c).runOn w).1).map c.finish := by
  rw [checkCondition, runOn_bind]
  rcases (evaluateCondition h c).runOn w with ⟨failure | outcome, v⟩
  · rfl
  · dsimp only
    split <;> rfl

/-- What comes of a condition on a transaction whose references exist, before negation. -/
theorem evaluateCondition_spec (c : Condition)
    (hrefs : (w.transaction h).ReferencesExist w.store) :
    (∀ failure, ((evaluateCondition h c).runOn w).1 = .error failure ↔
      c.Raises (w.seen h) failure) ∧
    ∀ e, ((evaluateCondition h c).runOn w).1 = .ok e → e.Honest (c.Complains (w.seen h)) := by
  rw [result_evaluateCondition]
  rcases hwords : c.recognised? with _ | ⟨field, op⟩
  · -- An unknown word is complained of before anything is looked up.
    refine ⟨fun failure => ?_, fun e he => ?_⟩
    · rw [Condition.raises_iff_of_unrecognised hwords, Condition.unrecognised_eq_error_iff]
    · obtain ⟨-, rfl⟩ := Condition.unrecognised_eq_ok_iff.1 he
      exact Evaluation.honest_failed fun why => Condition.complains_iff_of_unrecognised hwords
  · obtain ⟨actual, hseen⟩ := exists_seen hrefs field
    have hresult : (w.seen h field).bind (c.apply field op) = c.apply field op actual := by
      rw [hseen]
      rfl
    dsimp only
    rw [hresult, Condition.apply]
    rcases htext : expectedText c.value with hidden | expected
    · -- Without a text to compare with, the operator is not applied.
      refine ⟨fun failure => ?_, nofun⟩
      rw [Condition.raises_iff_of_hidden hwords htext]
      exact ⟨Except.error.inj, congrArg _⟩
    · -- The operator is applied, and it fails or complains as it does on its own.
      have happlied : (Except.ok expected >>= fun expected =>
          evaluate op field.kind actual expected c.isCaseSensitive.isTruthy) =
          evaluate op field.kind actual expected c.isCaseSensitive.isTruthy := rfl
      rw [happlied]
      refine ⟨fun failure => ?_, fun e he => ?_⟩
      · rw [Condition.raises_iff_of_recognised hwords hseen htext, evaluate_eq_error_iff]
      · have hhonest := honest_evaluate he
        refine ⟨hhonest.unmatched, fun why => ?_⟩
        rw [hhonest.error_iff, Condition.complains_iff_of_recognised hwords hseen htext]

end Checking

end

namespace SmallLedger

/-- A description that was not closed properly: the bracket has no end. -/
def openBracket : Condition :=
  ⟨none, .text "description", .text "regex", .text "[Bak", .bool false, .bool true, .int 0⟩

/-- A description of very many letters. -/
def manyLetters : Condition :=
  ⟨none, .text "description", .text "regex", .text "a{4294967295}", .bool false, .bool false,
    .int 0⟩

/-- The references of a loaded transaction exist, as those of the second transaction do. -/
theorem references_exist : (workspace.transaction 2).ReferencesExist workspace.store :=
  ⟨fun _ => .inr rfl, nofun, nofun⟩

end SmallLedger

end Rulebook
