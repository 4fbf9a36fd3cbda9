import Mathlib
import Rulebook.Condition.Evaluation
import Rulebook.Proofs.Calendar.Reading
import Rulebook.Proofs.Text.Folding

/-!
# Membership in a list

The operator for lists should mean that one of the entries is equal to the value.  It is not defined
so.  Equality decides for each entry how it is compared: as a number if it is one and the value too,
otherwise as a text.  The operator for lists decides once for all entries, and a single entry that
is no number makes texts of all the others.  This module says where the two agree, and what holds
where they do not.

Dates need an argument of their own, since they are only compared as texts in a list.  That makes no
difference as long as they are written in the standard form, because two dates with the same text
are the same date (`Date.text_inj`) and folding does not change the text of a date
(`foldCase_date`).

## Main definitions

* `HasStray` — a list with an entry that is no number, looked at for a value that is one.
* `StandardDates` — all dates that are compared are written in the standard form.

## Main statements

* `splitList_intercalate` — the entries of a list that was joined by commas.
* `matchIn_iff` — what the operator for lists decides.
* `inList_joined_iff` — where that is equality with an entry.
-/

namespace Rulebook

open Rulebook.Text Rulebook.Calendar

section

/-! ## Entries -/

theorem splitAt_eq_splitOn (separator : Char) (s : List Char) :
    Text.splitAt separator s = s.splitOn separator := by
  induction s with
  | nil =>
    rw [List.splitOn_nil]
    rfl
  | cons c s ih =>
    rw [Text.splitAt, List.splitOn_cons_eq_if_modifyHead, ih]
    by_cases hc : c = separator
    · rw [if_pos hc, if_pos (beq_iff_eq.2 hc)]
    · rw [if_neg hc, if_neg (by simpa using hc)]
      rcases hpieces : s.splitOn separator with _ | ⟨piece, pieces⟩
      · exact (List.splitOn_ne_nil _ _ hpieces).elim
      · rfl

/-- The entries of a list that was joined by commas. -/
theorem splitList_intercalate {candidates : List String} (hne : candidates ≠ [])
    (hcomma : ∀ c ∈ candidates, ',' ∉ c.toList) :
    splitList (",".intercalate candidates) = candidates.map strip := by
  have hpieces : Text.splitAt ',' (",".intercalate candidates).toList =
      candidates.map String.toList := by
    rw [splitAt_eq_splitOn, String.toList_intercalate]
    refine List.splitOn_intercalate ',' ?_ (by simpa using hne)
    simpa using hcomma
  rw [splitList, hpieces, List.map_map]
  rfl

/-! ## Dates as texts -/

/-- Folding does not change the text of a date. -/
theorem foldCase_date (caseSensitive : Bool) (d : Date) :
    foldCase caseSensitive d.text = d.text.toList := by
  rw [foldCase]
  split
  · rfl
  · exact foldChars_of_forall_lt fun c hc => Date.toNat_lt_of_mem_text hc

/-! ## Comparing with one entry -/

variable [Host]

section Comparing

variable {kind : ValueKind} {actual : FieldValue} {caseSensitive : Bool} {c : String}

omit [Host] in
theorem FieldValue.ne_absent_of_number {x : Number.Binary64} (hx : actual.number? = some x) :
    actual ≠ .absent := by
  rintro rfl
  cases hx

omit [Host] in
theorem FieldValue.ne_absent_of_date {a : Date} (ha : actual.date? = some a) :
    actual ≠ .absent := by
  rintro rfl
  cases ha

/-- One of the value's texts is the same as another text. -/
def SameText (caseSensitive : Bool) (actual : FieldValue) (c : String) : Prop :=
  ∃ s ∈ actual.texts, foldCase caseSensitive s = foldCase caseSensitive c

omit [Host] in
theorem evaluation_of_iff {b : Bool} :
    (Except.ok (.of b) : Except Failure Evaluation) = .ok (.of true) ↔ b = true := by
  simp [Evaluation.of]

/-- Numbers are compared as numbers. -/
theorem equals_number {x y : Number.Binary64} (hx : actual.number? = some x)
    (hy : (FieldValue.text c).number? = some y) :
    evaluate .equals .number actual c caseSensitive = .ok (.of true) ↔ x.eq y = true := by
  rw [evaluate, matchEqual, if_neg (FieldValue.ne_absent_of_number hx), hx, hy]
  exact evaluation_of_iff

/-- Where no numbers and no dates meet, texts are compared. -/
theorem equals_text (hactual : actual ≠ .absent)
    (hnumber : kind = .number → actual.number? = none ∨ (FieldValue.text c).number? = none)
    (hdate : kind = .date → actual.date? = none ∨ (FieldValue.text c).date? = none) :
    evaluate .equals kind actual c caseSensitive = .ok (.of true) ↔
      SameText caseSensitive actual c := by
  have hbyText : evaluate .equals kind actual c caseSensitive = .ok (.of (anyText actual fun s =>
      foldCase caseSensitive s = foldCase caseSensitive c)) := by
    rw [evaluate, matchEqual, if_neg hactual]
    cases kind with
    | number =>
      dsimp only
      rcases hnumber rfl with h | h <;> rw [h]
      cases actual.number? <;> rfl
    | date =>
      dsimp only
      rcases hdate rfl with h | h <;> rw [h]
      cases actual.date? <;> rfl
    | _ => rfl
  rw [hbyText, evaluation_of_iff]
  simp [anyText, SameText]

/-- Dates are compared as dates. -/
theorem equals_dates {a b : Date} (ha : actual.date? = some a)
    (hb : (FieldValue.text c).date? = some b) :
    evaluate .equals .date actual c caseSensitive = .ok (.of true) ↔ a = b := by
  rw [evaluate, matchEqual, if_neg (FieldValue.ne_absent_of_date ha), ha, hb]
  exact evaluation_of_iff.trans decide_eq_true_iff

/-- Dates in the standard form may as well be compared as texts. -/
theorem equals_dateText {a b : Date} (ha : actual.date? = some a) (htexts : actual.texts = [a.text])
    (hb : (FieldValue.text b.text).date? = some b) :
    evaluate .equals .date actual b.text caseSensitive = .ok (.of true) ↔
      SameText caseSensitive actual b.text := by
  rw [equals_dates ha hb, SameText, htexts]
  simp only [List.mem_singleton, exists_eq_left, foldCase_date, String.toList_inj]
  exact ⟨fun h => by rw [h], Date.text_inj⟩

end Comparing

/-! ## Comparing with a list -/

/-- The value and all entries are numbers, and are compared as such. -/
def AllNumbers (kind : ValueKind) (actual : FieldValue) (entries : List String) : Prop :=
  kind = .number ∧ (∃ x, actual.number? = some x) ∧
    ∀ c ∈ entries, (FieldValue.text c).number? ≠ none

/-- A value that is a number is looked for in a list with an entry that is none. -/
def HasStray (kind : ValueKind) (actual : FieldValue) (entries : List String) : Prop :=
  kind = .number ∧ (∃ x, actual.number? = some x) ∧
    ∃ c ∈ entries, (FieldValue.text c).number? = none

/-- Where a value that is a date meets an entry that is one, both are written in the standard
form. -/
def StandardDates (kind : ValueKind) (actual : FieldValue) (entries : List String) : Prop :=
  kind = .date → ∀ a, actual.date? = some a → ∀ c ∈ entries, ∀ b,
    (FieldValue.text c).date? = some b → actual.texts = [a.text] ∧ c = b.text

/-- Membership as the operator for lists decides it: all entries are compared as numbers, or all as
texts. -/
def InList (kind : ValueKind) (actual : FieldValue) (entries : List String)
    (caseSensitive : Bool) : Prop :=
  (AllNumbers kind actual entries ∧
    ∃ c ∈ entries, evaluate .equals kind actual c caseSensitive = .ok (.of true)) ∨
  (¬AllNumbers kind actual entries ∧ ∃ c ∈ entries, SameText caseSensitive actual c)

section Lists

variable {kind : ValueKind} {actual : FieldValue} {caseSensitive : Bool} {expected : String}
  {entries more : List String} {α β : Type} {f : α → Option β}

omit [Host] in
theorem mapM_eq_none {l : List α} (h : ∃ a ∈ l, f a = none) : l.mapM f = none := by
  induction l with
  | nil => simp at h
  | cons a l ih =>
    rw [List.mapM_cons]
    cases hfa : f a with
    | none => rfl
    | some b =>
      have hrest : ∃ a ∈ l, f a = none := by
        simpa [hfa] using h
      rw [ih hrest]
      rfl

omit [Host] in
theorem mapM_eq_some {l : List α} (h : ∀ a ∈ l, f a ≠ none) :
    ∃ bs, l.mapM f = some bs ∧ ∀ b, b ∈ bs ↔ ∃ a ∈ l, f a = some b := by
  induction l with
  | nil => exact ⟨[], rfl, by simp⟩
  | cons a l ih =>
    obtain ⟨ha, hl⟩ := List.forall_mem_cons.1 h
    obtain ⟨b, hb⟩ := Option.ne_none_iff_exists'.1 ha
    obtain ⟨bs, hbs, hmem⟩ := ih hl
    refine ⟨b :: bs, by rw [List.mapM_cons, hb, hbs]; rfl, fun b' => ?_⟩
    rw [List.mem_cons, hmem]
    simp [hb, eq_comm]

omit [Host] in
/-- If there are not only numbers, a list is searched for texts. -/
theorem matchIn_texts (hactual : actual ≠ .absent)
    (h : ¬AllNumbers kind actual (splitList expected)) :
    matchIn kind actual expected caseSensitive = .of (anyText actual fun s =>
      ((splitList expected).map (foldCase caseSensitive)).contains (foldCase caseSensitive s)) := by
  rw [matchIn, if_neg hactual]
  extract_lets candidates byText
  cases kind with
  | number =>
    dsimp only
    split
    · next x ys hx hys =>
      refine (h ⟨rfl, ⟨x, hx⟩, fun c hc hnone => ?_⟩).elim
      have hnumbers := mapM_eq_none (f := fun c => (FieldValue.text c).number?) ⟨c, hc, hnone⟩
      cases hnumbers.symm.trans hys
    · rfl
  | _ => rfl

omit [Host] in
/-- If there are only numbers, a list is searched for numbers. -/
theorem matchIn_numbers {x : Number.Binary64} {ys : List Number.Binary64}
    (hx : actual.number? = some x)
    (hys : ((splitList expected).mapM fun c => (FieldValue.text c).number?) = some ys) :
    matchIn .number actual expected caseSensitive = .of (ys.any fun y => x.eq y) := by
  rw [matchIn, if_neg (FieldValue.ne_absent_of_number hx)]
  extract_lets candidates byText
  dsimp only
  rw [hx, show candidates.mapM _ = some ys from hys]

/-- The operator for lists has no complaint, and it decides membership in its own way. -/
theorem matchIn_iff (kind : ValueKind) (expected : String) (caseSensitive : Bool)
    (hactual : actual ≠ .absent) :
    ∃ b, matchIn kind actual expected caseSensitive = .of b ∧
      (b = true ↔ InList kind actual (splitList expected) caseSensitive) := by
  by_cases hall : AllNumbers kind actual (splitList expected)
  · obtain ⟨rfl, ⟨x, hx⟩, hentries⟩ := id hall
    obtain ⟨ys, hys, hmem⟩ := mapM_eq_some hentries
    refine ⟨_, matchIn_numbers hx hys, ?_⟩
    simp only [InList, hall, true_and, not_true, false_and, or_false, List.any_eq_true, hmem]
    constructor
    · rintro ⟨y, ⟨c, hc, hy⟩, heq⟩
      exact ⟨c, hc, (equals_number hx hy).2 heq⟩
    · rintro ⟨c, hc, heq⟩
      obtain ⟨y, hy⟩ := Option.ne_none_iff_exists'.1 (hentries c hc)
      exact ⟨y, ⟨c, hc, hy⟩, (equals_number hx hy).1 heq⟩
  · refine ⟨_, matchIn_texts hactual hall, ?_⟩
    simp only [InList, hall, false_and, false_or, not_false_iff, true_and, anyText,
      List.any_eq_true, List.contains_iff_mem, List.mem_map, SameText]
    constructor
    · rintro ⟨s, hs, c, hc, heq⟩
      exact ⟨c, hc, s, hs, heq.symm⟩
    · rintro ⟨c, hc, s, hs, heq⟩
      exact ⟨s, hs, c, hc, heq.symm⟩

theorem inList_iff_of_hasStray (h : HasStray kind actual entries) :
    InList kind actual entries caseSensitive ↔ ∃ c ∈ entries, SameText caseSensitive actual c := by
  obtain ⟨-, -, c, hc, hnone⟩ := h
  have hnot : ¬AllNumbers kind actual entries := fun hall => hall.2.2 c hc hnone
  simp only [InList, hnot, false_and, false_or, not_false_iff, true_and]

/-- Membership is equality with an entry, if nothing makes texts of numbers and if dates are written
so that their texts tell them apart. -/
theorem inList_iff_exists_equals (hactual : actual ≠ .absent)
    (hstray : ¬HasStray kind actual entries) (hdates : StandardDates kind actual entries) :
    InList kind actual entries caseSensitive ↔
      ∃ c ∈ entries, evaluate .equals kind actual c caseSensitive = .ok (.of true) := by
  by_cases hall : AllNumbers kind actual entries
  · simp only [InList, hall, true_and, not_true, false_and, or_false]
  · have htext : ∀ c ∈ entries, (evaluate .equals kind actual c caseSensitive = .ok (.of true) ↔
        SameText caseSensitive actual c) := by
      intro c hc
      by_cases hdate : kind = .date ∧ actual.date? ≠ none ∧ (FieldValue.text c).date? ≠ none
      · obtain ⟨rfl, ha, hb⟩ := hdate
        obtain ⟨a, ha⟩ := Option.ne_none_iff_exists'.1 ha
        obtain ⟨b, hb⟩ := Option.ne_none_iff_exists'.1 hb
        obtain ⟨htexts, rfl⟩ := hdates rfl a ha c hc b hb
        exact equals_dateText ha htexts hb
      · refine equals_text hactual (fun hnumber => .inl ?_) (fun hkind => ?_)
        · by_contra hsome
          obtain ⟨x, hx⟩ := Option.ne_none_iff_exists'.1 hsome
          refine hall ⟨hnumber, ⟨x, hx⟩, fun c hc hnone => ?_⟩
          exact hstray ⟨hnumber, ⟨x, hx⟩, c, hc, hnone⟩
        · by_contra hsome
          rw [not_or] at hsome
          exact hdate ⟨hkind, hsome⟩
    simp only [InList, hall, false_and, false_or, not_false_iff, true_and]
    exact exists_congr fun c => and_congr_right fun hc => (htext c hc).symm

/-- A longer list has at least the same members, unless an entry that is no number comes to
numbers. -/
theorem InList.mono (hsub : entries ⊆ more)
    (hstray : HasStray kind actual more → HasStray kind actual entries)
    (h : InList kind actual entries caseSensitive) : InList kind actual more caseSensitive := by
  rcases h with ⟨hall, c, hc, heq⟩ | ⟨hall, c, hc, heq⟩
  · left
    refine ⟨⟨hall.1, hall.2.1, fun c hc hnone => ?_⟩, c, hsub hc, heq⟩
    obtain ⟨-, -, stray, hmem, hnot⟩ := hstray ⟨hall.1, hall.2.1, c, hc, hnone⟩
    exact hall.2.2 stray hmem hnot
  · exact .inr ⟨fun hmore => hall ⟨hmore.1, hmore.2.1, fun c hc => hmore.2.2 c (hsub hc)⟩,
      c, hsub hc, heq⟩

end Lists

/-- The operators for lists decide about a list of candidates, joined by commas, without complaint,
and one is the opposite of the other.

* The value is in the list exactly if it equals one of the candidates, provided that a value that is
  a number meets only numbers, and that dates that meet are written in the standard form.
* A value that is a number and meets something else is in the list exactly if one of the candidates
  has the same text.
* A longer list holds what a list holds, unless it brings the first candidate that is no number. -/
theorem inList_joined_iff (kind : ValueKind) (actual : FieldValue) (caseSensitive : Bool)
    (candidates : List String) (hactual : actual ≠ .absent) (hne : candidates ≠ [])
    (hcomma : ∀ c ∈ candidates, ',' ∉ c.toList) :
    ∃ b, evaluate .inList kind actual (",".intercalate candidates) caseSensitive = .ok (.of b) ∧
      evaluate .notInList kind actual (",".intercalate candidates) caseSensitive = .ok (.of !b) ∧
      (¬HasStray kind actual (candidates.map strip) →
        StandardDates kind actual (candidates.map strip) →
        (b = true ↔ ∃ c ∈ candidates,
          evaluate .equals kind actual (strip c) caseSensitive = .ok (.of true))) ∧
      (HasStray kind actual (candidates.map strip) →
        (b = true ↔ ∃ c ∈ candidates, SameText caseSensitive actual (strip c))) ∧
      ∀ more : List String, candidates ⊆ more → (∀ c ∈ more, ',' ∉ c.toList) →
        (HasStray kind actual (more.map strip) → HasStray kind actual (candidates.map strip)) →
        b = true →
        evaluate .inList kind actual (",".intercalate more) caseSensitive = .ok (.of true) := by
  obtain ⟨b, hb, hin⟩ := matchIn_iff kind (",".intercalate candidates) caseSensitive hactual
  rw [splitList_intercalate hne hcomma] at hin
  refine ⟨b, congrArg _ hb, ?_, fun hstray hdates => ?_, fun hstray => ?_, ?_⟩
  · rw [evaluate, hb, Evaluation.invert_of]
  · rw [hin, inList_iff_exists_equals hactual hstray hdates]
    simp only [List.mem_map, exists_exists_and_eq_and]
  · rw [hin, inList_iff_of_hasStray hstray]
    simp only [List.mem_map, exists_exists_and_eq_and]
  · intro more hsub hcommas hstray htrue
    obtain ⟨b', hb', hin'⟩ := matchIn_iff kind (",".intercalate more) caseSensitive hactual
    have hnonempty : more ≠ [] := by
      rintro rfl
      exact hne (List.subset_nil.1 hsub)
    rw [splitList_intercalate hnonempty hcommas] at hin'
    obtain rfl : b' = true := hin'.2 ((hin.1 htrue).mono (List.map_subset _ hsub) hstray)
    exact congrArg _ hb'

/-- An amount of minus twenty-five. -/
def minus25 : FieldValue := .amount (.finite true 2500 (-2))

/-- The number of that amount. -/
def minus25Number : Number.Binary64 := .finite true (25 * Number.Binary64.unitsOfOne)

theorem equals_minus25 : evaluate .equals .number minus25 "-25" true = .ok (.of true) :=
  (equals_number (x := minus25Number) (y := minus25Number) (by decide +kernel)
    (by decide +kernel)).2 (by decide +kernel)

end

/-- The amount is found in a list with blanks after the commas. -/
theorem inList_of_amounts :
    (∀ c ∈ ["-10", " -25"], ',' ∉ c.toList) ∧
      ¬HasStray .number minus25 (["-10", " -25"].map strip) ∧
      evaluate .inList .number minus25 (",".intercalate ["-10", " -25"]) true = .ok (.of true) := by
  have hcomma : ∀ c ∈ ["-10", " -25"], ',' ∉ c.toList := by decide
  have hstray : ¬HasStray .number minus25 (["-10", " -25"].map strip) := by
    rintro ⟨-, -, hnone⟩
    revert hnone
    decide +kernel
  obtain ⟨b, hb, -, hequals, -⟩ :=
    inList_joined_iff .number minus25 true ["-10", " -25"] (by decide) (by decide) hcomma
  have hstrip : strip " -25" = "-25" := by decide +kernel
  refine ⟨hcomma, hstray, ?_⟩
  rwa [(hequals hstray nofun).2 ⟨" -25", by decide, hstrip ▸ equals_minus25⟩] at hb

/-- Where membership is not equality with an entry: an entry that is no number makes a text of an
amount, so that a longer list holds less, and a date is looked for by its text. -/
theorem inList_is_not_equals :
    (evaluate .inList .number minus25 "-25" true = .ok (.of true) ∧
      ¬(evaluate .inList .number minus25 (",".intercalate ["-25", "abc"]) true = .ok (.of true) ↔
        ∃ c ∈ ["-25", "abc"],
          evaluate .equals .number minus25 (strip c) true = .ok (.of true))) ∧
    ¬(evaluate .inList .date (.date ⟨2024, 5, 10⟩) (",".intercalate ["2024-5-10"]) true =
        .ok (.of true) ↔
      ∃ c ∈ ["2024-5-10"],
        evaluate .equals .date (.date ⟨2024, 5, 10⟩) (strip c) true = .ok (.of true)) := by
  refine ⟨⟨?_, fun h => ?_⟩, fun h => ?_⟩
  · have hentries : ((splitList "-25").mapM fun c => (FieldValue.text c).number?) =
        some [minus25Number] := by decide +kernel
    rw [evaluate, matchIn_numbers (x := minus25Number) (by decide +kernel) hentries]
    exact evaluation_of_iff.2 (by decide +kernel)
  · have hstrip : strip "-25" = "-25" := by decide +kernel
    have hin := h.2 ⟨"-25", by decide, hstrip ▸ equals_minus25⟩
    have hnot : ¬AllNumbers .number minus25 (splitList (",".intercalate ["-25", "abc"])) := by
      rintro ⟨-, -, hall⟩
      revert hall
      decide +kernel
    rw [evaluate, matchIn_texts (by decide) hnot, evaluation_of_iff] at hin
    revert hin
    decide +kernel
  · have hequals : evaluate .equals .date (.date ⟨2024, 5, 10⟩) (strip "2024-5-10") true =
        .ok (.of true) := by cbv
    have hin := h.2 ⟨_, by decide, hequals⟩
    have hout : evaluate .inList .date (.date ⟨2024, 5, 10⟩) (",".intercalate ["2024-5-10"]) true =
        .ok (.of false) := by cbv
    rw [hout, evaluation_of_iff] at hin
    cases hin

end Rulebook
