import Rulebook.Proofs.Condition.Membership
import Rulebook.Proofs.Number.Decimal

/-!
# The operators for order

An amount or a date is less than a text, equal to it, or greater, and the other operators for order
should be what these three make of them.  Their definitions share less than that suggests.  The
four comparisons put both values on a line, and complain of a text that has no place there.
Equality does the same where it can, but it falls back on comparing texts and never complains.  A
range is split at the comma first, and complains for both of its bounds at once.

So it has to be excluded that a text without a place is the same, as a text, as an amount or a date.
It is not, because the text of an amount is read as that amount (`Number.readNumberChars?_text`) and
that of a date as that date (`Calendar.dateOf?_text`), with capitals or without.  After that, all
operators are relations between two places (`Stands`), and what they claim is a matter of integers.

## Main definitions

* `Matches`, `IsMalformed` — the outcome of an operator.
* `IsOrdered` — finite amounts and dates.
* `OrderedPair.places?` — where two values are on a line.
* `Stands` — the relation in which a value stands to a text.

## Main statements

* `matches_equals_iff` — equality is equality of places.
* `order_coherent` — the operators for order agree with each other.
-/

namespace Rulebook

open Rulebook.Number Rulebook.Calendar Rulebook.Text

section

/-! ## Outcomes -/

/-- The operator is applied without failure, and matches. -/
def Matches [Host] (op : Operator) (kind : ValueKind) (actual : FieldValue) (expected : String)
    (caseSensitive : Bool) : Prop :=
  ∃ e, evaluate op kind actual expected caseSensitive = .ok e ∧ e.matched = true

/-- The operator is applied without failure, and complains. -/
def IsMalformed [Host] (op : Operator) (kind : ValueKind) (actual : FieldValue) (expected : String)
    (caseSensitive : Bool) : Prop :=
  ∃ e, evaluate op kind actual expected caseSensitive = .ok e ∧ e.isMalformed = true

section Outcomes

variable {op : Operator} {kind : ValueKind} {actual : FieldValue} {expected : String}
  {caseSensitive : Bool} {e : Evaluation}

theorem matches_iff_of_ok [Host] (h : evaluate op kind actual expected caseSensitive = .ok e) :
    Matches op kind actual expected caseSensitive ↔ e.matched = true := by
  simp [Matches, h]

theorem isMalformed_iff_of_ok [Host] (h : evaluate op kind actual expected caseSensitive = .ok e) :
    IsMalformed op kind actual expected caseSensitive ↔ e.isMalformed = true := by
  simp [IsMalformed, h]

theorem matchEqual_eq_of (kind : ValueKind) (actual : FieldValue) (expected : String)
    (caseSensitive : Bool) : ∃ b, matchEqual kind actual expected caseSensitive = .of b := by
  unfold matchEqual
  extract_lets wanted byText
  split_ifs
  · exact ⟨_, rfl⟩
  · split
    · split <;> exact ⟨_, rfl⟩
    · split <;> exact ⟨_, rfl⟩
    · exact ⟨_, rfl⟩

theorem matches_equals_iff_eq [Host] : Matches .equals kind actual expected caseSensitive ↔
    evaluate .equals kind actual expected caseSensitive = .ok (.of true) := by
  obtain ⟨b, hb⟩ := matchEqual_eq_of kind actual expected caseSensitive
  have hevaluate : evaluate .equals kind actual expected caseSensitive = .ok (.of b) :=
    congrArg _ hb
  rw [matches_iff_of_ok hevaluate, hevaluate, evaluation_of_iff]
  rfl

end Outcomes

/-! ## Places on a line -/

namespace OrderedPair

/-- Where two values are on the line of numbers or on that of days.  What is not a number has no
place. -/
def places? : OrderedPair → Option (Int × Int)
  | .numbers a b =>
    match a.position?, b.position? with
    | some x, some y => some (x, y)
    | _, _ => none
  | .dates a b => some (a.key, b.key)

theorem lt_iff (p : OrderedPair) : p.lt = true ↔ ∃ x y, p.places? = some (x, y) ∧ x < y := by
  cases p with
  | numbers a b =>
    simp only [lt, Binary64.lt, Binary64.compareBy, places?]
    cases a.position? <;> cases b.position? <;> simp
  | dates a b => simp [lt, Date.lt, places?]

theorem le_iff (p : OrderedPair) : p.le = true ↔ ∃ x y, p.places? = some (x, y) ∧ x ≤ y := by
  cases p with
  | numbers a b =>
    simp only [le, Binary64.le, Binary64.compareBy, places?]
    cases a.position? <;> cases b.position? <;> simp
  | dates a b => simp [le, Date.le, places?]

theorem numbers_eq_iff (a b : Binary64) :
    a.eq b = true ↔ ∃ x y, (numbers a b).places? = some (x, y) ∧ x = y := by
  simp only [Binary64.eq, Binary64.compareBy, places?]
  cases a.position? <;> cases b.position? <;> simp [eq_comm]

theorem dates_eq_iff {a b : Date} (ha : a.isValid = true) (hb : b.isValid = true) :
    a = b ↔ ∃ x y, (dates a b).places? = some (x, y) ∧ x = y := by
  constructor
  · rintro rfl
    exact ⟨_, _, rfl, rfl⟩
  · rintro ⟨x, y, hplaces, rfl⟩
    simp only [places?, Option.some.injEq, Prod.mk.injEq] at hplaces
    exact Date.eq_of_key_eq ha hb (by omega)

theorem places?_swap (p : OrderedPair) : p.swap.places? = p.places?.map Prod.swap := by
  cases p with
  | numbers a b =>
    simp only [swap, places?]
    cases a.position? <;> cases b.position? <;> rfl
  | dates a b => rfl

end OrderedPair

/-- The value stands in a relation to the text: both have a place, and the places are related. -/
def Stands (kind : ValueKind) (actual : FieldValue) (expected : String) (r : Int → Int → Prop) :
    Prop :=
  ∃ x y, (orderedPair? kind actual expected).bind OrderedPair.places? = some (x, y) ∧ r x y

section Comparisons

variable {kind : ValueKind} {actual : FieldValue} {expected : String} {caseSensitive : Bool}
  {r : Int → Int → Prop}

theorem matched_matchOrder (hactual : actual ≠ .absent) {relation : OrderedPair → Bool}
    (hrelation : ∀ p, relation p = true ↔ ∃ x y, p.places? = some (x, y) ∧ r x y) :
    (matchOrder relation kind actual expected).matched = true ↔ Stands kind actual expected r := by
  rw [matchOrder, if_neg hactual, Stands]
  cases orderedPair? kind actual expected with
  | none => simp [Evaluation.failed]
  | some p => simp [Evaluation.of, hrelation]

theorem matches_less_iff [Host] (hactual : actual ≠ .absent) :
    Matches .less kind actual expected caseSensitive ↔ Stands kind actual expected (· < ·) :=
  (matches_iff_of_ok rfl).trans (matched_matchOrder hactual OrderedPair.lt_iff)

theorem matches_lessOrEqual_iff [Host] (hactual : actual ≠ .absent) :
    Matches .lessOrEqual kind actual expected caseSensitive ↔
      Stands kind actual expected (· ≤ ·) :=
  (matches_iff_of_ok rfl).trans (matched_matchOrder hactual OrderedPair.le_iff)

theorem matches_greater_iff [Host] (hactual : actual ≠ .absent) :
    Matches .greater kind actual expected caseSensitive ↔ Stands kind actual expected (· > ·) := by
  refine (matches_iff_of_ok rfl).trans (matched_matchOrder hactual fun p => ?_)
  rw [p.swap.lt_iff, p.places?_swap]
  cases p.places? with
  | none => simp
  | some places => simp [Prod.ext_iff, and_comm]

theorem matches_greaterOrEqual_iff [Host] (hactual : actual ≠ .absent) :
    Matches .greaterOrEqual kind actual expected caseSensitive ↔
      Stands kind actual expected (· ≥ ·) := by
  refine (matches_iff_of_ok rfl).trans (matched_matchOrder hactual fun p => ?_)
  rw [p.swap.le_iff, p.places?_swap]
  cases p.places? with
  | none => simp
  | some places => simp [Prod.ext_iff, and_comm]

end Comparisons

/-! ## Amounts and dates -/

/-- The values of the fields that have an order: a finite amount, or a day that exists. -/
inductive IsOrdered : ValueKind → FieldValue → Prop
  | amount (negative : Bool) (coefficient : Nat) (exponent : Int) :
    IsOrdered .number (.amount (.finite negative coefficient exponent))
  | date {d : Date} (h : d.isValid = true) : IsOrdered .date (.date d)

/-- A text that names a place on the line: a date, or a number other than not-a-number. -/
def NamesPlace (kind : ValueKind) (expected : String) : Prop :=
  match kind with
  | .number => ∃ x, (FieldValue.text expected).number? = some x ∧ x ≠ .nan
  | .date => ∃ d, (FieldValue.text expected).date? = some d
  | _ => False

theorem number?_text (s : String) : (FieldValue.text s).number? = readNumberChars? s.toList := by
  show readNumber? (strip s) = _
  rw [readNumber?, toList_strip, readNumberChars?, stripChars_stripChars]
  rfl

theorem number?_amount (d : Decimal) :
    (FieldValue.amount d).number? = readNumberChars? d.text.toList :=
  number?_text d.text

theorem number?_finite (negative : Bool) (coefficient : Nat) (exponent : Int) :
    (FieldValue.amount (.finite negative coefficient exponent)).number? =
      some (Binary64.ofDecimal negative coefficient exponent) := by
  rw [number?_amount, readNumberChars?_text]

theorem orderedPair?_amount (negative : Bool) (coefficient : Nat) (exponent : Int)
    (expected : String) :
    orderedPair? .number (.amount (.finite negative coefficient exponent)) expected =
      (FieldValue.text expected).number?.map
        (.numbers (Binary64.ofDecimal negative coefficient exponent)) := by
  simp only [orderedPair?, FieldValue.isDate, number?_finite]
  cases (FieldValue.text expected).number? <;> rfl

theorem orderedPair?_date (d : Date) (expected : String) :
    orderedPair? .date (.date d) expected = (FieldValue.text expected).date?.map (.dates d) := by
  simp only [orderedPair?, FieldValue.date?]
  cases dateOf? (strip (FieldValue.text expected).plain) <;> rfl

/-- A text that is the same as a plain one differs from it in capitals only. -/
theorem map_toLower_eq_of_foldCase {caseSensitive : Bool} {s t : String}
    (ht : ∀ c ∈ t.toList, IsPlain c.toLower)
    (h : foldCase caseSensitive t = foldCase caseSensitive s) :
    s.toList.map Char.toLower = t.toList.map Char.toLower := by
  cases caseSensitive with
  | true => rw [show t.toList = s.toList from h]
  | false => exact map_toLower_eq_of_foldChars_eq ht (Eq.symm h)

section Equality

variable {caseSensitive : Bool} {expected : String}

/-- What is the same as the text of an amount is the same number. -/
theorem number?_of_sameText {negative : Bool} {coefficient : Nat} {exponent : Int}
    (h : SameText caseSensitive (.amount (.finite negative coefficient exponent)) expected) :
    (FieldValue.text expected).number? =
      some (Binary64.ofDecimal negative coefficient exponent) := by
  obtain ⟨s, hs, hsame⟩ := h
  obtain rfl : s = (Decimal.finite negative coefficient exponent).text := by
    simpa [FieldValue.texts, FieldValue.plain] using hs
  have hcapitals := map_toLower_eq_of_foldCase (fun c hc => isPlain_of_mem_text hc) hsame
  rw [number?_text, ← readNumberChars?_map_toLower, hcapitals, readNumberChars?_map_toLower,
    readNumberChars?_text]

/-- What is the same as the text of a date is that text. -/
theorem date?_of_sameText {d : Date} (hd : d.isValid = true)
    (h : SameText caseSensitive (.date d) expected) :
    (FieldValue.text expected).date? = some d := by
  obtain ⟨s, hs, hsame⟩ := h
  obtain rfl : s = d.text := by simpa [FieldValue.texts, FieldValue.plain] using hs
  have hfront : ∀ c ∈ d.text.toList, c.toNat < 0x41 := fun c hc => Date.toNat_lt_of_mem_text hc
  have hcapitals := map_toLower_eq_of_foldCase
    (fun c hc => .inl (by rw [toLower_of_lt (hfront c hc)]; exact hfront c hc)) hsame
  obtain rfl : expected = d.text := String.toList_inj.1 (eq_of_map_toLower_eq hfront hcapitals)
  show dateOf? (strip d.text) = some d
  rw [d.strip_text, dateOf?_text hd]

/-- Equality is equality of places. -/
theorem matches_equals_iff [Host] {kind : ValueKind} {actual : FieldValue}
    (h : IsOrdered kind actual) :
    Matches .equals kind actual expected caseSensitive ↔ Stands kind actual expected (· = ·) := by
  rw [matches_equals_iff_eq, Stands]
  cases h with
  | amount negative coefficient exponent =>
    rw [orderedPair?_amount]
    cases hexpected : (FieldValue.text expected).number? with
    | some x =>
      rw [equals_number (number?_finite negative coefficient exponent) hexpected,
        OrderedPair.numbers_eq_iff]
      rfl
    | none =>
      have hother : ¬SameText caseSensitive (.amount (.finite negative coefficient exponent))
          expected := by
        intro hsame
        rw [number?_of_sameText hsame] at hexpected
        cases hexpected
      rw [equals_text (by simp) (fun _ => .inr hexpected) (by simp)]
      simp [hother]
  | @date d hd =>
    rw [orderedPair?_date]
    cases hexpected : (FieldValue.text expected).date? with
    | some d' =>
      have hd' : d'.isValid = true := onlyGives_dateOf? _ d' hexpected
      rw [equals_dates rfl hexpected, OrderedPair.dates_eq_iff hd hd']
      rfl
    | none =>
      have hother : ¬SameText caseSensitive (.date d) expected := by
        intro hsame
        rw [date?_of_sameText hd hsame] at hexpected
        cases hexpected
      rw [equals_text (by simp) (by simp) (fun _ => .inr hexpected)]
      simp [hother]

end Equality

/-! ## Ranges -/

section Ranges

variable {kind : ValueKind} {actual : FieldValue} {low high expected : String}
  {caseSensitive : Bool}

theorem orderedPair?_strip : orderedPair? kind actual (strip expected) =
    orderedPair? kind actual expected := by
  have hnumber : (FieldValue.text (strip expected)).number? =
      (FieldValue.text expected).number? := by
    show readNumber? (strip (strip expected)) = _
    rw [strip_strip]
    rfl
  have hdate : (FieldValue.text (strip expected)).date? = (FieldValue.text expected).date? := by
    show dateOf? (strip (strip expected)) = _
    rw [strip_strip]
    rfl
  simp only [orderedPair?, hnumber, hdate]

/-- A range asks for an order of the value and each of its bounds. -/
theorem evaluate_between [Host] (hactual : actual ≠ .absent) (hlow : ',' ∉ low.toList)
    (hhigh : ',' ∉ high.toList) :
    evaluate .between kind actual (low ++ "," ++ high) caseSensitive =
      match orderedPair? kind actual low, orderedPair? kind actual high with
      | some l, some h => .ok (.of (l.swap.le && h.le))
      | _, _ => .ok (.failed (.invalidRange actual (low ++ "," ++ high))) := by
  have hsplit : splitList (low ++ "," ++ high) = [strip low, strip high] := by
    have hcomma : ∀ c ∈ [low, high], ',' ∉ c.toList := by simp [hlow, hhigh]
    have hjoined := splitList_intercalate (by simp) hcomma
    simpa [String.intercalate_cons_cons] using hjoined
  rw [evaluate, matchBetween, if_neg hactual, hsplit]
  simp only [orderedPair?_strip]
  cases orderedPair? kind actual low <;> cases orderedPair? kind actual high <;> rfl

theorem isMalformed_matchOrder (hactual : actual ≠ .absent) (relation : OrderedPair → Bool) :
    (matchOrder relation kind actual expected).isMalformed = true ↔
      orderedPair? kind actual expected = none := by
  rw [matchOrder, if_neg hactual]
  cases orderedPair? kind actual expected <;> simp [Evaluation.isMalformed, Evaluation.of,
    Evaluation.failed]

theorem matches_between_iff [Host] (hactual : actual ≠ .absent) (hlow : ',' ∉ low.toList)
    (hhigh : ',' ∉ high.toList) :
    Matches .between kind actual (low ++ "," ++ high) caseSensitive ↔
      Matches .greaterOrEqual kind actual low caseSensitive ∧
        Matches .lessOrEqual kind actual high caseSensitive := by
  rw [Matches, evaluate_between hactual hlow hhigh, matches_iff_of_ok rfl, matches_iff_of_ok rfl,
    matchOrder, matchOrder, if_neg hactual, if_neg hactual]
  cases orderedPair? kind actual low <;> cases orderedPair? kind actual high <;>
    simp [Evaluation.of, Evaluation.failed]

theorem isMalformed_between_iff [Host] (hactual : actual ≠ .absent) (hlow : ',' ∉ low.toList)
    (hhigh : ',' ∉ high.toList) :
    IsMalformed .between kind actual (low ++ "," ++ high) caseSensitive ↔
      IsMalformed .greaterOrEqual kind actual low caseSensitive ∨
        IsMalformed .lessOrEqual kind actual high caseSensitive := by
  rw [IsMalformed, evaluate_between hactual hlow hhigh, isMalformed_iff_of_ok rfl,
    isMalformed_iff_of_ok rfl, isMalformed_matchOrder hactual, isMalformed_matchOrder hactual]
  cases orderedPair? kind actual low <;> cases orderedPair? kind actual high <;>
    simp [Evaluation.isMalformed, Evaluation.of, Evaluation.failed]

end Ranges

/-! ## Coherence -/

section Coherence

variable {kind : ValueKind} {actual : FieldValue} {expected : String}

theorem IsOrdered.ne_absent (h : IsOrdered kind actual) : actual ≠ .absent := by
  cases h <;> simp

/-- The places that a value and a text have, if they have any, are the only ones. -/
theorem stands_iff {x y : Int} {r : Int → Int → Prop}
    (h : (orderedPair? kind actual expected).bind OrderedPair.places? = some (x, y)) :
    Stands kind actual expected r ↔ r x y := by
  simp [Stands, h]

theorem stands_or {r s : Int → Int → Prop} :
    Stands kind actual expected (fun x y => r x y ∨ s x y) ↔
      Stands kind actual expected r ∨ Stands kind actual expected s := by
  simp only [Stands, and_or_left, exists_or]

theorem stands_congr {r s : Int → Int → Prop} (h : ∀ x y, r x y ↔ s x y) :
    Stands kind actual expected r ↔ Stands kind actual expected s := by
  simp only [Stands, h]

/-- If the text names a place, the value and the text can be compared. -/
theorem exists_places (h : IsOrdered kind actual) (hplace : NamesPlace kind expected) :
    ∃ x y, (orderedPair? kind actual expected).bind OrderedPair.places? = some (x, y) := by
  have hposition : ∀ a : Binary64, a ≠ .nan → ∃ x, a.position? = some x := by
    intro a ha
    cases a with
    | nan => exact (ha rfl).elim
    | infinite negative => exact ⟨_, rfl⟩
    | finite negative units => exact ⟨_, rfl⟩
  cases h with
  | amount negative coefficient exponent =>
    obtain ⟨b, hb, hnan⟩ := hplace
    obtain ⟨x, hx⟩ := hposition _ (ofDecimal_ne_nan negative coefficient exponent)
    obtain ⟨y, hy⟩ := hposition b hnan
    refine ⟨x, y, ?_⟩
    rw [orderedPair?_amount, hb]
    simp [OrderedPair.places?, hx, hy]
  | date hd =>
    obtain ⟨b, hb⟩ := hplace
    rw [orderedPair?_date, hb]
    exact ⟨_, _, rfl⟩

/-- The three ways in which a value may compare to a text. -/
def ways : List Operator := [.less, .equals, .greater]

/-- What each of the three ways says of the places. -/
def wayRelation (op : Operator) (x y : Int) : Prop :=
  match op with
  | .less => x < y
  | .equals => x = y
  | .greater => y < x
  | _ => False

theorem matches_way_iff [Host] {op : Operator} {caseSensitive : Bool} (h : IsOrdered kind actual)
    (hop : op ∈ ways) :
    Matches op kind actual expected caseSensitive ↔
      Stands kind actual expected (wayRelation op) := by
  simp only [ways, List.mem_cons, List.not_mem_nil, or_false] at hop
  rcases hop with rfl | rfl | rfl
  · exact matches_less_iff h.ne_absent
  · exact matches_equals_iff h
  · exact matches_greater_iff h.ne_absent

/-- No two ways hold of the same two places. -/
theorem way_unique {op op' : Operator} {x y : Int} (hop : op ∈ ways) (hop' : op' ∈ ways)
    (h : wayRelation op x y) (h' : wayRelation op' x y) : op = op' := by
  simp only [ways, List.mem_cons, List.not_mem_nil, or_false] at hop hop'
  rcases hop with rfl | rfl | rfl <;> rcases hop' with rfl | rfl | rfl <;>
    simp only [wayRelation] at h h' <;> first | rfl | omega

/-- One way holds of any two places. -/
theorem way_exists (x y : Int) : ∃ op ∈ ways, wayRelation op x y := by
  rcases Int.lt_trichotomy x y with hlt | heq | hgt
  · exact ⟨.less, by simp [ways], hlt⟩
  · exact ⟨.equals, by simp [ways], heq⟩
  · exact ⟨.greater, by simp [ways], hgt⟩

end Coherence

/-- The operators for order agree with each other on amounts and dates, whatever they are compared
with.

* An operator that allows equality matches where the strict one does, and where equality does.
* Of less, equal and greater at most one matches, and exactly one where the text names a date, or a
  number that is one.
* A range matches where the value is neither less than its lower bound nor greater than its upper
  one, and complains where one of these comparisons does. -/
theorem order_coherent [Host] {kind : ValueKind} {actual : FieldValue} (h : IsOrdered kind actual)
    (caseSensitive : Bool) :
    (∀ expected : String,
      (Matches .greaterOrEqual kind actual expected caseSensitive ↔
        Matches .greater kind actual expected caseSensitive ∨
          Matches .equals kind actual expected caseSensitive) ∧
      (Matches .lessOrEqual kind actual expected caseSensitive ↔
        Matches .less kind actual expected caseSensitive ∨
          Matches .equals kind actual expected caseSensitive) ∧
      (∀ op ∈ ways, ∀ op' ∈ ways, Matches op kind actual expected caseSensitive →
        Matches op' kind actual expected caseSensitive → op = op') ∧
      (NamesPlace kind expected →
        ∃! op, op ∈ ways ∧ Matches op kind actual expected caseSensitive)) ∧
    ∀ low high : String, ',' ∉ low.toList → ',' ∉ high.toList →
      (Matches .between kind actual (low ++ "," ++ high) caseSensitive ↔
        Matches .greaterOrEqual kind actual low caseSensitive ∧
          Matches .lessOrEqual kind actual high caseSensitive) ∧
      (IsMalformed .between kind actual (low ++ "," ++ high) caseSensitive ↔
        IsMalformed .greaterOrEqual kind actual low caseSensitive ∨
          IsMalformed .lessOrEqual kind actual high caseSensitive) := by
  have hactual := h.ne_absent
  refine ⟨fun expected => ⟨?_, ?_, fun op hop op' hop' hmatch hmatch' => ?_, fun hplace => ?_⟩,
    fun low high hlow hhigh =>
      ⟨matches_between_iff hactual hlow hhigh, isMalformed_between_iff hactual hlow hhigh⟩⟩
  · rw [matches_greaterOrEqual_iff hactual, matches_greater_iff hactual, matches_equals_iff h,
      ← stands_or]
    exact stands_congr fun x y => ⟨by omega, by omega⟩
  · rw [matches_lessOrEqual_iff hactual, matches_less_iff hactual, matches_equals_iff h,
      ← stands_or]
    exact stands_congr fun x y => ⟨by omega, by omega⟩
  · obtain ⟨x, y, hplaces, hway⟩ := (matches_way_iff h hop).1 hmatch
    exact way_unique hop hop' hway ((stands_iff hplaces).1 ((matches_way_iff h hop').1 hmatch'))
  · obtain ⟨x, y, hplaces⟩ := exists_places h hplace
    obtain ⟨op, hop, hway⟩ := way_exists x y
    refine ⟨op, ⟨hop, (matches_way_iff h hop).2 ((stands_iff hplaces).2 hway)⟩, ?_⟩
    rintro op' ⟨hop', hmatch'⟩
    exact way_unique hop' hop ((stands_iff hplaces).1 ((matches_way_iff h hop').1 hmatch')) hway

end

/-- An amount lies in a range with a blank and an exponent in it, and is less than its upper bound
and neither equal to it nor greater. -/
theorem amount_in_range : IsOrdered .number minus25 ∧ NamesPlace .number " -1e1" ∧
    (',' ∉ "-30".toList ∧ ',' ∉ " -1e1".toList) ∧
    Matches .between .number minus25 ("-30" ++ "," ++ " -1e1") false ∧
    ¬Matches .equals .number minus25 " -1e1" false := by
  have hordered : IsOrdered .number minus25 := .amount true 2500 (-2)
  have hplace : NamesPlace .number " -1e1" :=
    ⟨.finite true (10 * Binary64.unitsOfOne), by decide +kernel, by simp⟩
  have hcommas : ',' ∉ "-30".toList ∧ ',' ∉ " -1e1".toList := by decide
  have hlow : Matches .greaterOrEqual .number minus25 "-30" false := ⟨_, rfl, by decide +kernel⟩
  have hless : Matches .less .number minus25 " -1e1" false := ⟨_, rfl, by decide +kernel⟩
  obtain ⟨hbounds, hrange⟩ := order_coherent hordered false
  obtain ⟨-, hhigh, -, hone⟩ := hbounds " -1e1"
  refine ⟨hordered, hplace, hcommas, ?_, fun hequal => ?_⟩
  · exact (hrange "-30" " -1e1" hcommas.1 hcommas.2).1.2 ⟨hlow, hhigh.2 (.inl hless)⟩
  · obtain ⟨way, -, hway⟩ := hone hplace
    have hsame : Operator.less = .equals :=
      (hway _ ⟨by simp [ways], hless⟩).trans (hway _ ⟨by simp [ways], hequal⟩).symm
    cases hsame

end Rulebook
