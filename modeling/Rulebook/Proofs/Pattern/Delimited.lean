import Mathlib
import Rulebook.Condition.Evaluation
import Rulebook.Proofs.Pattern.Matching

/-!
# Which texts are delimited patterns

Whether a text is a delimited pattern is asked with a pattern of its own, with two groups whose
marks are cut out of the text afterwards.  What the question means does not mention matching at all:
the text is a delimiter, a pattern, the same delimiter again, and modifiers (`IsForm`).

Two things could make the answer depend on how the matcher goes about it.  The pattern between the
delimiters may contain the delimiter, so that the text might be divided in several ways.  It cannot,
because no delimiter is a modifier, and so the second delimiter is the last one in the text
(`IsForm.unique`).  And the end of the text, as the matcher understands it, is also the place in
front of a line break that ends the text.  Hence a text of the form is recognised with or without
such a line break, and with it the same parts are cut out.

## Main definitions

* `IsForm` — the form of delimited patterns.
* `Ends` — a text, perhaps with a line break after it.
* `MatchesAt` — where the groups stand if the form is matched.
* `searchOutcome` — the outcome of looking for a pattern in a value.

## Main statements

* `IsForm.unique` — a text is of the form in one way only.
* `parse_form` — the pattern that was read beforehand is the one that is documented.
* `split?_eq_some_iff` — what is cut out of a text.
* `regex_reads_delimited` — what is looked for, and with which switches.
-/

namespace Rulebook

namespace Pattern.Delimited

variable {v w w' p p' f f' : List Char} {d d' : Char} {n m : Nat}

/-! ## The form -/

/-- The text is a delimiter, a pattern, the same delimiter again, and modifiers. -/
structure IsForm (v : List Char) (d : Char) (p f : List Char) : Prop where
  eq_append : v = d :: (p ++ d :: f)
  delimiter : d ∈ delimiters
  modifiers : ∀ c ∈ f, c ∈ modifiers

/-- The text is another one, or that with a line break after it. -/
def Ends (v w : List Char) : Prop := v = w ∨ v = w ++ ['\n']

/-- No delimiter is a modifier. -/
theorem IsForm.delimiter_notMem (h : IsForm v d p f) : d ∉ f := by
  have hapart : ∀ c ∈ delimiters, c ∉ Delimited.modifiers :=
    List.forall_iff_forall_mem.1 (by decide)
  exact fun hd => hapart d h.delimiter (h.modifiers d hd)

/-- A line break is neither a delimiter nor a modifier. -/
theorem IsForm.break_notMem (h : IsForm v d p f) : '\n' ∉ d :: f := by
  have hbreak : '\n' ∉ delimiters ∧ '\n' ∉ Delimited.modifiers := by decide
  rw [List.mem_cons, not_or]
  exact ⟨fun hd => hbreak.1 (hd ▸ h.delimiter), fun hf => hbreak.2 (h.modifiers _ hf)⟩

/-- What stands in front of the last occurrence of a character, and what stands after it. -/
theorem append_cons_inj {x x' y y' : List Char} {c : Char} (hy : c ∉ y) (hy' : c ∉ y')
    (h : x ++ c :: y = x' ++ c :: y') : x = x' ∧ y = y' := by
  have hlast : ∀ {z y y' : List Char}, c ∉ y → c :: y = z ++ c :: y' → z = [] := by
    intro z y y' hy h
    rcases z with _ | ⟨e, z⟩
    · rfl
    · refine (hy ?_).elim
      rw [List.tail_eq_of_cons_eq h]
      simp
  rcases List.append_eq_append_iff.1 h with ⟨z, hx, hz⟩ | ⟨z, hx, hz⟩
  · obtain rfl := hlast hy hz
    simp_all
  · obtain rfl := hlast hy' hz
    simp_all

/-- A text is of the form in one way only: the second delimiter is the last one in it. -/
theorem IsForm.unique (h : IsForm v d p f) (h' : IsForm v d' p' f') : p = p' ∧ f = f' := by
  have heq := h.eq_append.symm.trans h'.eq_append
  obtain ⟨rfl, heq⟩ := List.cons.inj heq
  exact append_cons_inj h.delimiter_notMem h'.delimiter_notMem heq

/-- A text of the form does not end in a line break. -/
theorem IsForm.ne_append_break (h : IsForm v d p f) (w : List Char) : v ≠ w ++ ['\n'] := by
  intro hv
  have hlast := congrArg List.getLast? (h.eq_append.symm.trans hv)
  rw [← List.cons_append, List.getLast?_append, List.getLast?_concat, List.getLast?_cons,
    Option.some_or, ← List.getLast?_cons] at hlast
  exact h.break_notMem (List.mem_of_getLast? hlast)

/-- Of a text and the same with a line break after it, one at most is of the form. -/
theorem IsForm.eq_of_ends (h : IsForm w d p f) (h' : IsForm w' d' p' f') (hw : Ends v w)
    (hw' : Ends v w') : w = w' := by
  rcases hw with rfl | rfl <;> rcases hw' with hw' | hw'
  · exact hw'
  · exact (h.ne_append_break _ hw').elim
  · exact (h'.ne_append_break _ hw'.symm).elim
  · exact List.append_cancel_right hw'

/-! ## Matching the form -/

/-- The pattern that was read beforehand is the documented one. -/
theorem parse_form [host : Host] :
    parse { dotAll := true } "^([/~#%])(.*)\\1([imsuxADJSUX]*)$".toList = .ok form := by
  have hchars : "^([/~#%])(.*)\\1([imsuxADJSUX]*)$".toList =
      ['^', '(', '[', '/', '~', '#', '%', ']', ')', '(', '.', '*', ')', '\\', '1', '(', '[', 'i',
        'm', 's', 'u', 'x', 'A', 'D', 'J', 'S', 'U', 'X', ']', '*', ')', '$'] := by decide
  rw [hchars]
  -- Whatever the host, there is more room than the form takes.
  obtain ⟨room, enough⟩ := host
  obtain ⟨rest, rfl⟩ : ∃ rest : Descent → Nat, room = fun descent => rest descent + 16 :=
    ⟨fun descent => room descent - 16,
      funext fun descent => (Nat.sub_add_cancel (enough descent)).symm⟩
  rfl

/-- The switches of the form. -/
def formOptions : Options := { dotAll := true }

theorem holds_anyOf (chars : List Char) (c : Char) :
    (anyOf chars).holds formOptions c.toNat = chars.contains c := by
  have hitem : ∀ m : Char, (ClassItem.code m.toNat).holds .exact false c.toNat = (c == m) := by
    intro m
    show (c.toNat == m.toNat) = (c == m)
    rw [Bool.eq_iff_iff, beq_iff_eq, beq_iff_eq, Char.toNat_inj]
  show (((chars.map fun c => ClassItem.code c.toNat).any
    fun item => item.holds .exact false c.toNat) != false) = _
  rw [List.any_map, List.contains_eq_any_beq, Bool.bne_false]
  exact congrArg chars.any (funext hitem)

/-- The end of the text, or the place in front of the line break that ends it. -/
theorem holds_lineEnd_iff {position : Nat} (h : position ≤ v.length) :
    Edge.lineEnd.holds formOptions (subjectOf v) position = true ↔
      v.drop position = [] ∨ v.drop position = ['\n'] := by
  have hbreak : ∀ c : Char, c.toNat = 10 ↔ c = '\n' := fun c => Char.toNat_inj (d := '\n')
  have hlength : (v.drop position).length = v.length - position := List.length_drop
  have hholds : Edge.lineEnd.holds formOptions (subjectOf v) position = true ↔
      position = v.length ∨ v[position]? = some '\n' ∧ position + 1 = v.length := by
    simp [Edge.holds, breakAt, formOptions, hbreak]
  rw [hholds, ← List.head?_drop]
  rcases hrest : v.drop position with _ | ⟨c, rest⟩ <;> rw [hrest] at hlength
  · simp at hlength ⊢
    omega
  · simp only [List.length_cons] at hlength
    have hend : position + 1 = v.length ↔ rest = [] := by
      rw [← List.length_eq_zero_iff]
      omega
    have hne : position ≠ v.length := by omega
    simp [hne, hend]

/-- The reference finds the delimiter of the first group again. -/
theorem sameStretch_delimiter_iff {position : Nat} :
    sameStretch formOptions (subjectOf v) 1 0 position = true ↔
      ∃ d, v[0]? = some d ∧ v[position]? = some d := by
  have hfold : ∀ c d : Char,
      (formOptions.folding.lower c.toNat == formOptions.folding.lower d.toNat) = true ↔ c = d :=
    fun c d => beq_iff_eq.trans Char.toNat_inj
  simp only [sameStretch, getElem?_subjectOf]
  rcases v[0]? with _ | c <;> rcases v[position]? with _ | c'
  · simp
  · simp
  · simp
  · simp [hfold, eq_comm]

/-- Where the form ends that has a pattern of length `n` and `m` modifiers, and the marks of its
groups. -/
def endSpot (n m : Nat) : Spot :=
  ⟨1 + n + 1 + m, [(7, 1 + n + 1 + m), (6, 1 + n + 1), (5, 1 + n), (4, 1), (3, 1), (2, 0)]⟩

theorem part?_endSpot_pattern (v : List Char) :
    (endSpot n m).part? v 2 = some ((v.drop 1).take n) := by
  simp [Spot.part?, Spot.span?, endSpot, List.lookup]

theorem part?_endSpot_modifiers (v : List Char) :
    (endSpot n m).part? v 3 = some ((v.drop (1 + n + 1)).take m) := by
  simp [Spot.part?, Spot.span?, endSpot, List.lookup]

/-- The longest run of modifiers from a position on. -/
def modifiersFrom (v : List Char) (position : Nat) : List Char :=
  (v.drop position).takeWhile modifiers.contains

/-- The form matches with a pattern of length `n` and `m` modifiers. -/
structure MatchesAt (v : List Char) (n m : Nat) : Prop where
  delimiter : ∃ d ∈ delimiters, v[0]? = some d ∧ v[1 + n]? = some d
  modifiers : m ≤ (modifiersFrom v (1 + n + 1)).length
  tail : v.drop (1 + n + 1 + m) = [] ∨ v.drop (1 + n + 1 + m) = ['\n']

theorem stop_le (hdelimiter : ∃ d ∈ delimiters, v[0]? = some d ∧ v[1 + n]? = some d)
    (hm : m ≤ (modifiersFrom v (1 + n + 1)).length) : 1 + n + 1 + m ≤ v.length := by
  obtain ⟨d, -, -, hagain⟩ := hdelimiter
  have hn : 1 + n < v.length := (List.getElem?_eq_some_iff.1 hagain).1
  have hrun : (modifiersFrom v (1 + n + 1)).length ≤ (v.drop (1 + n + 1)).length :=
    (List.takeWhile_prefix _).length_le
  rw [List.length_drop] at hrun
  omega

theorem runFrom_anyChar (v : List Char) (position : Nat) :
    runFrom formOptions .anyChar v position = v.drop position :=
  List.takeWhile_eq_self_iff.2 fun _ _ => rfl

theorem runFrom_modifiers (v : List Char) (position : Nat) :
    runFrom formOptions (anyOf modifiers) v position = modifiersFrom v position := by
  simp only [runFrom, modifiersFrom, holds_anyOf]

/-- From the start of the text, the nodes of the form lead to the places where it can end. -/
theorem explores_form (v : List Char) : ∃ leads,
    Explores (matchSequence form.widths (subjectOf v) formOptions form.body) leads ∧
      ∀ stop, leads ⟨0, []⟩ stop ↔ ∃ n m, MatchesAt v n m ∧ stop = endSpot n m := by
  have hunit : ∀ chars, (anyOf chars).isUnit = true := fun _ => rfl
  have hany : Node.anyChar.isUnit = true := rfl
  refine ⟨_, explores_cons (explores_edge .lineStart)
    (explores_cons (explores_capture 1 rfl (explores_unit (hunit delimiters)))
      (explores_cons (explores_capture 2 rfl (explores_many hany))
        (explores_cons (explores_backref 1)
          (explores_cons (explores_capture 3 rfl (explores_many (hunit modifiers)))
            (explores_cons (explores_edge .lineEnd) explores_nil))))), fun stop => ⟨?_, ?_⟩⟩
  · rintro ⟨_, ⟨-, rfl⟩, _, ⟨_, ⟨d, hd, hdelimiter, rfl⟩, rfl⟩, _, ⟨_, ⟨n, hn, rfl⟩, rfl⟩, _,
      ⟨first, last, hspan, hsame, rfl⟩, _, ⟨_, ⟨m, hm, rfl⟩, rfl⟩, _, ⟨hend, rfl⟩, rfl⟩
    -- The marks of the first group stand around the delimiter, the first character.
    obtain ⟨rfl, rfl⟩ : first = 0 ∧ last = 1 := by
      simpa [Spot.span?, Spot.mark, Spot.advance, List.lookup, eq_comm] using hspan
    simp only [Spot.position_advance, Spot.position_mark, Nat.zero_add, Nat.sub_zero] at *
    rw [holds_anyOf, List.contains_iff_mem] at hdelimiter
    rw [runFrom_modifiers] at hm
    obtain ⟨d', hd', hagain⟩ := sameStretch_delimiter_iff.1 hsame
    obtain rfl : d = d' := Option.some.inj (hd.symm.trans hd')
    have hdelimiters : ∃ d ∈ delimiters, v[0]? = some d ∧ v[1 + n]? = some d :=
      ⟨d, hdelimiter, hd, hagain⟩
    have hstop : 1 + n + 1 + m ≤ v.length := stop_le hdelimiters hm
    exact ⟨n, m, ⟨hdelimiters, hm, (holds_lineEnd_iff hstop).1 hend⟩, rfl⟩
  · rintro ⟨n, m, h, rfl⟩
    obtain ⟨d, hdelimiter, hd, hagain⟩ := h.delimiter
    have hfirst : (anyOf delimiters).holds formOptions d.toNat = true := by
      rwa [holds_anyOf, List.contains_iff_mem]
    have hstop : 1 + n + 1 + m ≤ v.length := stop_le h.delimiter h.modifiers
    refine ⟨_, ⟨rfl, rfl⟩, _, ⟨_, ⟨d, hd, hfirst, rfl⟩, rfl⟩, _, ⟨_, ⟨n, ?_, rfl⟩, rfl⟩, _,
      ⟨0, 1, rfl, ?_, rfl⟩, _, ⟨_, ⟨m, ?_, rfl⟩, rfl⟩, _, ⟨?_, rfl⟩, rfl⟩
    · show n ≤ (runFrom formOptions .anyChar v 1).length
      rw [runFrom_anyChar, List.length_drop]
      omega
    · exact sameStretch_delimiter_iff.2 ⟨d, hd, hagain⟩
    · rw [runFrom_modifiers]
      exact h.modifiers
    · exact (holds_lineEnd_iff hstop).2 h.tail

/-! ## What is cut out -/

/-- A text is divided by a delimiter at its start and the same further on. -/
theorem exists_eq_append (hd : v[0]? = some d) (hagain : v[1 + n]? = some d) :
    ∃ p y, v = d :: (p ++ d :: y) ∧ p.length = n := by
  obtain ⟨v, rfl⟩ : ∃ rest, v = d :: rest := by
    rcases v with _ | ⟨c, rest⟩
    · cases hd
    · exact ⟨rest, by rw [List.getElem?_cons_zero, Option.some_inj] at hd; rw [hd]⟩
  rw [Nat.add_comm, List.getElem?_cons_succ] at hagain
  obtain ⟨hn, hget⟩ := List.getElem?_eq_some_iff.1 hagain
  refine ⟨v.take n, v.drop (n + 1), ?_, List.length_take_of_le (Nat.le_of_lt hn)⟩
  rw [← hget, ← List.drop_eq_getElem_cons hn, List.take_append_drop]

/-- The parts of a divided text. -/
theorem drop_division (d : Char) (p y : List Char) :
    (d :: (p ++ d :: y)).drop (1 + p.length + 1) = y := by
  rw [show 1 + p.length + 1 = (p.length + 1) + 1 by omega, List.drop_succ_cons, ← List.drop_drop,
    List.drop_left, List.drop_one, List.tail_cons]

/-- Where the form is matched, the text is of the form, perhaps with a line break after it. -/
theorem MatchesAt.isForm (h : MatchesAt v n m) : ∃ w d, Ends v w ∧
    IsForm w d ((v.drop 1).take n) ((v.drop (1 + n + 1)).take m) := by
  obtain ⟨d, hdelimiter, hd, hagain⟩ := h.delimiter
  obtain ⟨p, y, rfl, rfl⟩ := exists_eq_append hd hagain
  have hm := h.modifiers
  have htail := h.tail
  rw [← List.drop_drop] at htail
  rw [modifiersFrom] at hm
  rw [drop_division] at hm htail ⊢
  rw [List.drop_one, List.tail_cons, List.take_left]
  refine ⟨d :: (p ++ d :: y.take m), d, ?_, rfl, hdelimiter, ?_⟩
  · have hends := List.take_append_drop m y
    rcases htail with htail | htail <;> rw [htail] at hends
    · left
      rw [List.append_nil] at hends
      rw [hends]
    · right
      simp only [List.cons_append, List.append_assoc, hends]
  · -- So many characters belong to the run of modifiers.
    obtain ⟨rest, hrest⟩ := List.takeWhile_prefix (l := y) Delimited.modifiers.contains
    rw [← hrest, List.take_append_of_le_length hm]
    intro c hc
    exact List.contains_iff_mem.1 (List.mem_takeWhile_imp (List.mem_of_mem_take hc))

/-- A text of the form is matched, also with a line break after it. -/
theorem IsForm.matchesAt (h : IsForm w d p f) (hw : Ends v w) : MatchesAt v p.length f.length := by
  obtain ⟨tail, htail, rfl⟩ : ∃ tail, (tail = [] ∨ tail = ['\n']) ∧ v = w ++ tail := by
    rcases hw with rfl | rfl
    · exact ⟨[], .inl rfl, (List.append_nil v).symm⟩
    · exact ⟨_, .inr rfl, rfl⟩
  obtain rfl := h.eq_append
  have hy : (d :: (p ++ d :: f) ++ tail) = d :: (p ++ d :: (f ++ tail)) := by simp
  refine ⟨⟨d, h.delimiter, ?_, ?_⟩, ?_, ?_⟩
  · simp
  · rw [hy, Nat.add_comm, List.getElem?_cons_succ, List.getElem?_append_right (Nat.le_refl _)]
    simp
  · rw [modifiersFrom, hy, drop_division, List.takeWhile_append_of_pos
      fun c hc => List.contains_iff_mem.2 (h.modifiers c hc), List.length_append]
    exact Nat.le_add_right _ _
  · rw [← List.drop_drop, hy, drop_division, List.drop_left]
    exact htail

/-- What is cut out of a text: the parts of the form, if it is of the form or ends in a line break
and is of the form without it. -/
theorem split?_eq_some_iff : split? v = some (p, f) ↔ ∃ w d, Ends v w ∧ IsForm w d p f := by
  obtain ⟨leads, hleads, hends⟩ := explores_form v
  constructor
  · intro hsplit
    rw [split?] at hsplit
    split at hsplit
    · cases hsplit
    · next stop hstop =>
      obtain ⟨next, hnext, hk⟩ := hleads.exists_of_eq_some hstop
      obtain ⟨n, m, hmatches, rfl⟩ := (hends next).1 hnext
      obtain rfl := Option.some.inj hk
      rw [part?_endSpot_pattern, part?_endSpot_modifiers] at hsplit
      obtain ⟨rfl, rfl⟩ := Prod.mk.inj (Option.some.inj hsplit)
      exact hmatches.isForm
  · rintro ⟨w, d, hw, hform⟩
    have hsome : (form.matchStart (subjectOf v)).isSome = true :=
      hleads.isSome_of_leads ((hends _).2 ⟨_, _, hform.matchesAt hw, rfl⟩) rfl
    obtain ⟨stop, hstop⟩ := Option.isSome_iff_exists.1 hsome
    obtain ⟨next, hnext, hk⟩ := hleads.exists_of_eq_some hstop
    obtain ⟨n, m, hmatches, rfl⟩ := (hends next).1 hnext
    obtain rfl := Option.some.inj hk
    -- The matcher may have gone another way, but there is only one.
    obtain ⟨w', d', hw', hform'⟩ := hmatches.isForm
    obtain rfl := hform.eq_of_ends hform' hw hw'
    obtain ⟨rfl, rfl⟩ := hform.unique hform'
    rw [split?, hstop]
    dsimp only
    rw [part?_endSpot_pattern, part?_endSpot_modifiers]

/-- Nothing is cut out of any other text. -/
theorem split?_eq_none (h : ∀ w d p f, Ends v w → ¬IsForm w d p f) : split? v = none := by
  rw [Option.eq_none_iff_forall_ne_some]
  rintro ⟨p, f⟩ hsplit
  obtain ⟨w, d, hw, hform⟩ := split?_eq_some_iff.1 hsplit
  exact h w d p f hw hform

end Pattern.Delimited

section

variable [Host]

/-! ## Conditions -/

/-- The outcome of looking for a pattern in a value: nothing is found in a missing value, and a text
that is no pattern is reported. -/
def searchOutcome (actual : FieldValue) (expected : String) (options : Pattern.Options)
    (pattern : List Char) : Except Failure Evaluation :=
  if actual = .absent then .ok (.of false)
  else match Pattern.parse options pattern with
    | .ok parsed => .ok (.of (anyText actual parsed.search))
    | .error fault =>
      match Failure.ofPatternFault? fault with
      | some failure => .error failure
      | none => .ok (.failed (.invalidPattern expected))

variable {kind : ValueKind} {actual : FieldValue} {expected : String} {caseSensitive : Bool}

theorem evaluate_regex_empty :
    evaluate .regex kind actual "" caseSensitive = .ok (.of false) := by
  rw [evaluate, matchPattern, if_pos (by simp)]

/-- Any other text is looked for as the pattern that it stands for. -/
theorem evaluate_regex (h : expected ≠ "") :
    evaluate .regex kind actual expected caseSensitive =
      searchOutcome actual expected (patternOf expected caseSensitive).1
        (patternOf expected caseSensitive).2 := by
  rw [evaluate, matchPattern, searchOutcome]
  by_cases habsent : actual = .absent
  · rw [if_pos habsent, if_pos (by simp [habsent])]
  · rw [if_neg habsent]
    exact if_neg (by simp [habsent, h])

open Pattern.Delimited in
/-- What the regex operator looks for.  If the text is of the delimited form, it looks for the
pattern between the delimiters, which is the longest that can be taken so, with the switches among
the modifiers and whatever the case of the condition.  If neither the text nor the text without a
line break at its end is of the form, it looks for the whole text, and the condition decides about
the case; for the empty text it does not look at all. -/
theorem regex_reads_delimited (kind : ValueKind) (actual : FieldValue) (expected : String)
    (caseSensitive : Bool) :
    (∀ d p f, IsForm expected.toList d p f →
      (∀ d' p' f', IsForm expected.toList d' p' f' → p'.length ≤ p.length) ∧
      evaluate .regex kind actual expected caseSensitive =
        searchOutcome actual expected
          { ignoreCase := decide ('i' ∈ f), multiline := decide ('m' ∈ f),
            dotAll := decide ('s' ∈ f), verbose := decide ('x' ∈ f) } p) ∧
    ((∀ w d p f, Ends expected.toList w → ¬IsForm w d p f) → expected ≠ "" →
      evaluate .regex kind actual expected caseSensitive =
        searchOutcome actual expected { ignoreCase := !caseSensitive } expected.toList) ∧
    evaluate .regex kind actual "" caseSensitive = .ok (.of false) := by
  refine ⟨?_, ?_, evaluate_regex_empty⟩
  · intro d p f h
    refine ⟨fun d' p' f' h' => by rw [(h'.unique h).1], ?_⟩
    have hne : expected ≠ "" := by
      rintro rfl
      cases h.eq_append
    have hsplit : split? expected.toList = some (p, f) :=
      split?_eq_some_iff.2 ⟨_, d, .inl rfl, h⟩
    rw [evaluate_regex hne, patternOf, hsplit]
    simp [options]
  · intro h hne
    rw [evaluate_regex hne, patternOf, split?_eq_none h]

end

open Pattern.Delimited in
/-- The second delimiter is the last one, and its modifier counts although case would matter. -/
theorem regex_reads_delimited_inner :
    IsForm "/a/b/i".toList '/' "a/b".toList ['i'] ∧
      evaluate .regex .text (.text "see A/B") "/a/b/i" true = .ok (.of true) :=
  have hform : IsForm "/a/b/i".toList '/' "a/b".toList ['i'] :=
    ⟨by decide, by decide, List.forall_mem_singleton.2 (by decide)⟩
  ⟨hform, ((regex_reads_delimited _ _ _ _).1 _ _ _ hform).2.trans (by cbv)⟩

open Pattern.Delimited in
/-- Two texts that are not of the form, and that are not looked for as a whole: the empty text is
not looked for at all, and a line break after a text of the form is passed over. -/
theorem regex_not_always_whole :
    ((∀ d p f, ¬IsForm "".toList d p f) ∧
      evaluate .regex .text (.text "Bakery") "" false ≠
        searchOutcome (.text "Bakery") "" { ignoreCase := true } "".toList) ∧
    ((∀ d p f, ¬IsForm "/bak/i\n".toList d p f) ∧
      evaluate .regex .text (.text "Bakery") "/bak/i\n" false ≠
        searchOutcome (.text "Bakery") "/bak/i\n" { ignoreCase := true } "/bak/i\n".toList) := by
  refine ⟨⟨fun d p f h => ?_, fun h => ?_⟩, fun d p f h => ?_, fun h => ?_⟩
  · cases h.eq_append
  · have hfound : searchOutcome (.text "Bakery") "" { ignoreCase := true } "".toList =
        .ok (.of true) := by cbv
    rw [evaluate_regex_empty, hfound] at h
    cases h
  · exact h.ne_append_break "/bak/i".toList (by decide)
  · have hform : IsForm "/bak/i".toList '/' "bak".toList ['i'] :=
      ⟨by decide, by decide, List.forall_mem_singleton.2 (by decide)⟩
    have hsplit : split? "/bak/i\n".toList = some ("bak".toList, ['i']) :=
      split?_eq_some_iff.2 ⟨"/bak/i".toList, '/', .inr (by decide), hform⟩
    have hfound : evaluate .regex .text (.text "Bakery") "/bak/i\n" false = .ok (.of true) := by
      rw [evaluate_regex (by decide), patternOf, hsplit]
      cbv
    have hwhole : searchOutcome (.text "Bakery") "/bak/i\n" { ignoreCase := true }
        "/bak/i\n".toList = .ok (.of false) := by cbv
    rw [hfound, hwhole] at h
    cases h

end Rulebook
