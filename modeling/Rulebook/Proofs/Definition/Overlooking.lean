import Rulebook.Proofs.Definition.Grammar
import Rulebook.Proofs.Number.Decimal
import Rulebook.Proofs.Service.Oversight

/-!
# Values that are overlooked

The value of an action is taken or refused when it is written, and a stored value is read without
failure.  That is the intention, and it is nearly so.  Before a whole number is read from a text,
the text is checked to consist of digits.  But not all digits write numbers: a raised two is a digit
and no decimal digit, and a number may have more digits than are read.  Such a text passes the check
and is refused by the reader, with a failure that nobody expects.  A text may also be JSON that is
nested too deeply to be read as JSON.  And a value may be impossible to write as a text: a whole
number that is given for a text may have too many digits, and so may whatever a refusal shows, which
may be nested too deeply as well.

Which values these are is said exactly (`Overlooked`, `IsMisread`), and so is how all others end.
Each function overlooks what the functions that it calls overlook, and nothing else, so the argument
follows the calls, with one judgement for all of them: in a certain case the computation ends in an
oversight, and otherwise it fails in certain ways only, or in none (`Overlooks`).

## Main definitions

* `IsMisreadNumeral` — a text of digits from which no number is read.
* `Overlooked`, `OverlooksValue`, `IsMisread` — values, definitions and stored texts that end in a
  failure that is no refusal.
* `Overlooks` — when a computation ends so, and how it fails otherwise.

## Main statements

* `readInteger_of_digits_iff` — the texts of digits from which a number is read.
* `values_refused_unless_overlooked` — how giving, checking and reading values can end.
-/

namespace Rulebook

open Text Number Vocabulary Program

section

/-! ## Texts of digits -/

namespace Number

/-- Of digits, those in front that are decimal are taken. -/
theorem spanDigits_of_digits {s : List Char} (h : ∀ c ∈ s, isDigit c = true) :
    (spanDigits s).1.length = (s.takeWhile isDecimal).length ∧
      (spanDigits s).2 = s.dropWhile isDecimal := by
  have hspan : ∀ afterDigit, (spanDigitsFrom afterDigit s).1.length =
      (s.takeWhile isDecimal).length ∧ (spanDigitsFrom afterDigit s).2 = s.dropWhile isDecimal := by
    induction s with
    | nil => exact fun _ => ⟨rfl, rfl⟩
    | cons c s ih =>
      obtain ⟨hc, hs⟩ := List.forall_mem_cons.1 h
      intro afterDigit
      cases hvalue : decimalValue? c with
      | some d =>
        have hdecimal : isDecimal c = true := by simp [isDecimal, hvalue]
        obtain ⟨hlength, hrest⟩ := ih hs true
        simp [spanDigitsFrom, hvalue, hdecimal, hlength, hrest]
      | none =>
        have hdecimal : isDecimal c = false := by simp [isDecimal, hvalue]
        have hline : c ≠ '_' := by
          rintro rfl
          exact absurd hc (by decide +kernel)
        simp [spanDigitsFrom, hvalue, hdecimal, hline]
  exact hspan false

/-- Digits have no sign. -/
theorem spanSign_of_digits {s : List Char} (h : ∀ c ∈ s, isDigit c = true) :
    spanSign s = (false, s) := by
  cases s with
  | nil => rfl
  | cons c s =>
    have hc := h c List.mem_cons_self
    refine spanSign_of_ne ?_ ?_ s
    · rintro rfl
      exact absurd hc (by decide +kernel)
    · rintro rfl
      exact absurd hc (by decide +kernel)

/-- A number is read from a text of digits if all of them are decimal and there are not too many. -/
theorem readInteger_of_digits_iff {s : List Char} (h : allDigits (stripChars s) = true) :
    (∃ n, readInteger (stripChars s) = .ok n) ↔
      (∀ c ∈ stripChars s, isDecimal c = true) ∧ (stripChars s).length ≤ integerDigitLimit := by
  simp only [allDigits, Bool.and_eq_true, Bool.not_eq_true', List.isEmpty_eq_false_iff,
    List.all_eq_true] at h
  obtain ⟨hne, hdigits⟩ := h
  rw [readInteger, stripChars_stripChars, spanSign_of_digits hdigits]
  obtain ⟨hlength, hrest⟩ := spanDigits_of_digits hdigits
  generalize stripChars s = t at *
  constructor
  · rintro ⟨n, hn⟩
    dsimp only at hn
    split at hn
    · cases hn
    · cases hn
    · next digits rest _ _ hspan =>
      rw [hspan] at hlength hrest
      rw [if_neg Bool.false_ne_true] at hn
      split_ifs at hn with hlong hafter
      have hnil : t.dropWhile isDecimal = [] := by
        rw [← hrest]
        simpa using hafter
      have hall : ∀ c ∈ t, isDecimal c = true := List.dropWhile_eq_nil_iff.1 hnil
      refine ⟨hall, ?_⟩
      rw [List.takeWhile_eq_self_iff.2 hall] at hlength
      dsimp only at hlength
      omega
  · rintro ⟨hall, hshort⟩
    rw [List.takeWhile_eq_self_iff.2 hall] at hlength
    rw [List.dropWhile_eq_nil_iff.2 hall] at hrest
    rcases hspan : spanDigits t with ⟨digits, rest⟩
    rw [hspan] at hlength hrest
    dsimp only at hlength hrest
    subst hrest
    cases digits with
    | nil => exact absurd (List.length_eq_zero_iff.1 hlength.symm) hne
    | cons d digits =>
      refine ⟨Int.ofNat (ofDigitValues (d :: digits)), ?_⟩
      simp [hspan, hlength, hshort]

end Number

/-- A text of digits from which no number is read: one of them is not decimal, or there are too
many. -/
def IsMisreadNumeral (s : String) : Prop :=
  allDigits (stripChars s.toList) = true ∧
    ((∃ c ∈ stripChars s.toList, isDecimal c = false) ∨
      integerDigitLimit < (stripChars s.toList).length)

/-! ## Oversights -/

/-- A failure that says why a value is refused. -/
inductive Failure.IsRefusal : Failure → Prop
  | intro (message : String) (errors : List String) : IsRefusal (.definition message errors)

/-- In a certain case the computation ends in an oversight; otherwise it fails in these ways
only. -/
inductive Overlooks {α : Type} (cause : Prop) (P : Failure → Prop) (x : Except Failure α) : Prop
  | overlooked (h : cause) {f : Failure} (hf : f.IsOversight) (hx : x = .error f)
  | noticed (h : ¬cause) (hx : FailsWithin P x)

/-- No failure at all. -/
def NoFailure : Failure → Prop := fun _ => False

section Judgement

variable {α β : Type} {A B : Prop} {P : Failure → Prop} {x : Except Failure α}

theorem FailsWithin.exists_ok (h : FailsWithin NoFailure x) : ∃ a, x = .ok a := by
  cases x with
  | ok a => exact ⟨a, rfl⟩
  | error f => exact (h f rfl).elim

theorem Overlooks.mono {Q : Failure → Prop} (h : Overlooks A P x) (hPQ : ∀ f, P f → Q f) :
    Overlooks A Q x := by
  cases h with
  | overlooked h hf hx => exact .overlooked h hf hx
  | noticed h hx => exact .noticed h (hx.mono hPQ)

theorem Overlooks.congr (h : Overlooks A P x) (hcause : A ↔ B) : Overlooks B P x := by
  cases h with
  | overlooked h hf hx => exact .overlooked (hcause.1 h) hf hx
  | noticed h hx => exact .noticed (mt hcause.2 h) hx

/-- A computation that overlooks nothing. -/
theorem Overlooks.of_failsWithin (h : FailsWithin P x) : Overlooks False P x := .noticed id h

/-- What is overlooked in one step, and in the next if it is reached. -/
theorem Overlooks.bind {C : α → Prop} (hx : Overlooks A NoFailure x) {f : α → Except Failure β}
    (hf : ∀ a, x = .ok a → Overlooks (C a) P (f a)) :
    Overlooks (A ∨ ∃ a, x = .ok a ∧ C a) P (x >>= f) := by
  cases hx with
  | overlooked h hfailure hx => exact .overlooked (.inl h) hfailure (by rw [hx]; rfl)
  | noticed h hx =>
    obtain ⟨a, rfl⟩ := hx.exists_ok
    refine (hf a rfl).congr ?_
    simp [h]

/-- What is overlooked in two steps of which the second does not depend on the first. -/
theorem Overlooks.andThen (hx : Overlooks A NoFailure x) {f : α → Except Failure β}
    (hf : ∀ a, Overlooks B P (f a)) : Overlooks (A ∨ B) P (x >>= f) := by
  cases hx with
  | overlooked h hfailure hx => exact .overlooked (.inl h) hfailure (by rw [hx]; rfl)
  | noticed h hx =>
    obtain ⟨a, rfl⟩ := hx.exists_ok
    exact (hf a).congr (by simp [h])

/-- What is overlooked in one step, before another that overlooks nothing. -/
theorem Overlooks.before (hx : Overlooks A NoFailure x) {f : α → Except Failure β}
    (hf : ∀ a, x = .ok a → FailsWithin P (f a)) : Overlooks A P (x >>= f) :=
  (hx.bind fun a ha => .of_failsWithin (hf a ha)).congr (by simp)

end Judgement

/-! ## Giving values -/

variable [Host]

/-- A text that is nested too deeply to be read as JSON. -/
inductive IsTooDeep : Json → Prop
  | intro {s : String} (h : Json.readMended (Host.room .value) s = .error .tooDeep) :
      IsTooDeep (.text s)

theorem isTooDeep_text_iff {s : String} :
    IsTooDeep (.text s) ↔ Json.readMended (Host.room .value) s = .error .tooDeep := by
  constructor
  · rintro ⟨h⟩
    exact h
  · exact .intro

theorem readMended_empty :
    Json.readMended (Host.room .value) "" = .error (.broken .expectingValue 0) := rfl

theorem overlooks_decodeRaw (raw : Json) :
    Overlooks (IsTooDeep raw) NoFailure (decodeRaw raw) := by
  unfold decodeRaw
  split
  · next s =>
    rw [isTooDeep_text_iff]
    split
    · next hs => exact .noticed (by simp [hs, readMended_empty]) (failsWithin_ok _)
    · split
      · next h => exact .noticed (by simp [h]) (failsWithin_ok _)
      · next h => exact .noticed (by simp [h]) (failsWithin_ok _)
      · next h => exact .noticed (by simp [h]) (failsWithin_ok _)
      · next h => exact .overlooked h .tooDeep rfl
      · next hother h => exact .noticed (by simpa [h] using hother) (failsWithin_ok _)
  · next hother =>
    refine .noticed ?_ (failsWithin_ok _)
    rintro ⟨-⟩
    exact hother _ rfl

omit [Host] in
theorem overlooks_digitsValue? (s : String) :
    Overlooks (IsMisreadNumeral s) NoFailure (digitsValue? s) := by
  have hread := fun h => readInteger_of_digits_iff (s := s.toList) h
  unfold digitsValue?
  dsimp only
  split
  · next hdigits =>
    have hmisread : IsMisreadNumeral s ↔ ¬∃ n, readInteger (stripChars s.toList) = .ok n := by
      rw [hread hdigits, IsMisreadNumeral, and_iff_right hdigits, not_and_or]
      simp
    split
    · next n hn => exact .noticed (fun h => hmisread.1 h ⟨n, hn⟩) (failsWithin_ok _)
    · next fault hfault =>
      refine .overlooked (hmisread.2 ?_) ?_ rfl
      · rintro ⟨n, hn⟩
        cases hn.symm.trans hfault
      · cases fault with
        | notNumeral => exact .notNumeral _
        | tooLong digits => exact .longNumeral digits
  · next hdigits => exact .noticed (fun h => hdigits h.1) (failsWithin_ok _)

/-- A text of digits from which no number is read. -/
inductive IsMisreadText : Json → Prop
  | intro {s : String} (h : IsMisreadNumeral s) : IsMisreadText (.text s)

omit [Host] in
theorem isMisreadText_text_iff {s : String} : IsMisreadText (.text s) ↔ IsMisreadNumeral s := by
  constructor
  · rintro ⟨h⟩
    exact h
  · exact .intro

/-- Such a text was given, perhaps as JSON. -/
def GivesMisread (raw : Json) : Prop := ∃ j, decodeRaw raw = .ok j ∧ IsMisreadText j

/-- A value that an action of a kind can neither take nor refuse. -/
inductive Overlooked (kind : ActionKind) (raw : Json) : Prop
  | tooDeep (h : IsTooDeep raw)
  | misread (hfamily : kind.family = .identifier) (h : GivesMisread raw)
  /-- The action takes a text, and this is a number that cannot be written as one. -/
  | unwritten (hfamily : kind.family ≠ .identifier) (h : ¬raw.IsReadable)
  /-- The action refuses the value, and the refusal cannot show it. -/
  | unshown (hfamily : kind.family = .identifier) (hhidden : raw.hidden? .message ≠ none)
    (hrow : ∀ n, raw = .int n → ¬0 < n)

theorem overlooks_asIdentifier (raw : Json) :
    Overlooks (IsTooDeep raw ∨ GivesMisread raw) NoFailure (asIdentifier (.json raw)) := by
  refine (overlooks_decodeRaw raw).bind fun j _ => ?_
  split
  · exact .noticed nofun (failsWithin_ok _)
  · next s _ =>
    rw [isMisreadText_text_iff]
    exact (overlooks_digitsValue? s).before fun _ _ => failsWithin_ok _
  · next hint htext =>
    refine .noticed ?_ (failsWithin_ok _)
    rintro ⟨-⟩
    exact htext _ rfl

/-- What is unwrapped to a number and is no text is the number itself. -/
theorem eq_of_decodeRaw_int {raw : Json} {n : Int} (h : decodeRaw raw = .ok (.int n)) :
    (∃ s, raw = .text s) ∨ raw = .int n := by
  rw [decodeRaw.eq_def] at h
  split at h
  · next s => exact .inl ⟨s, rfl⟩
  · exact .inr (Except.ok.inj h)

/-- What is unwrapped to something else is no number. -/
theorem isReadable_of_decodeRaw_ne {raw j : Json} (h : decodeRaw raw = .ok j)
    (hj : ∀ n, j ≠ .int n) : raw.IsReadable := by
  rintro n rfl
  exact absurd (Except.ok.inj h).symm (hj n)

theorem overlooks_plain_int (n : Int) :
    Overlooks (¬(Json.int n).IsReadable) NoFailure ((Json.int n).plain .message) := by
  rw [Json.isReadable_int_iff]
  by_cases hn : IsReadable n
  · rw [Json.plain_int_eq_ok_iff.2 ⟨hn, rfl⟩]
    exact .noticed (not_not_intro hn) (failsWithin_ok _)
  · have hhidden : (Json.int n).plain .message = .error .longInteger := by
      rw [Json.plain_eq_error_iff, Json.hidden?_int, if_neg (mt Number.isShort_iff.1 hn)]
    rw [hhidden]
    exact .overlooked hn .longInteger rfl

theorem overlooks_asText (raw : Json) :
    Overlooks (IsTooDeep raw ∨ ¬raw.IsReadable) NoFailure (asText (.json raw)) := by
  have hcause : IsTooDeep raw ∨ ¬raw.IsReadable ↔
      IsTooDeep raw ∨ ∃ j, decodeRaw raw = .ok j ∧ ¬raw.IsReadable := by
    refine or_congr_right ⟨fun hlong => ?_, fun ⟨_, _, hlong⟩ => hlong⟩
    cases raw with
    | text s => exact absurd (Json.isReadable_text s) hlong
    | _ => exact ⟨_, rfl, hlong⟩
  rw [hcause]
  refine (overlooks_decodeRaw raw).bind fun j hj => ?_
  split
  · next n =>
    rcases eq_of_decodeRaw_int hj with ⟨s, rfl⟩ | rfl
    · rw [Json.plain_text]
      exact .noticed (not_not_intro (Json.isReadable_text s)) (failsWithin_ok _)
    · exact (overlooks_plain_int n).before fun _ _ => failsWithin_ok _
  · refine .noticed (not_not_intro (isReadable_of_decodeRaw_ne hj fun _ => nofun)) ?_
    split
    · exact failsWithin_ok _
    · exact failsWithin_ok _
  · next hint _ =>
    exact .noticed (not_not_intro (isReadable_of_decodeRaw_ne hj hint)) (failsWithin_ok _)

/-- Only kinds that take the number of a row read a number and show what they refuse. -/
theorem overlooked_iff {kind : ActionKind} {raw : Json} (h : kind.family ≠ .identifier) :
    Overlooked kind raw ↔ IsTooDeep raw ∨ ¬raw.IsReadable := by
  constructor
  · rintro (hdeep | ⟨hfamily, -⟩ | ⟨-, hlong⟩ | ⟨hfamily, -⟩)
    · exact .inl hdeep
    · exact (h hfamily).elim
    · exact .inr hlong
    · exact (h hfamily).elim
  · rintro (hdeep | hlong)
    · exact .tooDeep hdeep
    · exact .unwritten h hlong

/-- What counts as nothing is neither nested nor a number. -/
theorem not_overlooked_of_isNothing {raw : Json} (h : (RawValue.json raw).isNothing = true) :
    ¬(IsTooDeep raw ∨ ¬raw.IsReadable) := by
  rintro (hdeep | hlong)
  · obtain ⟨hdeep⟩ := hdeep
    rw [of_decide_eq_true h] at hdeep
    exact absurd hdeep (by rw [readMended_empty]; simp)
  · refine hlong fun n hn => ?_
    subst hn
    cases h

/-- A value that cannot be shown gives the number of a row only if it is that number. -/
theorem asIdentifier_of_hidden {raw : Json} (hhidden : raw.hidden? .message ≠ none)
    (hrow : ∀ n, raw = .int n → ¬0 < n) : asIdentifier (.json raw) = .ok none := by
  cases raw with
  | null => exact absurd Json.hidden?_null hhidden
  | bool b => exact absurd (Json.hidden?_bool b) hhidden
  | real x => exact absurd (Json.hidden?_real x) hhidden
  | text s => exact absurd (Json.hidden?_text s) hhidden
  | int n => exact congrArg Except.ok (if_neg (hrow n rfl))
  | list items => rfl
  | object members => rfl

/-- A value is taken or refused, unless it is overlooked. -/
theorem overlooks_coerceValue (kind : ActionKind) (raw : Json) :
    Overlooks (Overlooked kind raw) Failure.IsRefusal (coerceValue kind (.json raw)) := by
  unfold coerceValue
  cases hfamily : kind.family with
  | identifier =>
    have hcause : Overlooked kind raw ↔ (IsTooDeep raw ∨ GivesMisread raw) ∨
        ∃ v, asIdentifier (.json raw) = .ok v ∧ v = none ∧ raw.hidden? .message ≠ none := by
      constructor
      · rintro (hdeep | ⟨-, hmisread⟩ | ⟨hother, -⟩ | ⟨-, hhidden, hrow⟩)
        · exact .inl (.inl hdeep)
        · exact .inl (.inr hmisread)
        · exact (hother hfamily).elim
        · exact .inr ⟨none, asIdentifier_of_hidden hhidden hrow, rfl, hhidden⟩
      · rintro ((hdeep | hmisread) | ⟨v, hv, rfl, hhidden⟩)
        · exact .tooDeep hdeep
        · exact .misread hfamily hmisread
        · refine .unshown hfamily hhidden ?_
          rintro n rfl hpos
          have hfound := Except.ok.inj hv
          rw [positive?, if_pos hpos] at hfound
          cases hfound
    rw [hcause]
    refine (overlooks_asIdentifier raw).bind fun v _ => ?_
    -- The refusal shows what was given, and that may fail as well.
    cases v with
    | some v =>
        refine .noticed ?_ (failsWithin_ok _)
        rintro ⟨⟨⟩, -⟩
    | none =>
        dsimp only [RawValue.showing, Failure.showing]
        cases hhidden : raw.hidden? .message with
        | none => exact .noticed (fun h => h.2 rfl) (failsWithin_error (.intro _ _))
        | some failure =>
            refine .overlooked ⟨rfl, ?_⟩ (Json.isOversight_of_hidden? hhidden) rfl
            rintro ⟨⟩
  | text =>
    rw [overlooked_iff (by simp [hfamily])]
    refine (overlooks_asText raw).before fun v _ => ?_
    split
    · exact failsWithin_ok _
    · exact failsWithin_error (.intro _ _)
  | valueless =>
    rw [overlooked_iff (by simp [hfamily])]
    dsimp only
    split
    · next hnothing => exact .noticed (not_overlooked_of_isNothing hnothing) (failsWithin_ok _)
    · exact (overlooks_asText raw).mono fun _ h => h.elim

/-! ## Checking definitions -/

/-- An action that gives a value which is overlooked. -/
def GivesOverlooked (action : Json) : Prop :=
  ∃ kind : ActionKind, action.member? "action_type" = some (.text (code kind)) ∧
    Overlooked kind (action.member "value")

/-- A definition of the right shape with an action that gives a value which is overlooked, or a
definition with a part of the wrong shape that cannot be shown. -/
inductive OverlooksValue (d : Json) : Prop
  | value (hshape : definitionSchema.Accepts d) {actions : List Json}
    (hactions : d.member? "actions" = some (.list actions)) {action : Json}
    (haction : action ∈ actions) (hvalue : GivesOverlooked action)
  | unshown {complaint : Complaint} (hcomplaint : complaint ∈ definitionSchema.complaints d)
    (hhidden : complaint.hidden? ≠ none)

omit [Host] in
/-- A list that is missing has no entries. -/
theorem exists_listed_iff {members : List (String × Json)} {name : String} {items : List Json}
    (h : (Json.object members).findOr name (.list []) = .ok (.list items)) {P : Json → Prop} :
    (∃ item ∈ items, P item) ↔
      ∃ items, members.lookup name = some (.list items) ∧ ∃ item ∈ items, P item := by
  have hfind : (members.lookup name).getD (.list []) = .list items := Except.ok.inj h
  cases hvalue : members.lookup name with
  | none =>
    rw [hvalue] at hfind
    obtain rfl : [] = items := Json.list.inj hfind
    simp
  | some value =>
    rw [hvalue] at hfind
    obtain rfl : value = .list items := hfind
    simp

omit [Host] in
theorem overlooks_flatMapPlaces {α β : Type} {cause : α → Prop}
    {f : Nat → α → Except Failure (List β)} {items : List α}
    (h : ∀ n, ∀ a ∈ items, Overlooks (cause a) NoFailure (f n a)) (n : Nat) :
    Overlooks (∃ a ∈ items, cause a) NoFailure (flatMapPlaces f n items) := by
  induction items generalizing n with
  | nil => exact .noticed (by simp) (failsWithin_ok [])
  | cons a rest ih =>
    have hrest := ih fun n b hb => h n b (List.mem_cons_of_mem a hb)
    have hcause : cause a ∨ (∃ b ∈ rest, cause b) ↔ ∃ b ∈ a :: rest, cause b := by simp
    rw [← hcause]
    refine (h n a List.mem_cons_self).andThen fun first => ?_
    exact (hrest (n + 1)).before fun later _ => failsWithin_ok _

/-- The complaints about an action's value are collected, so that only oversights are left. -/
theorem overlooks_valueErrors {action : Json} (h : actionSchema.Accepts action) (place : Nat) :
    Overlooks (GivesOverlooked action) NoFailure (valueErrors place action) := by
  obtain ⟨members, rfl, hthere, hshapes⟩ := h.record
  obtain ⟨word, hword⟩ := hthere "action_type" (by simp)
  obtain ⟨kind⟩ := Schema.accepts_word_iff.1 (hshapes "action_type" _ rfl word hword)
  have hfind : (Json.object members).findOr "value" .null =
    .ok ((members.lookup "value").getD .null) := rfl
  have hcoerce : coerceNamed (.text (code kind)) (.json ((members.lookup "value").getD .null)) =
      coerceValue kind (.json ((members.lookup "value").getD .null)) := by
    rw [coerceNamed, bind_of_eq_ok (require_eq_ok_iff.2 rfl)]
  have hcause : GivesOverlooked (.object members) ↔
      Overlooked kind ((members.lookup "value").getD .null) := by
    constructor
    · rintro ⟨kind', hkind', hoverlooked⟩
      have hsame : code kind = code kind' := by simpa using hword.symm.trans hkind'
      obtain rfl := code_injective hsame
      exact hoverlooked
    · exact fun hoverlooked => ⟨kind, hword, hoverlooked⟩
  rw [valueErrors, bind_of_eq_ok (Json.require_object_iff.2 hword), bind_of_eq_ok hfind, hcoerce,
    hcause]
  cases overlooks_coerceValue kind ((members.lookup "value").getD .null) with
  | overlooked hoverlooked hfailure hfails =>
    rw [hfails]
    cases hfailure <;> exact .overlooked hoverlooked (by constructor) rfl
  | noticed hnot hends =>
    refine .noticed hnot ?_
    cases hvalue : coerceValue kind (.json ((members.lookup "value").getD .null)) with
    | ok v => exact failsWithin_ok _
    | error f =>
      obtain ⟨message, errors⟩ := hends f hvalue
      exact failsWithin_ok _

/-- A definition of the right shape is accepted or refused, unless one of its actions gives a value
that is overlooked. -/
theorem overlooks_checkDefinition_of_accepts {d : Json} (hshape : definitionSchema.Accepts d) :
    Overlooks (∃ actions, d.member? "actions" = some (.list actions) ∧
      ∃ action ∈ actions, GivesOverlooked action) Failure.IsRefusal (checkDefinition d) := by
  obtain ⟨groups, hgroups, hgroupShapes⟩ := hshape.findEntries "condition_groups" rfl
  obtain ⟨actions, hactions, hactionShapes⟩ := hshape.findEntries "actions" rfl
  have hlisted : (∃ action ∈ actions, GivesOverlooked action) ↔
      ∃ actions, d.member? "actions" = some (.list actions) ∧
        ∃ action ∈ actions, GivesOverlooked action := by
    obtain ⟨members, rfl, -⟩ := hshape.record
    exact exists_listed_iff hactions
  obtain ⟨errors, hgroupErrors⟩ : ∃ errors, flatMapPlaces groupErrors 0 groups = .ok errors :=
    (failsWithin_flatMapPlaces (fun n group hgroup =>
      failsWithin_groupErrors (hgroupShapes group hgroup) n) 0).exists_ok
  rw [← hlisted, checkDefinition, bind_of_eq_ok (Schema.verdict_eq_ok_none_iff.2 hshape)]
  rw [bind_of_eq_ok hgroups, Json.entries, bind_of_eq_ok rfl,
    bind_of_eq_ok hactions, Json.entries, bind_of_eq_ok rfl, bind_of_eq_ok hgroupErrors]
  refine (overlooks_flatMapPlaces (fun n action haction =>
    overlooks_valueErrors (hactionShapes action haction) n) 0).before fun _ _ => ?_
  dsimp only
  split
  · exact failsWithin_ok _
  · exact failsWithin_error (.intro _ _)

/-- A definition is accepted or refused, unless one of its values is overlooked. -/
theorem overlooks_checkDefinition (d : Json) :
    Overlooks (OverlooksValue d) Failure.IsRefusal (checkDefinition d) := by
  cases hverdict : definitionSchema.verdict d with
  | error failure =>
    rw [checkDefinition, hverdict]
    obtain ⟨complaint, hcomplaint, hhidden⟩ := Schema.exists_hidden_of_verdict hverdict
    have hunshown : complaint.hidden? ≠ none := by
      rw [hhidden]
      rintro ⟨⟩
    exact .overlooked (.unshown hcomplaint hunshown) (Json.isOversight_of_hidden? hhidden) rfl
  | ok reported =>
    have hshown := Schema.shown_of_verdict hverdict
    cases reported with
    | some complaint =>
      rw [checkDefinition, hverdict]
      refine .noticed (fun h => ?_) (failsWithin_error (.intro _ _))
      cases h with
      | value hshape => cases (Schema.verdict_eq_ok_none_iff.2 hshape).symm.trans hverdict
      | unshown hcomplaint hunshown => exact hunshown (hshown _ hcomplaint)
    | none =>
      have hshape := Schema.verdict_eq_ok_none_iff.1 hverdict
      refine (overlooks_checkDefinition_of_accepts hshape).congr ⟨?_, ?_⟩
      · rintro ⟨actions, hactions, action, haction, hvalue⟩
        exact .value hshape hactions haction hvalue
      · rintro (⟨-, hactions, haction, hvalue⟩ | ⟨hcomplaint, hunshown⟩)
        · exact ⟨_, hactions, _, haction, hvalue⟩
        · exact absurd (hshown _ hcomplaint) hunshown

/-! ## Reading values -/

/-- A stored text of digits from which no number is read, for an action that needs one. -/
def IsMisread (kind : String) (stored : Option String) : Prop :=
  ∃ known : ActionKind, kind = code known ∧ known.family = .identifier ∧
    ∃ s, stored = some s ∧ IsMisreadNumeral s

omit [Host] in
theorem overlooks_readStored (kind : ActionKind) (s : String) :
    Overlooks (kind.family = .identifier ∧ IsMisreadNumeral s) NoFailure (readStored kind s) := by
  unfold readStored
  split
  · next hs =>
    refine .noticed ?_ (failsWithin_ok _)
    rintro ⟨-, hdigits, -⟩
    subst hs
    exact absurd hdigits (by decide)
  · cases hfamily : kind.family with
    | identifier =>
      exact ((overlooks_digitsValue? s).before fun _ _ => failsWithin_ok _).congr (by simp)
    | text => exact (Overlooks.of_failsWithin (failsWithin_ok _)).congr (by simp)
    | valueless => exact (Overlooks.of_failsWithin (failsWithin_ok _)).congr (by simp)

/-- A text that is stored for an action is read as its kind has it. -/
theorem readValue_text {word : Json} {kind : ActionKind} (hword : ofJson? word = some kind)
    (stored : String) : readValue word (.text stored) = readStored kind stored := by
  unfold readValue
  rw [hword]
  exact bind_of_eq_ok (Json.plain_text stored)

/-- A stored value is read, unless it is a numeral that is misread. -/
theorem overlooks_readValue (kind : String) (stored : Option String) :
    Overlooks (IsMisread kind stored) NoFailure (readValue (.text kind) (.ofText? stored)) := by
  cases hkind : (ofCode? kind : Option ActionKind) with
  | none =>
    have hnothing : readValue (.text kind) (.ofText? stored) = .ok none := by
      simp [readValue, ofJson?, hkind]
    rw [hnothing]
    refine .noticed ?_ (failsWithin_ok _)
    rintro ⟨known, rfl, -⟩
    cases hkind.symm.trans (Faithful.ofCode?_code known)
  | some known =>
    obtain rfl := code_eq_of_ofCode? hkind
    cases stored with
    | none =>
      have hnothing : readValue (.text (code known)) (.ofText? none) = .ok none := by
        simp [readValue, ofJson?, hkind, Json.ofText?, Json.ofOption]
      rw [hnothing]
      refine .noticed ?_ (failsWithin_ok _)
      rintro ⟨-, -, -, s, hs, -⟩
      cases hs
    | some s =>
      have hread : readValue (.text (code known)) (.ofText? (some s)) = readStored known s := by
        apply readValue_text
        exact hkind
      rw [hread]
      refine (overlooks_readStored known s).congr ⟨?_, ?_⟩
      · rintro ⟨hfamily, hs⟩
        exact ⟨known, rfl, hfamily, s, rfl, hs⟩
      · rintro ⟨known', hsame, hfamily, t, ht, hmisread⟩
        obtain rfl := code_injective hsame
        obtain rfl := Option.some.inj ht
        exact ⟨hfamily, hmisread⟩

/-! ## Describing actions -/

omit [Host] in
theorem succeeds_labelText (kind : LabelKind) (value : Option ActionValue) :
    Succeeds (fun _ => True) (labelText kind value) := by
  have hcached : ∀ id, Succeeds (fun _ => True) (cachedLabel kind id) := by
    intro id w _
    rw [runOn_cachedLabel]
    split
    · exact ⟨_, _, rfl, trivial⟩
    · exact ⟨_, _, rfl, trivial⟩
  unfold labelText
  split
  · refine (hcached _).bind fun found => ?_
    split
    · exact succeeds_pure _
    · exact succeeds_pure _
  · exact succeeds_pure _
  · exact succeeds_pure _

omit [Host] in
theorem succeeds_describeKind (kind : ActionKind) (value : Option ActionValue) :
    Succeeds (fun _ => True) (describeKind kind value) := by
  cases kind with
  | setCategory | setMerchant | addTag | removeTag =>
    exact (succeeds_labelText _ value).bind fun _ => succeeds_pure _
  | _ => exact succeeds_pure _

/-- An action is described if its value can be read, and otherwise fails as reading does. -/
theorem describe_result (a : Action) (w : Workspace) :
    (∃ v text, a.typedValue = .ok v ∧ ((describe a).runOn w).1 = .ok text) ∨
      ∃ f, a.typedValue = .error f ∧ ((describe a).runOn w).1 = .error f := by
  unfold describe
  cases hkind : (ofJson? a.kind : Option ActionKind) with
  | none =>
    have hnothing : a.typedValue = .ok none := by simp [Action.typedValue, readValue, hkind]
    exact .inl ⟨none, _, hnothing, rfl⟩
  | some kind =>
    dsimp only
    rw [runOn_bind, runOn_ofExcept]
    cases hvalue : a.typedValue with
    | error f => exact .inr ⟨f, rfl, rfl⟩
    | ok v =>
      obtain ⟨text, w', hrun, -⟩ := succeeds_describeKind kind v w trivial
      exact .inl ⟨v, text, rfl, congrArg Prod.fst hrun⟩

/-- What is overlooked when an action is described is what is overlooked when its value is read. -/
theorem Overlooks.describe {a : Action} {cause : Prop} (h : Overlooks cause NoFailure a.typedValue)
    (w : Workspace) : Overlooks cause NoFailure ((Rulebook.describe a).runOn w).1 := by
  rcases describe_result a w with ⟨v, text, hvalue, htext⟩ | ⟨f, hvalue, htext⟩
  · rw [hvalue] at h
    rw [htext]
    cases h with
    | overlooked _ _ hfails => cases hfails
    | noticed hnot _ => exact .noticed hnot (failsWithin_ok _)
  · rw [hvalue] at h
    rw [htext]
    cases h with
    | overlooked hcause hfailure hfails =>
      cases hfails
      exact .overlooked hcause hfailure rfl
    | noticed _ hends => exact (hends f rfl).elim

/-- How giving, checking and reading the values of actions can end.

* Giving a value to an action of a known kind gives a value or a refusal, unless the value is
  overlooked.
* Checking a definition gives success or a refusal, unless it is of the right shape and a value of
  one of its actions is overlooked.
* Reading a stored value and describing the action succeed, whatever the kind, unless the kind needs
  a number and the stored text is a numeral that is misread.

In the cases that are excepted each of them ends in a failure that is no refusal. -/
theorem values_refused_unless_overlooked (kind : ActionKind) (raw d : Json) (word : String)
    (stored : Option String) (a : Action) (w : Workspace) :
    Overlooks (Overlooked kind raw) Failure.IsRefusal (coerceValue kind (.json raw)) ∧
    Overlooks (OverlooksValue d) Failure.IsRefusal (checkDefinition d) ∧
    Overlooks (IsMisread word stored) NoFailure (readValue (.text word) (.ofText? stored)) ∧
    Overlooks (IsMisread word stored) NoFailure
      { a with kind := .text word, value := .ofText? stored }.typedValue ∧
    Overlooks (IsMisread word stored) NoFailure
      ((describe { a with kind := .text word, value := .ofText? stored }).runOn w).1 := by
  have hread := overlooks_readValue word stored
  exact ⟨overlooks_coerceValue kind raw, overlooks_checkDefinition d, hread, hread,
    Overlooks.describe hread w⟩

/-- A raised two: a digit that writes no number. -/
def raisedTwo : String := "²"

/-- A definition with a raised two for the number of a category. -/
def raisedDefinition : Json :=
  .object [("name", .text "Food"), ("actions", .list [.object
    [("action_type", .text "set_category"), ("value", .text raisedTwo)]])]

end

/-- Where neither a value nor a refusal is the outcome: a raised two is neither taken nor refused,
not as a value, not in a definition, and not where it is stored. -/
theorem raised_two_escapes :
    ¬Failure.IsRefusal (.notNumeral raisedTwo) ∧
      coerceValue .setCategory (.json (.text raisedTwo)) = .error (.notNumeral raisedTwo) ∧
      checkDefinition raisedDefinition = .error (.notNumeral raisedTwo) ∧
      readValue (.text "set_category") (.text raisedTwo) = .error (.notNumeral raisedTwo) :=
  ⟨nofun, rfl, rfl, rfl⟩

end Rulebook
