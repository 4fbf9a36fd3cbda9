import Rulebook.Proofs.Definition.Overlooking
import Rulebook.Proofs.Definition.Settling

/-!
# Reading undoes encoding

A value is stored as a text, and the text alone does not say which kind of value it was: `5` may be
the number of a row or what a note says.  It is the kind of the action that says how the text is
read.  Yet nothing is lost.  A number is stored as its numeral and read back from it.  A text is
stored as it is and, other than when it was given, is not unwrapped again when it is read, so that a
text in quotes keeps them.  Nothing is stored as nothing.

The one thing that has to be ruled out is a number with more digits than are read.  No JSON text
gives such a number (`Json.isReadable_of_read`), and none is read from a stored text.

## Main statements

* `digitsValue?_toString` — a positive number is read from its numeral.
* `readValue_encode` — a value that fits a kind is read back from its stored text.
* `values_are_read_back` — what was coerced, and what was read, is read back.
-/

namespace Rulebook

open Text Number Vocabulary

section

/-! ## Numerals -/

namespace Number

theorem allDigits_of_isDigit {digits : List Char} (hne : digits ≠ [])
    (hdigits : ∀ c ∈ digits, c.isDigit = true) : allDigits digits = true := by
  have hdigit : ∀ c ∈ digits, Text.isDigit c = true := by
    intro c hc
    simp [Text.isDigit, isDecimal, decimalValue?_of_isDigit (hdigits c hc)]
  simpa [allDigits, hne] using hdigit

/-- Digits of ASCII are read as the number that they write. -/
theorem readInteger_of_isDigit {digits : List Char} (hne : digits ≠ [])
    (hdigits : ∀ c ∈ digits, c.isDigit = true) (hshort : digits.length ≤ integerDigitLimit) :
    readInteger digits = .ok (Json.asciiNumber digits) := by
  have hblank : ∀ c ∈ digits, isBlank c = false := fun c hc => isBlank_of_isDigit (hdigits c hc)
  have hspan := spanDigits_append hdigits endsDigits_nil
  rw [List.append_nil] at hspan
  obtain ⟨c, rest, rfl⟩ := List.exists_cons_of_ne_nil hne
  rw [readInteger, stripChars_eq_self hblank,
    spanSign_of_isDigit (hdigits c List.mem_cons_self)]
  dsimp only
  rw [hspan, Json.asciiNumber_eq_ofDigitValues]
  have hlength : ¬integerDigitLimit < ((c :: rest).map fun d => d.toNat - '0'.toNat).length := by
    rw [List.length_map]
    exact Nat.not_lt.2 hshort
  simp [List.map_cons] at hlength ⊢
  omega

end Number

/-- The number that digits between blanks write. -/
theorem digitsValue?_of_isDigit {s : String} {digits : List Char}
    (hstrip : stripChars s.toList = digits) (hne : digits ≠ [])
    (hdigits : ∀ c ∈ digits, c.isDigit = true) (hshort : digits.length ≤ integerDigitLimit) :
    digitsValue? s = .ok (some (Json.asciiNumber digits)) := by
  rw [digitsValue?, hstrip, if_pos (allDigits_of_isDigit hne hdigits),
    readInteger_of_isDigit hne hdigits hshort]

/-- A positive number is read from its numeral. -/
theorem digitsValue?_toString {n : Int} (hpos : 0 < n) (hn : IsReadable n) :
    digitsValue? (toString n) = .ok (some n) := by
  obtain ⟨m, rfl⟩ : ∃ m : Nat, n = m := ⟨n.toNat, (Int.toNat_of_nonneg hpos.le).symm⟩
  have hdigits : ∀ c ∈ Nat.toDigits 10 m, c.isDigit = true := fun c hc =>
    Nat.isDigit_of_mem_toDigits (by decide) (by decide) hc
  have hshort : (Nat.toDigits 10 m).length ≤ integerDigitLimit :=
    (Nat.length_toDigits_le_iff (by decide) (by decide)).2 hn
  have hstrip : stripChars (toString (m : Int)).toList = Nat.toDigits 10 m := by
    change stripChars (String.ofList (Nat.toDigits 10 m)).toList = _
    rw [String.toList_ofList]
    exact stripChars_eq_self fun c hc => isBlank_of_isDigit (hdigits c hc)
  rw [digitsValue?_of_isDigit hstrip Nat.toDigits_ne_nil hdigits hshort, Json.asciiNumber_toDigits]

/-! ## Values -/

/-- What an action of a kind can hold: the number of a row, a text, or nothing, if it can do
without. -/
inductive ActionValue.Fits (kind : ActionKind) : Option ActionValue → Prop
  | identifier {n : Int} (hkind : kind.family = .identifier) (hpos : 0 < n) (hn : IsReadable n) :
    Fits kind (some (.identifier n))
  | text {s : String} (hkind : kind.family ≠ .identifier) (hs : s ≠ "") : Fits kind (some (.text s))
  | nothing (hkind : kind.family = .valueless) : Fits kind none

variable [Host]

/-- What is coerced fits. -/
theorem fits_of_coerceValue {kind : ActionKind} {raw : Json} (hraw : raw.IsReadable)
    {v : Option ActionValue} (h : coerceValue kind (.json raw) = .ok v) :
    ActionValue.Fits kind v := by
  by_cases hkind : kind.family = .identifier
  · obtain ⟨n, rfl, hpos, hn⟩ := coerceValue_identifier hkind hraw h
    exact .identifier hkind hpos hn
  · rcases coerceValue_text hkind h with ⟨hvalueless, rfl⟩ | ⟨s, rfl, hs⟩
    · exact .nothing hvalueless
    · exact .text hkind hs

omit [Host] in
/-- What is read fits, unless it is nothing. -/
theorem fits_of_readStored {kind : ActionKind} {stored : String} {v : ActionValue}
    (h : readStored kind stored = .ok (some v)) : ActionValue.Fits kind (some v) := by
  unfold readStored at h
  split at h
  · cases h
  · next hstored =>
    split at h
    · next hkind =>
      obtain ⟨found, hfound, h⟩ := eq_ok_of_bind h
      obtain ⟨n, rfl, hv⟩ := Option.bind_eq_some_iff.1 (Except.ok.inj h)
      obtain ⟨hpos, rfl⟩ := positive?_eq_some hv
      exact .identifier hkind hpos (isReadable_of_digitsValue? hfound)
    · next hkind =>
      cases h
      exact .text hkind hstored

omit [Host] in
theorem ofJson?_code (kind : ActionKind) : ofJson? (.text (code kind)) = some kind :=
  Faithful.ofCode?_code kind

/-- A value that fits a kind is read back from its stored text. -/
theorem readValue_encode {word : Json} {kind : ActionKind} (hword : ofJson? word = some kind)
    {v : Option ActionValue} (h : ActionValue.Fits kind v) :
    readValue word (.ofText? (encodeValue v)) = .ok v := by
  cases h with
  | @identifier n hkind hpos hn =>
    have hread : readStored kind (toString n) = .ok (some (.identifier n)) := by
      rw [readStored, if_neg (toString_ne_empty n), hkind]
      dsimp only
      rw [digitsValue?_toString hpos hn]
      change Except.ok (positive? n) = _
      rw [positive?, if_pos hpos]
    exact (readValue_text hword _).trans hread
  | @text s hkind hs =>
    have hread : readStored kind s = .ok (some (.text s)) := by
      rw [readStored, if_neg hs]
      split
      · next hfamily => exact absurd hfamily hkind
      · rfl
    exact (readValue_text hword s).trans hread
  | nothing hkind =>
    change readValue word .null = .ok none
    simp [readValue, hword]

/-- Reading undoes encoding.  What was coerced for an action of a kind is read back from its stored
text.  What was read from any text is read back from the text that it is stored as then, and for an
action that names a row it is a positive number. -/
theorem values_are_read_back (kind : ActionKind) {raw : Json} (hraw : raw.IsReadable) :
    (∀ v, coerceValue kind (.json raw) = .ok v →
      readValue (.text (code kind)) (.ofText? (encodeValue v)) = .ok v) ∧
    ∀ stored v, readValue (.text (code kind)) (.text stored) = .ok (some v) →
      readValue (.text (code kind)) (.ofText? (encodeValue (some v))) = .ok (some v) ∧
        (kind.family = .identifier → ∃ n, v = .identifier n ∧ 0 < n) := by
  have hkind := ofJson?_code kind
  refine ⟨fun v hv => readValue_encode hkind (fits_of_coerceValue hraw hv), fun stored v hv => ?_⟩
  rw [readValue_text hkind] at hv
  have hfits := fits_of_readStored hv
  refine ⟨readValue_encode hkind hfits, fun hfamily => ?_⟩
  cases hfits with
  | identifier _ hpos _ => exact ⟨_, rfl, hpos⟩
  | text hother _ => exact absurd hfamily hother

end

/-- An Arabic five between blanks is coerced to the number five, stored as `5`, and read back. -/
theorem arabic_five_is_read_back :
    coerceValue .setCategory (.json (.text " ٥ ")) = .ok (some (.identifier 5)) ∧
      readValue (.text "set_category") (.text "5") = .ok (some (.identifier 5)) :=
  have hcoerced : coerceValue .setCategory (.json (.text " ٥ ")) = .ok (some (.identifier 5)) := rfl
  ⟨hcoerced, (values_are_read_back .setCategory (Json.isReadable_text " ٥ ")).1 _ hcoerced⟩

end Rulebook
