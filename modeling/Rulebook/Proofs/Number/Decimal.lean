import Mathlib
import Rulebook.Number.Decimal
import Rulebook.Proofs.Json.Reader
import Rulebook.Proofs.Text.Plain

/-!
# Decimal numbers are read from their texts

An amount is compared by its text: the text is read as a number, as the text that it is compared
with is.  This module says that nothing is lost on the way.  The text of a finite decimal number is
read as the double nearest to it, however the text is written: with zeros in front, with a point
among the digits, or with an exponent.

The three ways of writing are not told apart.  A text is shown to be a numeral, that is, digits with
perhaps a fraction and perhaps an exponent, and it is enough to say what the reader makes of
numerals.

Capitals make no difference to the reader, so that a text which is the same as that of an amount
without regard to case is the same number.

## Main definitions

* `WritesExponent` — an exponent, which may be left out if it is nought.

## Main statements

* `readNumberChars?_numeral` — the number that is read from a numeral.
* `exists_numeral` — a finite decimal number is written as a numeral.
* `readNumberChars?_text` — a finite decimal number is read from its text.
* `readNumberChars?_map_toLower` — capitals make no difference.
-/

namespace Rulebook.Number

open Rulebook.Text

/-! ## Capitals -/

theorem beq_toLower {d : Char} (hd : d.toNat < 0x41 ∨ d = '_') (c : Char) :
    (c.toLower == d) = (c == d) := by
  rw [Bool.eq_iff_iff, beq_iff_eq, beq_iff_eq, toLower_eq_iff hd]

theorem spanSign_of_ne {c : Char} (hminus : c ≠ '-') (hplus : c ≠ '+') (s : List Char) :
    spanSign (c :: s) = (false, c :: s) := by
  unfold spanSign
  split
  · simp_all
  · simp_all
  · rfl

theorem spanSign_map_toLower (s : List Char) :
    spanSign (s.map Char.toLower) = ((spanSign s).1, (spanSign s).2.map Char.toLower) := by
  cases s with
  | nil => rfl
  | cons c s =>
    by_cases hminus : c = '-'
    · subst hminus
      rfl
    · by_cases hplus : c = '+'
      · subst hplus
        rfl
      · have hminus' : c.toLower ≠ '-' := mt (toLower_eq_iff (by decide)).1 hminus
        have hplus' : c.toLower ≠ '+' := mt (toLower_eq_iff (by decide)).1 hplus
        rw [spanSign_of_ne hminus hplus, List.map_cons, spanSign_of_ne hminus' hplus']

theorem spanDigitsFrom_map_toLower (afterDigit : Bool) (s : List Char) :
    spanDigitsFrom afterDigit (s.map Char.toLower) =
      ((spanDigitsFrom afterDigit s).1, (spanDigitsFrom afterDigit s).2.map Char.toLower) := by
  have hline : ∀ c : Char, (c.toLower == '_') = (c == '_') := beq_toLower (.inr rfl)
  have hdecimal : ∀ c : Char, isDecimal c.toLower = isDecimal c := by
    simp [isDecimal, decimalValue?_toLower]
  fun_induction spanDigitsFrom afterDigit s with
  | case1 => rfl
  | case2 afterDigit c rest d hd digits rest' hspan ih =>
    simp [spanDigitsFrom, decimalValue?_toLower, hd, hspan, ih]
  | case3 afterDigit c hnone hmark d rest hd ih =>
    rw [List.map_cons, List.map_cons, spanDigitsFrom]
    simp only [decimalValue?_toLower, hnone, hline, hmark, hdecimal, hd, if_true]
    exact ih
  | _ => simp_all [spanDigitsFrom, decimalValue?_toLower]

theorem spanDigits_map_toLower (s : List Char) :
    spanDigits (s.map Char.toLower) = ((spanDigits s).1, (spanDigits s).2.map Char.toLower) :=
  spanDigitsFrom_map_toLower false s

theorem lowerWord_map_toLower (s : List Char) : lowerWord (s.map Char.toLower) = lowerWord s := by
  simp [lowerWord, Function.comp_def, Char.toLower_toLower_eq_toLower]

theorem spanFraction_map_toLower (s : List Char) :
    spanFraction (s.map Char.toLower) =
      ((spanFraction s).1, (spanFraction s).2.map Char.toLower) := by
  have hother : ∀ (c : Char) (t : List Char), c ≠ '.' → spanFraction (c :: t) = ([], c :: t) := by
    intro c t hc
    unfold spanFraction
    split <;> simp_all
  cases s with
  | nil => rfl
  | cons c s =>
    by_cases hpoint : c = '.'
    · subst hpoint
      exact spanDigits_map_toLower s
    · have hpoint' : c.toLower ≠ '.' := mt (toLower_eq_iff (by decide)).1 hpoint
      rw [hother c s hpoint, List.map_cons, hother _ _ hpoint']

theorem readExponent?_map_toLower (s : List Char) :
    readExponent? (s.map Char.toLower) = readExponent? s := by
  have hmark : ∀ c : Char, (c.toLower == 'e' || c.toLower == 'E') = (c == 'e' || c == 'E') := by
    intro c
    have hsmall : 'e'.toNat = 0x65 := rfl
    have hcapital : 'E'.toNat = 0x45 := rfl
    rcases toLower_cases c with h | ⟨hlow, hhigh, h⟩
    · rw [h]
    · rw [Bool.eq_iff_iff]
      simp only [Bool.or_eq_true, beq_iff_eq, ← Char.toNat_inj, h]
      omega
  cases s with
  | nil => rfl
  | cons c s =>
    simp only [List.map_cons, readExponent?, hmark, spanSign_map_toLower, spanDigits_map_toLower]
    split
    · generalize spanDigits (spanSign s).2 = span
      obtain ⟨_ | ⟨d, digits⟩, _ | ⟨c, rest⟩⟩ := span <;> rfl
    · rfl

/-- Capitals make no difference to the number that is read. -/
theorem readNumberChars?_map_toLower (s : List Char) :
    readNumberChars? (s.map Char.toLower) = readNumberChars? s := by
  simp only [readNumberChars?, stripChars_map_toLower, spanSign_map_toLower, lowerWord_map_toLower,
    spanDigits_map_toLower, spanFraction_map_toLower, readExponent?_map_toLower]

/-! ## Digits -/

/-- What may follow digits without being taken for one of them. -/
def EndsDigits (s : List Char) : Prop := ∀ c ∈ s.head?, decimalValue? c = none ∧ c ≠ '_'

theorem endsDigits_nil : EndsDigits [] := by simp [EndsDigits]

theorem spanDigits_append {digits rest : List Char} (hdigits : ∀ c ∈ digits, c.isDigit = true)
    (hrest : EndsDigits rest) :
    spanDigits (digits ++ rest) = (digits.map fun c => c.toNat - '0'.toNat, rest) := by
  have hspan : ∀ afterDigit, spanDigitsFrom afterDigit (digits ++ rest) =
      (digits.map fun c => c.toNat - '0'.toNat, rest) := by
    induction digits with
    | nil =>
      intro afterDigit
      cases rest with
      | nil => rfl
      | cons c rest =>
        obtain ⟨hvalue, hline⟩ := hrest c rfl
        simp [spanDigitsFrom, hvalue, hline]
    | cons c digits ih =>
      intro afterDigit
      obtain ⟨hc, hdigits⟩ := List.forall_mem_cons.1 hdigits
      simp [spanDigitsFrom, decimalValue?_of_isDigit hc, ih hdigits]
  exact hspan false

/-- A number of digits is read from them whether or not something follows. -/
theorem spanDigits_toDigits (n : Nat) :
    ∃ values, values ≠ [] ∧ spanDigits (Nat.toDigits 10 n) = (values, []) ∧
      ofDigitValues values = n := by
  refine ⟨(Nat.toDigits 10 n).map fun c => c.toNat - '0'.toNat, ?_, ?_, ?_⟩
  · simp [Nat.toDigits_ne_nil]
  · have hdigits : ∀ c ∈ Nat.toDigits 10 n, c.isDigit = true := fun c hc =>
      Nat.isDigit_of_mem_toDigits (by decide) (by decide) hc
    simpa using spanDigits_append hdigits endsDigits_nil
  · rw [← Json.asciiNumber_eq_ofDigitValues, Json.asciiNumber_toDigits]

/-! ## Numerals -/

/-- The sign of a negative number. -/
def signMark (negative : Bool) : List Char := if negative then ['-'] else []

/-- The digits of a fraction behind the point; without digits there is no point. -/
def pointed (fraction : List Char) : List Char :=
  if fraction = [] then [] else '.' :: fraction

/-- An exponent as it is written behind a number; nought need not be written. -/
def WritesExponent (mark : List Char) (e : Int) : Prop :=
  mark = [] ∧ e = 0 ∨ mark = Decimal.exponentMark e

theorem WritesExponent.endsDigits {mark : List Char} {e : Int} (h : WritesExponent mark e) :
    EndsDigits mark := by
  rcases h with ⟨rfl, -⟩ | rfl
  · exact endsDigits_nil
  · intro c hc
    obtain rfl : 'E' = c := Option.some.inj hc
    decide

theorem readExponent?_exponentMark (e : Int) : readExponent? (Decimal.exponentMark e) = some e := by
  obtain ⟨values, hne, hspan, hvalue⟩ := spanDigits_toDigits e.natAbs
  by_cases he : e < 0
  · simp [Decimal.exponentMark, readExponent?, spanSign, he, hspan, hvalue, abs_of_neg he]
  · simp [Decimal.exponentMark, readExponent?, spanSign, he, hspan, hvalue, not_lt.1 he]

theorem WritesExponent.readExponent? {mark : List Char} {e : Int} (h : WritesExponent mark e) :
    Number.readExponent? mark = some e := by
  rcases h with ⟨rfl, rfl⟩ | rfl
  · rfl
  · exact readExponent?_exponentMark e

theorem spanSign_of_isDigit {c : Char} (h : c.isDigit = true) (s : List Char) :
    spanSign (c :: s) = (false, c :: s) := by
  refine spanSign_of_ne ?_ ?_ s
  · rintro rfl
    exact absurd h (by decide)
  · rintro rfl
    exact absurd h (by decide)

theorem spanSign_signMark {c : Char} (h : c.isDigit = true) (negative : Bool) (s : List Char) :
    spanSign (signMark negative ++ c :: s) = (negative, c :: s) := by
  cases negative with
  | true => rfl
  | false => exact spanSign_of_isDigit h s

/-- Digits start no word. -/
theorem lowerWord_of_isDigit {c d : Char} (h : c.isDigit = true) {s t : List Char}
    (hword : lowerWord (c :: s) = String.ofList (d :: t)) : d.isDigit = true := by
  have hsame : c.toLower = d := by
    have hchars := String.ofList_injective hword
    exact (List.cons.inj hchars).1
  have hrange : 0x30 ≤ c.toNat ∧ c.toNat ≤ 0x39 := Char.isDigit_iff_toNat.1 h
  have hlower : c.toLower = c := by
    apply Char.toLower_eq_of_not_isUpper
    simp [Char.isUpper, UInt32.le_iff_toNat_le]
    intro hle
    change 65 ≤ c.toNat at hle
    omega
  rwa [← hsame, hlower]

theorem spanFraction_pointed {fraction mark : List Char} {e : Int}
    (hfraction : ∀ c ∈ fraction, c.isDigit = true) (hmark : WritesExponent mark e) :
    spanFraction (pointed fraction ++ mark) =
      (fraction.map fun c => c.toNat - '0'.toNat, mark) := by
  by_cases hnil : fraction = []
  · rcases hmark with ⟨rfl, -⟩ | rfl
    · simp [pointed, hnil, spanFraction]
    · simp [pointed, hnil, spanFraction, Decimal.exponentMark]
  · simp [pointed, hnil, spanFraction, spanDigits_append hfraction hmark.endsDigits]

theorem endsDigits_pointed {fraction mark : List Char} {e : Int} (hmark : WritesExponent mark e) :
    EndsDigits (pointed fraction ++ mark) := by
  by_cases hnil : fraction = []
  · simpa [pointed, hnil] using hmark.endsDigits
  · intro c hc
    obtain rfl : '.' = c := by simpa [pointed, hnil] using hc
    decide

/-- The characters that numerals are written with. -/
def IsNumeralCharacter (c : Char) : Prop := c.isDigit = true ∨ c ∈ ['-', '+', '.', 'E']

theorem IsNumeralCharacter.isBlank {c : Char} (h : IsNumeralCharacter c) : isBlank c = false := by
  rcases h with hdigit | hmark
  · exact isBlank_of_isDigit hdigit
  · simp only [List.mem_cons, List.not_mem_nil, or_false] at hmark
    rcases hmark with rfl | rfl | rfl | rfl <;> decide

theorem IsNumeralCharacter.isPlain {c : Char} (h : IsNumeralCharacter c) : IsPlain c.toLower := by
  rcases h with hdigit | hmark
  · have hrange : 0x30 ≤ c.toNat ∧ c.toNat ≤ 0x39 := Char.isDigit_iff_toNat.1 hdigit
    rw [toLower_of_lt (by omega)]
    exact .inl (by omega)
  · simp only [List.mem_cons, List.not_mem_nil, or_false] at hmark
    rcases hmark with rfl | rfl | rfl | rfl
    · exact .inl (by decide)
    · exact .inl (by decide)
    · exact .inl (by decide)
    · exact .inr (by decide)

theorem isNumeralCharacter_of_mem (negative : Bool) {whole fraction mark : List Char} {e : Int}
    (hdigits : ∀ c ∈ whole ++ fraction, c.isDigit = true) (hmark : WritesExponent mark e) :
    ∀ c ∈ signMark negative ++ (whole ++ (pointed fraction ++ mark)), IsNumeralCharacter c := by
  obtain ⟨hwhole, hfraction⟩ := List.forall_mem_append.1 hdigits
  intro c hc
  simp only [List.mem_append] at hc
  rcases hc with hc | hc | hc | hc
  · have hminus : c = '-' := by cases negative <;> simp_all [signMark]
    exact .inr (by simp [hminus])
  · exact .inl (hwhole c hc)
  · unfold pointed at hc
    split at hc
    · simp at hc
    · rcases List.mem_cons.1 hc with rfl | hc
      · exact .inr (by simp)
      · exact .inl (hfraction c hc)
  · rcases hmark with ⟨rfl, -⟩ | rfl
    · simp at hc
    · simp only [Decimal.exponentMark, List.mem_cons] at hc
      rcases hc with rfl | rfl | hc
      · exact .inr (by simp)
      · exact .inr (by split <;> simp)
      · exact .inl (Nat.isDigit_of_mem_toDigits (by decide) (by decide) hc)

/-- The number that is read from a sign, digits, perhaps a point with more digits, and perhaps an
exponent. -/
theorem readNumberChars?_numeral (negative : Bool) {whole fraction mark : List Char} {e : Int}
    (hne : whole ≠ []) (hdigits : ∀ c ∈ whole ++ fraction, c.isDigit = true)
    (hmark : WritesExponent mark e) :
    readNumberChars? (signMark negative ++ (whole ++ (pointed fraction ++ mark))) =
      some (Binary64.ofDecimal negative (Json.asciiNumber (whole ++ fraction))
        (e - Int.ofNat fraction.length)) := by
  obtain ⟨hwhole, hfraction⟩ := List.forall_mem_append.1 hdigits
  have hblank : ∀ c ∈ signMark negative ++ (whole ++ (pointed fraction ++ mark)),
      isBlank c = false := fun c hc =>
    (isNumeralCharacter_of_mem negative hdigits hmark c hc).isBlank
  have hends : EndsDigits (pointed fraction ++ mark) := endsDigits_pointed hmark
  have hspan := spanDigits_append hwhole hends
  obtain ⟨first, others, rfl⟩ := List.exists_cons_of_ne_nil hne
  have hfirst : first.isDigit = true := hwhole first (by simp)
  rw [readNumberChars?, stripChars_eq_self hblank, List.cons_append, spanSign_signMark hfirst]
  dsimp only
  split
  · next hword => exact absurd (lowerWord_of_isDigit hfirst (d := 'i') hword) (by decide)
  · next hword => exact absurd (lowerWord_of_isDigit hfirst (d := 'i') hword) (by decide)
  · next hword => exact absurd (lowerWord_of_isDigit hfirst (d := 'n') hword) (by decide)
  · rw [← List.cons_append, hspan]
    dsimp only
    rw [spanFraction_pointed hfraction hmark, hmark.readExponent?]
    simp [Json.asciiNumber_eq_ofDigitValues]

/-! ## The texts of decimal numbers -/

theorem asciiNumber_zeros (n : Nat) (digits : List Char) :
    Json.asciiNumber (List.replicate n '0' ++ digits) = Json.asciiNumber digits := by
  induction n with
  | zero => rfl
  | succ n ih => simpa [List.replicate_succ, Json.asciiNumber] using ih

/-- A point inside the digits or behind them; behind them it is not written. -/
theorem pointed_drop {digits : List Char} {whole : Nat} (h : whole ≤ digits.length) :
    (if digits.length ≤ whole then digits ++ List.replicate (whole - digits.length) '0'
      else digits.take whole ++ '.' :: digits.drop whole) =
      digits.take whole ++ pointed (digits.drop whole) := by
  split
  · next hle =>
    obtain rfl : whole = digits.length := le_antisymm h hle
    simp [pointed]
  · next hlt =>
    have hne : digits.drop whole ≠ [] := by simp; omega
    simp [pointed, hne]

theorem writesExponent_difference (left point : Int) :
    WritesExponent (if left = point then [] else Decimal.exponentMark (left - point))
      (left - point) := by
  by_cases h : left = point
  · exact .inl ⟨if_pos h, by omega⟩
  · exact .inr (if_neg h)

/-- A finite decimal number is written as a numeral with its digits. -/
theorem exists_numeral (negative : Bool) (coefficient : Nat) (exponent : Int) :
    ∃ whole fraction mark e, (Decimal.finite negative coefficient exponent).text.toList =
        signMark negative ++ (whole ++ (pointed fraction ++ mark)) ∧
      whole ≠ [] ∧ (∀ c ∈ whole ++ fraction, c.isDigit = true) ∧ WritesExponent mark e ∧
      Json.asciiNumber (whole ++ fraction) = coefficient ∧
      e - Int.ofNat fraction.length = exponent := by
  let digits := Nat.toDigits 10 coefficient
  let left := exponent + Int.ofNat digits.length
  let point := if exponent ≤ 0 && -6 < left then left else 1
  have hdigits : ∀ c ∈ digits, c.isDigit = true := fun c hc =>
    Nat.isDigit_of_mem_toDigits (by decide) (by decide) hc
  have hlength : 0 < digits.length := List.length_pos_iff.2 Nat.toDigits_ne_nil
  have hvalue : Json.asciiNumber digits = coefficient := Json.asciiNumber_toDigits coefficient
  have hleft : left = exponent + digits.length := rfl
  have hpoint : point ≤ digits.length := by
    show (if exponent ≤ 0 && -6 < left then left else 1) ≤ (digits.length : Int)
    split
    · simp_all
    · omega
  have hmark := writesExponent_difference left point
  by_cases hsmall : point ≤ 0
  · have htext : (Decimal.finite negative coefficient exponent).text.toList =
        signMark negative ++ ('0' :: '.' :: (List.replicate (-point).toNat '0' ++ digits)) ++
          (if left = point then [] else Decimal.exponentMark (left - point)) := by
      rw [Decimal.text]
      dsimp only
      rw [if_pos hsmall, String.toList_ofList]
      rfl
    refine ⟨['0'], List.replicate (-point).toNat '0' ++ digits, _, _, ?_, by simp, ?_, hmark, ?_,
      ?_⟩
    · rw [htext]
      simp [pointed, digits]
    · simp only [List.mem_append, List.mem_singleton]
      rintro c (rfl | hc | hc)
      · decide
      · rw [List.eq_of_mem_replicate hc]
        decide
      · exact hdigits c hc
    · exact (asciiNumber_zeros (n := (-point).toNat + 1) digits).trans hvalue
    · simp
      omega
  · have hle : point.toNat ≤ digits.length := by omega
    have htext : (Decimal.finite negative coefficient exponent).text.toList =
        signMark negative ++ (digits.take point.toNat ++ pointed (digits.drop point.toNat)) ++
          (if left = point then [] else Decimal.exponentMark (left - point)) := by
      rw [Decimal.text]
      dsimp only
      rw [if_neg hsmall, String.toList_ofList, ← pointed_drop hle]
      rfl
    refine ⟨digits.take point.toNat, digits.drop point.toNat, _, _, ?_, ?_, ?_, hmark, ?_, ?_⟩
    · rw [htext]
      simp
    · rw [← List.length_pos_iff, List.length_take]
      omega
    · rwa [List.take_append_drop]
    · rwa [List.take_append_drop]
    · simp
      omega

/-- A finite decimal number is read from its text. -/
theorem readNumberChars?_text (negative : Bool) (coefficient : Nat) (exponent : Int) :
    readNumberChars? (Decimal.finite negative coefficient exponent).text.toList =
      some (Binary64.ofDecimal negative coefficient exponent) := by
  obtain ⟨whole, fraction, mark, e, htext, hne, hdigits, hmark, rfl, rfl⟩ :=
    exists_numeral negative coefficient exponent
  rw [htext, readNumberChars?_numeral negative hne hdigits hmark]

theorem isPlain_of_mem_text {negative : Bool} {coefficient : Nat} {exponent : Int} {c : Char}
    (h : c ∈ (Decimal.finite negative coefficient exponent).text.toList) : IsPlain c.toLower := by
  obtain ⟨whole, fraction, mark, e, htext, -, hdigits, hmark, -, -⟩ :=
    exists_numeral negative coefficient exponent
  rw [htext] at h
  exact (isNumeralCharacter_of_mem negative hdigits hmark c h).isPlain

/-- Rounding to a double gives a number. -/
theorem ofDecimal_ne_nan (negative : Bool) (coefficient : Nat) (exponent : Int) :
    Binary64.ofDecimal negative coefficient exponent ≠ .nan := by
  have hratio : ∀ num den, Binary64.ofRatio negative num den ≠ .nan := by
    intro num den
    unfold Binary64.ofRatio
    dsimp only
    split <;> simp
  unfold Binary64.ofDecimal
  dsimp only
  split_ifs
  · simp
  · simp
  · split
    · exact hratio _ _
    · exact hratio _ _

end Rulebook.Number
