import Mathlib.Algebra.Group.Nat.Defs
import Rulebook.Number.Reading

/-!
# How long numerals are

Numerals that are too long are refused, so every whole number that was ever read lies below a power
of ten.  Conversely the numeral of such a number is short enough to be read, which is why it matters:
a number that is stored as a text can be read again.

## Main definitions

* `IsReadable` — the numeral of a number is not too long.

## Main statements

* `isReadable_of_readInteger` — whole numbers that are read are readable.
-/

namespace Rulebook.Number

open Rulebook.Text

/-- A whole number whose numeral is not too long to be read. -/
def IsReadable (n : Int) : Prop := n.natAbs < 10 ^ integerDigitLimit

/-- So many digits write a number below that power of ten. -/
theorem ofDigitValues_lt {digits : List Nat} (h : ∀ d ∈ digits, d < 10) :
    ofDigitValues digits < 10 ^ digits.length := by
  have hfold : ∀ (digits : List Nat) (n k : Nat), (∀ d ∈ digits, d < 10) → n < 10 ^ k →
      digits.foldl (fun n d => n * 10 + d) n < 10 ^ (k + digits.length) := by
    intro digits
    induction digits with
    | nil => exact fun n k _ hn => hn
    | cons d rest ih =>
        intro n k hdigits hn
        obtain ⟨hd, hrest⟩ := List.forall_mem_cons.1 hdigits
        have hnext : n * 10 + d < 10 ^ (k + 1) := by
          rw [Nat.pow_succ]
          omega
        have hlt := ih (n * 10 + d) (k + 1) hrest hnext
        rwa [Nat.add_assoc, Nat.add_comm 1] at hlt
  have hlt := hfold digits 0 0 h (by decide)
  rwa [Nat.zero_add] at hlt

/-- A number of not too many digits is readable, whatever its sign. -/
theorem isReadable_ofDigitValues {digits : List Nat} (h : ∀ d ∈ digits, d < 10)
    (hshort : digits.length ≤ integerDigitLimit) (negative : Bool) :
    IsReadable (if negative then -Int.ofNat (ofDigitValues digits)
      else Int.ofNat (ofDigitValues digits)) := by
  have habs : (if negative then -Int.ofNat (ofDigitValues digits)
      else Int.ofNat (ofDigitValues digits)).natAbs = ofDigitValues digits := by
    split <;> simp
  rw [IsReadable, habs]
  calc ofDigitValues digits < 10 ^ digits.length := ofDigitValues_lt h
    _ ≤ 10 ^ integerDigitLimit := Nat.pow_le_pow_right (by decide) hshort

/-- The value of a decimal digit is a digit. -/
theorem decimalValue?_lt {c : Char} {d : Nat} (h : decimalValue? c = some d) : d < 10 := by
  obtain ⟨z, hz, rfl⟩ := Option.map_eq_some_iff.1 h
  have hrange := List.find?_some hz
  simp only [decide_eq_true_eq] at hrange
  omega

/-- The digits that are taken are digits, whatever stands between them. -/
theorem spanDigitsFrom_lt (afterDigit : Bool) (s : List Char) :
    ∀ d ∈ (spanDigitsFrom afterDigit s).1, d < 10 := by
  fun_induction spanDigitsFrom afterDigit s with
  | case1 => exact fun _ hd => nomatch hd
  | case2 afterDigit c rest d hd digits rest' hspan ih =>
      rw [hspan] at ih
      intro e he
      rcases List.mem_cons.1 he with rfl | hrest
      · exact decimalValue?_lt hd
      · exact ih e hrest
  | case3 => assumption
  | _ => exact fun _ hd => nomatch hd

/-- Whole numbers that are read are readable. -/
theorem isReadable_of_readInteger {s : List Char} {n : Int} (h : readInteger s = .ok n) :
    IsReadable n := by
  rw [readInteger] at h
  generalize spanSign (stripChars s) = sign at h
  obtain ⟨negative, body⟩ := sign
  dsimp only at h
  have hdigits := spanDigitsFrom_lt false body
  change ∀ d ∈ (spanDigits body).1, d < 10 at hdigits
  split at h
  · cases h
  · cases h
  · next digits rest _ _ hspan =>
    rw [hspan] at hdigits
    split at h
    · cases h
    · next hshort =>
      split at h
      · cases h
      · cases h
        exact isReadable_ofDigitValues hdigits (Nat.not_lt.1 hshort) negative

end Rulebook.Number
