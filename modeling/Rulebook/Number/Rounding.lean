/-!
# Rounding a quotient

Quotients of natural numbers rounded to the nearest whole number, a half going to the even
neighbour.  Both the binary and the decimal numbers of the library are rounded this way.
-/

namespace Rulebook.Number

/-- The whole number nearest to `num / den`; a half goes to the even neighbour. -/
def roundHalfEven (num den : Nat) : Nat :=
  let low := num / den
  let twice := 2 * (num % den)
  if den < twice || (twice == den && low % 2 == 1) then low + 1 else low

/-- A whole quotient is its own rounding. -/
theorem roundHalfEven_mul (n : Nat) {den : Nat} (h : 0 < den) :
    roundHalfEven (n * den) den = n := by
  have hq : n * den / den = n := Nat.mul_div_cancel n h
  have hne : 0 ≠ den := by omega
  simp [roundHalfEven, hq, hne]

/-- The number of decimal digits; zero has one. -/
def digitCount (n : Nat) : Nat := (Nat.toDigits 10 n).length

end Rulebook.Number
