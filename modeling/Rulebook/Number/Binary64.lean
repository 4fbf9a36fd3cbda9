import Rulebook.Number.Rounding

/-!
# Binary floating point numbers

Double precision numbers, held exactly.  Every finite double is a whole multiple of `2^-1074`, so a
finite number is a sign and that multiple, its *units*.  Comparison is then comparison of whole
numbers, and each operation rounds an exact quotient once.

## Main definitions

* `Binary64` — not-a-number, the infinities, and the finite numbers with both zeros.
* `Binary64.ofRatio` — the double nearest to a quotient.
* `Binary64.eq`, `Binary64.lt`, `Binary64.le` — the comparisons; not-a-number fails all of them.
* `Binary64.shortest` — the shortest decimal digits that read back as the number.
* `Binary64.text` — the usual text of a number, `0.1`, `1e+16`, `inf`.
-/

namespace Rulebook.Number

/-- A double precision number. -/
inductive Binary64 where
  | nan
  | infinite (negative : Bool)
  | finite (negative : Bool) (units : Nat)
deriving DecidableEq, Repr

namespace Binary64

/-- A finite double is a multiple of two to the power of minus this. -/
def unitExponent : Nat := 1074

/-- The units of the number one. -/
def unitsOfOne : Nat := Nat.pow 2 unitExponent

/-- Magnitudes from here on, in units, are beyond the largest finite double. -/
def unitsLimit : Nat := Nat.pow 2 (1024 + unitExponent)

/-- The spacing of doubles, in units, at a magnitude: the significand has 53 bits. -/
def spacing (units : Nat) : Nat := Nat.pow 2 (Nat.log2 units - 52)

/-- The double nearest to `num / den`, with the given sign. -/
def ofRatio (negative : Bool) (num den : Nat) : Binary64 :=
  let step := spacing (num * unitsOfOne / den)
  let units := roundHalfEven (num * unitsOfOne) (den * step) * step
  if unitsLimit ≤ units then .infinite negative else .finite negative units

/-- The double nearest to a whole number. -/
def ofInt (n : Int) : Binary64 := ofRatio (n < 0) n.natAbs 1

/-- The double nearest to `coefficient · 10^exponent`.  Magnitudes far outside the range of doubles
are settled by the place of their first digit, so that no huge power is computed. -/
def ofDecimal (negative : Bool) (coefficient : Nat) (exponent : Int) : Binary64 :=
  let place := Int.ofNat (digitCount coefficient) + exponent
  if coefficient = 0 || place < -400 then .finite negative 0
  else if 400 < place then .infinite negative
  else match exponent with
    | .ofNat e => ofRatio negative (coefficient * Nat.pow 10 e) 1
    | .negSucc e => ofRatio negative coefficient (Nat.pow 10 (e + 1))

/-- A position on the number line: finite numbers by their units, the infinities beyond them, and
nothing for not-a-number. -/
def position? : Binary64 → Option Int
  | .nan => none
  | .infinite negative => some (if negative then -(unitsLimit : Int) else unitsLimit)
  | .finite negative units => some (if negative then -(units : Int) else units)

/-- Compares the positions of two numbers. -/
def compareBy (r : Int → Int → Bool) (a b : Binary64) : Bool :=
  match a.position?, b.position? with
  | some x, some y => r x y
  | _, _ => false

/-- Equality of values; the two zeros are equal. -/
def eq (a b : Binary64) : Bool := compareBy (fun x y => decide (x = y)) a b

/-- Strict order of values. -/
def lt (a b : Binary64) : Bool := compareBy (fun x y => decide (x < y)) a b

/-- Order of values. -/
def le (a b : Binary64) : Bool := compareBy (fun x y => decide (x ≤ y)) a b

/-- Whether a number differs from both zeros. -/
def isNonzero : Binary64 → Bool
  | .finite _ units => units != 0
  | _ => true

/-- Whether the value is a whole number. -/
def isWhole : Binary64 → Bool
  | .finite _ units => units % unitsOfOne == 0
  | _ => false

/-- The whole number next to a finite value in the direction of zero. -/
def truncate? : Binary64 → Option Int
  | .finite negative units =>
    let n : Int := Int.ofNat (units / unitsOfOne)
    some (if negative then -n else n)
  | _ => none

/-- The product of two numbers. -/
def mul : Binary64 → Binary64 → Binary64
  | .finite s a, .finite t b => ofRatio (s != t) (a * b) (unitsOfOne * unitsOfOne)
  | .infinite s, .infinite t => .infinite (s != t)
  | .infinite s, .finite t b => if b = 0 then .nan else .infinite (s != t)
  | .finite s a, .infinite t => if a = 0 then .nan else .infinite (s != t)
  | _, _ => .nan

/-! ## Decimal digits -/

/-- The whole number of the grid `10^exponent` at or below `units`, and the remainder as a pair of
numerator and denominator. -/
def gridFloor (units : Nat) (exponent : Int) : Nat × Nat × Nat :=
  let (num, den) := match exponent with
    | .ofNat e => (units, unitsOfOne * Nat.pow 10 e)
    | .negSucc e => (units * Nat.pow 10 (e + 1), unitsOfOne)
  (num / den, num % den, den)

/-- The power of ten of a positive number's first digit.  The value is `units · 5^1074 / 10^1074`,
so the first digit stands as far from the end of `units · 5^1074`. -/
def leadingPower (units : Nat) : Int :=
  Int.ofNat (digitCount (units * Nat.pow 5 unitExponent)) - 1 - Int.ofNat unitExponent

/-- Of the two neighbours on the grid `10^exponent`, the one that reads back as the number; the
nearer if both do, and the even one in a tie. -/
def readsBackOn (units : Nat) (exponent : Int) : Option Nat :=
  let (low, rest, den) := gridFloor units exponent
  let reads (n : Nat) : Bool := ofDecimal false n exponent == .finite false units
  match reads low, reads (low + 1) with
  | true, true =>
    if 2 * rest < den || (2 * rest == den && low % 2 == 0) then some low else some (low + 1)
  | true, false => some low
  | false, true => some (low + 1)
  | false, false => none

/-- Searches grids of one digit, two digits, … for the first on which the number reads back. -/
def searchGrids (units : Nat) (top : Int) : Nat → Nat → Nat × Int
  | 0, digits => ((gridFloor units (top - Int.ofNat digits)).1, top - Int.ofNat digits)
  | fuel + 1, digits =>
    match readsBackOn units (top - Int.ofNat digits) with
    | some n => (n, top - Int.ofNat digits)
    | none => searchGrids units top fuel (digits + 1)

/-- The shortest decimal `n · 10^e` that reads back as the positive number of these units. -/
def shortest (units : Nat) : Nat × Int := searchGrids units (leadingPower units) 17 0

/-- The digits and the place of the decimal point: the value is `0.d₁d₂… · 10^point`. -/
def shortestDigits (units : Nat) : List Char × Int :=
  let (n, e) := shortest units
  let digits := Nat.toDigits 10 n
  let kept := (digits.reverse.dropWhile (· == '0')).reverse
  (kept, Int.ofNat digits.length + e)

/-- The sign of an exponent, always written, and at least two digits. -/
def exponentText (e : Int) : List Char :=
  let digits := Nat.toDigits 10 e.natAbs
  (if e < 0 then '-' else '+') :: (if digits.length < 2 then '0' :: digits else digits)

/-- The text of a positive number: positional from `0.0001` up to below `10^16`, always with a
decimal point, and scientific beyond. -/
def magnitudeText (units : Nat) : List Char :=
  if units = 0 then "0.0".toList
  else
    let (digits, point) := shortestDigits units
    if -4 < point && point ≤ 16 then
      if point ≤ 0 then '0' :: '.' :: (List.replicate (-point).toNat '0' ++ digits)
      else
        let whole := point.toNat
        let padded := digits ++ List.replicate (whole - digits.length) '0'
        let places := padded.drop whole
        padded.take whole ++ '.' :: (if places.isEmpty then ['0'] else places)
    else
      let fraction := digits.drop 1
      digits.take 1 ++ (if fraction.isEmpty then [] else '.' :: fraction)
        ++ 'e' :: exponentText (point - 1)

/-- The text of a number, with as few digits as read back. -/
def text : Binary64 → String
  | .nan => "nan"
  | .infinite negative => if negative then "-inf" else "inf"
  | .finite negative units =>
    String.ofList ((if negative then ['-'] else []) ++ magnitudeText units)

/-- The number rounded to so many decimal places, a half going to the even neighbour. -/
def roundPlaces (places : Nat) : Binary64 → Binary64
  | .finite negative units =>
    ofRatio negative (roundHalfEven (units * Nat.pow 10 places) unitsOfOne) (Nat.pow 10 places)
  | x => x

/-! ## Order -/

theorem le_iff_lt_or_eq (a b : Binary64) : a.le b = (a.lt b || a.eq b) := by
  simp only [le, lt, eq, compareBy]
  cases a.position? <;> cases b.position? <;> simp [Int.le_iff_lt_or_eq, ← Bool.decide_or]

end Binary64

end Rulebook.Number
