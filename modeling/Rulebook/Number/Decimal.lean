import Rulebook.Number.Binary64
import Rulebook.Number.Reading

/-!
# Decimal numbers

Decimal numbers keep the digits they were written with: `5.00` and `5` are different texts of one
value.  Stored amounts are whole hundredths; `hundredths?` is the rounding with which a decimal
number becomes an amount.

## Main definitions

* `Decimal` — a finite decimal number, an infinity, or not-a-number.
* `Decimal.read?` — the decimal number that a text writes.
* `Decimal.text` — its text, which reads back as the same number.
* `Decimal.hundredths?` — the amount in hundredths, unless it has more than twelve digits.
* `amountText` — the text of an amount in hundredths.
-/

namespace Rulebook.Number

open Rulebook.Text

/-- A decimal number. -/
inductive Decimal where
  | finite (negative : Bool) (coefficient : Nat) (exponent : Int)
  | infinite (negative : Bool)
  /-- Not-a-number; it may be signaling and carry diagnostic digits. -/
  | nan (negative signaling : Bool) (diagnostic : Nat)
deriving DecidableEq, Repr

namespace Decimal

/-- A word for not-a-number, with its diagnostic digits. -/
def readNan? (negative : Bool) (body : List Char) : Option Decimal :=
  let (signaling, word) := match body with
    | c :: rest => if c == 's' || c == 'S' then (true, rest) else (false, body)
    | [] => (false, [])
  if lowerWord (word.take 3) == "nan" then
    let tail := word.drop 3
    match tail.mapM decimalValue? with
    | some digits => some (.nan negative signaling (ofDigitValues digits))
    | none => none
  else none

/-- The decimal number that a text writes.  Low lines are passed over wherever they stand. -/
def read? (s : String) : Option Decimal :=
  let (negative, body) := spanSign ((stripChars s.toList).filter (· != '_'))
  match lowerWord body with
  | "inf" | "infinity" => some (.infinite negative)
  | _ =>
    let (whole, afterWhole) := spanDigits body
    let (fraction, afterFraction) := spanFraction afterWhole
    if whole.isEmpty && fraction.isEmpty then readNan? negative body
    else (readExponent? afterFraction).map fun e =>
      .finite negative (ofDigitValues (whole ++ fraction)) (e - Int.ofNat fraction.length)

/-- The exponent mark of the scientific form. -/
def exponentMark (e : Int) : List Char :=
  'E' :: (if e < 0 then '-' else '+') :: Nat.toDigits 10 e.natAbs

/-- The text of a decimal number: positional unless that would need zeros the number was not
written with. -/
def text : Decimal → String
  | .infinite negative => if negative then "-Infinity" else "Infinity"
  | .nan negative signaling diagnostic =>
    (if negative then "-" else "") ++ (if signaling then "sNaN" else "NaN")
      ++ (if diagnostic = 0 then "" else toString diagnostic)
  | .finite negative coefficient exponent =>
    let digits := Nat.toDigits 10 coefficient
    let left := exponent + Int.ofNat digits.length
    let point := if exponent ≤ 0 && -6 < left then left else 1
    let mantissa :=
      if point ≤ 0 then '0' :: '.' :: (List.replicate (-point).toNat '0' ++ digits)
      else
        let whole := point.toNat
        if digits.length ≤ whole then digits ++ List.replicate (whole - digits.length) '0'
        else digits.take whole ++ '.' :: digits.drop whole
    String.ofList ((if negative then ['-'] else []) ++ mantissa
      ++ (if left = point then [] else exponentMark (left - point)))

/-- An amount of hundredths as a decimal number with two places. -/
def ofHundredths (n : Int) : Decimal := .finite (n < 0) n.natAbs (-2)

/-- The finite number in hundredths, a half going to the even neighbour.  A number whose first digit
stands beyond the thousandths is nought. -/
def roundedHundredths? : Decimal → Option Int
  | .finite negative coefficient exponent =>
    let n :=
      if Int.ofNat (digitCount coefficient) + exponent < -2 then 0
      else match exponent + 2 with
        | .ofNat e => coefficient * Nat.pow 10 e
        | .negSucc e => roundHalfEven coefficient (Nat.pow 10 (e + 1))
    some (if negative then -(n : Int) else n)
  | _ => none

/-- How many digits an amount may have, the two places included. -/
def amountDigitLimit : Nat := 12

/-- Whether the first digit stands so far left that an amount cannot hold it. -/
def isBeyondAmounts : Decimal → Bool
  | .finite _ coefficient exponent =>
    coefficient != 0 && decide ((amountDigitLimit : Int) < Int.ofNat (digitCount coefficient) + exponent)
  | _ => false

/-- The amount in hundredths; none if it needs more digits than an amount may have. -/
def hundredths? (d : Decimal) : Option Int :=
  if d.isBeyondAmounts then none
  else match d.roundedHundredths? with
    | some n => if n.natAbs < Nat.pow 10 amountDigitLimit then some n else none
    | none => none

end Decimal

/-- The text of an amount in hundredths, always with two places. -/
def amountText (n : Int) : String := (Decimal.ofHundredths n).text

end Rulebook.Number
