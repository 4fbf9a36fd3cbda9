import Rulebook.Number.Binary64
import Rulebook.Text.Blank
import Rulebook.Text.Digit

/-!
# Reading numbers

The two ways in which people write numbers.  A whole number is an optional sign and decimal digits;
a number may also have a fraction, an exponent, or be one of the words for infinity and
not-a-number.  Digits may come from any script, single low lines may stand between digits, and
blanks around the number do not count.

## Main definitions

* `readInteger` — a whole number, or why there is none.
* `readNumber?` — the double nearest to the number a text writes.
-/

namespace Rulebook.Number

open Rulebook.Text

/-- Why a text gives no whole number. -/
inductive IntegerFault where
  /-- The text is not a numeral. -/
  | notNumeral
  /-- The numeral has more digits than are read. -/
  | tooLong (digits : Nat)
deriving DecidableEq, Repr

/-- Numerals with more digits than this are refused. -/
def integerDigitLimit : Nat := 4300

/-- Whether a whole number has no more digits than are read and written. -/
def isShort (n : Int) : Bool := (Nat.toDigits 10 n.natAbs).length ≤ integerDigitLimit

/-- The number that a list of digit values writes in base ten. -/
def ofDigitValues (digits : List Nat) : Nat := digits.foldl (fun n d => n * 10 + d) 0

/-- Takes the decimal digits in front, among which single low lines may stand between two digits. -/
def spanDigitsFrom : Bool → List Char → List Nat × List Char
  | _, [] => ([], [])
  | afterDigit, c :: rest =>
    match decimalValue? c with
    | some d =>
      let (digits, rest') := spanDigitsFrom true rest
      (d :: digits, rest')
    | none =>
      if afterDigit && c == '_' then
        match rest with
        | d :: _ => if isDecimal d then spanDigitsFrom false rest else ([], c :: rest)
        | [] => ([], [c])
      else ([], c :: rest)

/-- The decimal digits in front of a text, and what follows them. -/
def spanDigits (s : List Char) : List Nat × List Char := spanDigitsFrom false s

/-- An optional sign: whether it is a minus, and what follows it. -/
def spanSign : List Char → Bool × List Char
  | '-' :: rest => (true, rest)
  | '+' :: rest => (false, rest)
  | s => (false, s)

/-- The whole number that a text writes.  Too many digits are refused before anything that follows
them, except for a low line that stands between no digits. -/
def readInteger (s : List Char) : Except IntegerFault Int :=
  let (negative, body) := spanSign (stripChars s)
  match spanDigits body with
  | ([], _) => .error .notNumeral
  | (_, '_' :: _) => .error .notNumeral
  | (digits, rest) =>
    if integerDigitLimit < digits.length then .error (.tooLong digits.length)
    else if !rest.isEmpty then .error .notNumeral
    else
      let n := Int.ofNat (ofDigitValues digits)
      .ok (if negative then -n else n)

/-- An exponent, if a mark starts one; `none` when the mark is followed by no digits. -/
def readExponent? : List Char → Option Int
  | [] => some 0
  | c :: rest =>
    if c == 'e' || c == 'E' then
      let (negative, body) := spanSign rest
      match spanDigits body with
      | ([], _) => none
      | (digits, []) =>
        let n := Int.ofNat (ofDigitValues digits)
        some (if negative then -n else n)
      | (_, _ :: _) => none
    else none

/-- The fraction digits after a decimal point, and what follows them. -/
def spanFraction : List Char → List Nat × List Char
  | '.' :: rest => spanDigits rest
  | s => ([], s)

/-- The word in lower case, for ASCII letters. -/
def lowerWord (s : List Char) : String := String.ofList (s.map Char.toLower)

/-- The double nearest to the number that the characters write. -/
def readNumberChars? (s : List Char) : Option Binary64 :=
  let (negative, body) := spanSign (stripChars s)
  match lowerWord body with
  | "inf" | "infinity" => some (.infinite negative)
  | "nan" => some .nan
  | _ =>
    let (whole, afterWhole) := spanDigits body
    let (fraction, afterFraction) := spanFraction afterWhole
    if whole.isEmpty && fraction.isEmpty then none
    else (readExponent? afterFraction).map fun e =>
      Binary64.ofDecimal negative (ofDigitValues (whole ++ fraction))
        (e - Int.ofNat fraction.length)

/-- The double nearest to the number that a text writes. -/
def readNumber? (s : String) : Option Binary64 := readNumberChars? s.toList

end Rulebook.Number
