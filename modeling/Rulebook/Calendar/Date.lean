/-!
# Dates

Days of the Gregorian calendar from year 1 to year 9999.  The *ordinal* of a date counts days, the
first day of year 1 being day one.

## Main definitions

* `Date` — year, month and day; `Date.isValid` says whether there is such a day.
* `Date.ordinal`, `Date.ofOrdinal` — the day count and its inverse.
* `Date.text` — `2024-05-10`.
-/

namespace Rulebook.Calendar

/-- A date. -/
structure Date where
  year : Nat
  month : Nat
  day : Nat
deriving DecidableEq, Repr, Inhabited

/-- A number in base ten, filled with zeros up to the width. -/
def padded (width n : Nat) : String :=
  let digits := Nat.toDigits 10 n
  String.ofList (List.replicate (width - digits.length) '0' ++ digits)

/-- Whether the year has a leap day. -/
def isLeap (year : Nat) : Bool := year % 4 == 0 && (year % 100 != 0 || year % 400 == 0)

/-- The number of days of a month. -/
def daysInMonth (year month : Nat) : Nat :=
  if month = 2 then (if isLeap year then 29 else 28)
  else if month = 4 || month = 6 || month = 9 || month = 11 then 30
  else 31

/-- The number of days before the first day of the year. -/
def daysBeforeYear (year : Nat) : Nat :=
  let y := year - 1
  y * 365 + y / 4 - y / 100 + y / 400

/-- The number of days of the year before the first day of the month. -/
def daysBeforeMonth (year : Nat) : Nat → Nat
  | 0 => 0
  | month + 1 => daysBeforeMonth year month + (if month = 0 then 0 else daysInMonth year month)

namespace Date

/-- Whether there is such a day, from year 1 to year 9999. -/
def isValid (d : Date) : Bool :=
  1 ≤ d.year && d.year ≤ 9999 && 1 ≤ d.month && d.month ≤ 12 && 1 ≤ d.day
    && d.day ≤ daysInMonth d.year d.month

/-- The date with these parts, if there is such a day. -/
def make? (year month day : Nat) : Option Date :=
  let d : Date := ⟨year, month, day⟩
  if d.isValid then some d else none

/-- The day count of a date. -/
def ordinal (d : Date) : Nat := daysBeforeYear d.year + daysBeforeMonth d.year d.month + d.day

/-- The month and day of a day of the year, counted from zero; searches the months from one. -/
def monthAndDay (year : Nat) : Nat → Nat → Nat → Nat × Nat
  | 0, month, day => (month, day + 1)
  | fuel + 1, month, day =>
    if day < daysInMonth year month then (month, day + 1)
    else monthAndDay year fuel (month + 1) (day - daysInMonth year month)

/-- The date with a day count. -/
def ofOrdinal (ordinal : Nat) : Date :=
  let n := ordinal - 1
  let n400 := n / 146097
  let r400 := n % 146097
  let n100 := min (r400 / 36524) 3
  let r100 := r400 - n100 * 36524
  let n4 := r100 / 1461
  let r4 := r100 % 1461
  let n1 := min (r4 / 365) 3
  let dayOfYear := r4 - n1 * 365
  let year := n400 * 400 + n100 * 100 + n4 * 4 + n1 + 1
  let (month, day) := monthAndDay year 12 1 dayOfYear
  ⟨year, month, day⟩

/-- The day of the week, Monday being zero. -/
def weekday (d : Date) : Nat := (d.ordinal + 6) % 7

/-- A number that orders dates: year, month and day as its digits. -/
def key (d : Date) : Nat := (d.year * 100 + d.month) * 100 + d.day

/-- Order in time. -/
def le (a b : Date) : Bool := decide (a.key ≤ b.key)

/-- Strict order in time. -/
def lt (a b : Date) : Bool := decide (a.key < b.key)

/-- The usual text, `2024-05-10`. -/
def text (d : Date) : String := padded 4 d.year ++ "-" ++ padded 2 d.month ++ "-" ++ padded 2 d.day

/-- How messages show a date. -/
def literal (d : Date) : String :=
  "datetime.date(" ++ toString d.year ++ ", " ++ toString d.month ++ ", " ++ toString d.day ++ ")"

end Date

end Rulebook.Calendar
