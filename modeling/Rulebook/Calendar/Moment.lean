import Rulebook.Calendar.Date

/-!
# Moments

A date with a time of day to the microsecond and, if known, the distance from universal time.
`Instant` is a point on the time line of universal time, in microseconds; stored times are instants.

## Main definitions

* `Moment` — date, time and offset; `Moment.text` and `Moment.literal`.
* `Instant` — microseconds; `Instant.text`, `Instant.shift?`.
-/

namespace Rulebook.Calendar

/-- A date with a time of day. -/
structure Moment where
  date : Date
  hour : Nat
  minute : Nat
  second : Nat
  microsecond : Nat
  /-- The distance from universal time in microseconds, eastward positive. -/
  offset : Option Int
deriving DecidableEq, Repr

/-- The microseconds of a day. -/
def dayMicroseconds : Nat := 86400000000

namespace Moment

/-- The moment with these parts, if they are a time of a day less than a day from universal time. -/
def make? (date : Option Date) (hour minute second microsecond : Nat) (offset : Option Int) :
    Option Moment :=
  match date with
  | none => none
  | some date =>
    let near := match offset with
      | none => true
      | some n => decide (n.natAbs < dayMicroseconds)
    if hour < 24 && minute < 60 && second < 60 && microsecond < 1000000 && near then
      some ⟨date, hour, minute, second, microsecond, offset⟩
    else none

/-- An offset such as `+02:00`; seconds and microseconds only where there are any. -/
def offsetText (offset : Int) : String :=
  let n := offset.natAbs
  let seconds := n / 1000000
  let micros := n % 1000000
  (if offset < 0 then "-" else "+") ++ padded 2 (seconds / 3600) ++ ":"
    ++ padded 2 (seconds / 60 % 60)
    ++ (if seconds % 60 = 0 && micros = 0 then "" else ":" ++ padded 2 (seconds % 60))
    ++ (if micros = 0 then "" else "." ++ padded 6 micros)

/-- The usual text, `2024-03-15T22:30:00`; microseconds only where there are any. -/
def text (m : Moment) : String :=
  m.date.text ++ "T" ++ padded 2 m.hour ++ ":" ++ padded 2 m.minute ++ ":" ++ padded 2 m.second
    ++ (if m.microsecond = 0 then "" else "." ++ padded 6 m.microsecond)
    ++ (match m.offset with
      | none => ""
      | some offset => offsetText offset)

/-- How messages show a span of time: days, then seconds and microseconds of the day. -/
def spanLiteral (micros : Int) : String :=
  let days := micros.fdiv dayMicroseconds
  let rest := (micros - days * dayMicroseconds).toNat
  let parts :=
    (if days = 0 then [] else ["days=" ++ toString days])
    ++ (if rest / 1000000 = 0 then [] else ["seconds=" ++ toString (rest / 1000000)])
    ++ (if rest % 1000000 = 0 then [] else ["microseconds=" ++ toString (rest % 1000000)])
  "datetime.timedelta(" ++ (if parts.isEmpty then "0" else ", ".intercalate parts) ++ ")"

/-- How messages show a moment; seconds and microseconds only where there are any. -/
def literal (m : Moment) : String :=
  let fields := [m.date.year, m.date.month, m.date.day, m.hour, m.minute]
    ++ (if m.second = 0 && m.microsecond = 0 then [] else [m.second])
    ++ (if m.microsecond = 0 then [] else [m.microsecond])
  let zone := match m.offset with
    | none => []
    | some offset =>
      ["tzinfo=" ++ (if offset = 0 then "datetime.timezone.utc"
        else "datetime.timezone(" ++ spanLiteral offset ++ ")")]
  "datetime.datetime(" ++ ", ".intercalate (fields.map toString ++ zone) ++ ")"

end Moment

/-- A point in time: microseconds from the start of year 1, universal time. -/
structure Instant where
  microseconds : Int
deriving DecidableEq, Repr, Inhabited

namespace Instant

/-- The instant of a date and a time of day in universal time. -/
def ofDate (date : Date) (hour minute second : Nat) : Instant :=
  ⟨Int.ofNat (date.ordinal - 1) * dayMicroseconds
    + Int.ofNat (((hour * 60 + minute) * 60 + second) * 1000000)⟩

/-- The instant of a moment; one without a distance from universal time is taken to be in it. -/
def ofMoment (m : Moment) : Instant :=
  ⟨(ofDate m.date m.hour m.minute m.second).microseconds + m.microsecond - m.offset.getD 0⟩

/-- The first instant after year 9999. -/
def limit : Int := 3652059 * dayMicroseconds

/-- The instant so many microseconds later; none outside the years 1 to 9999. -/
def shift? (t : Instant) (micros : Int) : Option Instant :=
  let n := t.microseconds + micros
  if 0 ≤ n && n < limit then some ⟨n⟩ else none

/-- The date and time of day in universal time. -/
def moment (t : Instant) : Moment :=
  let n := t.microseconds.toNat
  let inDay := n % dayMicroseconds
  let seconds := inDay / 1000000
  { date := Date.ofOrdinal (n / dayMicroseconds + 1)
    hour := seconds / 3600
    minute := seconds / 60 % 60
    second := seconds % 60
    microsecond := inDay % 1000000
    offset := some 0 }

/-- The usual text, `2024-06-01T12:00:00+00:00`. -/
def text (t : Instant) : String := t.moment.text

/-- Order in time. -/
def le (a b : Instant) : Bool := decide (a.microseconds ≤ b.microseconds)

end Instant

end Rulebook.Calendar
