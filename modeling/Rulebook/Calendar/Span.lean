import Rulebook.Calendar.Moment
import Rulebook.Json.Access

/-!
# Spans of time

Spans are given as a number of days or seconds, which may have a fraction, and are kept in whole
microseconds.  The whole part of the number counts exactly; its fraction is turned into microseconds
in floating point, and a half microsecond goes to the even neighbour.

## Main definitions

* `spanOf` — the microseconds of a number of units.
* `Instant.after` — the instant at that distance.
-/

namespace Rulebook.Calendar

open Rulebook.Number

/-- The microseconds of a second. -/
def secondMicroseconds : Nat := 1000000

/-- A span may have at most so many days. -/
def spanDayLimit : Int := 999999999

/-- The microseconds of the fraction of a number of units. -/
def fractionMicroseconds (unit : Nat) (negative : Bool) (fraction : Nat) : Int :=
  match Binary64.mul (.finite negative fraction) (.ofInt unit) with
  | .finite negative units =>
    let n := roundHalfEven units Binary64.unitsOfOne
    if negative then -(n : Int) else n
  | _ => 0

/-- Refuses a span that is too long. -/
def checkSpan (micros : Int) : Except Failure Int :=
  let days := micros.fdiv dayMicroseconds
  if -spanDayLimit ≤ days && days ≤ spanDayLimit then .ok micros else .error (.tooLarge .time)

/-- The microseconds of a number of units of so many microseconds. -/
def spanOf (unit : Nat) (count : Json) : Except Failure Int :=
  match count with
  | .bool b => .ok (if b then unit else 0)
  | .int n => checkSpan (n * unit)
  | .real .nan => .error .notWhole
  | .real (.infinite _) => .error (.tooLarge .infinity)
  | .real (.finite negative units) =>
    let whole := units / Binary64.unitsOfOne
    let micros := (if negative then -(whole : Int) else whole) * unit
    checkSpan (micros + fractionMicroseconds unit negative (units % Binary64.unitsOfOne))
  | _ => .error .wrongKind

/-- The instant at a distance, refused outside the calendar. -/
def Instant.after (t : Instant) (micros : Int) : Except Failure Instant :=
  match t.shift? micros with
  | some t => .ok t
  | none => .error (.tooLarge .time)

end Rulebook.Calendar
