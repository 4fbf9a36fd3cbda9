import Rulebook.Json.Access
import Rulebook.Number.Reading

/-!
# Columns

How a JSON value becomes the content of a column.  A text column takes any value in its plain form,
if it has one, a number column takes what reads as a whole number, and a truth column takes truth
values and a few ways of writing them.  Null is kept apart, since most columns refuse it.

## Main definitions

* `Column.text`, `Column.whole`, `Column.truth` — the conversions.
* `Column.required` — refuses null.
* `Column.reference` — the number of a row.
-/

namespace Rulebook.Column

open Rulebook.Number

variable [Host]

/-- A value for a text column. -/
def text (j : Json) : Except Failure (Option String) :=
  match j with
  | .null => .ok none
  | j => do return some (← j.plain .message)

/-- A value for a number column of the given name.  Fractions are dropped; a value that is no number
at all is shown. -/
def whole (column : String) (j : Json) : Except Failure (Option Int) :=
  match j with
  | .null => .ok none
  | .bool b => .ok (some (if b then 1 else 0))
  | .int n => .ok (some n)
  | .real .nan => .error (.notNumber column j)
  | .real (.infinite _) => .error (.tooLarge .infinity)
  | .real x => .ok x.truncate?
  | .text s =>
    match readInteger s.toList with
    | .ok n => .ok (some n)
    | .error _ => .error (.notNumber column j)
  | .list _ | .object _ => .error (.showing j .message .wrongKind)

/-- A value for a truth column. -/
def truth (j : Json) : Except Failure (Option Bool) :=
  let other : Except Failure (Option Bool) :=
    .error (.invalid ["“" ++ j.display ++ "” value must be either True or False."])
  match j with
  | .null => .ok none
  | .bool b => .ok (some b)
  | .text s =>
    if s = "t" || s = "True" || s = "1" then .ok (some true)
    else if s = "f" || s = "False" || s = "0" then .ok (some false)
    else other
  | .int n => if n = 1 then .ok (some true) else if n = 0 then .ok (some false) else other
  | .real x =>
    if x.eq (Binary64.ofInt 1) then .ok (some true)
    else if x.eq (Binary64.ofInt 0) then .ok (some false)
    else other
  | .list _ | .object _ => other

/-- The content of a column that must not be null. -/
def required {α : Type} : Option α → Except Failure α
  | some a => .ok a
  | none => .error .missingColumn

/-- Numbers of columns lie strictly within this bound. -/
def bound : Int := 9223372036854775808

/-- Whether a number fits into a column. -/
def fits (n : Int) : Bool := -bound ≤ n && n < bound

/-- Refuses a number that does not fit into a column. -/
def checkFits (n : Int) : Except Failure Int := if fits n then .ok n else .error (.tooLarge .column)

/-- The number of a row, for a look-up. -/
def reference (column : String) (j : Json) : Except Failure (Option Id) := whole column j

/-- The numbers of rows that a value lists; null entries name none. -/
def references (column : String) (j : Json) : Except Failure (List Id) := do
  return (← (← j.entries).mapM (reference column)).filterMap id

/-- Refuses numbers of which one does not fit into a column. -/
def allFit (ids : List Id) : Except Failure (List Id) := ids.mapM checkFits

end Rulebook.Column
