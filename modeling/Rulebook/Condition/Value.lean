import Rulebook.Calendar.Reading
import Rulebook.Number.Decimal
import Rulebook.Json.Literal

/-!
# Field values

What a field of a transaction holds when a condition looks at it, and how it is read as a text, a
number or a date.

## Main definitions

* `FieldValue` — the values.
* `FieldValue.text`, `FieldValue.literal` — the plain text and the form in messages.
* `FieldValue.number?`, `FieldValue.date?` — the value as a number and as a date.
-/

namespace Rulebook

open Rulebook.Number Rulebook.Calendar Rulebook.Text

/-- The value of a field. -/
inductive FieldValue where
  | absent
  | truth (b : Bool)
  | whole (n : Int)
  | real (x : Binary64)
  | amount (d : Decimal)
  | text (s : String)
  | date (d : Date)
  | moment (m : Moment)
  /-- The names of a set of tags. -/
  | names (items : List String)
deriving Repr, DecidableEq

namespace FieldValue

/-- A text that may be missing. -/
def ofText? : Option String → FieldValue
  | some s => .text s
  | none => .absent

/-- The form in messages. -/
def literal : FieldValue → String
  | .absent => "None"
  | .truth b => if b then "True" else "False"
  | .whole n => toString n
  | .real x => x.text
  | .amount d => "Decimal('" ++ d.text ++ "')"
  | .text s => quoted s
  | .date d => d.literal
  | .moment m => m.literal
  | .names items => "[" ++ ", ".intercalate (items.map quoted) ++ "]"

/-- The plain text of a single value. -/
def plain : FieldValue → String
  | .amount d => d.text
  | .text s => s
  | .date d => d.text
  | .moment m => m.text
  | v => v.literal

/-- The texts that a condition compares: one for a single value, one for each tag. -/
def texts : FieldValue → List String
  | .names items => items
  | v => [v.plain]

/-- The value as a number: the number that its text writes.  Truth values are no numbers. -/
def number? : FieldValue → Option Binary64
  | .absent => none
  | .truth _ => none
  | v => readNumber? (strip v.plain)

/-- The value as a date: that of a date or moment, else the one its text names. -/
def date? : FieldValue → Option Date
  | .absent => none
  | .date d => some d
  | .moment m => some m.date
  | v => dateOf? (strip v.plain)

/-- Whether the value is a date or a moment. -/
def isDate : FieldValue → Bool
  | .date _ | .moment _ => true
  | _ => false

/-- Whether there is nothing in the value: no value, no tags, or a blank text. -/
def isBlank : FieldValue → Bool
  | .absent => true
  | .names items => items.isEmpty
  | v => strip v.plain == ""

end FieldValue

end Rulebook
