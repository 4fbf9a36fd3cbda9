/-!
# Tables of code points

A character class is a list of ranges of code points in ascending order, and a case mapping a list of
runs in ascending order.  Both are searched from the front and the search stops at the first entry
that lies beyond the code point, so that common characters are found early.

## Main definitions

* `Ranges.covers` — membership in a character class.
* `Shifts.apply` — the image of a code point under a case mapping.
-/

namespace Rulebook.Text

/-- Ranges of code points, both ends included, in ascending order. -/
abbrev Ranges := List (Nat × Nat)

/-- Whether a code point lies in one of the ranges. -/
def Ranges.covers : Ranges → Nat → Bool
  | [], _ => false
  | (first, last) :: rest, n =>
    if n < first then false
    else if n ≤ last then true
    else Ranges.covers rest n

/-- A run of code points, `first`, `first + step`, … up to `last`, that all move by `offset`. -/
structure Shift where
  first : Nat
  last : Nat
  step : Nat
  offset : Int
deriving Repr, DecidableEq

/-- Runs of a case mapping in ascending order. -/
abbrev Shifts := List Shift

/-- Whether the run moves the code point. -/
def Shift.moves (run : Shift) (n : Nat) : Bool :=
  run.first ≤ n && n ≤ run.last && (n - run.first) % run.step == 0

/-- The image of a code point; a code point in no run stays as it is. -/
def Shifts.apply : Shifts → Nat → Nat
  | [], n => n
  | run :: rest, n =>
    if n < run.first then n
    else if run.moves n then (Int.ofNat n + run.offset).toNat
    else Shifts.apply rest n

/-- The code points other than the image itself that the mapping takes to a given image. -/
def Shifts.preimages (runs : Shifts) (image : Nat) : List Nat :=
  runs.filterMap fun run =>
    let source := (Int.ofNat image - run.offset).toNat
    if run.moves source then some source else none

end Rulebook.Text
