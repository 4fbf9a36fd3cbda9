import Rulebook.Failure

/-!
# Taking values apart

Definitions and imported files may hold any JSON value in any place.  These functions take a value
apart where a certain shape is expected and refuse the others: only objects have members, only lists,
objects and texts have entries, and only numbers or texts can be ordered.

## Main definitions

* `Json.find`, `Json.findOr` — a member that may be missing.
* `Json.require` — a member that must be there.
* `Json.entries` — the entries of a list, the names of an object, the characters of a text.
* `Json.sortByKey` — a stable sort.
-/

namespace Rulebook.Json

open Rulebook.Number

/-- The value of a member, if it is there; other values than objects have no members. -/
def find (j : Json) (name : String) : Except Failure (Option Json) :=
  match j with
  | .object members => .ok (members.lookup name)
  | _ => .error .noMembers

/-- The value of a member, or another value if it is missing. -/
def findOr (j : Json) (name : String) (other : Json) : Except Failure Json :=
  return (← j.find name).getD other

/-- The value of a member that must be there. -/
def require (j : Json) (name : String) : Except Failure Json :=
  match j with
  | .object members =>
    match members.lookup name with
    | some value => .ok value
    | none => .error (.missingMember name)
  | _ => .error .wrongKind

/-- The entries of a value that has some. -/
def entries : Json → Except Failure (List Json)
  | .list items => .ok items
  | .object members => .ok (members.map fun member => .text member.1)
  | .text s => .ok (s.toList.map fun c => .text (String.singleton c))
  | _ => .error .wrongKind

/-- A place on the number line: below, on or above the finite numbers, and where on it. -/
def place? : Json → Option (Option (Int × Int))
  | .bool b => some (some (0, if b then Binary64.unitsOfOne else 0))
  | .int n => some (some (0, n * Binary64.unitsOfOne))
  | .real .nan => some none
  | .real (.infinite negative) => some (some (if negative then -1 else 1, 0))
  | .real (.finite negative units) => some (some (0, if negative then -(units : Int) else units))
  | _ => none

/-- Whether one value comes before another: numbers in their order, texts by code points. -/
def less (a b : Json) : Except Failure Bool :=
  match a, b with
  | .text s, .text t => .ok (decide (s.toList < t.toList))
  | _, _ =>
    match a.place?, b.place? with
    | some (some (r, x)), some (some (s, y)) => .ok (decide (r < s) || (r = s && decide (x < y)))
    | some _, some _ => .ok false
    | _, _ => .error .wrongKind

/-- Whether two values are the same number, truth values counting as one and zero, or the same
text, or both null. -/
def sameScalar (a b : Json) : Bool :=
  match a, b with
  | .null, .null => true
  | .text s, .text t => s == t
  | _, _ =>
    match a.place?, b.place? with
    | some (some p), some (some q) => p == q
    | _, _ => false

variable {α : Type}

/-- Puts an entry behind all that do not come after it. -/
def insertByKey (key : Json) (a : α) : List (Json × α) → Except Failure (List (Json × α))
  | [] => .ok [(key, a)]
  | (k, b) :: rest => do
    if ← key.less k then return (key, a) :: (k, b) :: rest
    else return (k, b) :: (← insertByKey key a rest)

/-- The entries in the order of their keys; entries of equal keys stay in their order. -/
def sortByKey (entries : List (Json × α)) : Except Failure (List α) := do
  let sorted ← entries.foldlM (fun done (key, a) => insertByKey key a done) []
  return sorted.map (·.2)

end Rulebook.Json
