import Rulebook.Number.Binary64

/-!
# JSON values

The values that definitions, requests and answers are made of.  Whole numbers and floating point
numbers are different values, and an object keeps its members in the order in which they were
written, each name once.

## Main definitions

* `Json` — the values.
* `Json.ofPairs` — an object from pairs in which a later value replaces an earlier one.
* `Json.member?` — look-up in an object.
* `Json.isTruthy` — whether a value counts as set.
-/

namespace Rulebook

open Rulebook.Number

/-- A JSON value. -/
inductive Json where
  | null
  | bool (b : Bool)
  | int (n : Int)
  | real (x : Binary64)
  | text (s : String)
  | list (items : List Json)
  | object (members : List (String × Json))
deriving Repr, Inhabited, BEq

namespace Json

/-- Puts a member into a list of members: in place if the name is there, else at the end. -/
def insertMember (name : String) (value : Json) : List (String × Json) → List (String × Json)
  | [] => [(name, value)]
  | (n, v) :: rest =>
    if n = name then (name, value) :: rest else (n, v) :: insertMember name value rest

/-- An object from pairs in the order written; the last value of a name stands. -/
def ofPairs (pairs : List (String × Json)) : Json :=
  .object (pairs.foldl (fun members (name, value) => insertMember name value members) [])

/-- The value of a member; nothing for values that are no objects. -/
def member? (name : String) : Json → Option Json
  | .object members => members.lookup name
  | _ => none

/-- The value of a member, or null. -/
def member (name : String) (j : Json) : Json := (j.member? name).getD .null

/-- Whether a value counts as set: not null, false, zero or empty. -/
def isTruthy : Json → Bool
  | .null => false
  | .bool b => b
  | .int n => n != 0
  | .real x => x.isNonzero
  | .text s => s != ""
  | .list items => !items.isEmpty
  | .object members => !members.isEmpty

/-- Whether the value is null. -/
def isNull : Json → Bool
  | .null => true
  | _ => false

/-- The items of a list. -/
def items? : Json → Option (List Json)
  | .list items => some items
  | _ => none

/-- Null for nothing. -/
def ofOption {α : Type} (f : α → Json) : Option α → Json
  | some a => f a
  | none => .null

/-- A text or null. -/
def ofText? (s : Option String) : Json := ofOption .text s

/-- The numeric position of a value that counts as a number: truth values are one and zero. -/
def number? : Json → Option Binary64
  | .bool b => some (Binary64.ofInt (if b then 1 else 0))
  | .int n => some (Binary64.ofInt n)
  | .real x => some x
  | _ => none

@[simp] theorem member?_object_nil (name : String) : member? name (.object []) = none := rfl

@[simp] theorem isTruthy_bool (b : Bool) : (Json.bool b).isTruthy = b := rfl

end Json

end Rulebook
