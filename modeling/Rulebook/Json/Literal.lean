import Rulebook.Json.Value
import Rulebook.Number.Reading
import Rulebook.Text.Quoted

/-!
# Literal forms

How messages show a value: texts between quotes, the constants as `None`, `True` and `False`, lists
and objects in brackets with their entries in literal form.  `display` is the same except that a
text stands for itself.

Not every value can be shown: a whole number may have too many digits, and the parts of a value may
be nested more deeply than there is room for.

## Main definitions

* `Json.literal` — the literal form of a value.
* `Json.display` — the plain form: a text as it is, anything else in literal form.
* `Json.showFault?` — why a value cannot be shown.
-/

namespace Rulebook.Json

open Rulebook.Number Rulebook.Text

mutual

/-- The literal form of a value. -/
def literal : Json → String
  | .null => "None"
  | .bool b => if b then "True" else "False"
  | .int n => toString n
  | .real x => x.text
  | .text s => quoted s
  | .list items => "[" ++ ", ".intercalate (literalItems items) ++ "]"
  | .object members => "\x7b" ++ ", ".intercalate (literalMembers members) ++ "\x7d"

/-- The literal forms of the items. -/
def literalItems : List Json → List String
  | [] => []
  | item :: items => literal item :: literalItems items

/-- The literal forms of the members. -/
def literalMembers : List (String × Json) → List String
  | [] => []
  | (name, value) :: members => (quoted name ++ ": " ++ literal value) :: literalMembers members

end

/-- The plain form of a value. -/
def display : Json → String
  | .text s => s
  | j => j.literal

@[simp] theorem display_text (s : String) : display (.text s) = s := rfl

/-! ## Values that cannot be shown -/

/-- Why a value cannot be shown. -/
inductive ShowFault where
  /-- The parts of the value are nested too deeply. -/
  | tooDeep
  /-- A whole number has more digits than are written. -/
  | longInteger
deriving DecidableEq, Repr

mutual

/-- The first fault when a value is shown that may have so many levels. -/
def showFault? (room : Nat) (j : Json) : Option ShowFault :=
  match room, j with
  | 0, _ => some .tooDeep
  | _ + 1, .int n => if isShort n then none else some .longInteger
  | room + 1, .list items => itemsShowFault? room items
  | room + 1, .object members => membersShowFault? room members
  | _ + 1, _ => none

/-- The first fault when items are shown. -/
def itemsShowFault? (room : Nat) (items : List Json) : Option ShowFault :=
  match items with
  | [] => none
  | item :: items => (showFault? room item).or (itemsShowFault? room items)

/-- The first fault when members are shown. -/
def membersShowFault? (room : Nat) (members : List (String × Json)) : Option ShowFault :=
  match members with
  | [] => none
  | (_, value) :: members => (showFault? room value).or (membersShowFault? room members)

end

end Rulebook.Json
