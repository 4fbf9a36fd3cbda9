import Rulebook.Json.Value
import Rulebook.Text.Quoted

/-!
# Writing JSON

Two layouts of a value: on one line, and one member a line with an indentation of two spaces.
Everything outside printable ASCII is escaped, characters beyond the first plane as two escapes.

## Main definitions

* `Json.compact` — the value on one line.
* `Json.pretty` — the value over several lines.
-/

namespace Rulebook.Json

open Rulebook.Number Rulebook.Text

/-- One escape of four hexadecimal digits. -/
def unitEscape (n : Nat) : List Char := '\\' :: 'u' :: hexDigits 4 n

/-- How a character stands in a JSON text. -/
def escapeChar (c : Char) : List Char :=
  if c = '"' then ['\\', '"']
  else if c = '\\' then ['\\', '\\']
  else if c = '\n' then ['\\', 'n']
  else if c = '\r' then ['\\', 'r']
  else if c = '\t' then ['\\', 't']
  else if c.toNat = 0xc then ['\\', 'f']
  else if c.toNat = 0x8 then ['\\', 'b']
  else if 0x20 ≤ c.toNat && c.toNat ≤ 0x7e then [c]
  else if c.toNat < 0x10000 then unitEscape c.toNat
  else
    let n := c.toNat - 0x10000
    unitEscape (0xd800 + n / 0x400) ++ unitEscape (0xdc00 + n % 0x400)

/-- A text between double quotes. -/
def writeText (s : String) : List Char := '"' :: s.toList.flatMap escapeChar ++ ['"']

/-- The text of a floating point number; the values that are no numbers have names. -/
def writeReal : Binary64 → List Char
  | .nan => "NaN".toList
  | .infinite negative => if negative then "-Infinity".toList else "Infinity".toList
  | x => x.text.toList

/-- A whole number in base ten. -/
def writeInt (n : Int) : List Char :=
  if n < 0 then '-' :: Nat.toDigits 10 n.natAbs else Nat.toDigits 10 n.natAbs

/-- How a layout breaks lines: what follows an opening bracket, a comma, and what precedes a closing
bracket, at each depth. -/
structure Layout where
  /-- After an opening bracket. -/
  opening : Nat → List Char
  /-- Between two entries. -/
  separator : Nat → List Char
  /-- Before a closing bracket. -/
  closing : Nat → List Char

/-- A line break and the indentation of a depth. -/
def lineBreak (depth : Nat) : List Char := '\n' :: List.replicate (2 * depth) ' '

/-- Everything on one line. -/
def Layout.oneLine : Layout where
  opening _ := []
  separator _ := [',', ' ']
  closing _ := []

/-- One entry a line. -/
def Layout.indented : Layout where
  opening depth := lineBreak (depth + 1)
  separator depth := ',' :: lineBreak (depth + 1)
  closing depth := lineBreak depth

mutual

/-- The value in a layout, at a depth. -/
def write (layout : Layout) (depth : Nat) : Json → List Char
  | .null => "null".toList
  | .bool b => if b then "true".toList else "false".toList
  | .int n => writeInt n
  | .real x => writeReal x
  | .text s => writeText s
  | .list [] => ['[', ']']
  | .list (item :: items) =>
    '[' :: layout.opening depth ++ write layout (depth + 1) item
      ++ writeItems layout depth items ++ layout.closing depth ++ [']']
  | .object [] => ['\x7b', '\x7d']
  | .object (member :: members) =>
    '\x7b' :: layout.opening depth ++ writeMember layout depth member
      ++ writeMembers layout depth members ++ layout.closing depth ++ ['\x7d']

/-- The items after the first. -/
def writeItems (layout : Layout) (depth : Nat) : List Json → List Char
  | [] => []
  | item :: items =>
    layout.separator depth ++ write layout (depth + 1) item ++ writeItems layout depth items

/-- A member with its name. -/
def writeMember (layout : Layout) (depth : Nat) : String × Json → List Char
  | (name, value) => writeText name ++ ':' :: ' ' :: write layout (depth + 1) value

/-- The members after the first. -/
def writeMembers (layout : Layout) (depth : Nat) : List (String × Json) → List Char
  | [] => []
  | member :: members =>
    layout.separator depth ++ writeMember layout depth member ++ writeMembers layout depth members

end

/-- The value on one line. -/
def compact (j : Json) : String := String.ofList (j.write .oneLine 0)

/-- The value with one entry a line. -/
def pretty (j : Json) : String := String.ofList (j.write .indented 0)

end Rulebook.Json
