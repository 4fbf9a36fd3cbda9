import Rulebook.Failure

/-!
# Schemas

The shape that a JSON value must have.  Checking a value against a schema gives all complaints, each
with the path of the value that it is about; the one that is reported is the complaint nearest to
the root, and of these the one whose path comes last.

Every complaint is put into words, those that are not reported too.  A value that cannot be shown
therefore ends the check.

## Main definitions

* `Schema` — shapes.
* `Schema.complaints` — what is wrong with a value.
* `Schema.verdict` — the complaint that is reported.
-/

namespace Rulebook

open Rulebook.Number

/-- The types of JSON values. -/
inductive JsonType where
  | text
  | number
  | integer
  | boolean
  | null
  | list
  | object
deriving DecidableEq, Repr

namespace JsonType

/-- The word for a type. -/
def word : JsonType → String
  | .text => "string"
  | .number => "number"
  | .integer => "integer"
  | .boolean => "boolean"
  | .null => "null"
  | .list => "array"
  | .object => "object"

/-- Whether a value is of a type.  A floating point number without a fraction is an integer; truth
values are no numbers. -/
def holds : JsonType → Json → Bool
  | .text, .text _ => true
  | .number, .int _ => true
  | .number, .real _ => true
  | .integer, .int _ => true
  | .integer, .real x => x.isWhole
  | .boolean, .bool _ => true
  | .null, .null => true
  | .list, .list _ => true
  | .object, .object _ => true
  | _, _ => false

end JsonType

/-- A shape of JSON values. -/
inductive Schema where
  /-- A value of one of the types. -/
  | oneOfTypes (types : List JsonType)
  /-- A text of at least and at most so many characters. -/
  | boundedText (least most : Nat)
  /-- One of some texts. -/
  | oneOf (options : List String)
  /-- A list whose entries have a shape. -/
  | listOf (entry : Schema)
  /-- An object with required members and shapes for some. -/
  | record (required : List String) (members : List (String × Schema))

/-- A step of a path: the name of a member or the place of an entry. -/
inductive PathStep where
  | name (s : String)
  | place (n : Nat)
deriving DecidableEq, Repr

namespace PathStep

/-- The text of a step. -/
def text : PathStep → String
  | .name s => s
  | .place n => toString n

/-- Order of steps: names by code points, places by number. -/
def lt : PathStep → PathStep → Bool
  | .name s, .name t => decide (s.toList < t.toList)
  | .place m, .place n => decide (m < n)
  | .place _, .name _ => true
  | .name _, .place _ => false

end PathStep

/-- Order of paths: the first difference decides, and a beginning comes before the whole. -/
def pathLt : List PathStep → List PathStep → Bool
  | [], [] => false
  | [], _ :: _ => true
  | _ :: _, [] => false
  | a :: as, b :: bs => if a = b then pathLt as bs else a.lt b

/-- Something that is wrong with a part of a value. -/
structure Complaint where
  path : List PathStep
  /-- The value that the message shows. -/
  shown : Json
  message : String
deriving Repr

namespace Complaint

/-- The complaint with its place in front, if it is not about the whole value. -/
def text (c : Complaint) : String :=
  if c.path.isEmpty then c.message
  else ".".intercalate (c.path.map PathStep.text) ++ ": " ++ c.message

/-- Whether a complaint is to be reported rather than another: the shorter path, then the later. -/
def outranks (c d : Complaint) : Bool :=
  c.path.length < d.path.length || (c.path.length == d.path.length && pathLt d.path c.path)

/-- The complaint one level further from the root. -/
def below (step : PathStep) (c : Complaint) : Complaint := { c with path := step :: c.path }

/-- The failure of putting the complaint into words. -/
def hidden? [Host] (c : Complaint) : Option Failure := c.shown.hidden? (.complaint c.path.length)

end Complaint

namespace Schema

/-- The complaint about a value of the wrong type. -/
def typeComplaint (types : List JsonType) (j : Json) : Complaint :=
  ⟨[], j, j.literal ++ " is not of type "
    ++ ", ".intercalate (types.map fun t => Text.quoted t.word)⟩

/-- Complaints about the entries of a list, from a place on. -/
def entryComplaints (check : Json → List Complaint) : Nat → List Json → List Complaint
  | _, [] => []
  | n, j :: rest => (check j).map (·.below (.place n)) ++ entryComplaints check (n + 1) rest

mutual

/-- What is wrong with a value. -/
def complaints : Schema → Json → List Complaint
  | .oneOfTypes types, j => if types.any (·.holds j) then [] else [typeComplaint types j]
  | .boundedText least most, j =>
    match j with
    | .text s =>
      (if s.length < least then [⟨[], j, j.literal ++ " should be non-empty"⟩] else [])
        ++ (if most < s.length then [⟨[], j, j.literal ++ " is too long"⟩] else [])
    | j => [typeComplaint [.text] j]
  | .oneOf options, j =>
    match j with
    | .text s => if options.contains s then [] else [notListed options j]
    | j => [notListed options j]
  | .listOf entry, j =>
    match j with
    | .list items => entryComplaints entry.complaints 0 items
    | j => [typeComplaint [.list] j]
  | .record required members, j =>
    match j with
    | .object values =>
      (required.filter fun name => (values.lookup name).isNone).map missing
        ++ memberComplaints members values
    | j => [typeComplaint [.object] j]
where
  /-- The complaint about a value that is none of the texts. -/
  notListed (options : List String) (j : Json) : Complaint :=
    ⟨[], j, j.literal ++ " is not one of " ++ (Json.list (options.map .text)).literal⟩
  /-- The complaint about a missing member. -/
  missing (name : String) : Complaint :=
    ⟨[], .text name, Text.quoted name ++ " is a required property"⟩

/-- What is wrong with the members that have a shape. -/
def memberComplaints : List (String × Schema) → List (String × Json) → List Complaint
  | [], _ => []
  | (name, schema) :: rest, values =>
    (match values.lookup name with
      | some j => (schema.complaints j).map (·.below (.name name))
      | none => [])
      ++ memberComplaints rest values

end

/-- The complaint of the highest rank, and of several the first. -/
def foremost (complaints : List Complaint) : Option Complaint :=
  complaints.foldl
    (fun best c => match best with
      | none => some c
      | some b => if c.outranks b then some c else some b)
    none

/-- The complaint that is reported, after all of them were put into words. -/
def verdict [Host] (schema : Schema) (j : Json) : Except Failure (Option Complaint) :=
  match (schema.complaints j).findSome? Complaint.hidden? with
  | none => .ok (foremost (schema.complaints j))
  | some failure => .error failure

end Schema

end Rulebook
