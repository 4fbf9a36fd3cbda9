import Rulebook.Vocabulary

/-!
# The words of conditions

A condition compares a field of a transaction with a text by an operator.  Each field has a kind of
value, and an operator accepts some kinds.

## Main definitions

* `ValueKind`, `Field`, `Operator` — the vocabularies.
* `Field.kind` — the kind of a field's value.
* `Operator.accepts` — the kinds that an operator can be used with.
-/

namespace Rulebook

/-- The kind of a field's value. -/
inductive ValueKind where
  | text
  | number
  | date
  | relation
  | tags
deriving DecidableEq, Repr, Inhabited

instance : Vocabulary ValueKind where
  title := "ValueType"
  members := [.text, .number, .date, .relation, .tags]
  code
    | .text => "string"
    | .number => "numeric"
    | .date => "date"
    | .relation => "relation"
    | .tags => "tag_set"
  label? _ := none

/-- A field of a transaction. -/
inductive Field where
  | amount
  | description
  | partner
  | category
  | merchant
  | account
  | type
  | note
  | recipientNote
  | place
  | targetIban
  | sourceIban
  | date
  | tags
deriving DecidableEq, Repr, Inhabited

instance : Vocabulary Field where
  title := "ConditionField"
  members :=
    [.amount, .description, .partner, .category, .merchant, .account, .type, .note, .recipientNote,
      .place, .targetIban, .sourceIban, .date, .tags]
  code
    | .amount => "amount"
    | .description => "description"
    | .partner => "partner"
    | .category => "category"
    | .merchant => "merchant"
    | .account => "account"
    | .type => "type"
    | .note => "note"
    | .recipientNote => "recipient_note"
    | .place => "place"
    | .targetIban => "target_iban"
    | .sourceIban => "source_iban"
    | .date => "date"
    | .tags => "tags"
  label?
    | .amount => some "Amount"
    | .description => some "Description"
    | .partner => some "Partner"
    | .category => some "Category"
    | .merchant => some "Merchant"
    | .account => some "Account"
    | .type => some "Type"
    | .note => some "Note"
    | .recipientNote => some "Recipient note"
    | .place => some "Place"
    | .targetIban => some "Target IBAN"
    | .sourceIban => some "Source IBAN"
    | .date => some "Booked date"
    | .tags => some "Tags"

/-- The kind of a field's value. -/
def Field.kind : Field → ValueKind
  | .amount => .number
  | .date => .date
  | .category | .merchant | .account => .relation
  | .tags => .tags
  | _ => .text

/-- How a field is compared with a text. -/
inductive Operator where
  | equals
  | notEquals
  | contains
  | notContains
  | startsWith
  | endsWith
  | greater
  | greaterOrEqual
  | less
  | lessOrEqual
  | regex
  | wildcard
  | isEmpty
  | isNotEmpty
  | inList
  | notInList
  | between
deriving DecidableEq, Repr, Inhabited

instance : Vocabulary Operator where
  title := "ConditionOperator"
  members :=
    [.equals, .notEquals, .contains, .notContains, .startsWith, .endsWith, .greater,
      .greaterOrEqual, .less, .lessOrEqual, .regex, .wildcard, .isEmpty, .isNotEmpty, .inList,
      .notInList, .between]
  code
    | .equals => "equals"
    | .notEquals => "not_equals"
    | .contains => "contains"
    | .notContains => "not_contains"
    | .startsWith => "starts_with"
    | .endsWith => "ends_with"
    | .greater => "greater_than"
    | .greaterOrEqual => "greater_than_or_equal"
    | .less => "less_than"
    | .lessOrEqual => "less_than_or_equal"
    | .regex => "regex"
    | .wildcard => "wildcard"
    | .isEmpty => "is_empty"
    | .isNotEmpty => "is_not_empty"
    | .inList => "in"
    | .notInList => "not_in"
    | .between => "between"
  label?
    | .equals => some "Equals"
    | .notEquals => some "Does not equal"
    | .contains => some "Contains"
    | .notContains => some "Does not contain"
    | .startsWith => some "Starts with"
    | .endsWith => some "Ends with"
    | .greater => some "Greater than"
    | .greaterOrEqual => some "Greater than or equal"
    | .less => some "Less than"
    | .lessOrEqual => some "Less than or equal"
    | .regex => some "Matches regex"
    | .wildcard => some "Matches wildcard"
    | .isEmpty => some "Is empty"
    | .isNotEmpty => some "Is not empty"
    | .inList => some "In list"
    | .notInList => some "Not in list"
    | .between => some "Between"

/-- The kinds that texts can be compared with. -/
def ValueKind.isTextual : ValueKind → Bool
  | .text | .relation | .tags => true
  | .number | .date => false

/-- Whether the operator can be used with a kind of value. -/
def Operator.accepts (op : Operator) (kind : ValueKind) : Bool :=
  match op with
  | .equals | .notEquals | .isEmpty | .isNotEmpty | .inList | .notInList => true
  | .contains | .notContains | .startsWith | .endsWith | .regex | .wildcard => kind.isTextual
  | .greater | .greaterOrEqual | .less | .lessOrEqual | .between => !kind.isTextual

/-- The kinds that the operator accepts. -/
def Operator.acceptedKinds (op : Operator) : List ValueKind :=
  (Vocabulary.members : List ValueKind).filter op.accepts

end Rulebook
