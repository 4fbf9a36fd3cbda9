import Rulebook.Failure

/-!
# Vocabularies

Definitions and requests name fields, operators and kinds of actions by fixed words.  A vocabulary
is a finite type whose members have such a word, its *code*, and perhaps a label for people.  A value
that is no code of a vocabulary is refused in one way for all of them.

## Main definitions

* `Vocabulary` — members, codes and labels.
* `Vocabulary.ofCode?`, `Vocabulary.ofJson?` — the member with a code.
* `Vocabulary.require` — the member with a code, or the refusal.
-/

namespace Rulebook

/-- A finite type whose members have words. -/
class Vocabulary (α : Type) where
  /-- The name of the vocabulary in messages. -/
  title : String
  /-- The members, in the order in which they are listed. -/
  members : List α
  /-- The word for a member. -/
  code : α → String
  /-- The label of a member, in vocabularies that have labels. -/
  label? : α → Option String

namespace Vocabulary

variable {α : Type} [Vocabulary α]

/-- All words of a vocabulary. -/
def codes (α : Type) [Vocabulary α] : List String := (members : List α).map code

/-- The member with a code. -/
def ofCode? (s : String) : Option α := members.find? fun a => code a == s

/-- The member with a code; only a text is one. -/
def ofJson? : Json → Option α
  | .text s => ofCode? s
  | _ => none

/-- The member with a code, or the refusal of the value, which is shown. -/
def require [Host] (j : Json) : Except Failure α :=
  match ofJson? j with
  | some a => .ok a
  | none => .error (.showing j .message (.unknownMember j (title α)))

/-- The label of a member, or its code. -/
def label (a : α) : String := (label? a).getD (code a)

/-- The constant name of a member: its code in capitals. -/
def constant (a : α) : String := String.ofList ((code a).toList.map Char.toUpper)

end Vocabulary

/-- What starts a rule. -/
inductive Trigger where
  | transactionCreated
  | transactionUpdated
  | manual
deriving DecidableEq, Repr, Inhabited

instance : Vocabulary Trigger where
  title := "TriggerType"
  members := [.transactionCreated, .transactionUpdated, .manual]
  code
    | .transactionCreated => "transaction_created"
    | .transactionUpdated => "transaction_updated"
    | .manual => "manual"
  label?
    | .transactionCreated => some "Transaction created"
    | .transactionUpdated => some "Transaction updated"
    | .manual => some "Manual"

/-- How the conditions of a group are combined. -/
inductive Connective where
  | all
  | any
deriving DecidableEq, Repr, Inhabited

instance : Vocabulary Connective where
  title := "LogicOperator"
  members := [.all, .any]
  code
    | .all => "AND"
    | .any => "OR"
  label?
    | .all => some "All conditions (AND)"
    | .any => some "Any condition (OR)"

end Rulebook
