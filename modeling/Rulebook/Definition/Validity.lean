import Rulebook.Action.Value
import Rulebook.Condition.Vocabulary
import Rulebook.Definition.Schema
import Rulebook.Json.Access

/-!
# Valid definitions

A definition is checked before it is stored or previewed.  First its shape is checked, and the most
important complaint is reported; then the operators must accept the kinds of their fields and the
values must fit the actions, and all complaints are reported together.

## Main definitions

* `definitionSchema` — the shape of a definition.
* `checkDefinition` — refuses a definition that is not valid.
-/

namespace Rulebook

/-- The shape of a condition. -/
def conditionSchema : Schema :=
  .record ["field", "operator"]
    [("field", .oneOf (Vocabulary.codes Field)),
      ("operator", .oneOf (Vocabulary.codes Operator)),
      ("value", .oneOfTypes [.text, .number, .null]),
      ("is_case_sensitive", .oneOfTypes [.boolean]),
      ("is_negated", .oneOfTypes [.boolean])]

/-- The shape of a group of conditions. -/
def conditionGroupSchema : Schema :=
  .record []
    [("logic_operator", .oneOf (Vocabulary.codes Connective)),
      ("order", .oneOfTypes [.integer]),
      ("conditions", .listOf conditionSchema)]

/-- The shape of an action. -/
def actionSchema : Schema :=
  .record ["action_type"]
    [("action_type", .oneOf (Vocabulary.codes ActionKind)),
      ("value", .oneOfTypes [.text, .integer, .null]),
      ("stop_processing", .oneOfTypes [.boolean])]

/-- The shape of a definition. -/
def definitionSchema : Schema :=
  .record ["name"]
    [("name", .boundedText 1 255),
      ("description", .oneOfTypes [.text]),
      ("trigger_type", .oneOf (Vocabulary.codes Trigger)),
      ("order", .oneOfTypes [.integer]),
      ("is_active", .oneOfTypes [.boolean]),
      ("stop_processing", .oneOfTypes [.boolean]),
      ("condition_groups", .listOf conditionGroupSchema),
      ("actions", .listOf actionSchema)]

/-- The refusal of a definition. -/
def invalidDefinition (errors : List String) : Failure :=
  .definition ("Invalid rule definition: " ++ "; ".intercalate errors) errors

variable [Host]

/-- The complaint about a condition whose operator does not accept its field. -/
def operatorErrors (group place : Nat) (condition : Json) : Except Failure (List String) := do
  let field : Field ← Vocabulary.require (← condition.require "field")
  let op : Operator ← Vocabulary.require (← condition.require "operator")
  if op.accepts field.kind then return []
  else
    return ["condition_groups." ++ toString group ++ ".conditions." ++ toString place
      ++ ": operator '" ++ Vocabulary.code op ++ "' cannot be used with "
      ++ Vocabulary.code field.kind ++ " field '" ++ Vocabulary.code field ++ "'"]

/-- The complaint about an action whose value does not fit. -/
def valueErrors (place : Nat) (action : Json) : Except Failure (List String) := do
  let kind ← action.require "action_type"
  let raw ← action.findOr "value" .null
  match coerceNamed kind (.json raw) with
  | .ok _ => return []
  | .error (.definition message _) => return ["actions." ++ toString place ++ ": " ++ message]
  | .error failure => throw failure

/-- The results of a check on each entry with its place, in order. -/
def flatMapPlaces {α β : Type} (f : Nat → α → Except Failure (List β)) :
    Nat → List α → Except Failure (List β)
  | _, [] => .ok []
  | n, a :: rest => do return (← f n a) ++ (← flatMapPlaces f (n + 1) rest)

/-- Complaints about the operators of a group's conditions. -/
def groupErrors (place : Nat) (group : Json) : Except Failure (List String) := do
  flatMapPlaces (operatorErrors place) 0 (← (← group.findOr "conditions" (.list [])).entries)

/-- Refuses a definition that is not valid. -/
def checkDefinition (definition : Json) : Except Failure Unit := do
  match ← definitionSchema.verdict definition with
  | some complaint => throw (invalidDefinition [complaint.text])
  | none =>
    let groups ← (← definition.findOr "condition_groups" (.list [])).entries
    let actions ← (← definition.findOr "actions" (.list [])).entries
    let errors := (← flatMapPlaces groupErrors 0 groups) ++ (← flatMapPlaces valueErrors 0 actions)
    if errors.isEmpty then return () else throw (invalidDefinition errors)

end Rulebook
