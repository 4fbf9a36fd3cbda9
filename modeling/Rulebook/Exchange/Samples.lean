import Rulebook.Action.Vocabulary
import Rulebook.Condition.Vocabulary
import Rulebook.Vocabulary

/-!
# Sample rules

Three definitions that show the common uses: tagging, sorting into categories and marking.

## Main definitions

* `sampleRules` — the definitions.
* `sampleFile` — the samples as a file to import.
-/

namespace Rulebook

/-- A condition of a sample. -/
def sampleCondition (field : Field) (op : Operator) (value : String) : Json :=
  .object
    [("field", .text (Vocabulary.code field)), ("operator", .text (Vocabulary.code op)),
      ("value", .text value)]

/-- A group of conditions of a sample. -/
def sampleGroup (connective : Connective) (conditions : List Json) : Json :=
  .object
    [("logic_operator", .text (Vocabulary.code connective)), ("conditions", .list conditions)]

/-- An action of a sample. -/
def sampleAction (kind : ActionKind) (value : Option String) : Json :=
  .object [("action_type", .text (Vocabulary.code kind)), ("value", .ofText? value)]

/-- A sample for new transactions with one group of conditions. -/
def sampleRule (name : String) (stops : Bool) (group : Json) (actions : List Json) : Json :=
  .object
    ([("name", .text name),
        ("trigger_type", .text (Vocabulary.code Trigger.transactionCreated))]
      ++ (if stops then [("stop_processing", .bool true)] else [])
      ++ [("condition_groups", .list [group]), ("actions", .list actions)])

/-- The sample rules. -/
def sampleRules : List Json :=
  [sampleRule "Tag large expenses" false
      (sampleGroup .all [sampleCondition .amount .less "-500"])
      [sampleAction .createTag (some "Large expense"),
        sampleAction .sendNotification (some "Large expense booked")],
    sampleRule "Groceries" true
      (sampleGroup .any
        [sampleCondition .description .contains "lidl",
          sampleCondition .description .contains "kaufland",
          sampleCondition .partner .regex "^(billa|tesco)"])
      [sampleAction .createCategory (some "Groceries")],
    sampleRule "Salary" false
      (sampleGroup .all
        [sampleCondition .amount .greater "0",
          sampleCondition .description .wildcard "*salary*"])
      [sampleAction .setType (some "deposit"), sampleAction .createCategory (some "Income"),
        sampleAction .markReconciled none]]

/-- The sample rules of a user as a file to import. -/
def sampleFile (email : String) : Json :=
  .object
    [("user_email", .text email),
      ("rule_groups",
        .list
          [.object
            [("name", .text "Sample rules"), ("order", .int 0), ("is_active", .bool true),
              ("rules", .list sampleRules)]])]

end Rulebook
