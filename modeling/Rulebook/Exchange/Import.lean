import Rulebook.Exchange.Payload
import Rulebook.Json.Reader
import Rulebook.Service.Management

/-!
# Importing rules

An import reads groups of rules from a text.  Groups are found by name or added, and each rule
replaces those of the same name in its group.  A rule whose definition is refused is reported and
does not keep the others from being imported.

## Main definitions

* `ImportOutcome` — how many rules were imported and which were not, or why nothing was read.
* `importRules` — imports a text for a user.
-/

namespace Rulebook

/-- What an import did. -/
inductive ImportOutcome where
  /-- The text could not be used. -/
  | unreadable (reason : String)
  | finished (imported : Nat) (errors : List String)
deriving Repr, Inhabited

namespace ImportOutcome

/-- An outcome as JSON. -/
def toJson : ImportOutcome → Json
  | .unreadable reason => .object [("error", .text reason)]
  | .finished imported errors =>
    .object [("imported", .int imported), ("errors", .list (errors.map .text))]

/-- The outcome with one more rule, which was imported or refused for a reason. -/
def count (o : ImportOutcome) (refusal : Option String) : ImportOutcome :=
  match o, refusal with
  | .finished imported errors, none => .finished (imported + 1) errors
  | .finished imported errors, some reason => .finished imported (errors ++ [reason])
  | o, _ => o

end ImportOutcome

variable [Host]

/-- Imports a rule into a group and gives the reason if its definition is refused. -/
def importRule (user group : Id) (definition : Json) : Operation (Option String) :=
  tryCatch
    (do
      let _ ← createRule user definition (some group) true
      return none)
    fun failure => match failure with
      | .definition message _ => do
        let name ← .ofExcept (do (← definition.findOr "name" (.text "Unknown")).plain .message)
        return some ("Error importing rule '" ++ name ++ "': " ++ message)
      | failure => throw failure

/-- The group of a user that an entry names; added as the entry says if there is none. -/
def importGroup (user : Id) (entry : Json) : Operation Id := do
  let name ← .ofExcept (entry.findOr "name" (.text "Imported rules"))
  let description ← .ofExcept (entry.findOr "description" (.text ""))
  let order ← .ofExcept (entry.findOr "order" (.int 0))
  let isActive ← .ofExcept (entry.findOr "is_active" (.bool true))
  findOrAddGroup user name (groupFromColumns user name description order isActive)

/-- Imports the rules of an entry. -/
def importEntry (user : Id) (outcome : ImportOutcome) (entry : Json) : Operation ImportOutcome := do
  let group ← importGroup user entry
  let rules ← .ofExcept (do (← entry.findOr "rules" (.list [])).entries)
  rules.foldlM (fun outcome rule => return outcome.count (← importRule user group rule)) outcome

/-- Imports the groups of a value. -/
def importData (user : Id) (data : Json) : Operation ImportOutcome := do
  match ← .ofExcept (data.findOr "rule_groups" .null) with
  | .list groups => groups.foldlM (importEntry user) (.finished 0 [])
  | _ => return .unreadable "Missing rule_groups in JSON"

/-- The failure that an unreadable text causes, or the reason that is reported. -/
def unreadable (text : String) (fault : Json.ReadFault) : Except Failure String :=
  match fault with
  | .broken .. => .ok ("Invalid JSON: " ++ fault.message text)
  | .longInteger digits => .error (.longNumeral digits)
  | .tooDeep => .error .tooDeep
  | .loneHalf => .error .unencodable

/-- Imports a text for a user. -/
def importRules (user : Id) (text : String) : Operation ImportOutcome := do
  match Json.read (Host.room .file) text with
  | .ok data => importData user data
  | .error fault => return .unreadable (← .ofExcept (unreadable text fault))

end Rulebook
