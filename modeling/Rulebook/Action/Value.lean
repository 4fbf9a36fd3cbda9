import Rulebook.Action.Vocabulary
import Rulebook.Text.Blank
import Rulebook.Text.Digit

/-!
# Values of actions

The value of an action is the number of a row, a text, or nothing.  It is stored as a text.  When an
action is written, what the user gave is first read as JSON, so that `"5"` with quotes is the text
five; then it must fit the action's family.

## Main definitions

* `ActionValue` — the values, and `ActionValue.encode`, their stored text.
* `coerceValue` — the value of an action from what the user gave.
* `readValue` — the value of a stored text.
* `fitsFamily` — whether a value would be accepted, without reading it as JSON.
* `Action` — an action as the engine holds it.
-/

namespace Rulebook

open Rulebook.Text Rulebook.Number

/-- The value of an action. -/
inductive ActionValue where
  | identifier (id : Int)
  | text (s : String)
deriving DecidableEq, Repr

namespace ActionValue

/-- The stored text. -/
def encode : ActionValue → String
  | .identifier id => toString id
  | .text s => s

/-- The form in messages. -/
def literal : ActionValue → String
  | .identifier id => "Identifier(id=" ++ toString id ++ ")"
  | .text s => "Text(text=" ++ quoted s ++ ")"

/-- The word for the kind of value. -/
def kind : ActionValue → String
  | .identifier _ => "identifier"
  | .text _ => "text"

end ActionValue

/-- The stored text of a value; nothing is stored as nothing. -/
def encodeValue (v : Option ActionValue) : Option String := v.map ActionValue.encode

variable [Host]

/-- The text under which a value is stored, if its number can be written. -/
def ActionValue.store (v : ActionValue) : Except Failure String :=
  match v with
  | .identifier id => (Json.int id).plain .message
  | .text s => .ok s

/-- What the user gave for a value. -/
inductive RawValue where
  | json (j : Json)
  /-- A value that was read before. -/
  | value (v : ActionValue)

/-- The form in messages. -/
def RawValue.literal : RawValue → String
  | .json j => j.literal
  | .value v => v.literal

/-- A failure whose message shows what the user gave, or the failure of showing it. -/
def RawValue.showing (raw : RawValue) (failure : Failure) : Failure :=
  match raw with
  | .json j => .showing j .message failure
  | .value (.identifier id) => .showing (.int id) .message failure
  | .value (.text _) => failure

/-- Unwraps a text that writes a JSON text or whole number; anything else stays as it is.  The
replacement character stands for half of a pair. -/
def decodeRaw (raw : Json) : Except Failure Json :=
  match raw with
  | .text s =>
    if s = "" then .ok raw
    else match Json.readMended (Host.room .value) s with
      | .ok (.text t) => .ok (.text t)
      | .ok (.int n) => .ok (.int n)
      | .ok _ => .ok raw
      | .error .tooDeep => .error .tooDeep
      | .error _ => .ok raw
  | _ => .ok raw

/-- Whether a text is unwrapped that has half of a pair. -/
def enclosesHalf (raw : Json) : Bool :=
  match raw with
  | .text s =>
    match Json.readMended (Host.room .value) s, Json.read (Host.room .value) s with
    | .ok (.text _), .error .loneHalf => true
    | _, _ => false
  | _ => false

/-- The whole number that a text of digits writes; nothing for other texts. -/
def digitsValue? (s : String) : Except Failure (Option Int) :=
  let stripped := stripChars s.toList
  if allDigits stripped then
    match readInteger stripped with
    | .ok n => .ok (some n)
    | .error fault => .error (.ofIntegerFault (String.ofList stripped) fault)
  else .ok none

/-- A positive number as the number of a row. -/
def positive? (n : Int) : Option ActionValue := if 0 < n then some (.identifier n) else none

/-- The number of a row that the user gave, if any. -/
def asIdentifier (raw : RawValue) : Except Failure (Option ActionValue) :=
  match raw with
  | .value (.identifier id) => .ok (some (.identifier id))
  | .value (.text _) => .ok none
  | .json j => do
    match ← decodeRaw j with
    | .int n => return positive? n
    | .text s => return (← digitsValue? s).bind positive?
    | _ => return none

/-- The text that the user gave, if any.  A number stands for the text it was written with. -/
def asText (raw : RawValue) : Except Failure (Option ActionValue) :=
  match raw with
  | .value (.text s) => .ok (some (.text s))
  | .value (.identifier _) => .ok none
  | .json j => do
    match ← decodeRaw j with
    | .int _ => return some (.text (← j.plain .message))
    | .text s => return if s = "" then none else some (.text s)
    | _ => return none

/-- Whether nothing was given. -/
def RawValue.isNothing : RawValue → Bool
  | .json .null => true
  | .json (.text s) => s = ""
  | _ => false

/-- The value of an action of a kind from what the user gave. -/
def coerceValue (kind : ActionKind) (raw : RawValue) : Except Failure (Option ActionValue) := do
  match kind.family with
  | .identifier =>
    match ← asIdentifier raw with
    | some v => return some v
    | none => throw (raw.showing (.definition ("Action '" ++ Vocabulary.code kind
        ++ "' requires a positive numeric identifier, got " ++ raw.literal) []))
  | .text =>
    match ← asText raw with
    | some v => return some v
    | none => throw (.definition ("Action '" ++ Vocabulary.code kind
        ++ "' requires a non-empty text value") [])
  | .valueless => if raw.isNothing then return none else asText raw

/-- The value of an action whose kind is given by any value. -/
def coerceNamed (kind : Json) (raw : RawValue) : Except Failure (Option ActionValue) := do
  coerceValue (← Vocabulary.require kind) raw

/-- The value of what is stored for an action of a kind. -/
def readStored (kind : ActionKind) (stored : String) : Except Failure (Option ActionValue) :=
  if stored = "" then .ok none
  else match kind.family with
    | .identifier => return (← digitsValue? stored).bind positive?
    | _ => .ok (some (.text stored))

/-- The value of what is stored for an action; an unknown kind has none. -/
def readValue (kind stored : Json) : Except Failure (Option ActionValue) :=
  match (Vocabulary.ofJson? kind : Option ActionKind), stored with
  | none, _ => .ok none
  | _, .null => .ok none
  | some kind, stored => do readStored kind (← stored.plain .message)

/-- Whether a value would be accepted for a kind of action. -/
def fitsFamily (kind value : Json) : Except Failure Bool :=
  match (Vocabulary.ofJson? kind : Option ActionKind) with
  | none => .ok false
  | some kind =>
    match kind.family, value with
    | .valueless, _ => .ok true
    | .identifier, .int n => .ok (0 < n)
    | .identifier, .text s => return (← digitsValue? s).any fun n => decide (0 < n)
    | .identifier, _ => .ok false
    | .text, .text s => .ok (s != "")
    | .text, _ => .ok false

/-- An action as the engine holds it.  Actions of stored rules have texts and truth values here;
those of a definition that was not checked have whatever it says. -/
structure Action where
  id : Option Id
  rule : Option Id
  kind : Json
  /-- The stored text, or null. -/
  value : Json
  order : Json
  stopProcessing : Json
deriving Repr, Inhabited

namespace Action

/-- The action with the value that the user gave.  A text with half of a pair fits, but there is no
place for it. -/
def setValue (a : Action) (raw : Json) : Except Failure Action := do
  let v ← coerceNamed a.kind (.json raw)
  if enclosesHalf raw then throw .unencodable
  return { a with value := .ofText? (← v.mapM ActionValue.store) }

/-- The value of the action. -/
def typedValue (a : Action) : Except Failure (Option ActionValue) := readValue a.kind a.value

/-- The action with its stored text written anew; what cannot be written is invalid. -/
def clean (a : Action) : Except Failure Action :=
  match a.setValue a.value with
  | .ok b => .ok b
  | .error .tooDeep => .error .tooDeep
  | .error .unencodable => .error .unencodable
  | .error failure => .error (.invalid [failure.message])

/-- How an action reads. -/
def text (a : Action) : String :=
  a.kind.display ++ ": " ++ (if a.value.isTruthy then a.value.display else "")

end Action

end Rulebook
