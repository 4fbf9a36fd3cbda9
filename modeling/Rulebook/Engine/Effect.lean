import Rulebook.Action.Value
import Rulebook.Engine.Matching
import Rulebook.Engine.Summary
import Rulebook.Text.Letter

/-!
# Effects of actions

An action is first *planned*: its value is resolved among what the owner of the transaction has,
without changing anything.  The plan is an effect, and only a live run carries it out, so that a
preview follows the same path.

Fields are set on the transaction in memory, and whoever runs the engine saves them; tags, new
labels and notifications take effect at once.

## Main definitions

* `Effect` — what a planned action will do.
* `describe` — an action as a sentence.
* `plan` — the effect of an action, if it can be carried out.
* `Effect.perform` — carries an effect out.
* `runAction` — all of it, with the outcome.
-/

namespace Rulebook

open Rulebook.Text

variable [Host]

/-- The kinds of transactions. -/
def transactionTypes : List String :=
  ["TRANSFER", "CARD_PAYMENT", "EXCHANGE", "PAYMENT", "WITHDRAWAL", "DEPOSIT"]

/-- What a label that the engine adds says about itself. -/
def createdDescription : String := "Created by rule engine"

/-- The message of a notification that has none of its own. -/
def defaultMessage : String := "Rule matched for transaction"

/-- What a planned action will do. -/
inductive Effect where
  | setLabel (role : LabelRole) (id : Id) (label : Label)
  /-- Sets the label of a name, which is added if its owner has none of the name. -/
  | setNamedLabel (role : LabelRole) (name : String) (owner : Id)
  | attachTag (tag : Id)
  | attachNamedTag (name : String) (owner : Id)
  | detachTag (tag : Id)
  | detachAllTags
  | setDescription (s : String)
  | setNote (s : String)
  | setType (s : String)
  | markReconciled
  | notify (rule : Option Id) (message : String)
deriving Repr, DecidableEq

/-! ## Labels -/

/-- The label with a number, looked up once. -/
def cachedLabel (kind : LabelKind) (id : Id) : Operation (Option Label) := do
  match (← get).labels.lookup (kind, id) with
  | some found => return found
  | none =>
    let found := ((← get).store.labels kind).find? id
    modify fun w => { w with labels := ((kind, id), found) :: w.labels }
    return found

/-- The label with a number if it belongs to the owner. -/
def ownedLabel (kind : LabelKind) (value : Option ActionValue) (owner : Id) :
    Operation (Option (Id × Label)) := do
  match value with
  | some (.identifier id) =>
    return (← cachedLabel kind id).bind fun l => if l.user = owner then some (id, l) else none
  | _ => return none

/-- The label of a name, added if its owner has none of the name. -/
def findOrAddLabel (kind : LabelKind) (name : String) (owner : Id) : Operation (Id × Label) := do
  let (id, label) ← match (← get).store.labelNamed? kind owner name with
    | some found => pure found
    | none =>
      let label : Label := ⟨owner, name, createdDescription, none⟩
      let id ← writeResult fun s => s.addLabel kind label
      report (.labelCreated kind id name owner)
      pure (id, label)
  modify fun w => { w with labels := ((kind, id), some label) :: w.labels }
  return (id, label)

/-! ## Descriptions -/

/-- The name of the label that a value names; a label that is not there is shown by its number. -/
def labelText (kind : LabelKind) (value : Option ActionValue) : Operation String := do
  match value with
  | some (.identifier id) =>
    match ← cachedLabel kind id with
    | some label => return label.name
    | none => return kind.title ++ " #" ++ toString id
  | some (.text s) => return s
  | none => return kind.title ++ " (none)"

/-- The text of a value in a description. -/
def valueText (value : Option ActionValue) : String := (encodeValue value).getD "None"

/-- An action of a kind with a value as a sentence. -/
def describeKind (kind : ActionKind) (value : Option ActionValue) : Operation String := do
  match kind with
  | .setCategory => return "Set category to: " ++ (← labelText .category value)
  | .setMerchant => return "Set merchant to: " ++ (← labelText .merchant value)
  | .addTag => return "Add tag: " ++ (← labelText .tag value)
  | .removeTag => return "Remove tag: " ++ (← labelText .tag value)
  | .removeAllTags => return "Remove all tags"
  | .setDescription => return "Set description to: " ++ valueText value
  | .appendDescription => return "Append to description: " ++ valueText value
  | .prependDescription => return "Prepend to description: " ++ valueText value
  | .setNote => return "Set note to: " ++ valueText value
  | .appendNote => return "Append to note: " ++ valueText value
  | .setType => return "Set type to: " ++ valueText value
  | .markReconciled => return "Mark as reconciled"
  | .sendNotification =>
    return if value.isSome then "Send notification: " ++ valueText value else "Send notification"
  | .createTag => return "Create tag if not exists: " ++ valueText value
  | .createCategory => return "Create category if not exists: " ++ valueText value
  | .createMerchant => return "Create merchant if not exists: " ++ valueText value

/-- An action as a sentence. -/
def describe (a : Action) : Operation String := do
  match (Vocabulary.ofJson? a.kind : Option ActionKind) with
  | none => return "Unknown action"
  | some kind => describeKind kind (← .ofExcept a.typedValue)

/-! ## Plans -/

/-- The effect of an action whose value has to be a text. -/
def planText (kind : ActionKind) (t : LiveTransaction) (owner : Id) (s : String) : Option Effect :=
  match kind with
  | .setDescription => some (.setDescription s)
  | .appendDescription => some (.setDescription (t.description.getD "" ++ s))
  | .prependDescription => some (.setDescription (s ++ t.description.getD ""))
  | .setNote => some (.setNote s)
  | .appendNote => some (.setNote (t.note.getD "" ++ s))
  | .setType =>
    let type := upper (strip s)
    if transactionTypes.contains type then some (.setType type) else none
  | .createTag => if t.id.isSome then some (.attachNamedTag s owner) else none
  | .createCategory => some (.setNamedLabel .category s owner)
  | .createMerchant => some (.setNamedLabel .merchant s owner)
  | _ => none

/-- The effect of an action of a kind for an owner. -/
def planKind (kind : ActionKind) (a : Action) (value : Option ActionValue) (t : LiveTransaction)
    (owner : Id) : Operation (Option Effect) := do
  match kind with
  | .setCategory =>
    return (← ownedLabel .category value owner).map fun (id, l) => .setLabel .category id l
  | .setMerchant =>
    return (← ownedLabel .merchant value owner).map fun (id, l) => .setLabel .merchant id l
  | .addTag =>
    let tag ← ownedLabel .tag value owner
    return if t.id.isSome then tag.map fun (id, _) => .attachTag id else none
  | .removeTag => return (← ownedLabel .tag value owner).map fun (id, _) => .detachTag id
  | .removeAllTags => return some .detachAllTags
  | .markReconciled => return some .markReconciled
  | .sendNotification => return some (.notify a.rule ((encodeValue value).getD defaultMessage))
  | kind =>
    match value with
    | some (.text s) => return planText kind t owner s
    | _ => return none

/-- The effect of an action on a transaction; nothing can be done to one without an owner. -/
def plan (kind : ActionKind) (a : Action) (h : Handle) : Operation (Option Effect) := do
  let value ← .ofExcept a.typedValue
  match ← ownerOf h with
  | none => return none
  | some owner => planKind kind a value (← transaction h) owner

/-! ## Performing effects -/

/-- Puts a tag on a transaction. -/
def putTag (h : Handle) (tag : Id) : Operation Unit := do
  match (← transaction h).id with
  | some id => write (·.addLink id tag)
  | none => return ()

/-- Takes the tags that satisfy a test off a transaction. -/
def takeTags (h : Handle) (test : Id → Bool) : Operation Unit := do
  match (← transaction h).id with
  | some id =>
    write fun s =>
      { s with links := s.links.remove fun _ l => l.transaction = id && test l.tag }
  | none => return ()

/-- Sends a notification to all receivers.  A receiver that fails does not keep the others from
receiving it. -/
def sendNotification (h : Handle) (rule : Option Id) (message : String) : Operation Unit := do
  let id := (← transaction h).id
  report (.notified rule id message)
  modify fun w =>
    let n : Notification := ⟨rule, id, message⟩
    { w with
      notifications := n :: w.notifications
      receivers := w.receivers.map (·.tell n)
      events := (w.receivers.filter (·.fails n)).map (fun _ => .receiverFailed) ++ w.events }

/-- The field for a role. -/
def LabelRole.field : LabelRole → TransactionField
  | .category => .category
  | .merchant => .merchant

/-- Carries an effect out and gives the fields that it changed. -/
def Effect.perform (h : Handle) : Effect → Operation (List TransactionField)
  | .setLabel role id label => do
    change h (role.set (.known id label))
    return [role.field]
  | .setNamedLabel role name owner => do
    let (id, label) ← findOrAddLabel role.kind name owner
    change h (role.set (.known id label))
    return [role.field]
  | .attachTag tag => do
    putTag h tag
    return []
  | .attachNamedTag name owner => do
    let (tag, _) ← findOrAddLabel .tag name owner
    putTag h tag
    return []
  | .detachTag tag => do
    takeTags h (· == tag)
    return []
  | .detachAllTags => do
    takeTags h fun _ => true
    return []
  | .setDescription s => do
    change h fun t => { t with description := some s }
    return [.description]
  | .setNote s => do
    change h fun t => { t with note := some s }
    return [.note]
  | .setType s => do
    change h fun t => { t with type := some s }
    return [.type]
  | .markReconciled => do
    let now := (← get).now
    change h fun t => { t with isReconciled := true, reconciledAt := some now }
    return [.isReconciled, .reconciledAt]
  | .notify rule message => do
    sendNotification h rule message
    return []

/-! ## Running an action -/

/-- Plans an action of a known kind and, in a live run, carries the plan out. -/
def attemptAction (kind : ActionKind) (a : Action) (h : Handle) (dryRun : Bool) :
    Operation ActionOutcome := do
  let description ← describe a
  match ← plan kind a h with
  | none => return ⟨Vocabulary.code kind, false, description, []⟩
  | some effect =>
    let changes ← if dryRun then pure [] else effect.perform h
    return ⟨Vocabulary.code kind, true, description, changes⟩

/-- Runs an action.  A failure is reported and becomes an outcome; the run goes on. -/
def runAction (a : Action) (h : Handle) (dryRun : Bool) : Operation ActionOutcome := do
  let id := (← transaction h).id
  match (Vocabulary.ofJson? a.kind : Option ActionKind) with
  | none =>
    report (.unknownAction a.kind id)
    return ⟨a.kind.display, false, "Unknown action", []⟩
  | some kind =>
    tryCatch (attemptAction kind a h dryRun) fun _ => do
      report (.actionFailed kind a.value a.rule id)
      return ⟨Vocabulary.code kind, false, "Failed: " ++ Vocabulary.label kind, []⟩

/-- How many labels of each kind the cache holds. -/
def labelCounts (cache : LabelCache) : List (LabelKind × Nat) :=
  LabelKind.all.map fun kind =>
    (kind, ((cache.filter fun entry => entry.1.1 = kind).map (·.1.2)).eraseDups.length)

end Rulebook
