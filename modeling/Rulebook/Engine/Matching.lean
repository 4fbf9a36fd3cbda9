import Rulebook.Definition.Rule
import Rulebook.Engine.Workspace

/-!
# Matching

What the fields of a transaction hold, and whether a rule matches it.

A field is looked up once for each stored transaction and then taken from the cache until the
transaction is invalidated.  Within a rule nothing is evaluated that cannot change the outcome any
more: a group that asks for all conditions ends with the first that does not match, one that asks
for any with the first that does, and a rule ends with the first group that does not match.

## Main definitions

* `accountOf`, `ownerOf`, `labelOf` — the rows that a transaction references.
* `resolveField` — what a field holds; `fieldValue` — the same through the cache.
* `checkCondition`, `groupMatches`, `ruleMatches` — conditions, groups and rules.
-/

namespace Rulebook

variable [Host]

/-! ## References -/

/-- The account of a transaction, looked up if it was not before. -/
def accountOf (h : Handle) : Operation (Option LoadedAccount) := do
  let reference := (← transaction h).account
  match reference.loaded, reference.id with
  | some account, _ => return some account
  | none, none => return none
  | none, some id =>
    let account : LoadedAccount := ⟨← row .account Store.accounts id, false⟩
    change h fun t => { t with account := .known id account }
    return some account

/-- The user who owns the account of a transaction. -/
def ownerOf (h : Handle) : Operation (Option Id) := do
  if (← transaction h).account.isSet then return (← accountOf h).map (·.account.user)
  else return none

/-- The two references of a transaction to labels. -/
inductive LabelRole where
  | category
  | merchant
deriving DecidableEq, Repr

namespace LabelRole

/-- The kind of label. -/
def kind : LabelRole → LabelKind
  | .category => .category
  | .merchant => .merchant

/-- The reference of a transaction. -/
def get (r : LabelRole) (t : LiveTransaction) : Reference Label :=
  match r with
  | .category => t.category
  | .merchant => t.merchant

/-- The transaction with another reference. -/
def set (r : LabelRole) (reference : Reference Label) (t : LiveTransaction) : LiveTransaction :=
  match r with
  | .category => { t with category := reference }
  | .merchant => { t with merchant := reference }

end LabelRole

/-- The category or merchant of a transaction, looked up if it was not before. -/
def labelOf (role : LabelRole) (h : Handle) : Operation (Option Label) := do
  let reference := role.get (← transaction h)
  match reference.loaded, reference.id with
  | some label, _ => return some label
  | none, none => return none
  | none, some id =>
    let label ← row role.kind.entity (·.labels role.kind) id
    change h (role.set (.known id label))
    return some label

/-- The name of the category or merchant of a transaction. -/
def labelName (role : LabelRole) (h : Handle) : Operation FieldValue := do
  if (role.get (← transaction h)).isSet then return .ofText? ((← labelOf role h).map (·.name))
  else return .absent

/-- The name of the account of a transaction. -/
def accountName (h : Handle) : Operation FieldValue := do
  if (← transaction h).account.isSet then
    return .ofText? ((← accountOf h).map (·.account.name))
  else return .absent

/-- The names of the tags on a transaction; one without a row has none. -/
def tagNames (h : Handle) : Operation FieldValue := do
  match (← transaction h).id with
  | none => return .names []
  | some id => return .names (((← get).store.tagsOf id).map (·.2.name))

/-! ## Fields -/

/-- What a field of a transaction holds. -/
def resolveField (h : Handle) (field : Field) : Operation FieldValue := do
  let t ← transaction h
  match field with
  | .amount => return .amount t.amount
  | .description => return .ofText? t.description
  | .partner => return .ofText? t.partner
  | .category => labelName .category h
  | .merchant => labelName .merchant h
  | .account => accountName h
  | .type => return .ofText? t.type
  | .note => return .ofText? t.note
  | .recipientNote => return .ofText? t.recipientNote
  | .place => return .ofText? t.place
  | .targetIban => return .ofText? t.targetIban
  | .sourceIban => return .ofText? t.sourceIban
  | .date => return .date t.bookedDate
  | .tags => tagNames h

/-- What a field of a transaction holds, looked up once for each transaction with a row. -/
def fieldValue (h : Handle) (field : Field) : Operation FieldValue := do
  let id := (← transaction h).id
  match (← get).fields.find? id field with
  | some value =>
    modify fun w => { w with fields := { w.fields with hits := w.fields.hits + 1 } }
    return value
  | none =>
    modify fun w => { w with fields := { w.fields with misses := w.fields.misses + 1 } }
    let value ← resolveField h field
    modify fun w => { w with fields := w.fields.keep id field value }
    return value

/-- Forgets what the fields of a transaction hold. -/
def invalidate (h : Handle) : Operation Unit := do
  let id := (← transaction h).id
  modify fun w => { w with fields := w.fields.forget id }

/-- Forgets what all fields hold. -/
def clearFields : Operation Unit := modify fun w => { w with fields := w.fields.clear }

/-! ## Conditions, groups and rules -/

/-- The outcome of a condition before negation. -/
def evaluateCondition (h : Handle) (c : Condition) : Operation Evaluation :=
  match c.recognised? with
  | some (field, op) => do .ofExcept (c.apply field op (← fieldValue h field))
  | none => .ofExcept c.unrecognised

/-- The outcome of a condition.  That a condition is malformed is reported. -/
def checkCondition (h : Handle) (c : Condition) : Operation Evaluation := do
  let outcome ← evaluateCondition h c
  if outcome.isMalformed then report (.conditionMalformed c.id (← transaction h).id)
  return c.finish outcome

/-- Whether a condition matches. -/
def conditionMatches (h : Handle) (c : Condition) : Operation Bool :=
  return (← checkCondition h c).matched

/-- Whether a group matches; one without conditions does. -/
def groupMatches (h : Handle) (g : ConditionGroup) : Operation Bool :=
  if g.conditions.isEmpty then return true
  else if g.wantsAll then g.conditions.allM (conditionMatches h)
  else g.conditions.anyM (conditionMatches h)

/-- Whether a rule matches: all its groups do. -/
def ruleMatches (h : Handle) (r : RuleDefinition) : Operation Bool := r.groups.allM (groupMatches h)

end Rulebook
