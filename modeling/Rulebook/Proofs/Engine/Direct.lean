import Rulebook.Engine.Run

/-!
# The engine without caches

The same engine, but everything is looked up where it is needed: the value of a field for every
condition, and a label for every action.  There is nothing to invalidate, and nothing to clear when
a run begins or a transaction is dropped.

Only what would ask a cache is written again, together with whatever calls it.  Where a function of
the engine has nothing to look up, it is used as it is.

## Main definitions

* `Direct.ruleMatches` — whether a rule matches.
* `Direct.describe`, `Direct.plan`, `Direct.perform`, `Direct.runAction` — actions.
* `Direct.process` — a run.
-/

namespace Rulebook.Direct

variable [Host]

/-! ## Conditions -/

/-- The outcome of a condition before negation. -/
def evaluateCondition (h : Handle) (c : Condition) : Operation Evaluation :=
  match c.recognised? with
  | some (field, op) => do .ofExcept (c.apply field op (← resolveField h field))
  | none => .ofExcept c.unrecognised

/-- Whether a condition matches.  That it is malformed is reported. -/
def conditionMatches (h : Handle) (c : Condition) : Operation Bool := do
  let outcome ← evaluateCondition h c
  if outcome.isMalformed then report (.conditionMalformed c.id (← transaction h).id)
  return (c.finish outcome).matched

/-- Whether a group matches; one without conditions does. -/
def groupMatches (h : Handle) (g : ConditionGroup) : Operation Bool :=
  if g.conditions.isEmpty then return true
  else if g.wantsAll then g.conditions.allM (conditionMatches h)
  else g.conditions.anyM (conditionMatches h)

/-- Whether a rule matches: all its groups do. -/
def ruleMatches (h : Handle) (r : RuleDefinition) : Operation Bool := r.groups.allM (groupMatches h)

/-! ## Labels -/

/-- The label with a number if it belongs to the owner. -/
def ownedLabel (s : Store) (kind : LabelKind) (value : Option ActionValue) (owner : Id) :
    Option (Id × Label) :=
  match value with
  | some (.identifier id) =>
    ((s.labels kind).find? id).bind fun l => if l.user = owner then some (id, l) else none
  | _ => none

/-- The name of the label that a value names; a label that is not there is shown by its number. -/
def labelText (s : Store) (kind : LabelKind) (value : Option ActionValue) : String :=
  match value with
  | some (.identifier id) =>
    match (s.labels kind).find? id with
    | some label => label.name
    | none => kind.title ++ " #" ++ toString id
  | some (.text s) => s
  | none => kind.title ++ " (none)"

/-- The label of a name, added if its owner has none of the name. -/
def findOrAddLabel (kind : LabelKind) (name : String) (owner : Id) : Operation (Id × Label) := do
  match (← get).store.labelNamed? kind owner name with
  | some found => return found
  | none =>
    let label : Label := ⟨owner, name, createdDescription, none⟩
    let id ← writeResult fun s => s.addLabel kind label
    report (.labelCreated kind id name owner)
    return (id, label)

/-! ## Actions -/

/-- An action of a kind with a value as a sentence. -/
def describeKind (kind : ActionKind) (value : Option ActionValue) : Operation String := do
  let s := (← get).store
  match kind with
  | .setCategory => return "Set category to: " ++ labelText s .category value
  | .setMerchant => return "Set merchant to: " ++ labelText s .merchant value
  | .addTag => return "Add tag: " ++ labelText s .tag value
  | .removeTag => return "Remove tag: " ++ labelText s .tag value
  | kind => Rulebook.describeKind kind value

/-- An action as a sentence. -/
def describe (a : Action) : Operation String := do
  match (Vocabulary.ofJson? a.kind : Option ActionKind) with
  | none => return "Unknown action"
  | some kind => describeKind kind (← .ofExcept a.typedValue)

/-- The effect of an action of a kind for an owner. -/
def planKind (kind : ActionKind) (a : Action) (value : Option ActionValue) (t : LiveTransaction)
    (owner : Id) : Operation (Option Effect) := do
  let s := (← get).store
  match kind with
  | .setCategory =>
    return (ownedLabel s .category value owner).map fun (id, l) => .setLabel .category id l
  | .setMerchant =>
    return (ownedLabel s .merchant value owner).map fun (id, l) => .setLabel .merchant id l
  | .addTag =>
    let tag := ownedLabel s .tag value owner
    return if t.id.isSome then tag.map fun (id, _) => .attachTag id else none
  | .removeTag => return (ownedLabel s .tag value owner).map fun (id, _) => .detachTag id
  | kind => Rulebook.planKind kind a value t owner

/-- The effect of an action on a transaction; nothing can be done to one without an owner. -/
def plan (kind : ActionKind) (a : Action) (h : Handle) : Operation (Option Effect) := do
  let value ← .ofExcept a.typedValue
  match ← ownerOf h with
  | none => return none
  | some owner => planKind kind a value (← transaction h) owner

/-- Carries an effect out and gives the fields that it changed. -/
def perform (h : Handle) : Effect → Operation (List TransactionField)
  | .setNamedLabel role name owner => do
    let (id, label) ← findOrAddLabel role.kind name owner
    change h (role.set (.known id label))
    return [role.field]
  | .attachNamedTag name owner => do
    let (tag, _) ← findOrAddLabel .tag name owner
    putTag h tag
    return []
  | effect => effect.perform h

/-- Plans an action of a known kind and, in a live run, carries the plan out. -/
def attemptAction (kind : ActionKind) (a : Action) (h : Handle) (dryRun : Bool) :
    Operation ActionOutcome := do
  let description ← describe a
  match ← plan kind a h with
  | none => return ⟨Vocabulary.code kind, false, description, []⟩
  | some effect =>
    let changes ← if dryRun then pure [] else perform h effect
    return ⟨Vocabulary.code kind, true, description, changes⟩

/-- Runs an action.  A failure is reported and becomes an outcome; the run goes on. -/
def runAction (a : Action) (h : Handle) (dryRun : Bool) : Operation ActionOutcome := do
  let id := (← transaction h).id
  match (Vocabulary.ofJson? a.kind : Option ActionKind) with
  | none =>
    report (.unknownAction a.kind id)
    return ⟨a.kind.display, false, "Unknown action", []⟩
  | some kind =>
    tryCatch (attemptAction kind a h dryRun) fun _ => do
      report (.actionFailed kind a.value a.rule id)
      return ⟨Vocabulary.code kind, false, "Failed: " ++ Vocabulary.label kind, []⟩

/-- Runs the actions of a rule in order; one that fails may end them. -/
def runActions (h : Handle) (r : RuleDefinition) (dryRun : Bool) :
    List Action → Operation (List ActionOutcome)
  | [] => return []
  | a :: rest => do
    let outcome ← runAction a h dryRun
    if !outcome.succeeded && a.stopProcessing.isTruthy then
      report (.actionsSkipped r.id (← transaction h).id outcome.kind)
      return [outcome]
    else return outcome :: (← runActions h r dryRun rest)

/-! ## Rules and transactions -/

/-- Evaluates a rule and applies its actions if it matches. -/
def runRule (h : Handle) (r : RuleDefinition) (dryRun : Bool) : Operation RuleOutcome := do
  if ← ruleMatches h r then
    let actions ← runActions h r dryRun r.actions
    return { rule := r.id, name := r.name, matched := true, actions, stopped := r.stopProcessing }
  else return { rule := r.id, name := r.name, matched := false }

/-- Runs rules in order up to the first that matches and stops processing. -/
def runRules (e : Engine) (h : Handle) (trigger : Trigger) (dryRun log : Bool) :
    List RuleDefinition → Operation (List RuleOutcome)
  | [] => return []
  | r :: rest => do
    let outcome ← runRule h r dryRun
    if log then e.logOutcome h outcome trigger dryRun
    if outcome.matched && r.stopProcessing.isTruthy then return [outcome]
    else return outcome :: (← runRules e h trigger dryRun log rest)

/-- Runs the rules on a transaction of the user and tells the observer. -/
def runTransaction (e : Engine) (h : Handle) (rules : List RuleDefinition) (trigger : Trigger)
    (dryRun log : Bool) : Operation TransactionSummary := do
  let id := (← transaction h).id
  if (← ownerOf h) ≠ some e.user then throw (.foreignTransaction id e.user)
  let outcomes ← runRules e h trigger dryRun log rules
  let summary : TransactionSummary :=
    { transaction := id, rules := outcomes
      changes := outcomes.foldl (fun done outcome => mergeChanges done outcome.changes) [] }
  e.tellObserver h summary dryRun
  return summary

/-- Runs the rules on a transaction as one change.  One that fails is read again from its row. -/
def processOne (e : Engine) (rules : List RuleDefinition) (trigger : Trigger) (dryRun log : Bool)
    (h : Handle) : Operation TransactionSummary := do
  let id := (← transaction h).id
  tryCatch (atomically (runTransaction e h rules trigger dryRun log)) fun failure => do
    refresh h
    report (.transactionFailed e.user (rules.map (·.id)) id dryRun)
    return { transaction := id, error := some failure.message }

/-- Runs rules on a batch of transactions. -/
def process (e : Engine) (batch : Batch) (rules : List RuleDefinition) (trigger : Trigger)
    (dryRun log : Bool) : Operation RunSummary := do
  let transactions ← (← batch).mapM (processOne e rules trigger dryRun log)
  let summary : RunSummary := ⟨dryRun, Vocabulary.code trigger, transactions⟩
  report (.runCompleted e.user summary.trigger dryRun summary.totalProcessed summary.totalMatched
    summary.failed.length)
  return summary

end Rulebook.Direct
