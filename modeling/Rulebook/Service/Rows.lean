import Rulebook.Engine.Held
import Rulebook.Service.Management

/-!
# Rows by hand

Adding, changing and deleting single rows from the values of their columns, without the checks that
definitions undergo.

Values are converted column by column before empty or oversized columns are refused.  A reference to
a row that is not there is refused when the row is added.

## Main definitions

* `addUser`, `addAccount`, `addLabel`, `addSubcategory`, `addTransaction`, `addStoredRule`,
  `addLog` — new rows.
* `overwriteAction`, `changeLog`, `deleteRow` — stored rows.
-/

namespace Rulebook

open Rulebook.Calendar

variable [Host]

/-- The number of a row that has to be named and to fit. -/
def requiredReference (j : Json) : Except Failure Id := do
  Column.required (← (← Column.reference "id" j).mapM Column.checkFits)

/-- Adds a user. -/
def addUser (name email isActive : Json) : Operation Id := do
  let u : User ← .ofExcept do
    let name ← Column.text name
    let email ← Column.text email
    let isActive ← Column.truth isActive
    return {
      name := ← Column.required name
      email := ← Column.required email
      isActive := ← Column.required isActive }
  writeResult fun s => s.addUser u

/-- Adds an account. -/
def addAccount (user name : Json) : Operation Id := do
  let a : Account ← .ofExcept do
    let user ← Column.reference "id" user
    let name ← Column.text name
    return {
      user := ← Column.required (← user.mapM Column.checkFits)
      name := ← Column.required name }
  insertRow Store.accounts (fun s t => { s with accounts := t }) a

/-- A category, merchant or tag that stands under no other. -/
def labelFromColumns (user name : Json) : Except Failure Label := do
  let user ← Column.reference "id" user
  let name ← Column.text name
  return {
    user := ← Column.required (← user.mapM Column.checkFits)
    name := ← Column.required name
    description := "" }

/-- Adds a category, merchant or tag. -/
def addLabel (kind : LabelKind) (user name : Json) : Operation Id := do
  let l ← .ofExcept (labelFromColumns user name)
  writeResult fun s => s.addLabel kind l

/-- Adds a category under another one. -/
def addSubcategory (user name parent : Json) : Operation Id := do
  let l ← .ofExcept do
    let l ← labelFromColumns user name
    return { l with parent := ← (← Column.reference "id" parent).mapM Column.checkFits }
  writeResult fun s => s.addLabel .category l

/-- Adds a group of rules for a user given by number. -/
def addGroupRow (user name order isActive : Json) : Operation Id := do
  let now := (← get).now
  addGroup (← .ofExcept do
    let user ← Column.reference "id" user
    let g ← groupFromColumns 0 name (.text "") order isActive now
    return { g with user := ← Column.required (← user.mapM Column.checkFits) })

/-! ## Transactions -/

/-- A transaction without a row, some of whose fields are given. -/
def assignFields (members : List (TransactionField × Json)) (t : LiveTransaction) :
    Except Failure LiveTransaction :=
  members.foldlM (fun t (field, value) => field.assign value t) t

/-- Puts tags on a transaction, in the order of their numbers. -/
def tagTransaction (id : Id) (tags : Json) : Operation Unit := do
  let tags ← .ofExcept (do Column.allFit (← Column.references "id" tags))
  let sorted := tags.mergeSort fun a b => decide (a ≤ b)
  write fun s => sorted.foldl (fun s tag => s.addLink id tag) s

/-- Adds a transaction with tags. -/
def addTransaction (members : List (TransactionField × Json)) (tags : Json) : Operation Id := do
  let t ← .ofExcept (assignFields members .blank)
  let content ← .ofExcept (t.contentOf TransactionField.all (← get).now)
  let id ← insertRow Store.transactions (fun s t => { s with transactions := t }) content
  tagTransaction id tags
  return id

/-! ## Rules -/

/-- The values of a rule and its parts. -/
structure RuleValues where
  user : Json
  group : Json
  name : Json
  trigger : Json
  order : Json
  isActive : Json
  stopProcessing : Json
  /-- The connective and order of each group, with its conditions. -/
  groups : List (Json × Json × List Condition)
  actions : List Action

/-- Adds a rule and its parts one by one. -/
def addStoredRule (v : RuleValues) : Operation Id := do
  let now := (← get).now
  let r ← .ofExcept do
    let user ← Column.reference "id" v.user
    let group ← Column.reference "id" v.group
    let r ← ruleFromColumns 0 0 v.name (.text "") v.trigger v.order v.isActive v.stopProcessing now
      now
    return { r with
      user := ← Column.required (← user.mapM Column.checkFits)
      group := ← Column.required (← group.mapM Column.checkFits) }
  let rule ← addRule r
  v.groups.forM fun (connective, order, conditions) => do
    let group ← addConditionGroup rule connective order
    conditions.forM fun c => do
      let _ ← addCondition group c
  v.actions.forM fun a => do
    let _ ← addAction rule a
  return rule

/-- An action row with a column set to a value. -/
def overwriteColumn (a : ActionRow) (column : String) (value : Json) : Except Failure ActionRow := do
  match column with
  | "action_type" => return { a with kind := ← Column.required (← Column.text value) }
  | "value" => return { a with value := ← Column.text value }
  | "order" =>
    let order ← Column.required (← Column.whole "order" value)
    return { a with order := ← Column.checkFits order }
  | "stop_processing" =>
    return { a with stopProcessing := ← Column.required (← Column.truth value) }
  | "rule" | "rule_id" => return { a with rule := ← requiredReference value }
  | name => throw (.missingMember name)

/-- Overwrites columns of an action without reading its value, and gives how many rows there are of
its number. -/
def overwriteAction (id : Json) (columns : List (String × Json)) : Operation Nat := do
  match ← .ofExcept (Column.reference "id" id) with
  | none => return 0
  | some id =>
    match (← get).store.actions.find? id with
    | none => return 0
    | some a =>
      let a ← .ofExcept (columns.foldlM (fun a (column, value) => overwriteColumn a column value) a)
      write fun s => { s with actions := s.actions.update id fun _ => a }
      return if columns.isEmpty then 0 else 1

/-! ## Logs -/

/-- Adds an execution log of the given age at the start. -/
def addLog (rule transaction matched age : Json) : Operation Id := do
  let l : Log ← .ofExcept do
    let span ← spanOf secondMicroseconds age
    let createdAt ← startInstant.after (-span)
    let rule ← Column.reference "id" rule
    let transaction ← Column.reference "id" transaction
    let matched ← Column.truth matched
    return {
      rule := ← Column.required (← rule.mapM Column.checkFits)
      transaction := ← Column.required (← transaction.mapM Column.checkFits)
      matched := ← Column.required matched
      actions := .list []
      context := .object []
      createdAt }
  insertRow Store.logs (fun s t => { s with logs := t }) l

/-- Changing a log is always refused. -/
def changeLog (id : Json) : Operation Unit := do
  let _ ← rowId .log Store.logs id
  throw .logChanged

/-! ## Any row -/

/-- The number of a row of a kind, which has to be there. -/
def anyRowId (e : Entity) (id : Json) : Operation Id :=
  match e with
  | .user => rowId e Store.users id
  | .account => rowId e Store.accounts id
  | .category => rowId e Store.categories id
  | .merchant => rowId e Store.merchants id
  | .tag => rowId e Store.tags id
  | .transaction => rowId e Store.transactions id
  | .transactionTag => rowId e Store.links id
  | .group => rowId e Store.groups id
  | .rule => rowId e Store.rules id
  | .conditionGroup => rowId e Store.conditionGroups id
  | .condition => rowId e Store.conditions id
  | .action => rowId e Store.actions id
  | .log => rowId e Store.logs id

/-- The kind of row with a name. -/
def namedEntity (name : String) : Except Failure Entity :=
  match Entity.ofCode? name with
  | some e => .ok e
  | none => .error (.missingMember name)

/-- Deletes a row with all that belongs to it, and gives how many rows of each kind are gone. -/
def deleteRow (e : Entity) (id : Json) : Operation (List (Entity × Nat)) := do
  let id ← anyRowId e id
  let doomed := (← get).store.doomed (.row e id)
  write (·.removeDoomed doomed)
  return doomed.counts

end Rulebook
