import Rulebook.Engine.Workspace
import Rulebook.Ledger.Column

/-!
# Saving transactions

Writing the fields of a transaction in memory to its row, and reading them again.

Saving some fields needs a row that is there.  Saving the whole transaction updates its row or, if
there is none, adds one.  The time of saving is set in memory before the store is asked, so it stays
set when the store refuses.

## Main definitions

* `LiveTransaction.contentOf` — what the row is to hold in the given fields.
* `saveFields`, `saveAll` — writing.
* `refresh` — reading again.
-/

namespace Rulebook

open Rulebook.Number Rulebook.Calendar

/-- The amount that is stored. -/
def storedAmount (d : Decimal) : Except Failure Int :=
  match d with
  | .finite .. =>
    match d.hundredths? with
    | some n => .ok n
    | none => .error .hugeAmount
  | d => .error (.invalid ["“" ++ d.text ++ "” value must be a decimal number."])

/-- The content of a column, which must not be empty if the field is among those to write. -/
def filled {α : Type} [Inhabited α] (fields : List TransactionField) (field : TransactionField)
    (value : Option α) : Except Failure α :=
  if fields.contains field then Column.required value else .ok (value.getD default)

namespace LiveTransaction

/-- The number of the row that a field references. -/
def reference? (t : LiveTransaction) : TransactionField → Option Id
  | .account => t.account.id
  | .category => t.category.id
  | .merchant => t.merchant.id
  | _ => none

/-- What the row is to hold in the given fields; the other fields are not looked at.  Values are
converted before empty columns are refused. -/
def contentOf (t : LiveTransaction) (fields : List TransactionField) (now : Instant) :
    Except Failure Transaction := do
  let amount ← if fields.contains .amount then storedAmount t.amount else .ok 0
  let _ ← Column.allFit (fields.filterMap t.reference?)
  return {
    account := ← filled fields .account t.account.id
    amount
    currency := t.currency
    bookedDate := t.bookedDate
    description := t.description
    partner := t.partner
    type := ← filled fields .type t.type
    note := t.note
    recipientNote := t.recipientNote
    place := t.place
    targetIban := t.targetIban
    sourceIban := t.sourceIban
    category := t.category.id
    merchant := t.merchant.id
    isReconciled := t.isReconciled
    reconciledAt := t.reconciledAt
    updatedAt := now }

end LiveTransaction

/-- The row with the given fields of another row, saved at that row's time. -/
def copyFields (source : Transaction) (fields : List TransactionField) (t : Transaction) :
    Transaction :=
  fields.foldl (fun t field => field.copy source t) { t with updatedAt := source.updatedAt }

/-- Sets the time of saving in memory and gives what the row is to hold. -/
def prepareSaving (h : Handle) (fields : List TransactionField) : Operation Transaction := do
  let now := (← get).now
  change h fun t => { t with updatedAt := some now }
  .ofExcept ((← transaction h).contentOf fields now)

/-- Saves some fields of a transaction, which must have a row. -/
def saveFields (h : Handle) (fields : List TransactionField) : Operation Unit := do
  match (← transaction h).id with
  | none => throw .updateUnsaved
  | some id =>
    let content ← prepareSaving h fields
    writeResult fun s =>
      if s.transactions.has id then
        .ok ((), { s with transactions := s.transactions.update id (copyFields content fields) })
      else .error .updatedNothing

/-- Saves a transaction.  One without a number gets one when its row has been added. -/
def saveAll (h : Handle) : Operation Unit := do
  let t ← transaction h
  match t.id with
  | some id =>
    let content ← prepareSaving h TransactionField.all
    write fun s => { s with transactions := s.transactions.put id content }
  | none =>
    let _ ← .ofExcept (storedAmount t.amount)
    let content ← prepareSaving h TransactionField.all
    let id ← insertRow Store.transactions (fun s t => { s with transactions := t }) content
    change h fun t => { t with id := some id }

/-- Reads the fields of a transaction again and forgets the rows that it had looked up.  A
transaction without a row stays as it is. -/
def refresh (h : Handle) : Operation Unit := do
  match (← transaction h).id with
  | none => return ()
  | some id =>
    let stored ← row .transaction Store.transactions id
    change h fun _ => .ofRow id stored

end Rulebook
