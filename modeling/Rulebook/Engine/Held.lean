import Rulebook.Engine.Saving
import Rulebook.Json.Access

/-!
# Held transactions

A transaction can be held under a name between operations.  A number stands for the row with that
number, which is loaded when the name is first used and then kept as it is in memory; a word stands
for a transaction that was made without a row.

## Main definitions

* `held` — the transaction with a name.
* `holdAs`, `releaseAll` — holding and letting go.
* `TransactionField.assign` — sets a field from a value.
* `assignAttributes`, `saveAttributes` — set attributes by name, and save them.
-/

namespace Rulebook

open Rulebook.Calendar Rulebook.Number

variable [Host]

/-- The number of a row that has to be there. -/
def rowId {β : Type} (e : Entity) (table : Store → Table β) (reference : Json) : Operation Id := do
  match ← .ofExcept (Column.reference "id" reference) with
  | none => throw (.missingRow e)
  | some id =>
    let _ ← row e table id
    return id

/-- Holds a transaction under a name. -/
def holdAs (name : HeldName) (t : LiveTransaction) : Operation Handle := do
  let h ← hold t
  modify fun w => { w with held := (name, h) :: w.held.filter fun entry => entry.1 != name }
  return h

/-- Lets all held transactions go. -/
def releaseAll : Operation Unit := modify fun w => { w with held := [] }

/-- The name that a value gives. -/
def HeldName.ofJson? : Json → Option HeldName
  | .int n => some (.number n)
  | .text s => some (.word s)
  | _ => none

/-- The transaction with a name, loaded from its row if it is not held yet. -/
def held (name : Json) : Operation Handle := do
  let known := (← get).held
  match (HeldName.ofJson? name).bind fun n => known.lookup n with
  | some h => return h
  | none =>
    let id ← rowId .transaction Store.transactions name
    holdAs (.number id) (.ofRow id (← row .transaction Store.transactions id))

/-- The date that a text writes in the standard form. -/
def standardDate (s : String) : Except Failure Date :=
  match readStandardDate? s with
  | some date => .ok date
  | none => .error (.notDate s)

/-- The amount that a value writes. -/
def decimalOf (j : Json) : Except Failure Decimal :=
  match Decimal.read? j.display with
  | some d => .ok d
  | none => .error (.notDecimal j.display)

namespace TransactionField

/-- The transaction with a field set to a value. -/
def assign (field : TransactionField) (value : Json) (t : LiveTransaction) :
    Except Failure LiveTransaction := do
  match field with
  | .account => return { t with account := t.account.pointTo (← Column.reference "id" value) }
  | .amount => return { t with amount := ← decimalOf value }
  | .currency => return { t with currency := (← Column.text value).getD "" }
  | .bookedDate => return { t with bookedDate := ← standardDate value.display }
  | .description => return { t with description := ← Column.text value }
  | .partner => return { t with partner := ← Column.text value }
  | .type => return { t with type := ← Column.text value }
  | .note => return { t with note := ← Column.text value }
  | .recipientNote => return { t with recipientNote := ← Column.text value }
  | .place => return { t with place := ← Column.text value }
  | .targetIban => return { t with targetIban := ← Column.text value }
  | .sourceIban => return { t with sourceIban := ← Column.text value }
  | .category => return { t with category := t.category.pointTo (← Column.reference "id" value) }
  | .merchant => return { t with merchant := t.merchant.pointTo (← Column.reference "id" value) }
  | .isReconciled => return { t with isReconciled := (← Column.truth value).getD false }
  | .reconciledAt =>
    match value, readMoment value.display with
    | .null, _ => return { t with reconciledAt := none }
    | _, .value m =>
      return { t with reconciledAt := some (Instant.ofMoment m) }
    | _, _ => throw (.notDate value.display)

/-- The word for a field that references a row by its number. -/
def numberCode? : TransactionField → Option String
  | .account => some "account_id"
  | .category => some "category_id"
  | .merchant => some "merchant_id"
  | _ => none

/-- The kind of row that a field references. -/
def referenced? : TransactionField → Option Entity
  | .account => some .account
  | .category => some .category
  | .merchant => some .merchant
  | _ => none

/-- The field with a word, or with the word for its number. -/
def ofAttribute? (s : String) : Option TransactionField :=
  all.find? fun field => field.code == s || field.numberCode? == some s

/-- The failure for a reference that is given something else than a row. -/
def notRow (field : TransactionField) (entity : Entity) (value : Json) : Failure :=
  .invalidValue ("Cannot assign \"" ++ value.literal ++ "\": \"Transaction." ++ field.code
    ++ "\" must be a \"" ++ entity.title ++ "\" instance.")

/-- The transaction with an attribute set to a value.  A reference is set by the word for its number;
under its own word it takes a row or null.  Attributes that are no fields are passed over. -/
def assignAttribute (name : String) (value : Json) (t : LiveTransaction) :
    Except Failure LiveTransaction :=
  match ofCode? name with
  | some field =>
    match field.referenced?, value with
    | some _, .null => field.assign .null t
    | some entity, value => .error (notRow field entity value)
    | none, value => field.assign value t
  | none =>
    match ofAttribute? name with
    | some field => field.assign value t
    | none => .ok t

end TransactionField

/-- Sets attributes of a transaction in memory. -/
def assignAttributes (h : Handle) (attributes : List (String × Json)) : Operation Unit :=
  attributes.forM fun (name, value) => do
    let t ← .ofExcept (TransactionField.assignAttribute name value (← transaction h))
    change h fun _ => t

/-- The failure for attributes that are no fields. -/
def notFields (names : List String) : Failure :=
  .invalidValue ("The following fields do not exist in this model, are m2m fields, primary keys, or "
    ++ "are non-concrete fields: " ++ ", ".intercalate names)

/-- Sets attributes of a transaction in memory and saves them.  Without attributes nothing is
saved. -/
def saveAttributes (h : Handle) (attributes : List (String × Json)) : Operation Unit := do
  assignAttributes h attributes
  let unknown := (attributes.map (·.1)).filter fun name => (TransactionField.ofAttribute? name).isNone
  if !unknown.isEmpty then throw (notFields unknown)
  if !attributes.isEmpty then
    saveFields h (attributes.filterMap fun (name, _) => TransactionField.ofAttribute? name)

end Rulebook
