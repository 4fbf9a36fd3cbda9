import Rulebook.Ledger.Store
import Rulebook.Number.Decimal

/-!
# Transactions in memory

The engine works on transactions that are held in memory.  Such a transaction has the fields of its
row as they were when it was loaded, or as an action has set them since; it need not have a row at
all.  A reference to another row is a number, and the row itself once somebody has asked for it; the
row that was found is kept, whatever becomes of the stored one.

## Main definitions

* `Reference` — the number of a row and perhaps the row.
* `LiveTransaction` — a transaction in memory.
* `LiveTransaction.ofRow` — the transaction as it is loaded from its row.
* `TransactionField` — the fields.
* `LiveTransaction.contentOf` — what a row holds after saving some of the fields.
-/

namespace Rulebook

open Rulebook.Number Rulebook.Calendar

/-- A reference to a row that is looked up when it is first needed. -/
structure Reference (α : Type) where
  id : Option Id := none
  loaded : Option α := none
deriving Repr, DecidableEq, Inhabited

namespace Reference

variable {α : Type}

/-- A reference by number. -/
def byId (id : Option Id) : Reference α := ⟨id, none⟩

/-- A reference to a row that is known. -/
def known (id : Id) (a : α) : Reference α := ⟨some id, some a⟩

/-- The reference by another number; the row is forgotten unless the number is the same. -/
def pointTo (r : Reference α) (id : Option Id) : Reference α :=
  if r.id = id then r else byId id

/-- Whether the reference names a row; the number nought never does. -/
def isSet (r : Reference α) : Bool := r.id.any (· != 0)

end Reference

/-- An account that was looked up; its owner may have been looked up with it. -/
structure LoadedAccount where
  account : Account
  ownerSeen : Bool := false
deriving Repr, DecidableEq, Inhabited

/-- A transaction in memory. -/
structure LiveTransaction where
  id : Option Id
  account : Reference LoadedAccount
  amount : Decimal
  currency : String
  bookedDate : Date
  description : Option String
  partner : Option String
  type : Option String
  note : Option String
  recipientNote : Option String
  place : Option String
  targetIban : Option String
  sourceIban : Option String
  category : Reference Label
  merchant : Reference Label
  isReconciled : Bool
  reconciledAt : Option Instant
  /-- The time of the last saving, if there was one. -/
  updatedAt : Option Instant
deriving Repr, DecidableEq

namespace LiveTransaction

/-- A transaction without a row and without an account, of no amount. -/
def blank : LiveTransaction where
  id := none
  account := {}
  amount := .ofHundredths 0
  currency := "EUR"
  bookedDate := ⟨1, 1, 1⟩
  description := none
  partner := none
  type := some "PAYMENT"
  note := none
  recipientNote := none
  place := none
  targetIban := none
  sourceIban := none
  category := {}
  merchant := {}
  isReconciled := false
  reconciledAt := none
  updatedAt := none

instance : Inhabited LiveTransaction := ⟨blank⟩

/-- The transaction as loaded from its row, no references looked up. -/
def ofRow (id : Id) (t : Transaction) : LiveTransaction where
  id := some id
  account := .byId (some t.account)
  amount := .ofHundredths t.amount
  currency := t.currency
  bookedDate := t.bookedDate
  description := t.description
  partner := t.partner
  type := some t.type
  note := t.note
  recipientNote := t.recipientNote
  place := t.place
  targetIban := t.targetIban
  sourceIban := t.sourceIban
  category := .byId t.category
  merchant := .byId t.merchant
  isReconciled := t.isReconciled
  reconciledAt := t.reconciledAt
  updatedAt := some t.updatedAt

/-- The transaction as loaded together with the rows that it references. -/
def ofRowWithReferences (s : Store) (id : Id) (t : Transaction) : LiveTransaction :=
  let bare := ofRow id t
  { bare with
    account := ⟨some t.account, (s.accounts.find? t.account).map fun a => ⟨a, false⟩⟩
    category := ⟨t.category, t.category.bind s.categories.find?⟩
    merchant := ⟨t.merchant, t.merchant.bind s.merchants.find?⟩ }

end LiveTransaction

/-- The fields of a transaction. -/
inductive TransactionField where
  | account
  | amount
  | currency
  | bookedDate
  | description
  | partner
  | type
  | note
  | recipientNote
  | place
  | targetIban
  | sourceIban
  | category
  | merchant
  | isReconciled
  | reconciledAt
deriving DecidableEq, Repr

namespace TransactionField

/-- All fields. -/
def all : List TransactionField :=
  [.account, .amount, .currency, .bookedDate, .description, .partner, .type, .note, .recipientNote,
    .place, .targetIban, .sourceIban, .category, .merchant, .isReconciled, .reconciledAt]

/-- The word for a field. -/
def code : TransactionField → String
  | .account => "account"
  | .amount => "amount"
  | .currency => "currency"
  | .bookedDate => "booked_date"
  | .description => "description"
  | .partner => "partner"
  | .type => "type"
  | .note => "note"
  | .recipientNote => "recipient_note"
  | .place => "place"
  | .targetIban => "target_iban"
  | .sourceIban => "source_iban"
  | .category => "category"
  | .merchant => "merchant"
  | .isReconciled => "is_reconciled"
  | .reconciledAt => "reconciled_at"

/-- The field with a word. -/
def ofCode? (s : String) : Option TransactionField := all.find? fun field => field.code == s

/-- The row with one field of another row. -/
def copy (source : Transaction) : TransactionField → Transaction → Transaction
  | .account, t => { t with account := source.account }
  | .amount, t => { t with amount := source.amount }
  | .currency, t => { t with currency := source.currency }
  | .bookedDate, t => { t with bookedDate := source.bookedDate }
  | .description, t => { t with description := source.description }
  | .partner, t => { t with partner := source.partner }
  | .type, t => { t with type := source.type }
  | .note, t => { t with note := source.note }
  | .recipientNote, t => { t with recipientNote := source.recipientNote }
  | .place, t => { t with place := source.place }
  | .targetIban, t => { t with targetIban := source.targetIban }
  | .sourceIban, t => { t with sourceIban := source.sourceIban }
  | .category, t => { t with category := source.category }
  | .merchant, t => { t with merchant := source.merchant }
  | .isReconciled, t => { t with isReconciled := source.isReconciled }
  | .reconciledAt, t => { t with reconciledAt := source.reconciledAt }

end TransactionField

end Rulebook
