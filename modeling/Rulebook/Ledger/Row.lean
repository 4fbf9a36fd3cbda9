import Rulebook.Calendar.Moment
import Rulebook.Json.Value
import Rulebook.Ledger.Table

/-!
# Rows

The rows of each kind.  References are numbers of rows; amounts are whole hundredths.

All references between rows are here.  Of the other columns, those that nothing reads are left out:
`color` of categories and tags, `iban` and `currency` of accounts, `processed_date` and `metadata`
of transactions, and `created_at` and `updated_at` where they are not named below.
-/

namespace Rulebook

open Rulebook.Calendar

/-- Somebody who owns accounts and rules. -/
structure User where
  name : String
  email : String
  isActive : Bool
deriving Repr, DecidableEq, Inhabited

/-- An account of a user. -/
structure Account where
  user : Id
  name : String
deriving Repr, DecidableEq, Inhabited

/-- A category, a merchant or a tag of a user. -/
structure Label where
  user : Id
  name : String
  description : String
  /-- The category above it; only categories have one. -/
  parent : Option Id := none
deriving Repr, DecidableEq, Inhabited

/-- A booked transaction. -/
structure Transaction where
  account : Id
  amount : Int
  currency : String
  bookedDate : Date
  description : Option String
  partner : Option String
  type : String
  note : Option String
  recipientNote : Option String
  place : Option String
  targetIban : Option String
  sourceIban : Option String
  category : Option Id
  merchant : Option Id
  isReconciled : Bool
  reconciledAt : Option Instant
  updatedAt : Instant
deriving Repr, DecidableEq, Inhabited

/-- A tag on a transaction. -/
structure TagLink where
  transaction : Id
  tag : Id
deriving Repr, DecidableEq, Inhabited

/-- A group of rules. -/
structure Group where
  user : Id
  name : String
  description : String
  order : Int
  isActive : Bool
  updatedAt : Instant
deriving Repr, DecidableEq, Inhabited

/-- A rule. -/
structure Rule where
  user : Id
  group : Id
  name : String
  description : String
  trigger : String
  order : Int
  isActive : Bool
  stopProcessing : Bool
  createdAt : Instant
  updatedAt : Instant
deriving Repr, DecidableEq, Inhabited

/-- A group of conditions of a rule. -/
structure ConditionGroupRow where
  rule : Id
  connective : String
  order : Int
deriving Repr, DecidableEq, Inhabited

/-- A condition of a group. -/
structure ConditionRow where
  group : Id
  field : String
  operator : String
  value : String
  isCaseSensitive : Bool
  isNegated : Bool
  order : Int
deriving Repr, DecidableEq, Inhabited

/-- An action of a rule. -/
structure ActionRow where
  rule : Id
  kind : String
  value : Option String
  order : Int
  stopProcessing : Bool
deriving Repr, DecidableEq, Inhabited

/-- What a rule did with a transaction. -/
structure Log where
  rule : Id
  transaction : Id
  matched : Bool
  actions : Json
  context : Json
  createdAt : Instant
deriving Repr, Inhabited

end Rulebook
