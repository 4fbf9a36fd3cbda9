/-!
# Kinds of rows

The kinds of rows that a ledger holds, under the names that requests, answers and messages use.
-/

namespace Rulebook

/-- The number of a row in its table. -/
abbrev Id := Int

/-- A kind of rows. -/
inductive Entity where
  | user
  | account
  | category
  | merchant
  | tag
  | transaction
  | transactionTag
  | group
  | rule
  | conditionGroup
  | condition
  | action
  | log
deriving DecidableEq, Repr

namespace Entity

/-- All kinds. -/
def all : List Entity :=
  [.user, .account, .category, .merchant, .tag, .transaction, .transactionTag, .group, .rule,
    .conditionGroup, .condition, .action, .log]

/-- The name in messages. -/
def title : Entity → String
  | .user => "User"
  | .account => "Account"
  | .category => "Category"
  | .merchant => "Merchant"
  | .tag => "Tag"
  | .transaction => "Transaction"
  | .transactionTag => "TransactionTag"
  | .group => "RuleGroup"
  | .rule => "Rule"
  | .conditionGroup => "ConditionGroup"
  | .condition => "RuleCondition"
  | .action => "RuleAction"
  | .log => "RuleExecutionLog"

/-- The name in requests. -/
def code : Entity → String
  | .user => "user"
  | .account => "account"
  | .category => "category"
  | .merchant => "merchant"
  | .tag => "tag"
  | .transaction => "transaction"
  | .transactionTag => "transaction_tag"
  | .group => "group"
  | .rule => "rule"
  | .conditionGroup => "condition_group"
  | .condition => "condition"
  | .action => "action"
  | .log => "log"

/-- The part of the ledger that a kind belongs to. -/
def area : Entity → String
  | .group | .rule | .conditionGroup | .condition | .action | .log => "rules"
  | _ => "transactions"

/-- The full name, area first, in counts of deleted rows. -/
def label (e : Entity) : String := e.area ++ "." ++ e.title

/-- The kind with a name in requests. -/
def ofCode? (s : String) : Option Entity := all.find? fun e => e.code == s

end Entity

end Rulebook
