import Rulebook.Entity
import Rulebook.Files
import Rulebook.Host
import Rulebook.Json.Literal
import Rulebook.Json.Reader
import Rulebook.Pattern.Reader

/-!
# Failures

Why an operation was refused.  Each cause carries what its message shows; `Failure.message` has the
words.

A message that shows a value is put together when the operation is refused.  If the value cannot be
shown, that is what the operation fails with instead.

## Main definitions

* `Failure` — the causes.
* `Failure.message` — the words for a cause.
* `Failure.showing` — the failure whose message shows a value.
* `Json.plain` — a value as a text.
-/

namespace Rulebook

/-- What was too large. -/
inductive Excess where
  /-- A repetition count of a pattern. -/
  | repetition
  /-- A number for a column. -/
  | column
  /-- An infinite number where a whole number is needed. -/
  | infinity
  /-- A span of time, or a point in time beyond the calendar. -/
  | time
deriving DecidableEq, Repr

/-- Why an operation was refused. -/
inductive Failure where
  /-- A definition cannot be accepted; the errors are the separate complaints. -/
  | definition (message : String) (errors : List String)
  /-- A value is no member of a vocabulary. -/
  | unknownMember (value : Json) (vocabulary : String)
  /-- A text of digits is no numeral. -/
  | notNumeral (text : String)
  /-- A numeral has more digits than are read. -/
  | longNumeral (digits : Nat)
  /-- A whole number has more digits than are written. -/
  | longInteger
  /-- A value is no number for a column. -/
  | notNumber (column : String) (value : Json)
  /-- A pattern asks for ASCII and for Unicode classes. -/
  | mixedAlphabets
  /-- A not-a-number stands where a whole number is needed. -/
  | notWhole
  /-- A row that was never stored cannot be updated. -/
  | updateUnsaved
  /-- Log rows are written once. -/
  | logChanged
  /-- The batch size is not positive. -/
  | emptyBatches
  /-- A limit is negative. -/
  | negativeLimit
  /-- A text is no date of the standard form. -/
  | notDate (text : String)
  /-- Other values that an operation cannot take. -/
  | invalidValue (message : String)
  /-- Rows or columns do not hold what they should; one message each. -/
  | invalid (messages : List String)
  /-- A command cannot be carried out. -/
  | command (message : String)
  /-- The words of a command cannot be read. -/
  | usage
  /-- An object has no member of this name. -/
  | missingMember (name : String)
  /-- There is no such row. -/
  | missingRow (entity : Entity)
  /-- There is more than one such row. -/
  | severalRows (entity : Entity) (count : Nat)
  /-- A transaction belongs to somebody else. -/
  | foreignTransaction (transaction : Option Id) (user : Id)
  /-- The log could not be written. -/
  | logWriteFailed
  /-- The observer of processed transactions failed. -/
  | hookFailed
  /-- A receiver of notifications failed. -/
  | receiverFailed
  /-- A value is of a kind that the operation does not know. -/
  | wrongKind
  /-- A value has no members, or lacks an operation. -/
  | noMembers
  /-- A reference names no row, or a column breaks a rule of its table. -/
  | brokenReference
  /-- A row with the same key is there. -/
  | duplicateKey
  /-- A column must not be empty. -/
  | missingColumn
  /-- A number is too large. -/
  | tooLarge (what : Excess)
  /-- A required reference is not set. -/
  | unsetReference
  /-- An amount has too many digits. -/
  | hugeAmount
  /-- An update met no row. -/
  | updatedNothing
  /-- A text is nested too deeply. -/
  | tooDeep
  /-- A text holds half of a pair of escapes, for which no file and no table has a place. -/
  | unencodable
  /-- A text writes no decimal number. -/
  | notDecimal (text : String)
  /-- A file could not be used. -/
  | file (fault : FileFault) (path : Path)
deriving Repr, Inhabited

namespace Failure

/-- The words for a whole number with too many digits; how many is said of numerals only. -/
def tooManyDigits (count : String) : String :=
  "Exceeds the limit (" ++ toString Number.integerDigitLimit
    ++ " digits) for integer string conversion" ++ count
    ++ "; use sys.set_int_max_str_digits() to increase the limit"

/-- The words for a cause. -/
def message : Failure → String
  | .definition message _ => message
  | .unknownMember value vocabulary => value.literal ++ " is not a valid " ++ vocabulary
  | .notNumeral text => "invalid literal for int() with base 10: " ++ Text.quoted text
  | .longNumeral digits => tooManyDigits (": value has " ++ toString digits ++ " digits")
  | .longInteger => tooManyDigits ""
  | .notNumber column value =>
    "Field '" ++ column ++ "' expected a number but got " ++ value.literal ++ "."
  | .mixedAlphabets => "ASCII and UNICODE flags are incompatible"
  | .notWhole => "cannot convert float NaN to integer"
  | .updateUnsaved => "Cannot force an update in save() with no primary key."
  | .logChanged => "Rule execution logs cannot be modified once written"
  | .emptyBatches => "Chunk size must be strictly positive."
  | .negativeLimit => "Negative indexing is not supported."
  | .notDate text => "Invalid isoformat string: " ++ Text.quoted text
  | .invalidValue message => message
  | .invalid messages => "; ".intercalate messages
  | .command message => message
  | .usage => ""
  | .missingMember name => Text.quoted name
  | .missingRow entity => entity.title ++ " matching query does not exist."
  | .severalRows entity count =>
    "get() returned more than one " ++ entity.title ++ " -- it returned " ++ toString count ++ "!"
  | .foreignTransaction transaction user =>
    "Transaction " ++ (match transaction with
      | some id => toString id
      | none => "None") ++ " does not belong to user " ++ toString user
  | .logWriteFailed => "log write failed"
  | .hookFailed => "hook failed"
  | .receiverFailed => "receiver failed"
  | .wrongKind => "unsupported value"
  | .noMembers => "value has no members"
  | .brokenReference => "FOREIGN KEY constraint failed"
  | .duplicateKey => "UNIQUE constraint failed"
  | .missingColumn => "NOT NULL constraint failed"
  | .tooLarge .repetition => "the repetition number is too large"
  | .tooLarge .column => "number too large for a column"
  | .tooLarge .infinity => "cannot convert float infinity to integer"
  | .tooLarge .time => "date value out of range"
  | .unsetReference => "Transaction has no account."
  | .hugeAmount => "amount has too many digits"
  | .updatedNothing => "Save with update_fields did not affect any rows."
  | .tooDeep => "nested too deeply"
  | .unencodable => "surrogates not allowed"
  | .notDecimal text => Text.quoted text ++ " is not a decimal number"
  | .file fault path => fault.message path

/-- The failure that a number with too many digits, or that is no numeral, causes. -/
def ofIntegerFault (text : String) : Number.IntegerFault → Failure
  | .notNumeral => .notNumeral text
  | .tooLong digits => .longNumeral digits

/-- The failure that a fault in a pattern causes; nothing for a pattern that is merely malformed,
which is an evaluation of its own. -/
def ofPatternFault? : Pattern.Fault → Option Failure
  | .malformed => none
  | .hugeRepetition => some (.tooLarge .repetition)
  | .asciiAndUnicode => some .mixedAlphabets
  | .longCount digits => some (.longNumeral digits)
  | .tooDeep => some .tooDeep

/-- The failure that a value causes which cannot be shown. -/
def ofShowFault : Json.ShowFault → Failure
  | .tooDeep => .tooDeep
  | .longInteger => .longInteger

end Failure

section Showing

variable [Host]

/-- The failure of showing a value. -/
def Json.hidden? (j : Json) (descent : Descent) : Option Failure :=
  (j.showFault? (Host.room descent)).map Failure.ofShowFault

/-- A failure whose message shows a value, or the failure of showing it. -/
def Failure.showing (j : Json) (descent : Descent) (failure : Failure) : Failure :=
  (j.hidden? descent).getD failure

/-- A value as a text: a text as it is, anything else in literal form. -/
def Json.plain (j : Json) (descent : Descent) : Except Failure String :=
  match j.hidden? descent with
  | none => .ok j.display
  | some failure => .error failure

end Showing

end Rulebook
