import Rulebook.Condition.Value
import Rulebook.Condition.Vocabulary
import Rulebook.Pattern.Delimited
import Rulebook.Pattern.Glob
import Rulebook.Pattern.Matcher
import Rulebook.Text.Fold

/-!
# Evaluating conditions

A condition is evaluated to a truth value.  A condition that cannot be evaluated, because a number, a
date or a pattern cannot be read, does not match, and says why it is malformed.

Numbers and dates are compared as such when both sides are; otherwise the operators compare texts,
without regard to case unless the condition asks for it.  A set of tags satisfies a test on texts if
one of its names does.

## Main definitions

* `Malformation` — why a condition could not be evaluated.
* `Evaluation` — whether a condition matched.
* `evaluate` — the operators.
* `Condition` — a condition as the engine holds it, and `Condition.evaluate`.
-/

namespace Rulebook

open Rulebook.Number Rulebook.Calendar Rulebook.Text

/-- Why a condition could not be evaluated. -/
inductive Malformation where
  | unknownCondition (field operator : Json)
  | unknownOperator (operator : Json)
  /-- One of two values to be ordered is neither a number nor a date. -/
  | invalidComparison (actual : FieldValue) (expected : String)
  /-- A range does not have two bounds. -/
  | invalidBounds (expected : String)
  /-- A value or a bound of a range cannot be ordered. -/
  | invalidRange (actual : FieldValue) (expected : String)
  | invalidPattern (expected : String)
deriving Repr

namespace Malformation

/-- The word for the cause. -/
def code : Malformation → String
  | .unknownCondition _ _ => "unknown_condition"
  | .unknownOperator _ => "unknown_operator"
  | .invalidComparison _ _ => "invalid_comparison"
  | .invalidBounds _ => "invalid_range"
  | .invalidRange _ _ => "invalid_range"
  | .invalidPattern _ => "invalid_regex"

/-- The message for people; what is wrong with a pattern is not said. -/
def message? : Malformation → Option String
  | .unknownCondition field operator =>
    some ("Unknown field or operator: " ++ field.literal ++ " " ++ operator.literal)
  | .unknownOperator operator => some ("Unsupported operator: " ++ operator.literal)
  | .invalidComparison actual expected =>
    some ("Cannot compare " ++ actual.literal ++ " with " ++ quoted expected)
  | .invalidBounds expected => some ("Expected 'low,high', got " ++ quoted expected)
  | .invalidRange actual expected =>
    some ("Cannot compare " ++ actual.literal ++ " with range " ++ quoted expected)
  | .invalidPattern _ => none

end Malformation

/-- The outcome of a condition. -/
structure Evaluation where
  matched : Bool
  error : Option Malformation := none
deriving Repr

namespace Evaluation

/-- A condition that could be evaluated. -/
def of (matched : Bool) : Evaluation := ⟨matched, none⟩

/-- A condition that could not be evaluated; it does not match. -/
def failed (why : Malformation) : Evaluation := ⟨false, some why⟩

/-- Whether the condition could not be evaluated. -/
def isMalformed (e : Evaluation) : Bool := e.error.isSome

/-- The opposite outcome; a condition that could not be evaluated stays unmatched. -/
def invert (e : Evaluation) : Evaluation := if e.isMalformed then e else .of (!e.matched)

/-- The opposite truth value, whether or not the condition could be evaluated. -/
def negate (e : Evaluation) : Evaluation := ⟨!e.matched, e.error⟩

@[simp] theorem invert_of (b : Bool) : (Evaluation.of b).invert = .of (!b) := rfl

@[simp] theorem negate_negate (e : Evaluation) : e.negate.negate = e := by
  cases e
  simp [negate]

end Evaluation

/-! ## Texts -/

/-- The form in which texts are compared. -/
def foldCase (caseSensitive : Bool) (s : String) : List Char :=
  if caseSensitive then s.toList else foldChars s.toList

/-- Whether one text occurs in another. -/
def isPartOf (part whole : List Char) : Bool :=
  match whole with
  | [] => part.isEmpty
  | c :: rest => part.isPrefixOf (c :: rest) || isPartOf part rest

/-- Whether one of the value's texts satisfies a test. -/
def anyText (actual : FieldValue) (test : String → Bool) : Bool := actual.texts.any test

/-- Whether one of the value's texts is in a relation to the expected one; nothing is in relation
to the empty text. -/
def matchText (relation : List Char → List Char → Bool) (actual : FieldValue) (expected : String)
    (caseSensitive : Bool) : Evaluation :=
  if actual = .absent || expected = "" then .of false
  else
    let wanted := foldCase caseSensitive expected
    .of (anyText actual fun s => relation (foldCase caseSensitive s) wanted)

/-! ## Equality -/

/-- Whether the value equals a text: as numbers or dates if both are, else as texts. -/
def matchEqual (kind : ValueKind) (actual : FieldValue) (expected : String)
    (caseSensitive : Bool) : Evaluation :=
  if actual = .absent then .of (expected = "")
  else
    let byText : Evaluation :=
      let wanted := foldCase caseSensitive expected
      .of (anyText actual fun s => foldCase caseSensitive s = wanted)
    match kind with
    | .number =>
      match actual.number?, (FieldValue.text expected).number? with
      | some a, some b => .of (a.eq b)
      | _, _ => byText
    | .date =>
      match actual.date?, (FieldValue.text expected).date? with
      | some a, some b => .of (decide (a = b))
      | _, _ => byText
    | _ => byText

/-- Whether the value equals an entry of a list: as numbers if the value and all entries are, else
as texts. -/
def matchIn (kind : ValueKind) (actual : FieldValue) (expected : String)
    (caseSensitive : Bool) : Evaluation :=
  if actual = .absent then .of false
  else
    let candidates := splitList expected
    let byText : Evaluation :=
      let wanted := candidates.map (foldCase caseSensitive)
      .of (anyText actual fun s => wanted.contains (foldCase caseSensitive s))
    match kind with
    | .number =>
      match actual.number?, candidates.mapM fun s => (FieldValue.text s).number? with
      | some a, some bs => .of (bs.any fun b => a.eq b)
      | _, _ => byText
    | _ => byText

/-! ## Order -/

/-- Two values that can be ordered. -/
inductive OrderedPair where
  | numbers (a b : Binary64)
  | dates (a b : Date)

namespace OrderedPair

/-- Whether the first comes before the second. -/
def lt : OrderedPair → Bool
  | .numbers a b => a.lt b
  | .dates a b => a.lt b

/-- Whether the first comes before the second or is equal to it. -/
def le : OrderedPair → Bool
  | .numbers a b => a.le b
  | .dates a b => a.le b

/-- The pair the other way round. -/
def swap : OrderedPair → OrderedPair
  | .numbers a b => .numbers b a
  | .dates a b => .dates b a

end OrderedPair

/-- The value and a text as dates, if dates are compared, else as numbers. -/
def orderedPair? (kind : ValueKind) (actual : FieldValue) (expected : String) :
    Option OrderedPair :=
  let expected := FieldValue.text expected
  if kind = .date || actual.isDate then
    match actual.date?, expected.date? with
    | some a, some b => some (.dates a b)
    | _, _ => none
  else
    match actual.number?, expected.number? with
    | some a, some b => some (.numbers a b)
    | _, _ => none

/-- Whether the value is in an order relation to a text. -/
def matchOrder (relation : OrderedPair → Bool) (kind : ValueKind) (actual : FieldValue)
    (expected : String) : Evaluation :=
  if actual = .absent then .of false
  else match orderedPair? kind actual expected with
    | some pair => .of (relation pair)
    | none => .failed (.invalidComparison actual expected)

/-- Whether the value lies between the two bounds of a list, the bounds included. -/
def matchBetween (kind : ValueKind) (actual : FieldValue) (expected : String) : Evaluation :=
  if actual = .absent then .of false
  else match splitList expected with
    | [low, high] =>
      match orderedPair? kind actual low, orderedPair? kind actual high with
      | some l, some h => .of (l.swap.le && h.le)
      | _, _ => .failed (.invalidRange actual expected)
    | _ => .failed (.invalidBounds expected)

/-! ## Patterns -/

/-- The pattern that a text stands for: delimited patterns bring their own switches, all others
are matched without regard to case unless the condition asks for it. -/
def patternOf (expected : String) (caseSensitive : Bool) : Pattern.Options × List Char :=
  match Pattern.Delimited.split? expected.toList with
  | some (pattern, modifiers) => (Pattern.Delimited.options modifiers, pattern)
  | none => ({ ignoreCase := !caseSensitive }, expected.toList)

variable [Host]

/-- Whether a pattern occurs in one of the value's texts. -/
def matchPattern (actual : FieldValue) (expected : String) (caseSensitive : Bool) :
    Except Failure Evaluation :=
  if actual = .absent || expected = "" then .ok (.of false)
  else
    let (options, pattern) := patternOf expected caseSensitive
    match Pattern.parse options pattern with
    | .ok pattern => .ok (.of (anyText actual pattern.search))
    | .error fault =>
      match Failure.ofPatternFault? fault with
      | some failure => .error failure
      | none => .ok (.failed (.invalidPattern expected))

/-- Whether a glob covers one of the value's texts. -/
def matchGlob (actual : FieldValue) (expected : String) (caseSensitive : Bool) : Evaluation :=
  if actual = .absent || expected = "" then .of false
  else .of (anyText actual (Pattern.globCovers caseSensitive expected.toList))

/-! ## Operators -/

/-- Applies an operator to a field's value and the expected text. -/
def evaluate (op : Operator) (kind : ValueKind) (actual : FieldValue) (expected : String)
    (caseSensitive : Bool) : Except Failure Evaluation :=
  match op with
  | .equals => .ok (matchEqual kind actual expected caseSensitive)
  | .notEquals => .ok (matchEqual kind actual expected caseSensitive).invert
  | .contains => .ok (matchText (fun a e => isPartOf e a) actual expected caseSensitive)
  | .notContains => .ok (matchText (fun a e => isPartOf e a) actual expected caseSensitive).invert
  | .startsWith => .ok (matchText (fun a e => e.isPrefixOf a) actual expected caseSensitive)
  | .endsWith => .ok (matchText (fun a e => e.isSuffixOf a) actual expected caseSensitive)
  | .greater => .ok (matchOrder (fun p => p.swap.lt) kind actual expected)
  | .greaterOrEqual => .ok (matchOrder (fun p => p.swap.le) kind actual expected)
  | .less => .ok (matchOrder OrderedPair.lt kind actual expected)
  | .lessOrEqual => .ok (matchOrder OrderedPair.le kind actual expected)
  | .regex => matchPattern actual expected caseSensitive
  | .wildcard => .ok (matchGlob actual expected caseSensitive)
  | .isEmpty => .ok (.of actual.isBlank)
  | .isNotEmpty => .ok (.of !actual.isBlank)
  | .inList => .ok (matchIn kind actual expected caseSensitive)
  | .notInList => .ok (matchIn kind actual expected caseSensitive).invert
  | .between => .ok (matchBetween kind actual expected)

/-- The text that a condition's value stands for; null is the empty text. -/
def expectedText (j : Json) : Except Failure String :=
  match j with
  | .null => .ok ""
  | j => j.plain .message

/-- Applies an operator given by any value; one that is no operator's word is malformed. -/
def evaluateNamed (op : Json) (kind : ValueKind) (actual : FieldValue) (expected : Json)
    (caseSensitive : Bool) : Except Failure Evaluation := do
  let expected ← expectedText expected
  match (Vocabulary.ofJson? op : Option Operator) with
  | some op => evaluate op kind actual expected caseSensitive
  | none => match op.hidden? .message with
    | none => return .failed (.unknownOperator op)
    | some failure => throw failure

/-! ## Conditions -/

/-- A condition as the engine holds it.  Conditions of stored rules have texts and truth values
here; those of a definition that was not checked have whatever it says. -/
structure Condition where
  id : Option Id
  field : Json
  operator : Json
  value : Json
  isCaseSensitive : Json
  isNegated : Json
  order : Json
deriving Repr, Inhabited

namespace Condition

/-- The field and the operator, if both are known. -/
def recognised? (c : Condition) : Option (Field × Operator) :=
  match Vocabulary.ofJson? c.field, Vocabulary.ofJson? c.operator with
  | some field, some op => some (field, op)
  | _, _ => none

/-- The outcome of a condition whose field and operator are known, given the field's value. -/
def apply (c : Condition) (field : Field) (op : Operator) (actual : FieldValue) :
    Except Failure Evaluation := do
  evaluate op field.kind actual (← expectedText c.value) c.isCaseSensitive.isTruthy

/-- The outcome of a condition whose field or operator is unknown.  Both are shown. -/
def unrecognised (c : Condition) : Except Failure Evaluation :=
  match (c.field.hidden? .message).or (c.operator.hidden? .message) with
  | none => .ok (.failed (.unknownCondition c.field c.operator))
  | some failure => .error failure

/-- The outcome after negation, if the condition is negated. -/
def finish (c : Condition) (e : Evaluation) : Evaluation :=
  if c.isNegated.isTruthy then e.negate else e

/-- How a condition reads as a sentence. -/
def text (c : Condition) : String :=
  (if c.isNegated.isTruthy then "NOT " else "") ++ c.field.display ++ " " ++ c.operator.display
    ++ " " ++ c.value.literal

/-- A failure of cleaning as a refusal; a value that is nested too deeply is no refusal. -/
def refusal : Failure → Failure
  | .tooDeep => .tooDeep
  | failure => .invalid [failure.message]

/-- Refuses a condition whose field or operator is unknown, or whose operator does not accept the
field's kind of value. -/
def check (c : Condition) : Except Failure Unit := do
  let field : Field ← (Vocabulary.require c.field).mapError refusal
  let op : Operator ← (Vocabulary.require c.operator).mapError refusal
  if op.accepts field.kind then return ()
  else
    throw (.invalid ["Operator '" ++ Vocabulary.code op ++ "' cannot be used with "
      ++ Vocabulary.code field.kind ++ " field '" ++ Vocabulary.code field ++ "'"])

end Condition

end Rulebook
