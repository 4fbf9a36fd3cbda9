import Rulebook.Pattern.Matcher

/-!
# Delimited patterns

A pattern may be written between two delimiters, one of `/ ~ # %`, with modifiers after the second.
Of the modifiers `i`, `m`, `s` and `x` are switches; the others that are allowed have no effect.
Whether a text has this form is itself asked with a pattern, which was read beforehand.

## Main definitions

* `Delimited.form` — the pattern of the texts that are delimited patterns.
* `Delimited.split?` — the pattern and the modifiers of a text of this form.
* `Delimited.options` — the switches that modifiers turn on.
-/

namespace Rulebook.Pattern.Delimited

/-- The characters that may delimit a pattern. -/
def delimiters : List Char := "/~#%".toList

/-- The letters that may follow a delimited pattern. -/
def modifiers : List Char := "imsuxADJSUX".toList

/-- One of some characters. -/
def anyOf (chars : List Char) : Node := .oneOf false (chars.map fun c => .code c.toNat)

/-- Any number of characters of a kind, as many as possible. -/
def many (unit : Node) : Node := .repetition .greedy 0 none [unit]

/-- A group that is remembered. -/
def capture (index : Nat) (body : List Node) : Node := .group (some index) .none .none body

/-- A delimiter, any text, the same delimiter, and modifiers: `^([/~#%])(.*)\1([imsuxADJSUX]*)$`. -/
def form : Parsed where
  options := { dotAll := true }
  widths := [none, some .one, some ⟨0, widthCeiling⟩, some ⟨0, widthCeiling⟩]
  body :=
    [.edge .lineStart, capture 1 [anyOf delimiters], capture 2 [many .anyChar], .backref 1,
      capture 3 [many (anyOf modifiers)], .edge .lineEnd]

/-- The pattern between the delimiters and the modifiers after them. -/
def split? (s : List Char) : Option (List Char × List Char) :=
  match form.matchStart (subjectOf s) with
  | none => none
  | some stop =>
    match stop.part? s 2, stop.part? s 3 with
    | some body, some modifiers => some (body, modifiers)
    | _, _ => none

/-- The switches that modifiers turn on. -/
def options (modifiers : List Char) : Options where
  ignoreCase := modifiers.contains 'i'
  multiline := modifiers.contains 'm'
  dotAll := modifiers.contains 's'
  verbose := modifiers.contains 'x'

end Rulebook.Pattern.Delimited
