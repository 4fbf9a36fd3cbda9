import Rulebook.Pattern.Matcher

/-!
# Globs

A glob is a text in which `*` stands for any text and `?` for any one character; every other
character stands for itself, or for the same letter in another case.  A glob has to cover the whole
text.  It is rewritten as a pattern, in which the characters that mean something to patterns are
escaped, and that pattern is matched.

## Main definitions

* `globPattern` — the pattern that a glob is rewritten as.
* `globOptions` — the switches of that pattern.
* `globCovers` — whether a glob covers a text.
-/

namespace Rulebook.Pattern

/-- The characters that may mean something in a pattern. -/
def specialChars : List Char := "()[]\x7b\x7d?*+-|^$\\.&~# \t\n\r\x0b\x0c".toList

/-- A character as a pattern that stands for it. -/
def escaped (c : Char) : List Char := if specialChars.contains c then ['\\', c] else [c]

/-- The pattern of one character of a glob. -/
def globPiece (c : Char) : List Char :=
  if c = '*' then ['.', '*'] else if c = '?' then ['.'] else escaped c

/-- The pattern that a glob is rewritten as. -/
def globPattern (glob : List Char) : List Char := glob.flatMap globPiece

/-- The switches with which it is matched: line breaks are characters like all others. -/
def globOptions (caseSensitive : Bool) : Options := { ignoreCase := !caseSensitive, dotAll := true }

/-- Whether a glob covers one of the texts.  Every glob is rewritten as a pattern that can be
read. -/
def globCovers [Host] (caseSensitive : Bool) (glob : List Char) (text : String) : Bool :=
  match parse (globOptions caseSensitive) (globPattern glob) with
  | .ok pattern => pattern.covers text
  | .error _ => false

end Rulebook.Pattern
