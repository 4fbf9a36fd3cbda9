import Rulebook.Text.Printable

/-!
# Quoted text

Messages show a text between quotes.  The quote is the single one, or the double one when the text
has single quotes and no double ones.  Inside, the backslash, the chosen quote and the characters
that are not printable are escaped; everything else stands for itself.

## Main definitions

* `hexDigits` — a number in lower-case hexadecimal of a fixed width.
* `quoted` — the quoted form of a text.
-/

namespace Rulebook.Text

/-- The number in lower-case hexadecimal, filled with zeros up to the width. -/
def hexDigits (width n : Nat) : List Char :=
  let digits := Nat.toDigits 16 n
  List.replicate (width - digits.length) '0' ++ digits

/-- The quote for a text: double only if the text holds a single quote and no double one. -/
def quoteFor (s : List Char) : Char :=
  if s.contains '\'' && !s.contains '"' then '"' else '\''

/-- How a character is shown between the given quotes. -/
def quotedChar (quote c : Char) : List Char :=
  if c = quote || c = '\\' then ['\\', c]
  else if c = '\n' then ['\\', 'n']
  else if c = '\r' then ['\\', 'r']
  else if c = '\t' then ['\\', 't']
  else if isPrintable c then [c]
  else if c.toNat < 0x100 then '\\' :: 'x' :: hexDigits 2 c.toNat
  else if c.toNat < 0x10000 then '\\' :: 'u' :: hexDigits 4 c.toNat
  else '\\' :: 'U' :: hexDigits 8 c.toNat

/-- The quoted form of a text. -/
def quoted (s : String) : String :=
  let chars := s.toList
  let quote := quoteFor chars
  String.ofList (quote :: chars.flatMap (quotedChar quote) ++ [quote])

end Rulebook.Text
