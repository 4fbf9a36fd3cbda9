/-!
# Blanks and lists

Blanks are the space characters of Unicode 14.0 together with the ASCII separators.  `strip` drops
them from both ends of a text; values that people type are read after stripping.  A list is written
with commas, and `splitList` gives its stripped entries.

## Main definitions

* `isBlank` — the character class.
* `stripChars`, `strip` — a text without blanks at its ends.
* `splitList` — the entries of a comma-separated list.
-/

namespace Rulebook.Text

/-- A space character of any script, a line break or an ASCII separator. -/
def isBlank (c : Char) : Bool :=
  let n := c.toNat
  (0x9 ≤ n && n ≤ 0xd) || (0x1c ≤ n && n ≤ 0x20) || n == 0x85 || n == 0xa0 || n == 0x1680
    || (0x2000 ≤ n && n ≤ 0x200a) || n == 0x2028 || n == 0x2029 || n == 0x202f || n == 0x205f
    || n == 0x3000

/-- The characters without the blanks at both ends. -/
def stripChars (s : List Char) : List Char :=
  ((s.dropWhile isBlank).reverse.dropWhile isBlank).reverse

/-- The text without the blanks at both ends. -/
def strip (s : String) : String := String.ofList (stripChars s.toList)

/-- The pieces of a list of characters between the occurrences of a separator; there is always one
piece more than there are separators. -/
def splitAt (separator : Char) : List Char → List (List Char)
  | [] => [[]]
  | c :: rest =>
    if c = separator then [] :: splitAt separator rest
    else match splitAt separator rest with
      | [] => [[c]]
      | piece :: pieces => (c :: piece) :: pieces

/-- The stripped entries of a comma-separated list.  The empty text has one empty entry. -/
def splitList (s : String) : List String :=
  (splitAt ',' s.toList).map fun piece => String.ofList (stripChars piece)

theorem splitAt_ne_nil (separator : Char) (s : List Char) : splitAt separator s ≠ [] := by
  cases s with
  | nil => simp [splitAt]
  | cons c rest =>
    simp only [splitAt]
    split
    · simp
    · split <;> simp

/-- A text without the separator is one piece. -/
theorem splitAt_of_not_mem {separator : Char} {s : List Char} (h : separator ∉ s) :
    splitAt separator s = [s] := by
  induction s with
  | nil => rfl
  | cons c rest ih =>
    simp only [List.mem_cons, not_or] at h
    simp [splitAt, Ne.symm h.1, ih h.2]

end Rulebook.Text
