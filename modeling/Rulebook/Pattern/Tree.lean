import Rulebook.Text.Letter

/-!
# Patterns

The tree of a search pattern.  A pattern is a sequence of nodes; each node consumes text, tests a
position, or combines sequences.  Options such as ignoring case belong to the pattern as a whole and
may be switched on and off for a group.

## Main definitions

* `Options` — the switches of a pattern.
* `Node` — the nodes.
* `Folding` — how letters are compared, and `Folding.sameLetter`.
-/

namespace Rulebook.Pattern

open Rulebook.Text

/-- The switches of a pattern. -/
structure Options where
  ignoreCase : Bool := false
  /-- `^` and `$` also stand at line breaks. -/
  multiline : Bool := false
  /-- `.` also matches a line break. -/
  dotAll : Bool := false
  /-- Blanks and comments in the pattern do not count. -/
  verbose : Bool := false
  /-- Classes and letters are those of ASCII. -/
  ascii : Bool := false
  /-- Classes and letters are those of Unicode, asked for by name. -/
  unicode : Bool := false
  /-- A switch that forbids repetitions. -/
  template : Bool := false
deriving DecidableEq, Repr, Inhabited

/-- No switches. -/
def Options.none : Options := {}

/-- The switches that are on in one or the other. -/
def Options.union (a b : Options) : Options where
  ignoreCase := a.ignoreCase || b.ignoreCase
  multiline := a.multiline || b.multiline
  dotAll := a.dotAll || b.dotAll
  verbose := a.verbose || b.verbose
  ascii := a.ascii || b.ascii
  unicode := a.unicode || b.unicode
  template := a.template || b.template

/-- Whether some switch is on in both. -/
def Options.meets (a b : Options) : Bool :=
  (a.ignoreCase && b.ignoreCase) || (a.multiline && b.multiline) || (a.dotAll && b.dotAll)
    || (a.verbose && b.verbose)

/-- The switches inside a group that turns some on and some off.  Asking for ASCII or Unicode
replaces the choice made outside. -/
def Options.inside (outer on off : Options) : Options :=
  let typed := on.ascii || on.unicode
  { ignoreCase := (outer.ignoreCase || on.ignoreCase) && !off.ignoreCase
    multiline := (outer.multiline || on.multiline) && !off.multiline
    dotAll := (outer.dotAll || on.dotAll) && !off.dotAll
    verbose := (outer.verbose || on.verbose) && !off.verbose
    ascii := if typed then on.ascii else outer.ascii
    unicode := if typed then on.unicode else outer.unicode
    template := outer.template || on.template }

/-- The named classes of characters. -/
inductive Category where
  | digit
  | space
  | word
deriving DecidableEq, Repr

/-- A member of a bracketed class; characters are code points. -/
inductive ClassItem where
  | code (c : Nat)
  | range (first last : Nat)
  | category (kind : Category) (negated : Bool)
deriving DecidableEq, Repr

/-- Tests of a position. -/
inductive Edge where
  /-- `^` -/
  | lineStart
  /-- `$` -/
  | lineEnd
  | textStart
  | textEnd
  | wordEdge
  | notWordEdge
deriving DecidableEq, Repr

/-- How a repetition chooses its length. -/
inductive Greed where
  /-- As long as possible, shorter on demand. -/
  | greedy
  /-- As short as possible, longer on demand. -/
  | lazy
  /-- As long as possible, without second thoughts. -/
  | possessive
deriving DecidableEq, Repr

/-- A node of a pattern. -/
inductive Node where
  | code (c : Nat)
  | notCode (c : Nat)
  | anyChar
  | oneOf (negated : Bool) (items : List ClassItem)
  | edge (kind : Edge)
  | backref (group : Nat)
  | group (index : Option Nat) (on off : Options) (body : List Node)
  | atomic (body : List Node)
  | look (ahead negated : Bool) (body : List Node)
  | branch (alternatives : List (List Node))
  | conditional (group : Nat) (yes no : List Node)
  | repetition (greed : Greed) (least : Nat) (most : Option Nat) (body : List Node)
deriving Repr, Inhabited

/-- Whether the node consumes exactly one character. -/
def Node.isUnit : Node → Bool
  | .code _ | .notCode _ | .anyChar | .oneOf _ _ => true
  | _ => false

/-- Whether two nodes are the same node without parts. -/
def Node.sameAtom : Node → Node → Bool
  | .code a, .code b => a == b
  | .notCode a, .notCode b => a == b
  | .anyChar, .anyChar => true
  | .oneOf n xs, .oneOf m ys => n == m && xs == ys
  | .edge a, .edge b => a == b
  | .backref a, .backref b => a == b
  | _, _ => false

/-! ## Comparing letters -/

/-- How letters are compared. -/
inductive Folding where
  /-- Every letter is itself only. -/
  | exact
  /-- The two cases of the ASCII letters are the same. -/
  | ascii
  /-- Letters are the same if their simple lower-case forms are, or share an upper-case form. -/
  | unicode
deriving DecidableEq, Repr

/-- The comparison that the switches ask for. -/
def Options.folding (o : Options) : Folding :=
  if o.ignoreCase then (if o.ascii then .ascii else .unicode) else .exact

/-- The representative of a letter's cases. -/
def Folding.lower : Folding → Nat → Nat
  | .exact, n => n
  | .ascii, n => if 0x41 ≤ n && n ≤ 0x5a then n + 0x20 else n
  | .unicode, n => lowerCode n

/-- The other lower-case letters that count as the same. -/
def Folding.siblings : Folding → Nat → List Nat
  | .unicode, n => Text.siblings n
  | _, _ => []

/-- Whether a character of the text is the letter of the pattern. -/
def Folding.sameLetter (f : Folding) (letter c : Nat) : Bool :=
  let l := f.lower letter
  let m := f.lower c
  m == l || (f.siblings l).contains m

/-- The letters whose lower-case form is the given one. -/
def Folding.withLower (f : Folding) (l : Nat) : List Nat :=
  match f with
  | .exact => [l]
  | .ascii => if 0x61 ≤ l && l ≤ 0x7a then [l, l - 0x20] else [l]
  | .unicode => l :: lowerShifts.preimages l

/-- Every letter is the same as itself, however letters are compared. -/
theorem Folding.sameLetter_self (f : Folding) (c : Nat) : f.sameLetter c c = true := by
  simp [Folding.sameLetter]

end Rulebook.Pattern
