import Rulebook.Pattern.Reader
import Rulebook.Text.Blank
import Rulebook.Text.Digit

/-!
# Matching

A backtracking matcher.  Matching a node at a position is a function that takes what is to be
matched afterwards as a continuation; the first way that lets the continuation succeed is taken.
The matcher is structural on the pattern; only repetitions, which may run as long as the text, are
counted down.

A repetition that has had its least number of rounds starts another one only if the text has moved
on since the last such round started, so that empty rounds come to an end.

## Main definitions

* `Spot` — a position with the remembered groups.
* `matchSequence` — the first way to match a sequence and what follows.
* `Parsed.search` — whether a pattern occurs in a text.
* `Parsed.covers` — whether a pattern matches a text as a whole.
-/

namespace Rulebook.Pattern

open Rulebook.Text

/-- The code points of a text. -/
abbrev Subject := Array Nat

/-- A position in the text and the marks set so far.  Group `g` starts at mark `2g` and ends at mark
`2g + 1`; the latest setting of a mark stands first. -/
structure Spot where
  position : Nat
  marks : List (Nat × Nat)

/-- Sets a mark at the current position. -/
def Spot.mark (s : Spot) (index : Nat) : Spot := { s with marks := (index, s.position) :: s.marks }

/-- Where a group starts and ends, if it has matched. -/
def Spot.span? (s : Spot) (group : Nat) : Option (Nat × Nat) :=
  match s.marks.lookup (2 * group), s.marks.lookup (2 * group + 1) with
  | some first, some last => if first ≤ last then some (first, last) else none
  | _, _ => none

/-- What a group has matched of a text. -/
def Spot.part? (s : Spot) (text : List Char) (group : Nat) : Option (List Char) :=
  (s.span? group).map fun (first, last) => (text.drop first).take (last - first)

/-- What is matched after a node. -/
abbrev Continuation := Spot → Option Spot

/-! ## Single characters -/

/-- The character of a code point. -/
def charOf (c : Nat) : Char := Char.ofNat c

/-- Whether a character belongs to a named class. -/
def Category.holds (ascii : Bool) (kind : Category) (c : Nat) : Bool :=
  match kind, ascii with
  | .digit, true => 0x30 ≤ c && c ≤ 0x39
  | .digit, false => isDecimal (charOf c)
  | .space, true => (0x9 ≤ c && c ≤ 0xd) || c == 0x20
  | .space, false => isBlank (charOf c)
  | .word, true =>
    (0x30 ≤ c && c ≤ 0x39) || (0x41 ≤ c && c ≤ 0x5a) || (0x61 ≤ c && c ≤ 0x7a) || c == 0x5f
  | .word, false => isWordChar (charOf c)

/-- The last code point of the first plane. -/
def firstPlaneEnd : Nat := 0xffff

/-- The simple upper-case form, or the first character of the full one. -/
def upperHead (c : Nat) : Nat :=
  match upperExpansions.lookup c with
  | some (first :: _) => first
  | _ => upperCode c

/-- Whether a character is one of a member of a class.  Without regard to case, the character's
lower-case form is compared; members of the first plane stand for all their cases, a code point
beyond it for itself, and the part of a range beyond it for the upper-case form too. -/
def ClassItem.holds (folding : Folding) (ascii : Bool) (item : ClassItem) (c : Nat) : Bool :=
  let l := folding.lower c
  match item with
  | .category kind negated => kind.holds ascii l != negated
  | .code member =>
    if folding = .exact then c == member
    else if firstPlaneEnd < member then l == member
    else folding.sameLetter member c
  | .range first last =>
    if folding = .exact then first ≤ c && c ≤ last
    else
      let cases := (l :: folding.siblings l).flatMap folding.withLower
      let low := cases.any fun v => first ≤ v && v ≤ last && v ≤ firstPlaneEnd
      let high := firstPlaneEnd < last &&
        ((first ≤ l && l ≤ last) || (first ≤ upperHead l && upperHead l ≤ last))
      low || high

/-- Whether a node of one character matches the character. -/
def Node.holds (o : Options) (node : Node) (c : Nat) : Bool :=
  match node with
  | .code letter => o.folding.sameLetter letter c
  | .notCode letter => !o.folding.sameLetter letter c
  | .anyChar => o.dotAll || c != 0xa
  | .oneOf negated items => items.any (·.holds o.folding o.ascii c) != negated
  | _ => false

/-! ## Positions -/

/-- Whether a character of a word stands at the position. -/
def wordAt (o : Options) (text : Subject) (position : Nat) : Bool :=
  (text[position]?).any (Category.word.holds o.ascii)

/-- Whether a word starts or ends at the position. -/
def isWordEdge (o : Options) (text : Subject) (position : Nat) : Bool :=
  let before := position != 0 && wordAt o text (position - 1)
  before != wordAt o text position

/-- Whether a line break stands at the position. -/
def breakAt (text : Subject) (position : Nat) : Bool := text[position]? == some 0xa

/-- Whether the position is of the kind.  The empty text has no edges of words, and no other
positions either. -/
def Edge.holds (o : Options) (text : Subject) (kind : Edge) (position : Nat) : Bool :=
  match kind with
  | .textStart => position == 0
  | .lineStart => position == 0 || (o.multiline && breakAt text (position - 1))
  | .textEnd => position == text.size
  | .lineEnd =>
    position == text.size
      || (breakAt text position && (o.multiline || position + 1 == text.size))
  | .wordEdge => text.size != 0 && isWordEdge o text position
  | .notWordEdge => text.size != 0 && !isWordEdge o text position

/-! ## Repetitions -/

/-- A way to match the body of a repetition before a continuation. -/
abbrev Round := Spot → Continuation → Option Spot

/-- Whether another round is allowed after so many. -/
def below (most : Option Nat) (count : Nat) : Bool :=
  match most with
  | none => true
  | some n => count < n

/-- Rounds as long as possible.  `last` is where the last round beyond the least number started. -/
def greedyRounds (round : Round) (least : Nat) (most : Option Nat) (k : Continuation) :
    Nat → Nat → Option Nat → Continuation
  | 0, _, _, s => k s
  | fuel + 1, count, last, s =>
    if count < least then round s (greedyRounds round least most k fuel (count + 1) last)
    else if below most count && last != some s.position then
      match round s (greedyRounds round least most k fuel (count + 1) (some s.position)) with
      | some stop => some stop
      | none => k s
    else k s

/-- Rounds as short as possible. -/
def lazyRounds (round : Round) (least : Nat) (most : Option Nat) (k : Continuation) :
    Nat → Nat → Option Nat → Continuation
  | 0, _, _, s => k s
  | fuel + 1, count, last, s =>
    if count < least then round s (lazyRounds round least most k fuel (count + 1) last)
    else match k s with
      | some stop => some stop
      | none =>
        if below most count && last != some s.position then
          round s (lazyRounds round least most k fuel (count + 1) (some s.position))
        else none

/-- Rounds as long as possible, each in its first way. -/
def possessiveRounds (round : Round) (least : Nat) (most : Option Nat) :
    Nat → Nat → Continuation
  | 0, _, s => some s
  | fuel + 1, count, s =>
    if count < least then
      match round s some with
      | some next => possessiveRounds round least most fuel (count + 1) next
      | none => none
    else if below most count then
      match round s some with
      | some next =>
        if next.position = s.position then some next
        else possessiveRounds round least most fuel (count + 1) next
      | none => some s
    else some s

/-- How many characters from the position on match a node, up to a bound. -/
def runLength (o : Options) (text : Subject) (node : Node) : Nat → Nat → Nat
  | 0, _ => 0
  | bound + 1, position =>
    match text[position]? with
    | some c => if node.holds o c then runLength o text node bound (position + 1) + 1 else 0
    | none => 0

/-- Tries the continuation after `least + extra` characters, then after one less, and so on. -/
def tryShorter (k : Continuation) (s : Spot) (least : Nat) : Nat → Option Spot
  | 0 => k { s with position := s.position + least }
  | extra + 1 =>
    match k { s with position := s.position + least + extra + 1 } with
    | some stop => some stop
    | none => tryShorter k s least extra

/-- Tries the continuation here, then one character further, and so on. -/
def tryLonger (k : Continuation) : Nat → Spot → Option Spot
  | 0, s => k s
  | extra + 1, s =>
    match k s with
    | some stop => some stop
    | none => tryLonger k extra { s with position := s.position + 1 }

/-- A repetition of a node of one character. -/
def repeatUnit (o : Options) (text : Subject) (greed : Greed) (least : Nat) (most : Option Nat)
    (node : Node) (s : Spot) (k : Continuation) : Option Spot :=
  let room := text.size - s.position
  let count := runLength o text node (min room (most.getD room)) s.position
  if count < least then none
  else match greed with
    | .greedy => tryShorter k s least (count - least)
    | .lazy => tryLonger k (count - least) { s with position := s.position + least }
    | .possessive => k { s with position := s.position + count }

/-- A repetition of any body. -/
def repeatRounds (text : Subject) (greed : Greed) (least : Nat) (most : Option Nat)
    (round : Round) (s : Spot) (k : Continuation) : Option Spot :=
  let fuel := least + text.size + 2
  match greed with
  | .greedy => greedyRounds round least most k fuel 0 none s
  | .lazy => lazyRounds round least most k fuel 0 none s
  | .possessive =>
    match possessiveRounds round least most fuel 0 s with
    | some next => k next
    | none => none

/-- Whether a stretch of the text occurs again at a position. -/
def sameStretch (o : Options) (text : Subject) : Nat → Nat → Nat → Bool
  | 0, _, _ => true
  | length + 1, first, position =>
    match text[first]?, text[position]? with
    | some a, some b =>
      o.folding.lower a == o.folding.lower b && sameStretch o text length (first + 1) (position + 1)
    | _, _ => false

/-! ## Nodes and sequences -/

mutual

/-- Matches a node and what follows. -/
def matchNode (groups : GroupWidths) (text : Subject) (o : Options) (node : Node) (s : Spot)
    (k : Continuation) : Option Spot :=
  match node with
  | .code letter =>
    match text[s.position]? with
    | some c =>
      if (Node.code letter).holds o c then k { s with position := s.position + 1 } else none
    | none => none
  | .notCode letter =>
    match text[s.position]? with
    | some c =>
      if (Node.notCode letter).holds o c then k { s with position := s.position + 1 } else none
    | none => none
  | .anyChar =>
    match text[s.position]? with
    | some c => if Node.anyChar.holds o c then k { s with position := s.position + 1 } else none
    | none => none
  | .oneOf negated items =>
    match text[s.position]? with
    | some c =>
      if (Node.oneOf negated items).holds o c then k { s with position := s.position + 1 }
      else none
    | none => none
  | .edge kind => if kind.holds o text s.position then k s else none
  | .backref group =>
    match s.span? group with
    | some (first, last) =>
      if sameStretch o text (last - first) first s.position then
        k { s with position := s.position + (last - first) }
      else none
    | none => none
  | .group none on off body => matchSequence groups text (o.inside on off) body s k
  | .group (some index) on off body =>
    matchSequence groups text (o.inside on off) body (s.mark (2 * index))
      fun next => k (next.mark (2 * index + 1))
  | .atomic body =>
    match matchSequence groups text o body s some with
    | some next => k next
    | none => none
  | .look ahead negated body =>
    let back := if ahead then 0 else (width groups body).low
    let found :=
      if back ≤ s.position then
        matchSequence groups text o body { s with position := s.position - back } some
      else none
    match found, negated with
    | some next, false => k { next with position := s.position }
    | none, true => k s
    | _, _ => none
  | .branch alternatives => matchBranches groups text o alternatives s k
  | .conditional group yes no =>
    if (s.span? group).isSome then matchSequence groups text o yes s k
    else matchSequence groups text o no s k
  | .repetition greed least most body =>
    match body with
    | [unit] =>
      if unit.isUnit then repeatUnit o text greed least most unit s k
      else repeatRounds text greed least most (matchNode groups text o unit) s k
    | body => repeatRounds text greed least most (matchSequence groups text o body) s k

/-- Matches a sequence and what follows. -/
def matchSequence (groups : GroupWidths) (text : Subject) (o : Options) (nodes : List Node)
    (s : Spot) (k : Continuation) : Option Spot :=
  match nodes with
  | [] => k s
  | node :: rest =>
    matchNode groups text o node s fun next => matchSequence groups text o rest next k

/-- Matches the first alternative that lets what follows succeed. -/
def matchBranches (groups : GroupWidths) (text : Subject) (o : Options)
    (alternatives : List (List Node)) (s : Spot) (k : Continuation) : Option Spot :=
  match alternatives with
  | [] => none
  | body :: rest =>
    match matchSequence groups text o body s k with
    | some stop => some stop
    | none => matchBranches groups text o rest s k

end

/-- Whether a member of a class has no letter with two cases. -/
def ClassItem.isCaseless (ascii : Bool) : ClassItem → Bool
  | .category _ _ => true
  | .code c => !hasCase ascii c
  | .range first last =>
    last ≤ firstPlaneEnd && (List.range (last + 1 - first)).all fun n => !hasCase ascii (first + n)
where
  /-- Whether a code point has another case. -/
  hasCase (ascii : Bool) (c : Nat) : Bool :=
    if ascii then (0x41 ≤ c && c ≤ 0x5a) || (0x61 ≤ c && c ≤ 0x7a) else isCased c

/-- Whether a member of a class is a named class. -/
def ClassItem.isCategory : ClassItem → Bool
  | .category _ _ => true
  | _ => false

/-- The class with which a pattern starts, if it stands in a group whose alphabet is not that of the
whole pattern.  A position qualifies for such a pattern only if its character is also in the class
as the whole pattern reads it. -/
def leadingClass? (outer : Options) (o : Options) : List Node → Option Node
  | .group _ on off body :: _ => leadingClass? outer (o.inside on off) body
  | .oneOf negated items :: _ =>
    if o.ascii != outer.ascii && items.any ClassItem.isCategory
        && (!o.ignoreCase || items.all (ClassItem.isCaseless o.ascii)) then
      some (.oneOf negated items)
    else none
  | _ => none

/-- Whether a position may be the start of a match. -/
def Parsed.mayStart (pattern : Parsed) (text : Subject) (position : Nat) : Bool :=
  match leadingClass? pattern.options pattern.options pattern.body with
  | none => true
  | some node =>
    (text[position]?).any (node.holds { ascii := pattern.options.ascii })

/-- Tries the positions from the given one on, so many of them. -/
def searchFrom (pattern : Parsed) (text : Subject) : Nat → Nat → Bool
  | 0, _ => false
  | fuel + 1, position =>
    (pattern.mayStart text position
        && (matchSequence pattern.widths text pattern.options pattern.body ⟨position, []⟩
          some).isSome)
      || searchFrom pattern text fuel (position + 1)

/-- The code points of a list of characters. -/
def subjectOf (s : List Char) : Subject := (s.map Char.toNat).toArray

/-- Whether the pattern occurs somewhere in the text. -/
def Parsed.search (pattern : Parsed) (text : String) : Bool :=
  let subject := subjectOf text.toList
  searchFrom pattern subject (subject.size + 1) 0

/-- The first way in which the pattern matches at the start of the text. -/
def Parsed.matchStart (pattern : Parsed) (subject : Subject) : Option Spot :=
  matchSequence pattern.widths subject pattern.options pattern.body ⟨0, []⟩ some

/-- Whether the pattern matches the text from its start to its end. -/
def Parsed.covers (pattern : Parsed) (text : String) : Bool :=
  let subject := subjectOf text.toList
  (matchSequence pattern.widths subject pattern.options pattern.body ⟨0, []⟩
    fun stop => if stop.position = subject.size then some stop else none).isSome

end Rulebook.Pattern
