import Rulebook.Host
import Rulebook.Pattern.Width
import Rulebook.Number.Reading
import Rulebook.Text.Word

/-!
# Reading patterns

A pattern is cut into tokens, each one character or a backslash with the character after it, and the
tokens are read by recursive descent: alternatives separated by `|`, each a sequence of items, an
item perhaps repeated.

The functions that read sequences and groups call each other with one unit of fuel less.  A sequence
consumes a token between two calls, so three units for a token are enough.

Groups inside each other take up the host's room, and so do the parts of a pattern when it is
translated after it was read.

## Main definitions

* `Fault` — why a text is no pattern.
* `translationFault?` — what keeps a pattern that was read from being translated.
* `Parsed` — a pattern with its switches.
* `parse` — the pattern of a text.
-/

namespace Rulebook.Pattern

open Rulebook.Number Rulebook.Text

/-- Why a text is no pattern. -/
inductive Fault where
  /-- The grammar is broken. -/
  | malformed
  /-- A repetition count is beyond what can be counted. -/
  | hugeRepetition
  /-- ASCII and Unicode classes are both asked for. -/
  | asciiAndUnicode
  /-- A count has more digits than are read. -/
  | longCount (digits : Nat)
  /-- Groups are nested more deeply than there is room for. -/
  | tooDeep
deriving DecidableEq, Repr

/-- Repetition counts stay below this. -/
def repetitionLimit : Nat := 4294967295

/-- Group numbers in conditions stay below this. -/
def groupLimit : Nat := 1073741823

/-- A token of a pattern. -/
inductive Token where
  | plain (c : Char)
  /-- A backslash and the character after it. -/
  | escape (c : Char)
  /-- A backslash at the very end. -/
  | dangling
deriving DecidableEq, Repr

/-- The tokens of a pattern. -/
def tokens : List Char → List Token
  | [] => []
  | '\\' :: c :: rest => .escape c :: tokens rest
  | ['\\'] => [.dangling]
  | c :: rest => .plain c :: tokens rest

/-- The characters of a token. -/
def Token.chars : Token → List Char
  | .plain c => [c]
  | .escape c => ['\\', c]
  | .dangling => ['\\']

/-- What is known while a pattern is read. -/
structure ReaderState where
  /-- The tokens still to be read. -/
  rest : List Token
  /-- The switches of the whole pattern. -/
  options : Options
  /-- The numbers of the named groups. -/
  names : List (String × Nat)
  /-- The widths of the groups that are closed; the whole pattern is group zero and never is. -/
  widths : GroupWidths
  /-- Inside a look behind, how many groups were open before it. -/
  behind : Option Nat
  /-- Group numbers that conditions refer to. -/
  referred : List Nat

/-- A reading step. -/
abbrev Reader := StateT ReaderState (Except Fault)

/-- Fails because the grammar is broken. -/
def malformed {α : Type} : Reader α := throw .malformed

namespace Reader

/-- Refuses a text that goes on with a lone backslash. -/
def refuseDangling : Reader Unit := do
  if (← get).rest.head? = some .dangling then malformed

/-- The next token. -/
def peek : Reader (Option Token) := return (← get).rest.head?

/-- Takes the next token. -/
def take : Reader (Option Token) := do
  let token ← peek
  modify fun s => { s with rest := s.rest.drop 1 }
  refuseDangling
  return token

/-- Takes the next token if it is the given character. -/
def accept (c : Char) : Reader Bool := do
  if (← peek) = some (.plain c) then
    let _ ← take
    return true
  else return false

/-- Takes the next token, which must be the given character. -/
def expect (c : Char) : Reader Unit := do
  if !(← accept c) then malformed

/-- Takes up to so many characters of a kind. -/
def takeWhile (kind : Char → Bool) : Nat → Reader (List Char)
  | 0 => return []
  | count + 1 => do
    match ← peek with
    | some (.plain c) =>
      if kind c then
        let _ ← take
        return c :: (← takeWhile kind count)
      else return []
    | _ => return []

/-- Takes all characters of a kind. -/
def takeAll (kind : Char → Bool) : Reader (List Char) := do
  takeWhile kind (← get).rest.length

/-- Takes the characters up to a closing character, of which there is at least one. -/
def takeUntil (close : Char) : Nat → Reader (List Char)
  | 0 => malformed
  | fuel + 1 => do
    match ← take with
    | none => malformed
    | some token =>
      if token = .plain close then return []
      else return token.chars ++ (← takeUntil close fuel)

/-- Takes a name up to its closing character. -/
def takeName (close : Char) : Reader (List Char) := do
  let name ← takeUntil close ((← get).rest.length + 1)
  if name.isEmpty then malformed else return name

/-- Whether a group is closed. -/
def isClosed (group : Nat) : Reader Bool := return (((← get).widths[group]?).join).isSome

/-- Refuses, inside a look behind, a group that is open or belongs to the look behind. -/
def checkBehind (group : Nat) : Reader Unit := do
  match (← get).behind with
  | none => return
  | some before =>
    if !(← isClosed group) || before ≤ group then malformed

/-- Opens the next group, perhaps with a name that no other group has. -/
def openGroup (name : Option String) : Reader Nat := do
  let s ← get
  let group := s.widths.length
  match name with
  | none => set { s with widths := s.widths ++ [none] }
  | some name =>
    if (s.names.lookup name).isSome then malformed
    else set { s with widths := s.widths ++ [none], names := (name, group) :: s.names }
  return group

/-- Closes a group. -/
def closeGroup (group : Nat) (body : List Node) : Reader Unit :=
  modify fun s => { s with widths := s.widths.set group (some (width s.widths body)) }

end Reader

open Reader

/-! ## Escapes -/

/-- A hexadecimal digit. -/
def isHexDigit (c : Char) : Bool :=
  ('0' ≤ c && c ≤ '9') || ('a' ≤ c && c ≤ 'f') || ('A' ≤ c && c ≤ 'F')

/-- A digit of ASCII. -/
def isDigitChar (c : Char) : Bool := '0' ≤ c && c ≤ '9'

/-- An octal digit. -/
def isOctalDigit (c : Char) : Bool := '0' ≤ c && c ≤ '7'

/-- A letter of ASCII. -/
def isLetterChar (c : Char) : Bool := ('a' ≤ c && c ≤ 'z') || ('A' ≤ c && c ≤ 'Z')

/-- The value of a hexadecimal digit. -/
def digitOf (c : Char) : Nat :=
  if c ≤ '9' then c.toNat - '0'.toNat
  else if c ≤ 'F' then c.toNat - 'A'.toNat + 10
  else c.toNat - 'a'.toNat + 10

/-- The number that digits write in a base. -/
def numeral (base : Nat) (digits : List Char) : Nat :=
  digits.foldl (fun n c => n * base + digitOf c) 0

/-- The code point that exactly so many hexadecimal digits write. -/
def hexEscape (count : Nat) : Reader Nat := do
  let digits ← takeWhile isHexDigit count
  let code := numeral 16 digits
  if digits.length = count && code ≤ 0x10ffff then return code else malformed

/-- The control characters that have an escape of one letter. -/
def controlEscape? : Char → Option Nat
  | 'a' => some 7
  | 'b' => some 8
  | 'f' => some 12
  | 'n' => some 10
  | 'r' => some 13
  | 't' => some 9
  | 'v' => some 11
  | '\\' => some 0x5c
  | _ => none

/-- The classes that have an escape, and whether they are negated. -/
def categoryEscape? : Char → Option (Category × Bool)
  | 'd' => some (.digit, false)
  | 'D' => some (.digit, true)
  | 's' => some (.space, false)
  | 'S' => some (.space, true)
  | 'w' => some (.word, false)
  | 'W' => some (.word, true)
  | _ => none

/-- The positions that have an escape. -/
def edgeEscape? : Char → Option Edge
  | 'A' => some .textStart
  | 'b' => some .wordEdge
  | 'B' => some .notWordEdge
  | 'Z' => some .textEnd
  | _ => none

/-- The escapes that name a code point in hexadecimal. -/
def hexLength? : Char → Option Nat
  | 'x' => some 2
  | 'u' => some 4
  | 'U' => some 8
  | _ => none

/-- A member of a bracketed class that starts with an escape. -/
def readClassEscape (c : Char) : Reader ClassItem := do
  match controlEscape? c, categoryEscape? c, hexLength? c with
  | some code, _, _ => return .code code
  | none, some (kind, negated), _ => return .category kind negated
  | none, none, some count => return .code (← hexEscape count)
  | none, none, none =>
    if isOctalDigit c then
      let code := numeral 8 (c :: (← takeWhile isOctalDigit 2))
      if 0o377 < code then malformed else return .code code
    else if isDigitChar c || isLetterChar c then malformed
    else return .code c.toNat

/-- A reference to a group that is closed. -/
def readBackref (group : Nat) : Reader Node := do
  if group < (← get).widths.length && (← isClosed group) then
    checkBehind group
    return .backref group
  else malformed

/-- An escape that starts with a digit other than zero: three octal digits are a code point, else
one or two digits are a group number. -/
def readDigitEscape (first : Char) : Reader Node := do
  match ← peek with
  | some (.plain second) =>
    if isDigitChar second then
      let _ ← take
      match isOctalDigit first && isOctalDigit second, ← peek with
      | true, some (.plain third) =>
        if isOctalDigit third then
          let _ ← take
          let code := numeral 8 [first, second, third]
          if 0o377 < code then malformed else return .code code
        else readBackref (numeral 10 [first, second])
      | _, _ => readBackref (numeral 10 [first, second])
    else readBackref (digitOf first)
  | _ => readBackref (digitOf first)

/-- An item that starts with an escape. -/
def readEscape (c : Char) : Reader Node := do
  match edgeEscape? c, categoryEscape? c with
  | some edge, _ => return .edge edge
  | none, some (kind, negated) => return .oneOf false [.category kind negated]
  | none, none =>
    match controlEscape? c, hexLength? c with
    | some code, _ => return .code code
    | none, some count => return .code (← hexEscape count)
    | none, none =>
      if c = '0' then return .code (numeral 8 (← takeWhile isOctalDigit 2))
      else if isDigitChar c then readDigitEscape c
      else if isLetterChar c then malformed
      else return .code c.toNat

/-! ## Classes -/

/-- A member of a class that starts with a token. -/
def readClassItem : Token → Reader ClassItem
  | .escape c => readClassEscape c
  | .plain c => return .code c.toNat
  | .dangling => malformed

/-- The members of a class up to its closing bracket, after those already read.  A closing bracket
in front is a member. -/
def readClassItems : Nat → List ClassItem → Reader (List ClassItem)
  | 0, _ => malformed
  | fuel + 1, done => do
    match ← take with
    | none => malformed
    | some token =>
      if token = .plain ']' && !done.isEmpty then return done.reverse
      else
        let first ← readClassItem token
        if ← accept '-' then
          match ← take with
          | none => malformed
          | some (.plain ']') => return (.code '-'.toNat :: first :: done).reverse
          | some token =>
            let last ← readClassItem token
            match first, last with
            | .code a, .code b =>
              if b < a then malformed else readClassItems fuel (.range a b :: done)
            | _, _ => malformed
        else readClassItems fuel (first :: done)

/-- The entries without repetitions, each at its first place. -/
def withoutRepetitions (items : List ClassItem) : List ClassItem :=
  (items.foldl (fun done item => if done.contains item then done else item :: done) []).reverse

/-- A class after its opening bracket.  A class of a single code point is that code point. -/
def readClass : Reader Node := do
  let negated ← accept '^'
  let items := withoutRepetitions (← readClassItems ((← get).rest.length + 1) [])
  match items with
  | [.code c] => return if negated then .notCode c else .code c
  | _ => return .oneOf negated items

/-! ## Repetitions -/

/-- The number that digits write, as a repetition count. -/
def readCount (digits : List Char) : Reader Nat := do
  if integerDigitLimit < digits.length then throw (.longCount digits.length)
  let n := numeral 10 digits
  if repetitionLimit ≤ n then throw .hugeRepetition
  return n

/-- The bounds after an opening brace; none if the brace stands for itself, in which case nothing
is taken. -/
def readBounds : Reader (Option (Nat × Option Nat)) := do
  if (← peek) = some (.plain '\x7d') then return none
  else
    let before ← get
    let low ← takeAll isDigitChar
    let high ← if ← accept ',' then takeAll isDigitChar else pure low
    if !(← accept '\x7d') then
      set before
      return none
    else
      let least ← if low.isEmpty then pure 0 else readCount low
      if high.isEmpty then return some (least, none)
      else
        let most ← readCount high
        if most < least then malformed else return some (least, some most)

/-- The bounds that a mark asks for; none if the mark stands for itself. -/
def readRepetition (mark : Char) : Reader (Option (Nat × Option Nat)) := do
  match mark with
  | '?' => return some (0, some 1)
  | '*' => return some (0, none)
  | '+' => return some (1, none)
  | _ => readBounds

/-- What is repeated when a repetition follows a node. -/
def repeatable : Node → Reader (List Node)
  | .edge _ => malformed
  | .repetition _ _ _ _ => malformed
  | .group none on off body =>
    return if on = Options.none && off = Options.none then body
      else [.group none on off body]
  | node => return [node]

/-- Repeats the last node read. -/
def repeatLast (least : Nat) (most : Option Nat) : List Node → Reader (List Node)
  | [] => malformed
  | node :: done => do
    let body ← repeatable node
    if ← accept '?' then return .repetition .lazy least most body :: done
    else if ← accept '+' then return .repetition .possessive least most body :: done
    else return .repetition .greedy least most body :: done

/-! ## Switches -/

/-- The switch of a letter. -/
def optionOf? : Char → Option Options
  | 'i' => some { ignoreCase := true }
  | 'm' => some { multiline := true }
  | 's' => some { dotAll := true }
  | 'x' => some { verbose := true }
  | 'a' => some { ascii := true }
  | 'u' => some { unicode := true }
  | 't' => some { template := true }
  | _ => none

/-- Takes the next token, which must be a single character. -/
def takeChar : Reader Char := do
  match ← take with
  | some (.plain c) => return c
  | _ => malformed

/-- The switches turned on, from a letter on, and the character that ends them. -/
def readOn : Nat → Options → Char → Reader (Options × Char)
  | 0, _, _ => malformed
  | fuel + 1, on, letter => do
    match optionOf? letter with
    | none => malformed
    | some option =>
      let on := on.union option
      if on.ascii && on.unicode then malformed
      else
        let c ← takeChar
        if c = ')' || c = '-' || c = ':' then return (on, c) else readOn fuel on c

/-- The switches turned off, from a letter on, up to the colon. -/
def readOff : Nat → Options → Char → Reader Options
  | 0, _, _ => malformed
  | fuel + 1, off, letter => do
    match optionOf? letter with
    | none => malformed
    | some option =>
      if option.ascii || option.unicode then malformed
      else
        let off := off.union option
        let c ← takeChar
        if c = ':' then return off else readOff fuel off c

/-- Switches after `(?`, from their first character on: for the whole pattern, or for a group as
those turned on and those turned off. -/
def readOptions (first : Char) : Reader (Options ⊕ (Options × Options)) := do
  let fuel := (← get).rest.length + 1
  let (on, stop) ← if first = '-' then pure (Options.none, '-') else readOn fuel .none first
  if stop = ')' then return .inl on
  else if on.template then malformed
  else
    let off ← if stop = '-' then readOff fuel .none (← takeChar) else pure Options.none
    if off.template || on.meets off then malformed else return .inr (on, off)

/-! ## Sequences and groups -/

/-- The sequence with plain groups replaced by what they hold. -/
def unwrapGroups (nodes : List Node) : List Node :=
  nodes.flatMap fun
    | .group none on off body =>
      if on = Options.none && off = Options.none then body else [.group none on off body]
    | node => [node]

/-- The node with which all sequences start, if there is one without parts. -/
def commonHead? : List (List Node) → Option Node
  | [] => none
  | first :: rest =>
    match first with
    | [] => none
    | head :: _ =>
      if rest.all fun body => body.head?.any (head.sameAtom ·) then some head else none

/-- Moves what all sequences have in common at their start in front of them. -/
def factor : Nat → List (List Node) → List Node × List (List Node)
  | 0, bodies => ([], bodies)
  | fuel + 1, bodies =>
    match commonHead? bodies with
    | none => ([], bodies)
    | some head =>
      let (heads, bodies) := factor fuel (bodies.map (·.drop 1))
      (head :: heads, bodies)

/-- The members that a sequence of one character stands for. -/
def asClass? : List Node → Option (List ClassItem)
  | [.code c] => some [.code c]
  | [.oneOf false items] => some items
  | _ => none

/-- The pattern of several alternatives: what they have in common in front, then a class if each is
one character, else a choice. -/
def choice (bodies : List (List Node)) : List Node :=
  let longest := bodies.foldl (fun n body => max n body.length) 0
  let (heads, bodies) := factor longest bodies
  match bodies.mapM asClass? with
  | some items => heads ++ [.oneOf false (withoutRepetitions items.flatten)]
  | none => heads ++ [.branch bodies]

/-- What an opening parenthesis starts. -/
inductive GroupItem where
  | node (n : Node)
  /-- A comment. -/
  | nothing
  /-- Switches of the whole pattern. -/
  | switches

/-- The characters that a verbose pattern passes over. -/
def isPatternBlank (c : Char) : Bool :=
  c == ' ' || c == '\t' || c == '\n' || c == '\r' || c.toNat == 0xb || c.toNat == 0xc

/-- Passes over a comment up to the end of its line. -/
def skipLine : Nat → Reader Unit
  | 0 => return
  | fuel + 1 => do
    match ← take with
    | none => return
    | some token => if token = .plain '\n' then return else skipLine fuel

/-- Passes over a comment up to its closing parenthesis. -/
def skipComment : Nat → Reader Unit
  | 0 => malformed
  | fuel + 1 => do
    match ← take with
    | none => malformed
    | some token => if token = .plain ')' then return else skipComment fuel

/-- The group that a condition names, by name or by number. -/
def readCondition : Reader Nat := do
  let name ← takeName ')'
  if isIdentifier name then
    match (← get).names.lookup (String.ofList name) with
    | none => malformed
    | some group =>
      checkBehind group
      return group
  else
    match readInteger name with
    | .error _ => malformed
    | .ok n =>
      if n ≤ 0 || (groupLimit : Int) ≤ n then malformed
      else
        let group := n.toNat
        modify fun s => { s with referred := group :: s.referred }
        checkBehind group
        return group

/-- A reference to a named group. -/
def readNamedBackref : Reader Node := do
  let name ← takeName ')'
  if !isIdentifier name then malformed
  else match (← get).names.lookup (String.ofList name) with
    | none => malformed
    | some group =>
      if ← isClosed group then
        checkBehind group
        return .backref group
      else malformed

/-- Reads something that takes so much of the room, given what is left of it. -/
def within {α : Type} (size room : Nat) (inside : Nat → Reader α) : Reader α :=
  if room < size then throw .tooDeep else inside (room - size)

/-- The room that a group takes. -/
def groupSize : Nat := 2

/-- The room that a branch of a condition takes. -/
def branchSize : Nat := 1

mutual

/-- Alternatives up to a closing parenthesis or the end.  `top` says whether they are the whole
pattern. -/
def readAlternatives : Nat → Nat → Bool → Bool → Reader (List Node)
  | 0, _, _, _ => malformed
  | fuel + 1, room, top, verbose => do
    let first ← readSequence fuel room top verbose []
    if ← accept '|' then
      let verbose ← if top then pure (← get).options.verbose else pure verbose
      let rest ← readOthers fuel room top verbose
      return choice (first :: rest)
    else return first
termination_by structural fuel => fuel

/-- The alternatives after the first. -/
def readOthers : Nat → Nat → Bool → Bool → Reader (List (List Node))
  | 0, _, _, _ => malformed
  | fuel + 1, room, top, verbose => do
    let body ← readSequence fuel room false verbose []
    if ← accept '|' then return body :: (← readOthers fuel room top verbose)
    else return [body]
termination_by structural fuel => fuel

/-- A sequence up to `|`, a closing parenthesis or the end, after the nodes already read, which
stand in reverse.  `first` says whether switches of the whole pattern may stand in front. -/
def readSequence : Nat → Nat → Bool → Bool → List Node → Reader (List Node)
  | 0, _, _, _, _ => malformed
  | fuel + 1, room, first, verbose, done => do
    let next ← peek
    if next = none || next = some (.plain '|') || next = some (.plain ')') then
      return unwrapGroups done.reverse
    else
      match ← take with
      | none | some .dangling => malformed
      | some (.escape c) =>
        readSequence fuel room first verbose ((← readEscape c) :: done)
      | some (.plain c) =>
        if verbose && isPatternBlank c then readSequence fuel room first verbose done
        else if verbose && c = '#' then
          skipLine ((← get).rest.length + 1)
          readSequence fuel room first verbose done
        else if c = '[' then readSequence fuel room first verbose ((← readClass) :: done)
        else if c = '*' || c = '+' || c = '?' || c = '\x7b' then
          match ← readRepetition c with
          | none => readSequence fuel room first verbose (.code c.toNat :: done)
          | some (least, most) =>
            readSequence fuel room first verbose (← repeatLast least most done)
        else if c = '.' then readSequence fuel room first verbose (.anyChar :: done)
        else if c = '^' then readSequence fuel room first verbose (.edge .lineStart :: done)
        else if c = '$' then readSequence fuel room first verbose (.edge .lineEnd :: done)
        else if c = '(' then
          match ← readGroup fuel room verbose with
          | .node node => readSequence fuel room first verbose (node :: done)
          | .nothing => readSequence fuel room first verbose done
          | .switches =>
            if first && done.isEmpty then
              readSequence fuel room first (← get).options.verbose done
            else malformed
        else readSequence fuel room first verbose (.code c.toNat :: done)
termination_by structural fuel => fuel

/-- What follows an opening parenthesis. -/
def readGroup : Nat → Nat → Bool → Reader GroupItem
  | 0, _, _ => malformed
  | fuel + 1, room, verbose => do
    if !(← accept '?') then readCapture fuel room verbose none
    else
      match ← take with
      | some (.plain 'P') =>
        if ← accept '<' then
          let name ← takeName '>'
          if isIdentifier name then readCapture fuel room verbose (some (String.ofList name))
          else malformed
        else if ← accept '=' then return .node (← readNamedBackref)
        else malformed
      | some (.plain ':') => readScope fuel room verbose .none .none
      | some (.plain '#') =>
        skipComment ((← get).rest.length + 1)
        return .nothing
      | some (.plain '=') => return .node (.look true false (← readLook fuel room verbose))
      | some (.plain '!') => return .node (.look true true (← readLook fuel room verbose))
      | some (.plain '<') =>
        match ← take with
        | some (.plain c) =>
          if c = '=' || c = '!' then
            let outer := (← get).behind
            if outer.isNone then modify fun s => { s with behind := some s.widths.length }
            let body ← within groupSize room (readAlternatives fuel · false verbose)
            if outer.isNone then modify fun s => { s with behind := none }
            expect ')'
            return .node (.look false (c = '!') body)
          else malformed
        | _ => malformed
      | some (.plain '(') =>
        let group ← readCondition
        let yes ← within branchSize room (readSequence fuel · false verbose [])
        let no ← if ← accept '|' then within branchSize room (readSequence fuel · false verbose [])
          else pure []
        expect ')'
        return .node (.conditional group yes no)
      | some (.plain '>') =>
        let body ← within groupSize room (readAlternatives fuel · false verbose)
        expect ')'
        return .node (.atomic body)
      | some (.plain c) =>
        match ← readOptions c with
        | .inl on =>
          modify fun s => { s with options := s.options.union on }
          return .switches
        | .inr (on, off) => readScope fuel room verbose on off
      | _ => malformed
termination_by structural fuel => fuel

/-- A look ahead after its mark. -/
def readLook : Nat → Nat → Bool → Reader (List Node)
  | 0, _, _ => malformed
  | fuel + 1, room, verbose => do
    let body ← within groupSize room (readAlternatives fuel · false verbose)
    expect ')'
    return body
termination_by structural fuel => fuel

/-- A group that is remembered. -/
def readCapture : Nat → Nat → Bool → Option String → Reader GroupItem
  | 0, _, _, _ => malformed
  | fuel + 1, room, verbose, name => do
    let group ← openGroup name
    let body ← within groupSize room (readAlternatives fuel · false verbose)
    expect ')'
    closeGroup group body
    return .node (.group (some group) .none .none body)
termination_by structural fuel => fuel

/-- A group with switches of its own. -/
def readScope : Nat → Nat → Bool → Options → Options → Reader GroupItem
  | 0, _, _, _, _ => malformed
  | fuel + 1, room, verbose, on, off => do
    let body ← within groupSize room
      (readAlternatives fuel · false ((verbose || on.verbose) && !off.verbose))
    expect ')'
    return .node (.group none on off body)
termination_by structural fuel => fuel

end

/-! ## Translation -/

/-- The fault of something that takes a level, given how many are left. -/
def levelFault? (room : Nat) (inside : Nat → Option Fault) : Option Fault :=
  match room with
  | 0 => some .tooDeep
  | room + 1 => inside room

section Translation

/- The widths of the groups, and whether repetitions are forbidden. -/
variable (groups : GroupWidths) (template : Bool)

mutual

/-- The first fault when a node is translated with so many levels left.  A look behind needs one
width, and not too large a one. -/
def Node.translationFault? (room : Nat) (node : Node) : Option Fault :=
  match node with
  | .look ahead _ body =>
    if ahead || (width groups body).isFixed then
      levelFault? room fun room => translationFault? room body
    else some .malformed
  | .group _ _ _ body | .atomic body => levelFault? room fun room => translationFault? room body
  | .repetition _ _ _ body =>
    if template then some .malformed
    else levelFault? room fun room => translationFault? room body
  | .branch alternatives => branchesFault? room alternatives
  | .conditional _ yes no =>
    (levelFault? room fun room => translationFault? room yes).or
      (levelFault? room fun room => translationFault? room no)
  | _ => none

/-- The first fault when a sequence is translated. -/
def translationFault? (room : Nat) (nodes : List Node) : Option Fault :=
  match nodes with
  | [] => none
  | node :: rest => (node.translationFault? room).or (translationFault? room rest)

/-- The first fault when the alternatives of a choice are translated. -/
def branchesFault? (room : Nat) (alternatives : List (List Node)) : Option Fault :=
  match alternatives with
  | [] => none
  | body :: rest =>
    (levelFault? room fun room => translationFault? room body).or (branchesFault? room rest)

end

end Translation

/-- A pattern with the switches of the whole and the widths of its groups. -/
structure Parsed where
  options : Options
  widths : GroupWidths
  body : List Node
deriving Repr

/-- The pattern of a text, with some switches on from the start. -/
def parse [Host] (options : Options) (text : List Char) : Except Fault Parsed := do
  let tokens := tokens text
  let start : ReaderState :=
    { rest := tokens, options := options, names := [], widths := [none], behind := none,
      referred := [] }
  let reading : Reader (List Node) := do
    refuseDangling
    let body ← within groupSize (Host.room .groups)
      (readAlternatives (4 * tokens.length + 8) · true options.verbose)
    let s ← get
    if s.options.ascii && s.options.unicode then throw .asciiAndUnicode
    if !s.rest.isEmpty then malformed
    if s.referred.any fun group => s.widths.length ≤ group then malformed
    return body
  let (body, s) ← reading.run start
  match levelFault? (Host.room .pattern) (translationFault? s.widths s.options.template · body) with
  | none => return ⟨s.options, s.widths, body⟩
  | some fault => throw fault

end Rulebook.Pattern
