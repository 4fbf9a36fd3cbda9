import Rulebook.Json.Value
import Rulebook.Number.Reading

/-!
# Reading JSON

A reader for JSON texts that says where and why it stops.  Besides the standard grammar it knows
`NaN`, `Infinity` and `-Infinity`.  The reader walks a list of characters with the position of the
first one; each function gives a result together with the place where it stopped.

The functions on values call each other with one unit of fuel less; `fuelFor` is more than any text
needs, because between two calls at least one character is consumed.

Characters of a higher plane are written as pairs of escapes.  One half of such a pair is no
character, and texts are made of characters here; what it is read as is left open, and it need not
be read at all.

## Main definitions

* `Json.ReadFault` — why a text is no JSON value, and `ReadFault.message`.
* `Json.readMended` — the value of a text, with the replacement character for half of a pair.
* `Json.read` — the value of a text in which no half of a pair stands alone.
-/

namespace Rulebook.Json

open Rulebook.Number

/-- What is wrong at a place of a text. -/
inductive ReadCause where
  | expectingValue
  | expectingName
  | expectingColon
  | expectingComma
  | extraData
  | unterminatedText
  | controlCharacter
  | badEscape
  | badUnicodeEscape
  | byteOrderMark
deriving DecidableEq, Repr

/-- Why a text is no JSON value. -/
inductive ReadFault where
  /-- The grammar is broken at a position, counted from zero. -/
  | broken (cause : ReadCause) (position : Nat)
  /-- A whole number has more digits than are read. -/
  | longInteger (digits : Nat)
  /-- Lists and objects are nested more deeply than there is room for. -/
  | tooDeep
  /-- Half of a pair of escapes stands alone. -/
  | loneHalf
deriving DecidableEq, Repr

/-- The words for a cause. -/
def ReadCause.text : ReadCause → String
  | .expectingValue => "Expecting value"
  | .expectingName => "Expecting property name enclosed in double quotes"
  | .expectingColon => "Expecting ':' delimiter"
  | .expectingComma => "Expecting ',' delimiter"
  | .extraData => "Extra data"
  | .unterminatedText => "Unterminated string starting at"
  | .controlCharacter => "Invalid control character at"
  | .badEscape => "Invalid \\escape"
  | .badUnicodeEscape => "Invalid \\uXXXX escape"
  | .byteOrderMark => "Unexpected UTF-8 BOM (decode using utf-8-sig)"

/-- A cause and its place: the line and column, both from one, and the position from zero. -/
def placeText (cause : ReadCause) (text : List Char) (position : Nat) : String :=
  let before := text.take position
  let line := before.count '\n' + 1
  let column := (before.reverse.takeWhile (· != '\n')).length + 1
  cause.text ++ ": line " ++ toString line ++ " column " ++ toString column
    ++ " (char " ++ toString position ++ ")"

/-- Characters still to be read, and the position of the first. -/
structure Cursor where
  rest : List Char
  position : Nat

/-- Moves past the first so many characters. -/
def Cursor.advance (c : Cursor) (n : Nat) : Cursor := ⟨c.rest.drop n, c.position + n⟩

/-- Blanks between the parts of a JSON text. -/
def isSpace (c : Char) : Bool := c == ' ' || c == '\t' || c == '\n' || c == '\r'

/-- Moves past the blanks. -/
def Cursor.skipSpace (c : Cursor) : Cursor :=
  let spaces := c.rest.takeWhile isSpace
  c.advance spaces.length

/-- Fails at a place. -/
def fail {α : Type} (cause : ReadCause) (position : Nat) : Except ReadFault α :=
  .error (.broken cause position)

/-! ## Texts -/

/-- The value of a hexadecimal digit. -/
def hexValue? (c : Char) : Option Nat :=
  if '0' ≤ c && c ≤ '9' then some (c.toNat - '0'.toNat)
  else if 'a' ≤ c && c ≤ 'f' then some (c.toNat - 'a'.toNat + 10)
  else if 'A' ≤ c && c ≤ 'F' then some (c.toNat - 'A'.toNat + 10)
  else none

/-- The number that four hexadecimal digits write. -/
def hexQuad? (s : List Char) : Option Nat :=
  match s with
  | [a, b, c, d] => do
    let a ← hexValue? a
    let b ← hexValue? b
    let c ← hexValue? c
    let d ← hexValue? d
    return ((a * 16 + b) * 16 + c) * 16 + d
  | _ => none

/-- The character of a one-letter escape. -/
def simpleEscape? (c : Char) : Option Char :=
  match c with
  | '"' => some '"'
  | '\\' => some '\\'
  | '/' => some '/'
  | 'b' => some '\x08'
  | 'f' => some '\x0c'
  | 'n' => some '\n'
  | 'r' => some '\r'
  | 't' => some '\t'
  | _ => none

/-- The character of a Unicode escape whose four digits start at the position, and how many
characters it takes.  A pair of escapes for one character of a higher plane counts as one; a half of
such a pair that stands alone gives no character.  More text must follow the escape. -/
def unicodeEscape (rest : List Char) (position : Nat) : Except ReadFault (Option Char × Nat) :=
  if (rest.drop 4).isEmpty then fail .badUnicodeEscape (position - 1)
  else match hexQuad? (rest.take 4) with
    | none => fail .badUnicodeEscape (position - 1)
    | some high =>
      let single : Option Char × Nat :=
        (if 0xd800 ≤ high && high < 0xe000 then none else some (Char.ofNat high), 4)
      let tail := rest.drop 4
      if 0xd800 ≤ high && high < 0xdc00 && !(tail.drop 6).isEmpty && tail.take 2 == ['\\', 'u'] then
        match hexQuad? ((tail.drop 2).take 4) with
        | none => fail .badUnicodeEscape (position + 5)
        | some low =>
          if 0xdc00 ≤ low && low < 0xe000 then
            .ok (some (Char.ofNat (0x10000 + (high - 0xd800) * 0x400 + (low - 0xdc00))), 10)
          else .ok single
      else .ok single

section Halves

/- What half of a pair is read as; nothing if it is not read. -/
variable (half : Option Char)

/-- The characters of a text up to its closing quote, after those already read, which stand in
reverse.  `start` is the position of the opening quote; the fuel is the number of characters left. -/
def readTextChars (start : Nat) :
    Nat → Cursor → List Char → Except ReadFault (List Char × Cursor)
  | 0, _, _ => fail .unterminatedText start
  | fuel + 1, cursor, done =>
    match cursor.rest with
    | [] => fail .unterminatedText start
    | c :: rest =>
      if c = '"' then .ok (done.reverse, cursor.advance 1)
      else if c = '\\' then
        match rest with
        | [] => fail .unterminatedText start
        | e :: rest' =>
          if e = 'u' then
            match unicodeEscape rest' (cursor.position + 2) with
            | .error fault => .error fault
            | .ok (char?, used) =>
              match char?.or half with
              | none => .error .loneHalf
              | some char => readTextChars start fuel (cursor.advance (2 + used)) (char :: done)
          else match simpleEscape? e with
            | some char => readTextChars start fuel (cursor.advance 2) (char :: done)
            | none => fail .badEscape cursor.position
      else if c.toNat < 0x20 then fail .controlCharacter cursor.position
      else readTextChars start fuel (cursor.advance 1) (c :: done)

/-- A text whose opening quote is the first character. -/
def readQuoted (cursor : Cursor) : Except ReadFault (String × Cursor) := do
  let body := cursor.advance 1
  let (chars, stop) ← readTextChars half cursor.position (body.rest.length + 1) body []
  return (String.ofList chars, stop)

end Halves

/-! ## Numbers -/

/-- A decimal digit of ASCII. -/
def isAsciiDigit (c : Char) : Bool := '0' ≤ c && c ≤ '9'

/-- The digits in front. -/
def asciiDigits (s : List Char) : List Char := s.takeWhile isAsciiDigit

/-- The number that ASCII digits write. -/
def asciiNumber (digits : List Char) : Nat :=
  digits.foldl (fun n c => n * 10 + (c.toNat - '0'.toNat)) 0

/-- The fraction digits of a number, if a point is followed by any. -/
def fractionDigits : List Char → List Char
  | '.' :: rest => asciiDigits rest
  | _ => []

/-- The exponent of a number, if a mark is followed by one, with the number of characters taken. -/
def exponentPart : List Char → Option (Int × Nat)
  | c :: rest =>
    if c == 'e' || c == 'E' then
      let (negative, signs, body) := match rest with
        | '-' :: body => (true, 1, body)
        | '+' :: body => (false, 1, body)
        | body => (false, 0, body)
      let digits := asciiDigits body
      if digits.isEmpty then none
      else
        let n : Int := Int.ofNat (asciiNumber digits)
        some (if negative then -n else n, 1 + signs + digits.length)
    else none
  | [] => none

/-- Whether a minus stands in front, and what follows it. -/
def spanMinus : List Char → Bool × List Char
  | '-' :: rest => (true, rest)
  | rest => (false, rest)

/-- The digits of the whole part of a number, which has no leading zeros. -/
def wholeDigits : List Char → List Char
  | '0' :: _ => ['0']
  | body => asciiDigits body

/-- A number.  With a fraction or an exponent it is a floating point one. -/
def readNumber (cursor : Cursor) : Except ReadFault (Json × Cursor) :=
  let (negative, body) := spanMinus cursor.rest
  let whole := wholeDigits body
  if whole.isEmpty then fail .expectingValue cursor.position
  else
    let signLength := if negative then 1 else 0
    let afterWhole := body.drop whole.length
    let fraction := fractionDigits afterWhole
    let fractionLength := if fraction.isEmpty then 0 else fraction.length + 1
    let afterFraction := afterWhole.drop fractionLength
    match exponentPart afterFraction, fraction.isEmpty with
    | none, true =>
      if integerDigitLimit < whole.length then .error (.longInteger whole.length)
      else
        let n : Int := Int.ofNat (asciiNumber whole)
        .ok (.int (if negative then -n else n), cursor.advance (signLength + whole.length))
    | exponent, _ =>
      let (e, exponentLength) := exponent.getD (0, 0)
      let x := Binary64.ofDecimal negative (asciiNumber (whole ++ fraction))
        (e - Int.ofNat fraction.length)
      .ok (.real x,
        cursor.advance (signLength + whole.length + fractionLength + exponentLength))

/-! ## Values -/

/-- The constants and their names. -/
def constants : List (String × Json) :=
  [("null", .null), ("true", .bool true), ("false", .bool false), ("NaN", .real .nan),
    ("Infinity", .real (.infinite false)), ("-Infinity", .real (.infinite true))]

/-- The constant that stands in front, with the length of its name. -/
def constantAt? (s : List Char) : Option (Json × Nat) :=
  (constants.find? fun (name, _) => name.toList.isPrefixOf s).map
    fun (name, value) => (value, name.length)

section Values

/- What half of a pair is read as, and how many lists and objects may stand inside each other. -/
variable (half : Option Char) (room : Nat)

mutual

/-- A value at the cursor, without blanks before it. -/
def readValue : Nat → Nat → Cursor → Except ReadFault (Json × Cursor)
  | 0, _, cursor => fail .expectingValue cursor.position
  | fuel + 1, depth, cursor =>
    match cursor.rest with
    | [] => fail .expectingValue cursor.position
    | c :: _ =>
      if c = '"' then do
        let (s, stop) ← readQuoted half cursor
        return (.text s, stop)
      else if c = '[' then
        if room ≤ depth then .error .tooDeep
        else
          let inside := (cursor.advance 1).skipSpace
          if inside.rest.head? = some ']' then .ok (.list [], inside.advance 1)
          else do
            let (items, stop) ← readItems fuel (depth + 1) inside
            return (.list items, stop)
      else if c = '\x7b' then
        if room ≤ depth then .error .tooDeep
        else
          let inside := (cursor.advance 1).skipSpace
          if inside.rest.head? = some '\x7d' then .ok (.object [], inside.advance 1)
          else do
            let (members, stop) ← readMembers fuel (depth + 1) inside
            return (.ofPairs members, stop)
      else match constantAt? cursor.rest with
        | some (value, length) => .ok (value, cursor.advance length)
        | none => readNumber cursor

/-- The items of a list up to its closing bracket. -/
def readItems : Nat → Nat → Cursor → Except ReadFault (List Json × Cursor)
  | 0, _, cursor => fail .expectingValue cursor.position
  | fuel + 1, depth, cursor => do
    let (item, afterItem) ← readValue fuel depth cursor
    let next := afterItem.skipSpace
    match next.rest with
    | ']' :: _ => return ([item], next.advance 1)
    | ',' :: _ =>
      let (items, stop) ← readItems fuel depth (next.advance 1).skipSpace
      return (item :: items, stop)
    | _ => fail .expectingComma next.position

/-- The members of an object up to its closing brace. -/
def readMembers : Nat → Nat → Cursor → Except ReadFault (List (String × Json) × Cursor)
  | 0, _, cursor => fail .expectingName cursor.position
  | fuel + 1, depth, cursor =>
    if cursor.rest.head? ≠ some '"' then fail .expectingName cursor.position
    else do
      let (name, afterName) ← readQuoted half cursor
      let colon := afterName.skipSpace
      if colon.rest.head? ≠ some ':' then fail .expectingColon colon.position
      else
        let (value, afterValue) ← readValue fuel depth (colon.advance 1).skipSpace
        let next := afterValue.skipSpace
        match next.rest with
        | '\x7d' :: _ => return ([(name, value)], next.advance 1)
        | ',' :: _ =>
          let (members, stop) ← readMembers fuel depth (next.advance 1).skipSpace
          return ((name, value) :: members, stop)
        | _ => fail .expectingComma next.position

end

end Values

/-- More fuel than a text of this length needs. -/
def fuelFor (length : Nat) : Nat := 2 * length + 2

/-- The value of a text, when half of a pair is read as this and so many lists and objects may stand
inside each other. -/
def readWith (half : Option Char) (room : Nat) (s : String) : Except ReadFault Json := do
  let chars := s.toList
  if chars.head? = some '\ufeff' then fail .byteOrderMark 0
  else
    let start := (Cursor.mk chars 0).skipSpace
    let (value, afterValue) ← readValue half room (fuelFor chars.length) 0 start
    let stop := afterValue.skipSpace
    if stop.rest.isEmpty then return value else fail .extraData stop.position

/-- The value of a text, with the replacement character for half of a pair. -/
def readMended (room : Nat) (s : String) : Except ReadFault Json := readWith (some '\ufffd') room s

/-- The value of a text in which no half of a pair stands alone.  That one does is found only after
the whole text was read. -/
def read (room : Nat) (s : String) : Except ReadFault Json := do
  let _ ← readMended room s
  readWith none room s

/-- What a message says about a fault in a text. -/
def ReadFault.message (text : String) : ReadFault → String
  | .broken cause position => placeText cause text.toList position
  | .longInteger digits => "Exceeds the limit (" ++ toString integerDigitLimit
      ++ " digits) for integer string conversion: value has " ++ toString digits
      ++ " digits; use sys.set_int_max_str_digits() to increase the limit"
  | .tooDeep => "nested too deeply"
  | .loneHalf => "half of a pair stands alone"

end Rulebook.Json
