import Rulebook.Calendar.Moment
import Rulebook.Text.Blank
import Rulebook.Text.Digit

/-!
# Reading dates

A date is first read in the standard form, of which there are four: `2024-03-15`, `20240315`, and a
week with an optional weekday, `2024-W11-5` or `2024W115`.  If that fails, a month and a day of one
digit are allowed too.  A moment is a date, any one character, and a time; again there is a standard
form and a lenient one.

A well-formed date that does not exist is different from a text that is no date: the first is an
impossible date, the second may still be a moment.

## Main definitions

* `Reading` — absent, impossible, or a value.
* `readDate`, `readMoment` — dates and moments.
* `dateOf?` — the date that a text names, as a date or as a moment.
-/

namespace Rulebook.Calendar

open Rulebook.Text

/-- What a text says. -/
inductive Reading (α : Type) where
  /-- It is not of the form. -/
  | absent
  /-- It is of the form, but there is no such value. -/
  | impossible
  | value (a : α)
deriving DecidableEq, Repr

/-- A value, or impossible. -/
def Reading.ofOption {α : Type} : Option α → Reading α
  | some a => .value a
  | none => .impossible

/-! ## The standard forms

They are read byte by byte; a byte outside ASCII is part of no form. -/

/-- The bytes of a text as characters. -/
def bytesOf (s : String) : List Char := s.toUTF8.toList.map fun b => Char.ofNat b.toNat

/-- The number that exactly so many ASCII digits in front write, and what follows them. -/
def takeDigits : Nat → List Char → Option (Nat × List Char)
  | count, s =>
    let digits := s.take count
    if digits.length = count && digits.all fun c => '0' ≤ c && c ≤ '9' then
      some (digits.foldl (fun n c => n * 10 + (c.toNat - '0'.toNat)) 0, s.drop count)
    else none

/-- The Monday of the first week of a year, as a day count. -/
def firstMonday (year : Nat) : Int :=
  let first := Date.mk year 1 1
  let monday : Int := Int.ofNat first.ordinal - Int.ofNat first.weekday
  if 3 < first.weekday then monday + 7 else monday

/-- The date of a weekday in a week of a year. -/
def ofWeek? (year week day : Nat) : Option Date :=
  let first := (Date.mk year 1 1).weekday
  let long := first = 3 || (first = 2 && isLeap year)
  if 1 ≤ year && year ≤ 9999 && 1 ≤ week && (week < 53 || (week = 53 && long))
      && 1 ≤ day && day < 8 then
    let ordinal := firstMonday year + (Int.ofNat (week - 1) * 7 + Int.ofNat (day - 1))
    if ordinal < 1 then none
    else
      let date := Date.ofOrdinal ordinal.toNat
      if date.isValid then some date else none
  else none

/-- A date in a standard form.  Its length is the caller's business: what follows the day is not
looked at. -/
def standardDate? (s : List Char) : Option Date := do
  let (year, rest) ← takeDigits 4 s
  let (dashed, rest) := match rest with
    | '-' :: rest => (true, rest)
    | rest => (false, rest)
  match rest with
  | 'W' :: rest =>
    let (week, rest) ← takeDigits 2 rest
    if rest.isEmpty then ofWeek? year week 1
    else
      let rest ← match dashed, rest with
        | true, '-' :: rest => some rest
        | true, _ => none
        | false, rest => some rest
      let (day, _) ← takeDigits 1 rest
      ofWeek? year week day
  | rest =>
    let (month, rest) ← takeDigits 2 rest
    let rest ← match dashed, rest with
      | true, '-' :: rest => some rest
      | true, _ => none
      | false, rest => some rest
    let (day, _) ← takeDigits 2 rest
    Date.make? year month day

/-- How many bytes of a standard moment belong to its date. -/
def dateLength (s : List Char) : Nat :=
  let at? (n : Nat) (c : Char) : Bool := s[n]? == some c
  let digitAt (n : Nat) : Bool := (s[n]?).any fun c => '0' ≤ c && c ≤ '9'
  if s.length = 7 then 7
  else if at? 4 '-' then
    if at? 5 'W' then
      if 8 < s.length && at? 8 '-' then
        if 10 < s.length && digitAt 10 then 8 else 10
      else 8
    else 10
  else if at? 4 'W' then
    let stop := 7 + ((s.drop 7).takeWhile fun c => '0' ≤ c && c ≤ '9').length
    if stop < 9 then stop else if stop % 2 = 0 then 7 else 8
  else 8

/-- Hours, minutes, seconds and microseconds. -/
structure ClockTime where
  hour : Nat := 0
  minute : Nat := 0
  second : Nat := 0
  microsecond : Nat := 0

/-- The result of reading a time: the time, and whether something is left after it. -/
abbrev TimeReading := Option (ClockTime × Bool)

/-- The fraction of a second: up to six digits count, further digits are passed over. -/
def readFraction (clock : ClockTime) (s after : List Char) : TimeReading := do
  let count := min 6 s.length
  let (n, rest) ← takeDigits count s
  let rest := (rest ++ after).dropWhile fun c => '0' ≤ c && c ≤ '9'
  return ({ clock with microsecond := n * Nat.pow 10 (6 - count) }, !rest.isEmpty)

/-- Sets hours, minutes or seconds. -/
def ClockTime.setPart (clock : ClockTime) (part n : Nat) : ClockTime :=
  match part with
  | 0 => { clock with hour := n }
  | 1 => { clock with minute := n }
  | _ => { clock with second := n }

/-- Two-digit parts from the given one on, with or without colons, and then the fraction.  `after`
is what follows the time in the whole text. -/
def readParts (after : List Char) (colons : Option Bool) :
    Nat → Nat → ClockTime → List Char → TimeReading
  | 0, _, clock, s => readFraction clock s after
  | fuel + 1, part, clock, s => do
    let (n, rest) ← takeDigits 2 s
    let clock := clock.setPart part n
    match rest with
    | [] => return (clock, !after.isEmpty)
    | c :: rest' =>
      let colons := colons.getD (c == ':')
      if rest'.isEmpty then return (clock, true)
      else if colons && c == ':' then readParts after (some colons) fuel (part + 1) clock rest'
      else if c == '.' || c == ',' then readFraction clock rest' after
      else if !colons then readParts after (some colons) fuel (part + 1) clock rest
      else none

/-- The time of a standard moment with its offset. -/
def standardTime? (s : List Char) : Option (ClockTime × Option Int) := do
  let isMark (c : Char) : Bool := c == '+' || c == '-' || c == 'Z'
  let before := s.takeWhile fun c => !isMark c
  let after := s.dropWhile fun c => !isMark c
  let (clock, more) ← readParts after none 3 0 {} before
  match after with
  | [] => if more then none else return (clock, none)
  | 'Z' :: rest => if rest.isEmpty then return (clock, some 0) else none
  | mark :: zone =>
    let (offset, more) ← readParts [] none 3 0 {} zone
    if more then none
    else
      let seconds := (offset.hour * 60 + offset.minute) * 60 + offset.second
      let n : Int := Int.ofNat (seconds * 1000000 + offset.microsecond)
      return (clock, some (if mark == '-' then -n else n))

/-- What follows the separating character, which may take several bytes. -/
def afterSeparator : List Char → List Char
  | [] => []
  | c :: rest =>
    if c.toNat < 0x80 then rest
    else if c.toNat / 16 = 0xe then rest.drop 2
    else if c.toNat / 16 = 0xf then rest.drop 3
    else rest.drop 1

/-- A moment in the standard form. -/
def standardMoment? (s : List Char) : Option Moment := do
  if s.length < 7 then none
  else
    let cut := dateLength s
    let date ← standardDate? (s.take cut)
    if s.length ≤ cut then Moment.make? (some date) 0 0 0 0 none
    else
      let (clock, offset) ← standardTime? (afterSeparator (s.drop cut))
      Moment.make? (some date) clock.hour clock.minute clock.second clock.microsecond offset

/-! ## The lenient forms

Digits of every script count, and a line break may follow. -/

/-- From `low` to `high` decimal digits in front, as many as there are. -/
def digitRun? (low high : Nat) (s : List Char) : Option (List Nat × List Char) :=
  let digits := ((s.take high).takeWhile isDecimal).filterMap decimalValue?
  if low ≤ digits.length then some (digits, s.drop digits.length) else none

/-- The number that digit values write. -/
def numberOf (digits : List Nat) : Nat := digits.foldl (fun n d => n * 10 + d) 0

/-- A number of `low` to `high` digits. -/
def numberRun? (low high : Nat) (s : List Char) : Option (Nat × List Char) :=
  (digitRun? low high s).map fun (digits, rest) => (numberOf digits, rest)

/-- Passes over one of the given characters. -/
def expect? (allowed : List Char) : List Char → Option (List Char)
  | c :: rest => if allowed.contains c then some rest else none
  | [] => none

/-- Whether nothing but a line break is left. -/
def isEnd (s : List Char) : Bool := s.isEmpty || s == ['\n']

/-- Year, month and day with dashes; month and day have one digit or two. -/
def lenientDate? (s : List Char) : Option ((Nat × Nat × Nat) × List Char) := do
  let (year, rest) ← numberRun? 4 4 s
  let (month, rest) ← numberRun? 1 2 (← expect? ['-'] rest)
  let (day, rest) ← numberRun? 1 2 (← expect? ['-'] rest)
  return ((year, month, day), rest)

/-- The date that a text writes in a standard form. -/
def readStandardDate? (s : String) : Option Date :=
  let bytes := bytesOf s
  if bytes.length = 7 || bytes.length = 8 || bytes.length = 10 then standardDate? bytes else none

/-- A date. -/
def readDate (s : String) : Reading Date :=
  match readStandardDate? s with
  | some date => .value date
  | none =>
    match lenientDate? s.toList with
    | some ((year, month, day), rest) =>
      if isEnd rest then .ofOption (Date.make? year month day) else .absent
    | none => .absent

/-- An offset in the lenient form: `Z`, or a sign with hours and perhaps minutes.  The outer option
says whether the end of the text was reached. -/
def lenientOffset? (s : List Char) : Option (Option Int) :=
  if isEnd s then some none
  else match s with
    | 'Z' :: rest => if isEnd rest then some (some 0) else none
    | mark :: rest =>
      if mark == '+' || mark == '-' then
        match numberRun? 2 2 rest with
        | none => none
        | some (hours, rest) =>
          let result (minutes : Nat) : Option Int :=
            let n : Int := Int.ofNat ((hours * 60 + minutes) * 60000000)
            some (if mark == '-' then -n else n)
          if isEnd rest then some (result 0)
          else
            let rest := match rest with
              | ':' :: tail => tail
              | tail => tail
            match numberRun? 2 2 rest with
            | some (minutes, rest) => if isEnd rest then some (result minutes) else none
            | none => none
      else none
    | [] => some none

/-- The seconds of a lenient time with their fraction, if there are any. -/
def lenientSeconds (s : List Char) : Nat × Nat × List Char :=
  match s with
  | ':' :: rest =>
    match numberRun? 1 2 rest with
    | none => (0, 0, s)
    | some (second, rest) =>
      match rest with
      | c :: tail =>
        if c == '.' || c == ',' then
          match digitRun? 1 6 tail with
          | some (digits, rest') =>
            let extra := ((rest'.take 6).takeWhile isDecimal).length
            (second, numberOf digits * Nat.pow 10 (6 - digits.length), rest'.drop extra)
          | none => (second, 0, rest)
        else (second, 0, rest)
      | [] => (second, 0, rest)
  | _ => (0, 0, s)

/-- Whether a character is passed over between a time and its offset. -/
def isGap (c : Char) : Bool := isBlank c

/-- A moment in the lenient form. -/
def lenientMoment (s : List Char) : Reading Moment :=
  let parsed : Option (Option Moment) := do
    let ((year, month, day), rest) ← lenientDate? s
    let (hour, rest) ← numberRun? 1 2 (← expect? ['T', ' '] rest)
    let (minute, rest) ← numberRun? 1 2 (← expect? [':'] rest)
    let (second, micros, rest) := lenientSeconds rest
    let offset ← lenientOffset? (rest.dropWhile isGap)
    return Moment.make? (Date.make? year month day) hour minute second micros offset
  match parsed with
  | none => .absent
  | some moment => .ofOption moment

/-- A moment. -/
def readMoment (s : String) : Reading Moment :=
  match standardMoment? (bytesOf s) with
  | some moment => .value moment
  | none => lenientMoment s.toList

/-- The date that a text names: a date, or else the date of a moment.  An impossible date names
nothing. -/
def dateOf? (s : String) : Option Date :=
  match readDate s with
  | .value date => some date
  | .impossible => none
  | .absent =>
    match readMoment s with
    | .value moment => some moment.date
    | _ => none

end Rulebook.Calendar
