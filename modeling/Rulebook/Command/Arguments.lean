import Rulebook.Number.Reading

/-!
# Arguments of commands

A command takes positional words and named options.  An option starts with a dash, may be shortened
to any beginning that only one option has, and takes no value, one, or as many as follow up to the
next option; a value may also follow an equals sign.  After two dashes everything is a positional
word, and a negative number is never an option.

## Main definitions

* `OptionSpec`, `ArgumentSpec` — what a command takes.
* `Arguments` — what it was given.
* `readArguments` — reads the words, or refuses them.
-/

namespace Rulebook

/-- How many values an option takes. -/
inductive Arity where
  | switch
  | one
  | several
deriving DecidableEq, Repr

/-- An option of a command. -/
structure OptionSpec where
  /-- The name under which the option is given to the command. -/
  name : String
  /-- The words that stand for it. -/
  words : List String
  arity : Arity
  /-- The values that it takes. -/
  accepts : String → Bool := fun _ => true

/-- What a command takes. -/
structure ArgumentSpec where
  positionals : List String
  options : List OptionSpec
  /-- Options of which at most one may be given. -/
  exclusive : List String := []
  /-- Whether one of the exclusive options has to be given. -/
  needsExclusive : Bool := false

/-- What a command was given. -/
structure Arguments where
  positionals : List (String × String) := []
  options : List (String × List String) := []
deriving DecidableEq, Repr

namespace Arguments

/-- The word in a position. -/
def positional (a : Arguments) (name : String) : String := (a.positionals.lookup name).getD ""

/-- Whether an option was given. -/
def has (a : Arguments) (name : String) : Bool := (a.options.lookup name).isSome

/-- The value of an option; of several mentions the last counts. -/
def value? (a : Arguments) (name : String) : Option String := (a.options.lookup name).bind List.head?

/-- The values of an option. -/
def values (a : Arguments) (name : String) : List String := (a.options.lookup name).getD []

end Arguments

/-- Whether a word writes a whole number. -/
def isWholeNumber (s : String) : Bool := (Number.readInteger s.toList).toOption.isSome

/-- The options that all commands take and that do not concern the rules. -/
def commonOptions : List OptionSpec :=
  [{ name := "help", words := ["-h", "--help"], arity := .switch, accepts := fun _ => false },
    { name := "version", words := ["--version"], arity := .switch, accepts := fun _ => false },
    { name := "verbosity", words := ["-v", "--verbosity"], arity := .one
      accepts := fun s => match Number.readInteger s.toList with
        | .ok n => 0 ≤ n && n ≤ 3
        | .error _ => false },
    { name := "settings", words := ["--settings"], arity := .one },
    { name := "search_path", words := ["--pythonpath"], arity := .one },
    { name := "traceback", words := ["--traceback"], arity := .switch },
    { name := "no_color", words := ["--no-color"], arity := .switch },
    { name := "force_color", words := ["--force-color"], arity := .switch },
    { name := "skip_checks", words := ["--skip-checks"], arity := .switch }]

/-- A word of a command line. -/
inductive ArgumentToken where
  | word (s : String)
  /-- An option, with the value after its equals sign. -/
  | option (spec : OptionSpec) (value : Option String)
  /-- The two dashes after which there are no options. -/
  | separator
  /-- A word that looks like an option but is none, or like several. -/
  | unknown

/-- A word up to its first equals sign, and what follows the sign. -/
def splitEquals (s : String) : String × Option String :=
  let chars := s.toList
  match chars.dropWhile (· != '=') with
  | _ :: value => (String.ofList (chars.takeWhile (· != '=')), some (String.ofList value))
  | [] => (s, none)

/-- Whether a word is a negative number. -/
def isNegativeNumber (s : String) : Bool :=
  match s.toList with
  | '-' :: rest =>
    let isFigure (c : Char) : Bool := (Text.decimalValue? c).isSome
    let whole := rest.takeWhile isFigure
    match rest.dropWhile isFigure with
    | [] => !whole.isEmpty
    | '.' :: fraction => !fraction.isEmpty && fraction.all isFigure
    | _ => false
  | _ => false

/-- The option with a word. -/
def exactOption? (options : List OptionSpec) (s : String) : Option OptionSpec :=
  options.find? fun o => o.words.contains s

/-- The options that have a word beginning with the given one, each as often as it has such words. -/
def shortenedOptions (options : List OptionSpec) (s : String) : List OptionSpec :=
  options.flatMap fun o => (o.words.filter fun w => s.toList.isPrefixOf w.toList).map fun _ => o

/-- The options that a word with one dash may stand for: one of a single letter with the value
behind it, or one that the word shortens. -/
def lettersOptions (options : List OptionSpec) (s : String) : List (OptionSpec × Option String) :=
  let letter := String.ofList (s.toList.take 2)
  let value := String.ofList (s.toList.drop 2)
  options.flatMap fun o => o.words.filterMap fun w =>
    if w = letter then some (o, some value)
    else if s.toList.isPrefixOf w.toList then some (o, none)
    else none

/-- The options that a word may stand for when it is not one of their words. -/
def inexactOptions (options : List OptionSpec) (s : String) : List (OptionSpec × Option String) :=
  if "--".toList.isPrefixOf s.toList then
    let (word, value) := splitEquals s
    (shortenedOptions options word).map fun o => (o, value)
  else lettersOptions options s

/-- The kind of a word before any two dashes. -/
def tokenOf (options : List OptionSpec) (s : String) : ArgumentToken :=
  if !"-".toList.isPrefixOf s.toList || s = "-" then .word s
  else match exactOption? options s with
    | some o => .option o none
    | none =>
      let (word, value) := splitEquals s
      match value.bind fun value => (exactOption? options word).map fun o => (o, value) with
      | some (o, value) => .option o (some value)
      | none =>
        match inexactOptions options s with
        | [(o, value)] => .option o value
        | _ :: _ => .unknown
        | [] => if isNegativeNumber s || s.toList.contains ' ' then .word s else .unknown

/-- The kinds of the words. -/
def argumentTokens (options : List OptionSpec) : List String → List ArgumentToken
  | [] => []
  | s :: rest =>
    if s = "--" then .separator :: rest.map .word
    else tokenOf options s :: argumentTokens options rest

/-- The words at the beginning, and what follows them. -/
def spanWords : List ArgumentToken → List String × List ArgumentToken
  | .word s :: rest =>
    let (words, after) := spanWords rest
    (s :: words, after)
  | tokens => ([], tokens)

theorem length_spanWords (tokens : List ArgumentToken) :
    (spanWords tokens).2.length ≤ tokens.length := by
  fun_induction spanWords tokens with
  | case1 s rest words after h ih =>
    simp only [h] at ih
    simp only [List.length_cons]
    omega
  | case2 => simp

/-- Gives an option its values, unless it does not take them. -/
def takeOption (o : OptionSpec) (values : List String) (a : Arguments) : Option Arguments :=
  let enough : Bool := match o.arity with
    | .switch => values.isEmpty && o.accepts ""
    | .one => values.length == 1 && values.all o.accepts
    | .several => !values.isEmpty && values.all o.accepts
  if enough then some { a with options := (o.name, values) :: a.options } else none

/-- Gives words to the positions that are still free; too many are refused. -/
def takePositionals : List String → List String → Arguments → Option (List String × Arguments)
  | [], free, a => some (free, a)
  | _ :: _, [], _ => none
  | s :: rest, name :: free, a =>
    takePositionals rest free { a with positionals := a.positionals ++ [(name, s)] }

/-- The value that an option takes of the words that follow it, and the words that are left. -/
def valuesFor (o : OptionSpec) (words : List String) : List String × List String :=
  match o.arity with
  | .switch => ([], words)
  | .one => (words.take 1, words.drop 1)
  | .several => (words, [])

/-- Reads the tokens, given the positions that are still free and whether the word before them took
one.  Two dashes are refused where no word next to them takes a position. -/
def readTokens (free : List String) (a : Arguments) (wasPositional : Bool)
    (tokens : List ArgumentToken) : Option (List String × Arguments) :=
  match tokens with
  | [] => some (free, a)
  | .unknown :: _ => none
  | .word s :: rest => do
    let (free, a) ← takePositionals [s] free a
    readTokens free a true rest
  | .separator :: rest =>
    let words := (spanWords rest).1
    if words.isEmpty && !wasPositional then none else takePositionals words free a
  | .option o (some value) :: rest => do
    readTokens free (← takeOption o [value] a) false rest
  | .option o none :: rest => do
    let (values, others) := valuesFor o (spanWords rest).1
    let (free, a) ← takePositionals others free (← takeOption o values a)
    readTokens free a (!others.isEmpty) (spanWords rest).2
termination_by tokens.length
decreasing_by
  all_goals simp_wf
  have := length_spanWords rest
  omega

/-- Reads the words of a command; nothing if they are refused. -/
def readArguments (spec : ArgumentSpec) (words : List String) : Option Arguments := do
  let tokens := argumentTokens (spec.options ++ commonOptions) words
  let (free, a) ← readTokens spec.positionals {} false tokens
  let chosen := spec.exclusive.filter a.has
  if free.isEmpty && chosen.length ≤ 1 && (!spec.needsExclusive || !chosen.isEmpty) then some a
  else none

end Rulebook
