import Rulebook.Command.Run
import Rulebook.Proofs.Service.Trial

/-!
# What the preview command does

The command reads a definition, chooses transactions, shows the definition, tries it on the
transactions and prints what would become of each of them.  Everything that it needs besides the
definition is in its words and in the settings, and a `PreviewCall` is a call of the command for
which all of this can be read.  What is left is the definition, which may be anything.

The definition is shown before it is checked, and for that it must have a name, and it and its name
must be such that they can be shown (`IsPrintable`).  After the check nothing can fail: what was
shown can be read, if no value of an action encloses half of a pair, and what is printed is said by
the summary of the run, one part for each of its entries, and the entries are for the transactions
that the call looks at (`PreviewCall.shows_of_checked`).

## Main definitions

* `Prints` — an operation prints some lines and does nothing else.
* `TransactionSummary.previewLines`, `RunSummary.previewLines` — what is printed for a summary.
* `IsPrintable` — a definition that can be shown under its name.
* `PreviewCall` — a call of the command whose words and settings can be read.
* `PreviewCall.Chooses` — the definition that a call is about.
* `PreviewCall.looksAt` — the transactions that it looks at.
* `PreviewCall.Shows` — what it shows for a definition and some transactions.

## Main statements

* `PreviewCall.shows_of_checked` — what is printed for a definition that passes the check.
* `store_testRule` — the command stores nothing, whatever its words are.
-/

namespace Rulebook

open Program Workspace

/-! ## Lines -/

/-- A text as a line, ended unless the text ends it. -/
def endLine (s : String) : String := if s.toList.getLast? = some '\n' then s else s ++ "\n"

/-- The workspace after some lines were printed. -/
def Workspace.printing (w : Workspace) (lines : List String) : Workspace :=
  { w with printed := (lines.map endLine).reverse ++ w.printed }

theorem Workspace.printing_append (w : Workspace) (lines later : List String) :
    w.printing (lines ++ later) = (w.printing lines).printing later := by
  rw [printing, printing, printing, List.map_append, List.reverse_append, List.append_assoc]

/-- The operation prints these lines and does nothing else. -/
def Prints (lines : List String) (x : Operation Unit) : Prop :=
  ∀ w, x.runOn w = (.ok (), w.printing lines)

theorem prints_printLine (s : String) : Prints [s] (printLine s) := fun _ => rfl

theorem prints_pure : Prints [] (pure () : Operation Unit) := fun _ => rfl

theorem Prints.andThen {lines later : List String} {x y : Operation Unit} (hx : Prints lines x)
    (hy : Prints later y) : Prints (lines ++ later) (x >>= fun _ => y) := by
  intro w
  rw [runOn_bind, hx w]
  dsimp only
  rw [hy, printing_append]

theorem prints_forM {α : Type} {f : α → Operation Unit} {lines : α → List String}
    (hf : ∀ a, Prints (lines a) (f a)) (l : List α) : Prints (l.flatMap lines) (l.forM f) := by
  induction l with
  | nil => exact prints_pure
  | cons a rest ih => exact (hf a).andThen ih

/-! ## What is printed for a summary -/

/-- The line for what would become of an action. -/
def ActionOutcome.previewLine (a : ActionOutcome) : String :=
  "  " ++ a.description ++ (if a.succeeded then " (would apply)" else " (would fail)")

/-- The lines for what would become of a transaction: the first names it. -/
def TransactionSummary.previewLines (colored : Bool) (t : TransactionSummary) : List String :=
  let name := "\nTransaction " ++ (Json.ofId? t.transaction).display
  if t.isFailed then [Tint.error.paint colored (name ++ ": ERROR - " ++ t.error.getD "")]
  else match t.rules.head?.filter (·.matched) with
    | none => [name ++ ": No match"]
    | some outcome =>
      Tint.success.paint colored (name ++ ": MATCHED") ::
        outcome.actions.map ActionOutcome.previewLine

/-- The lines that show a definition under a name. -/
def definitionLines (name definition : Json) : List String :=
  ["\nTesting rule: " ++ name.display, "\nRule definition:", definition.pretty]

variable [Host]

/-- A definition has a name, and both can be shown. -/
structure IsPrintable (name definition : Json) : Prop where
  named : definition.require "name" = .ok name
  nameShown : name.hidden? .message = none
  shown : definition.hidden? .layout = none

theorem IsPrintable.prints {name definition : Json} (h : IsPrintable name definition) :
    Prints (definitionLines name definition) (printDefinition definition) := by
  intro w
  rw [printDefinition, bind_of_eq_ok h.named, Json.plain_of_hidden?_eq_none h.nameShown, h.shown]
  rfl

/-- The check sees to the name. -/
theorem exists_isPrintable {definition : Json} (hcheck : checkDefinition definition = .ok ())
    (hshown : definition.hidden? .layout = none) : ∃ name, IsPrintable name definition := by
  obtain ⟨name, hname, hshape⟩ := (accepts_of_checkDefinition hcheck).require "name" rfl (by simp)
  obtain ⟨s, rfl⟩ := hshape.boundedText
  exact ⟨.text s, hname, Json.hidden?_text s, hshown⟩

/-- The lines for a run: how many transactions there were, a part for each of them, and how many
matched. -/
def RunSummary.previewLines (colored : Bool) (s : RunSummary) : List String :=
  ["\nTesting against " ++ toString s.totalProcessed ++ " transaction(s):", ruler]
    ++ (s.transactions.flatMap (TransactionSummary.previewLines colored)
    ++ [ruler, Tint.success.paint colored ("\nMatches: " ++ toString s.totalMatched ++ "/"
          ++ toString s.totalProcessed),
        "\n(Preview - no changes saved)"])

omit [Host] in
theorem prints_printPreview (colored : Bool) (t : TransactionSummary) :
    Prints (t.previewLines colored) (printPreview colored t) := by
  rw [TransactionSummary.previewLines, printPreview]
  split
  · exact prints_printLine _
  · cases t.rules.head?.filter (·.matched) with
    | none => exact prints_printLine _
    | some outcome =>
        have haction : ∀ action : ActionOutcome,
            Prints [action.previewLine] (printLine action.previewLine) :=
          fun action => prints_printLine _
        have hactions := prints_forM haction outcome.actions
        rw [← List.map_eq_flatMap] at hactions
        exact (prints_printLine _).andThen hactions

/-! ## Calls of the command -/

/-- A call of the preview command in a workspace for which all but the definition can be read: its
words, the user, the limit that is set, the size of a sample if one is needed, and the numbers of
the transactions. -/
structure PreviewCall (w : Workspace) where
  words : List String
  arguments : Arguments
  user : Id
  owner : User
  /-- The limit as it is set. -/
  standard : Json
  /-- How many transactions a preview looks at. -/
  limit : Option Nat
  /-- The size of a sample as it is given, or the limit. -/
  size : Json
  /-- How many transactions are in a sample. -/
  sample : Option Nat
  reads : readArguments previewSpec words = some arguments
  colors : (arguments.has "force_color" && arguments.has "no_color") = false
  finds : userWithEmail? w.store (arguments.positional "user_email") = some (user, owner)
  sets : w.settings.findOr Setting.previewLimit.name Setting.previewLimit.standard = .ok standard
  limits : readLimit standard = .ok limit
  sizes : sampleSize arguments standard = .ok size
  samples : arguments.numbers "transaction_ids" = [] → readLimit size = .ok sample
  fits : ∀ id, id ∈ arguments.numbers "transaction_ids" ∨ w.store.transactions.has id = true →
    Column.fits id = true

/-- The failure of a command whose preview fails: the words of a refusal are passed on. -/
def Failure.ofCommand : Failure → Failure
  | .definition message _ => .command message
  | failure => failure

/-- The definition that a text writes, or why it writes none. -/
def readDefinition (text : String) : Except Failure Json :=
  match Json.read (Host.room .file) text with
  | .ok d => .ok d
  | .error (.longInteger digits) => .error (.longNumeral digits)
  | .error .tooDeep => .error .tooDeep
  | .error .loneHalf => .error .unencodable
  | .error fault => .error (.command ("Invalid JSON: " ++ fault.message text))

/-- The definition of a file is that of its text, if there is the file and it has a text. -/
theorem runOn_definitionFile {a : Arguments} {name : String}
    (hname : a.value? "definition" = some name) (w : Workspace) :
    (definitionFile a).runOn w =
      (if w.files.has (.ofText name) then
        match w.files.read (.ofText name) with
        | .ok text => readDefinition text
        | .error fault => .error (.file fault (.ofText name))
      else .error (.command ("File not found: " ++ (Path.ofText name).text)), w) := by
  rw [definitionFile, hname]
  dsimp only
  rw [runOn_bind, runOn_get]
  dsimp only
  cases hthere : w.files.has (.ofText name) with
  | false => rfl
  | true =>
      rw [if_neg (by decide), if_pos rfl, runOn_bind, readFile, runOn_bind, runOn_get]
      dsimp only
      cases w.files.read (.ofText name) with
      | error fault => rfl
      | ok text =>
          dsimp only
          rw [runOn_pure, readDefinition]
          dsimp only
          rcases Json.read (Host.room .file) text with (⟨cause, position⟩ | digits | _ | _) | d <;>
            rfl

/-- The definition is read without consequences. -/
theorem keeps_chosenDefinition {R : Workspace → Workspace → Prop} [IsPreorder Workspace R]
    (a : Arguments) (user : Id) (u : User) : Keeps R (chosenDefinition a user u) := by
  rw [chosenDefinition]
  split
  · refine keeps_of_runOn fun w => ?_
    cases hname : a.value? "definition" with
    | none =>
        rw [definitionFile, hname]
        rfl
    | some name => rw [runOn_definitionFile hname]
  · refine keeps_get.bind fun w => ?_
    dsimp only
    split
    · exact keeps_pure _
    · exact keeps_throw _

omit [Host] in
/-- What is read from a file is there. -/
theorem Files.has_of_read {files : Files} {p : Path} {text : String}
    (h : files.read p = .ok text) : files.has p = true := by
  rw [read] at h
  rw [has]
  cases hlocation : files.locate p with
  | error fault =>
      rw [hlocation] at h
      cases h
  | ok location =>
      rw [hlocation] at h
      cases location with
      | directory => rfl
      | file name =>
          dsimp only [bind, Except.bind] at h ⊢
          cases hfile : files.lookup name with
          | some content => rfl
          | none =>
              rw [hfile] at h
              cases h

/-- The workspace before a command prints anything. -/
def Workspace.cleared (w : Workspace) : Workspace := { w with printed := [] }

namespace PreviewCall

variable {w : Workspace} (c : PreviewCall w)

/-- What the call leads to. -/
def run : Except Failure Unit × Workspace := (runCommand "test_rule" c.words).runOn w

/-- The numbers of the transactions that are chosen, or of the latest ones. -/
def transactions : List Id :=
  match c.arguments.numbers "transaction_ids" with
  | [] => latestTransactions w.store c.user c.sample
  | ids => ids

/-- The numbers of the transactions that the call looks at. -/
def looksAt : List Id := w.store.looksAt c.user c.transactions c.limit

/-- The call names no rule, so that the definition is looked for in a file. -/
def IsUnstored : Prop := (c.arguments.numbers "rule_id").filter (· != 0) = []

/-- The call names a file with this text. -/
structure ReadsFile (text : String) : Prop where
  unstored : c.IsUnstored
  file : ∃ name, c.arguments.value? "definition" = some name ∧
    w.files.read (.ofText name) = .ok text

/-- This is the definition that the call is about: a file holds it, or a rule of the user has it. -/
inductive Chooses : Json → Prop
  | file {text : String} {d : Json} (hfile : c.ReadsFile text)
    (hread : Json.read (Host.room .file) text = .ok d) : Chooses d
  | rule {id : Id} {others : List Id} {row : Rule}
    (hnamed : (c.arguments.numbers "rule_id").filter (· != 0) = id :: others)
    (hrow : w.store.rules.find? id = some row) (hmine : row.user = c.user) :
    Chooses (w.store.payloadOf id row)

/-- The call shows the definition under its name, and then the summary of a run with one entry for
each of these transactions. -/
def Shows (d : Json) (ids : List Id) : Prop :=
  ∃ name, ∃ summary : RunSummary, ∃ v, d.require "name" = .ok name ∧ c.run = (.ok (), v) ∧
    v.printed = ((definitionLines name d ++
      summary.previewLines c.arguments.isColored).map endLine).reverse ∧
    summary.transactions.map (·.transaction) = ids.map some

/-- What the command does with the summary of the run. -/
def reporting (s : RunSummary) : Operation Unit := do
  printLine ("\nTesting against " ++ toString s.totalProcessed ++ " transaction(s):")
  printLine ruler
  s.transactions.forM (printPreview c.arguments.isColored)
  printLine ruler
  printLine (Tint.success.paint c.arguments.isColored ("\nMatches: " ++ toString s.totalMatched
    ++ "/" ++ toString s.totalProcessed))
  printLine "\n(Preview - no changes saved)"

/-- What the command does with the definition. -/
def showing (d : Json) : Operation Unit := do
  printDefinition d
  c.reporting (← runPreview c.user c.transactions d)

omit [Host] in
theorem runOn_previewedTransactions :
    (previewedTransactions c.arguments c.user c.size).runOn w.cleared =
      (.ok c.transactions, w.cleared) := by
  rw [previewedTransactions, transactions]
  cases hnumbers : c.arguments.numbers "transaction_ids" with
  | nil =>
      dsimp only
      rw [runOn_bind, runOn_get]
      dsimp only
      rw [runOn_bind, runOn_ofExcept, c.samples hnumbers]
      rfl
  | cons id rest => rfl

/-- The definition comes first. -/
theorem run_eq :
    c.run = (chosenDefinition c.arguments c.user c.owner >>= c.showing).runOn w.cleared := by
  have hkept : Keeps Eq (chosenDefinition c.arguments c.user c.owner) :=
    keeps_chosenDefinition c.arguments c.user c.owner
  have hsame := hkept w.cleared
  have hcommand : c.run = (previewCommand c.size c.arguments).runOn w.cleared := by
    rw [run, runCommand, runOn_bind, runOn_modify]
    dsimp only
    have hset : (setting .previewLimit).runOn { w with printed := [] } =
        (.ok c.standard, { w with printed := [] }) := by
      rw [runOn_setting]
      exact congrArg (·, _) c.sets
    rw [runPreviewCommand, runOn_bind, hset]
    dsimp only
    rw [withArguments, c.reads]
    dsimp only
    rw [c.colors, if_neg Bool.false_ne_true, runOn_bind, c.sizes, runOn_ofExcept]
    rfl
  rw [hcommand, previewCommand, runOn_bind, runOn_get]
  dsimp only
  have hfinds : userWithEmail? w.cleared.store (c.arguments.positional "user_email") =
    some (c.user, c.owner) := c.finds
  rw [hfinds]
  dsimp only
  rw [runOn_bind, runOn_bind]
  rcases hrun : (chosenDefinition c.arguments c.user c.owner).runOn w.cleared with ⟨failure | d, v⟩
  · rfl
  · rw [hrun] at hsame
    obtain rfl : w.cleared = v := hsame
    dsimp only
    rw [runOn_bind, c.runOn_previewedTransactions]
    rfl

/-- The chosen definition is the one that the command works with. -/
theorem runOn_chosenDefinition {d : Json} (hd : c.Chooses d) :
    (chosenDefinition c.arguments c.user c.owner).runOn w.cleared = (.ok d, w.cleared) := by
  cases hd with
  | @file text _ hfile hread =>
      obtain ⟨hunstored, name, hname, hcontent⟩ := hfile
      have hthere : w.cleared.files.has (.ofText name) = true := Files.has_of_read hcontent
      have htext : w.cleared.files.read (.ofText name) = .ok text := hcontent
      rw [chosenDefinition, hunstored]
      dsimp only
      rw [runOn_definitionFile hname, hthere, if_pos rfl, htext]
      dsimp only
      rw [readDefinition, hread]
  | @rule id others row hnamed hrow hmine =>
      have hfound : ((w.cleared.store.rules.find? id).filter fun r => r.user = c.user) =
          some row :=
        Option.filter_eq_some_iff.2 ⟨hrow, decide_eq_true hmine⟩
      rw [chosenDefinition, hnamed]
      dsimp only
      rw [runOn_bind, runOn_get]
      dsimp only
      rw [hfound]
      rfl

/-- A definition that cannot be shown ends the command. -/
theorem result_of_unprinted {d : Json} (hd : c.Chooses d) {failure : Failure}
    (h : ((printDefinition d).runOn w.cleared).1 = .error failure) :
    c.run.1 = .error failure := by
  rw [run_eq, runOn_bind, c.runOn_chosenDefinition hd]
  dsimp only
  rw [showing, runOn_bind_of_error h]
  rfl

/-- A definition that can be shown is shown and then tried. -/
theorem run_of_printable {d name : Json} (hd : c.Chooses d) (hshown : IsPrintable name d) :
    c.run = (runPreview c.user c.transactions d >>= fun s => c.reporting s).runOn
      (w.cleared.printing (definitionLines name d)) := by
  rw [run_eq, runOn_bind, c.runOn_chosenDefinition hd]
  dsimp only
  rw [showing, runOn_bind, hshown.prints]

omit [Host] in
theorem prints_reporting (s : RunSummary) :
    Prints (s.previewLines c.arguments.isColored) (c.reporting s) :=
  (prints_printLine _).andThen <| (prints_printLine _).andThen <|
    (prints_forM (prints_printPreview _) _).andThen <| (prints_printLine _).andThen <|
      (prints_printLine _).andThen (prints_printLine _)

omit [Host] in
/-- The numbers of the transactions fit into a column. -/
theorem fits_transactions : ∀ id ∈ c.transactions, Column.fits id = true := by
  intro id hid
  rw [transactions] at hid
  refine c.fits id ?_
  cases hnumbers : c.arguments.numbers "transaction_ids" with
  | nil =>
      rw [hnumbers] at hid
      obtain ⟨row, hrow, rfl⟩ := List.mem_map.1 (mem_of_mem_takeLimit hid)
      have hstored := Source.mem_rows_of_mem_transactionsInOrder (List.mem_reverse.1 hrow)
      exact Or.inr (Table.has_of_find? (Table.find?_eq_some_of_mem hstored))
  | cons first rest =>
      rw [hnumbers] at hid
      exact Or.inl hid

/-- A definition that is rejected is shown, and then the command fails. -/
theorem result_of_rejected {d name : Json} (hd : c.Chooses d) (hshown : IsPrintable name d)
    {failure : Failure} (hcheck : checkDefinition d = .error failure) :
    c.run.1 = .error failure.ofCommand := by
  rw [c.run_of_printable hd hshown, runPreview, runOn_bind, runOn_tryCatch,
    previewDefinition_of_rejected hcheck]
  cases failure <;> rfl

/-- A definition that passes the check, can be shown and has no value with half of a pair is run on
the transactions that the call looks at. -/
theorem shows_of_checked {d : Json} (hd : c.Chooses d) (hcheck : checkDefinition d = .ok ())
    (hshown : d.hidden? .layout = none) (hwhole : ValuesWhole d) : c.Shows d c.looksAt := by
  obtain ⟨name, hshown⟩ := exists_isPrintable hcheck hshown
  have hstorable : ValuesStorable d :=
    (Json.canShow_of_hidden?_eq_none hshown.shown).valuesStorable hwhole
  obtain ⟨r, hread⟩ := (exists_ofPayload_iff hcheck).2 hstorable
  let shown := w.cleared.printing (definitionLines name d)
  have hset : shown.settings.findOr Setting.previewLimit.name Setting.previewLimit.standard =
    .ok c.standard := c.sets
  obtain ⟨summary, v, hrun, hentries⟩ :=
    previewDefinition_of_checked c.user hcheck hread hset c.limits c.fits_transactions
  have hpreview : (runPreview c.user c.transactions d).runOn shown = (.ok summary, v) := by
    rw [runPreview, runOn_tryCatch, hrun]
  have hrecord : SameRecord shown v := by
    have hkept := sameRecord_previewDefinition c.user (.list (c.transactions.map .int)) d shown
    rw [hrun] at hkept
    exact hkept
  refine ⟨name, summary, v.printing (summary.previewLines c.arguments.isColored), hshown.named, ?_,
    ?_, hentries⟩
  · rw [c.run_of_printable hd hshown, runOn_bind, hpreview]
    exact c.prints_reporting summary v
  · rw [printing, hrecord.printed, List.map_append, List.reverse_append]
    rfl

end PreviewCall

/-! ## Whatever the words are -/

/-- The later workspace has the same rows. -/
def Workspace.SameStore (w v : Workspace) : Prop := v.store = w.store

instance : IsPreorder Workspace SameStore where
  refl _ := rfl
  trans _ _ _ h k := k.trans h

omit [Host] in
theorem Prints.sameStore {lines : List String} {x : Operation Unit} (hx : Prints lines x) :
    Keeps SameStore x := by
  intro w
  rw [hx w]
  rfl

theorem sameStore_runPreview (user : Id) (ids : List Id) (d : Json) :
    Keeps SameStore (runPreview user ids d) := by
  have hpreview : Keeps SameStore (previewDefinition user (.list (ids.map .int)) d) :=
    (sameRecord_previewDefinition user _ d).mono fun _ _ hr => hr.store
  refine hpreview.tryCatch fun failure => ?_
  split <;> exact keeps_throw _

theorem sameStore_printDefinition (d : Json) : Keeps SameStore (printDefinition d) := by
  have hline : ∀ s, Keeps SameStore (printLine s) := fun s => (prints_printLine s).sameStore
  refine (keeps_ofExcept _).bind fun name => (hline _).bind fun _ => (hline _).bind fun _ => ?_
  split
  · exact hline _
  · exact keeps_throw _

theorem sameStore_previewCommand (size : Json) (a : Arguments) :
    Keeps SameStore (previewCommand size a) := by
  have hline : ∀ s, Keeps SameStore (printLine s) := fun s => (prints_printLine s).sameStore
  refine keeps_get.bind fun w => ?_
  dsimp only
  split
  · exact keeps_throw _
  · next user u _ =>
    refine (keeps_chosenDefinition a user u).bind fun d => Keeps.bind ?_ fun ids => ?_
    · rw [previewedTransactions]
      split
      · exact keeps_get.bind fun w => (keeps_ofExcept _).bind fun limit => keeps_pure _
      · exact keeps_pure _
    refine (sameStore_printDefinition d).bind fun _ =>
      (sameStore_runPreview user ids d).bind fun s => ?_
    refine (hline _).bind fun _ => (hline _).bind fun _ => Keeps.bind ?_ fun _ => ?_
    · exact keeps_forM fun t => (prints_printPreview a.isColored t).sameStore
    · exact (hline _).bind fun _ => (hline _).bind fun _ => hline _

/-- The command stores nothing, whatever its words are and however it ends. -/
theorem store_testRule (words : List String) (w : Workspace) :
    ((runCommand "test_rule" words).runOn w).2.store = w.store := by
  have hsetting : Keeps SameStore (setting .previewLimit) := keeps_of_runOn fun w => by
    rw [runOn_setting]
  have hcommand : Keeps SameStore (runPreviewCommand words) := by
    refine hsetting.bind fun standard => ?_
    rw [withArguments]
    split
    · exact keeps_throw _
    · split
      · exact keeps_throw _
      · exact (keeps_ofExcept _).bind fun size => sameStore_previewCommand size _
  rw [runCommand, runOn_bind, runOn_modify]
  exact hcommand _

end Rulebook
