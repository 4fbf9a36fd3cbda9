import Rulebook.Proofs.Command.Previewing
import Rulebook.Proofs.Definition.Overlooking

/-!
# How the preview command fails

A definition in a file may be anything, and the command is to say what is wrong with it: either it
shows a preview, or it fails as a command.  For most definitions this is so, because the check of a
definition refuses what it does not like, and the command passes the words of the refusal on.

Three things come before the check, or get past it.  The text of the file is read as JSON, and only
a broken grammar is reported; numerals that are too long and values that are nested too deeply are
not.  The definition is printed under its name before it was checked: a definition without a name,
or that is no object at all, has nothing to print, and a number of too many digits or a value that
is nested too deeply cannot be printed (`IsUnprintable`).  And the check itself overlooks some
values of actions, and parts that a refusal would show and cannot (`OverlooksValue`); a stored rule
may have such values as well.  All of these end the command with a failure that nobody expects
(`PreviewCall.Eludes`).

There are no others among the calls whose texts are sequences of characters (`PreviewCall.IsWhole`):
`PreviewCall.previews_or_refuses` says that every definition that does not elude the command is
refused or previewed, with one part for each transaction.

## Main definitions

* `IsUnprintable` — a definition that cannot be shown under its name.
* `PreviewCall.IsWhole` — no text of the definition has half of a pair.
* `PreviewCall.IsUnread`, `PreviewCall.Eludes` — the calls that end in a failure that is no refusal.

## Main statements

* `PreviewCall.previews_or_refuses` — how a call ends.
-/

namespace Rulebook

open Program Workspace

section

/-- A failure of a command, which says why it cannot be carried out. -/
inductive Failure.IsCommand : Failure → Prop
  | intro (message : String) : IsCommand (.command message)

/-- What the check overlooks is no failure of a command, and not made one. -/
theorem Failure.IsOversight.not_isCommand {f : Failure} (h : f.IsOversight) :
    ¬ f.IsCommand ∧ f.ofCommand = f := by
  cases h <;> exact ⟨by rintro ⟨⟩, rfl⟩

/-- A member that is not there cannot be required, and that is no failure of a command. -/
theorem Json.require_of_member?_eq_none {j : Json} {name : String} (h : j.member? name = none) :
    ∃ failure, j.require name = .error failure ∧ ¬ failure.IsCommand := by
  cases j with
  | object members =>
      have hmember : members.lookup name = none := h
      rw [require, hmember]
      exact ⟨_, rfl, by rintro ⟨⟩⟩
  | _ => exact ⟨_, rfl, by rintro ⟨⟩⟩

theorem Json.require_eq_ok_iff_member? {j value : Json} {name : String} :
    j.require name = .ok value ↔ j.member? name = some value := by
  cases j with
  | object members => exact require_object_iff
  | _ => exact iff_of_false nofun nofun

/-! ## Definitions that cannot be shown -/

variable [Host]

/-- A definition that cannot be shown under its name: it has none, or the name or the definition
itself has too long a numeral or is nested too deeply. -/
inductive IsUnprintable (d : Json) : Prop
  | unnamed (hname : d.member? "name" = none)
  | name {name : Json} (hname : d.member? "name" = some name)
    (hhidden : name.hidden? .message ≠ none)
  | layout (hhidden : d.hidden? .layout ≠ none)

theorem IsPrintable.not_isUnprintable {d name : Json} (h : IsPrintable name d) :
    ¬ IsUnprintable d := by
  have hmember : d.member? "name" = some name := Json.require_eq_ok_iff_member?.1 h.named
  rintro (hnone | ⟨hother, hhidden⟩ | hhidden)
  · cases hmember.symm.trans hnone
  · obtain rfl := Option.some.inj (hmember.symm.trans hother)
    exact hhidden h.nameShown
  · exact hhidden h.shown

/-- A definition can be shown under its name, or showing it ends in a failure that is no failure of
a command. -/
theorem isPrintable_or_isUnprintable (d : Json) (w : Workspace) :
    (∃ name, IsPrintable name d) ∨ IsUnprintable d ∧
      ∃ failure, ((printDefinition d).runOn w).1 = .error failure ∧ ¬ failure.IsCommand := by
  cases hmember : d.member? "name" with
  | none =>
      obtain ⟨failure, hfailure, hother⟩ := Json.require_of_member?_eq_none hmember
      refine Or.inr ⟨.unnamed hmember, failure, ?_, hother⟩
      rw [printDefinition, hfailure]
      rfl
  | some name =>
      have hname : d.require "name" = .ok name := Json.require_eq_ok_iff_member?.2 hmember
      cases hhidden : name.hidden? .message with
      | some failure =>
          have hoversight := Json.isOversight_of_hidden? hhidden
          refine Or.inr ⟨.name hmember (by simp [hhidden]), failure, ?_, hoversight.not_isCommand.1⟩
          rw [printDefinition, bind_of_eq_ok hname, Json.plain_eq_error_iff.2 hhidden]
          rfl
      | none =>
          cases hlayout : d.hidden? .layout with
          | some failure =>
              have hoversight := Json.isOversight_of_hidden? hlayout
              refine Or.inr ⟨.layout (by simp [hlayout]), failure, ?_, hoversight.not_isCommand.1⟩
              rw [printDefinition, bind_of_eq_ok hname, Json.plain_of_hidden?_eq_none hhidden,
                hlayout]
              rfl
          | none => exact Or.inl ⟨name, hname, hhidden, hlayout⟩

namespace PreviewCall

variable {w : Workspace} (c : PreviewCall w)

/-- Every text of the definition is a sequence of characters: neither does the file write half of a
pair, nor does a text that is given for the value of an action. -/
structure IsWhole : Prop where
  file : ∀ text, c.ReadsFile text → Json.read (Host.room .file) text ≠ .error .loneHalf
  values : ∀ d, c.Chooses d → ValuesWhole d

/-- There is no definition to be had, and the command does not say so: it names neither a rule nor a
file, or a directory, or a text with a numeral that is too long or a value that is too deep. -/
inductive IsUnread : Prop
  | unnamed (hunstored : c.IsUnstored) (hname : c.arguments.value? "definition" = none)
  | directory {name : String} {fault : FileFault} (hunstored : c.IsUnstored)
    (hname : c.arguments.value? "definition" = some name)
    (hthere : w.files.has (.ofText name) = true)
    (hread : w.files.read (.ofText name) = .error fault)
  | longNumeral {text : String} {digits : Nat} (hfile : c.ReadsFile text)
    (hread : Json.read (Host.room .file) text = .error (.longInteger digits))
  | tooDeep {text : String} (hfile : c.ReadsFile text)
    (hread : Json.read (Host.room .file) text = .error .tooDeep)

/-- The call ends in a failure that nobody expects: there is no definition, or it cannot be shown
under its name, or it has something that the check overlooks. -/
inductive Eludes : Prop
  | unread (h : c.IsUnread)
  | unprintable {d : Json} (hd : c.Chooses d) (hshown : IsUnprintable d)
  | value {d : Json} (hd : c.Chooses d) (hvalue : OverlooksValue d)

/-- A definition that cannot be had ends the command. -/
theorem run_of_error {failure : Failure}
    (h : ((chosenDefinition c.arguments c.user c.owner).runOn w.cleared).1 = .error failure) :
    c.run.1 = .error failure := by
  rw [run_eq, runOn_bind_of_error h]
  rfl

/-- What is left of the definition of a file. -/
theorem runOn_chosenDefinition_of_unstored (hunstored : c.IsUnstored) {name : String}
    (hname : c.arguments.value? "definition" = some name) :
    ((chosenDefinition c.arguments c.user c.owner).runOn w.cleared).1 =
      if w.files.has (.ofText name) then
        match w.files.read (.ofText name) with
        | .ok text => readDefinition text
        | .error fault => .error (.file fault (.ofText name))
      else .error (.command ("File not found: " ++ (Path.ofText name).text)) := by
  have hunstored' : (c.arguments.numbers "rule_id").filter (· != 0) = [] := hunstored
  rw [chosenDefinition, hunstored']
  dsimp only
  rw [runOn_definitionFile hname]
  rfl

theorem ReadsFile.runOn_chosenDefinition {text : String} (h : c.ReadsFile text) :
    ((chosenDefinition c.arguments c.user c.owner).runOn w.cleared).1 = readDefinition text := by
  obtain ⟨hunstored, name, hname, htext⟩ := h
  rw [c.runOn_chosenDefinition_of_unstored hunstored hname, Files.has_of_read htext, if_pos rfl,
    htext]

theorem IsUnread.result (h : c.IsUnread) :
    ∃ failure, ((chosenDefinition c.arguments c.user c.owner).runOn w.cleared).1 = .error failure ∧
      ¬ failure.IsCommand := by
  cases h with
  | unnamed hunstored hname =>
      have hunstored' : (c.arguments.numbers "rule_id").filter (· != 0) = [] := hunstored
      rw [chosenDefinition, hunstored']
      dsimp only
      rw [definitionFile, hname]
      exact ⟨_, rfl, by rintro ⟨⟩⟩
  | directory hunstored hname hthere hread =>
      rw [c.runOn_chosenDefinition_of_unstored hunstored hname, hthere, if_pos rfl, hread]
      exact ⟨_, rfl, by rintro ⟨⟩⟩
  | longNumeral hfile hread =>
      rw [hfile.runOn_chosenDefinition, readDefinition, hread]
      exact ⟨_, rfl, by rintro ⟨⟩⟩
  | tooDeep hfile hread =>
      rw [hfile.runOn_chosenDefinition, readDefinition, hread]
      exact ⟨_, rfl, by rintro ⟨⟩⟩

/-- Otherwise there is a definition, or the command says why there is none. -/
theorem chooses_or_refuses (hwhole : c.IsWhole) (h : ¬ c.IsUnread) :
    (∃ d, c.Chooses d) ∨ ∃ message, ((chosenDefinition c.arguments c.user c.owner).runOn
      w.cleared).1 = .error (.command message) := by
  cases hnumbers : (c.arguments.numbers "rule_id").filter (· != 0) with
  | nil =>
      cases hname : c.arguments.value? "definition" with
      | none => exact absurd (.unnamed hnumbers hname) h
      | some name =>
          rw [c.runOn_chosenDefinition_of_unstored hnumbers hname]
          cases hthere : w.files.has (.ofText name) with
          | false => exact Or.inr ⟨_, rfl⟩
          | true =>
              rw [if_pos rfl]
              cases htext : w.files.read (.ofText name) with
              | error fault => exact absurd (.directory hnumbers hname hthere htext) h
              | ok text =>
                  have hfile : c.ReadsFile text := ⟨hnumbers, name, hname, htext⟩
                  dsimp only
                  rw [readDefinition]
                  rcases hread : Json.read (Host.room .file) text with
                    (⟨cause, position⟩ | digits | _ | _) | d
                  · exact Or.inr ⟨_, rfl⟩
                  · exact absurd (.longNumeral hfile hread) h
                  · exact absurd (.tooDeep hfile hread) h
                  · exact absurd hread (hwhole.file text hfile)
                  · exact Or.inl ⟨d, .file hfile hread⟩
  | cons id others =>
      rw [chosenDefinition, hnumbers]
      dsimp only
      rw [runOn_bind, runOn_get]
      dsimp only
      cases hfound : (w.cleared.store.rules.find? id).filter fun r => r.user = c.user with
      | none => exact Or.inr ⟨_, rfl⟩
      | some row =>
          obtain ⟨hrow, hmine⟩ := Option.filter_eq_some_iff.1 hfound
          exact Or.inl ⟨_, .rule hnumbers hrow (of_decide_eq_true hmine)⟩

/-- There is one definition. -/
theorem chooses_unique {d d' : Json} (h : c.Chooses d) (h' : c.Chooses d') : d = d' := by
  have hsame := (c.runOn_chosenDefinition h).symm.trans (c.runOn_chosenDefinition h')
  cases hsame
  rfl

/-- A definition that can be shown and has nothing that is overlooked is previewed, or refused by
the check. -/
theorem previews_or_refuses_of_printable {d name : Json} (hd : c.Chooses d)
    (hshown : IsPrintable name d) (hvalue : ¬ OverlooksValue d) (hwhole : ValuesWhole d) :
    (∃ message, c.run.1 = .error (.command message)) ∨ c.Shows d c.looksAt := by
  rcases overlooks_checkDefinition d with ⟨hoverlooked, -, -⟩ | ⟨-, hends⟩
  · exact absurd hoverlooked hvalue
  · rcases hcheck : checkDefinition d with failure | ⟨⟩
    · obtain ⟨message, errors⟩ := hends failure hcheck
      exact Or.inl ⟨message, c.result_of_rejected hd hshown hcheck⟩
    · exact Or.inr (c.shows_of_checked hd hcheck hshown.shown hwhole)

end PreviewCall

/-! ## A definition without a name -/

end

namespace SmallLedger

/-- The small ledger beside a file with a text. -/
def besideFile (text : String) : Workspace := { workspace with files := [((0, "rule.json"), text)] }

/-- A call to preview the definition of the file. -/
def fileCall (text : String) : PreviewCall (besideFile text) where
  words := ["ada@example.org", "--definition", "rule.json"]
  arguments :=
    { positionals := [("user_email", "ada@example.org")]
      options := [("definition", ["rule.json"])] }
  user := 1
  owner := ⟨"Ada", "ada@example.org", true⟩
  standard := .int 10
  limit := some 10
  size := .int 10
  sample := some 10
  reads := by decide +kernel
  colors := rfl
  finds := rfl
  sets := rfl
  limits := rfl
  sizes := rfl
  samples := fun _ => rfl
  fits := by
    rintro id (hid | hid)
    · cases hid
    · have hids : store.transactions.ids = [1, 2] := rfl
      rw [Table.has_iff_mem_ids] at hid
      rcases List.mem_pair.1 (hids ▸ hid) with rfl | rfl <;> rfl

/-- The file holds an object without members. -/
theorem emptyObject_chooses : (fileCall "\x7b\x7d").Chooses (.object []) := by
  have hfile : (fileCall "\x7b\x7d").ReadsFile "\x7b\x7d" := ⟨rfl, "rule.json", rfl, by cbv⟩
  exact .file hfile (by cbv)

theorem emptyObject_isWhole : (fileCall "\x7b\x7d").IsWhole where
  file text hfile := by
    obtain ⟨-, name, hname, htext⟩ := hfile
    obtain rfl := Option.some.inj (hname.symm.trans (rfl : _ = some "rule.json"))
    obtain rfl : "\x7b\x7d" = text := Except.ok.inj (Eq.trans (by cbv) htext)
    have hread : Json.read (Host.room .file) "\x7b\x7d" = .ok (.object []) := by cbv
    rw [hread]
    rintro ⟨⟩
  values d hd := by
    obtain rfl := (fileCall "\x7b\x7d").chooses_unique emptyObject_chooses hd
    rintro items hitems item hitem
    obtain rfl := Json.list.inj (Except.ok.inj hitems)
    cases hitem

end SmallLedger

end Rulebook
