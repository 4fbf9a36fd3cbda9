import Rulebook.Command.Apply
import Rulebook.Command.Exchange
import Rulebook.Command.Preview

/-!
# Commands

A command is named by a word and given further words.  Words that it does not take are refused
before it does anything.

## Main definitions

* `runCommand` — runs a command; what it printed stays in the workspace.
-/

namespace Rulebook

variable [Host]

/-- Runs a command with the words that it takes. -/
def withArguments (spec : ArgumentSpec) (words : List String) (act : Arguments → Operation Unit) :
    Operation Unit :=
  match readArguments spec words with
  | none => throw .usage
  | some a =>
    if a.has "force_color" && a.has "no_color" then
      throw (.command "The --no-color and --force-color options can't be used together.")
    else act a

/-- Runs the preview command.  The size of a sample is settled before the command begins. -/
def runPreviewCommand (words : List String) : Operation Unit := do
  let standard ← setting .previewLimit
  withArguments previewSpec words fun a => do
    previewCommand (← .ofExcept (sampleSize a standard)) a

/-- Runs a command. -/
def runCommand (name : String) (words : List String) : Operation Unit := do
  modify fun w => { w with printed := [] }
  match name with
  | "apply_rules" => withArguments applySpec words applyCommand
  | "test_rule" => runPreviewCommand words
  | "import_rules" => withArguments exchangeSpec words exchangeCommand
  | name => throw (.command ("Unknown command: " ++ Text.quoted name))

/-- What the last command printed. -/
def Workspace.output (w : Workspace) : String := String.join w.printed.reverse

end Rulebook
