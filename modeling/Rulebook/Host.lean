/-!
# The host

Nested values, texts and patterns are taken apart by functions that call themselves, on a stack that
ends somewhere.  How deep they can go depends on how much of the stack is taken already, and so on
the place in the program: a value may be nested too deeply for one place and not for another.

The program is written for any host.  What is known of all hosts is that shallow things fit.

## Main definitions

* `Descent` — the ways into something nested.
* `Host` — how much room there is for each of them.
* `Host.usual` — the host that is meant where none is named.
-/

namespace Rulebook

/-- A way into something nested. -/
inductive Descent where
  /-- A file is read as JSON. -/
  | file
  /-- The value of an action is read as JSON. -/
  | value
  /-- A message shows a value of the wrong shape, found so many steps below the root. -/
  | complaint (depth : Nat)
  /-- Any other message shows a value, or a value becomes a text. -/
  | message
  /-- A value is written over several lines. -/
  | layout
  /-- The groups of a pattern are read. -/
  | groups
  /-- A pattern that was read is translated. -/
  | pattern
deriving DecidableEq, Repr

/-- How many levels fit into each other on each way. -/
class Host where
  room : Descent → Nat
  /-- What the program itself writes always fits. -/
  enough : ∀ descent, 16 ≤ room descent

namespace Host

/-- How many levels fit when little else is on a stack of a thousand frames. -/
def usualRoom : Descent → Nat
  | .file => 980
  | .value => 980
  | .complaint depth => 900 - 6 * min depth 16
  | .message => 900
  | .layout => 900
  | .groups => 900
  | .pattern => 900

/-- The host that is meant where none is named. -/
instance (priority := low) usual : Host where
  room := usualRoom
  enough descent := by cases descent <;> simp only [usualRoom] <;> omega

end Host

end Rulebook
