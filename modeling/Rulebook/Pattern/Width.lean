import Rulebook.Pattern.Tree

/-!
# Widths

The least and the greatest number of characters that a pattern can consume.  Widths are bounded by a
ceiling that stands for "without limit".  A pattern that looks behind must have one width only.

## Main definitions

* `Width` — least and greatest.
* `Node.width`, `width` — the width of a node and of a sequence, given the widths of the groups.
* `Width.isFixed` — whether there is only one width, and not too large a one.
-/

namespace Rulebook.Pattern

/-- Widths are not told apart from here on. -/
def widthCeiling : Nat := Nat.pow 2 64

/-- Look-behinds beyond this are refused. -/
def lookBehindLimit : Nat := Nat.pow 2 32 - 1

/-- The least and the greatest number of characters. -/
structure Width where
  low : Nat
  high : Nat
deriving DecidableEq, Repr, Inhabited

namespace Width

/-- No characters. -/
def zero : Width := ⟨0, 0⟩

/-- Exactly one character. -/
def one : Width := ⟨1, 1⟩

/-- One after the other. -/
def add (a b : Width) : Width := ⟨a.low + b.low, a.high + b.high⟩

/-- One or the other. -/
def join (a b : Width) : Width := ⟨min a.low b.low, max a.high b.high⟩

/-- Bounded by the ceiling. -/
def clamp (a : Width) : Width := ⟨min a.low widthCeiling, min a.high widthCeiling⟩

/-- Whether there is only one width, and not too large a one. -/
def isFixed (a : Width) : Bool := a.low ≤ lookBehindLimit && a.low == a.high

/-- So many times in a row. -/
def times (a : Width) (least : Nat) (most : Option Nat) : Width :=
  ⟨a.low * least,
    match most with
    | none => if a.high = 0 then 0 else widthCeiling
    | some n => a.high * n⟩

end Width

/-- The widths of the groups closed so far, by group number. -/
abbrev GroupWidths := List (Option Width)

/-- The width of a group. -/
def GroupWidths.at (groups : GroupWidths) (index : Nat) : Width :=
  ((groups[index]?).join).getD .zero

mutual

/-- The width of a node. -/
def Node.width (groups : GroupWidths) : Node → Width
  | .code _ | .notCode _ | .anyChar | .oneOf _ _ => .one
  | .edge _ => .zero
  | .look _ _ _ => .zero
  | .backref group => groups.at group
  | .group _ _ _ body => width groups body
  | .atomic body => width groups body
  | .branch alternatives => widthOfBranches groups alternatives
  | .conditional _ yes no => (width groups yes).join (width groups no)
  | .repetition _ least most body => (width groups body).times least most

/-- The width of a sequence. -/
def width (groups : GroupWidths) : List Node → Width
  | [] => .zero
  | node :: rest => ((node.width groups).add (width groups rest)).clamp

/-- The width of a choice. -/
def widthOfBranches (groups : GroupWidths) : List (List Node) → Width
  | [] => ⟨widthCeiling, 0⟩
  | body :: rest => (width groups body).join (widthOfBranches groups rest)

end

end Rulebook.Pattern
