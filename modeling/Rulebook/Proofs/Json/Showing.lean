import Rulebook.Ledger.Column
import Rulebook.Proofs.Number.Numerals

/-!
# What can be shown

There is room for one level everywhere, so whether a value without parts can be shown has nothing to
do with the host: only a whole number may be refused, and only one whose numeral is too long to be
read.

Most values that become texts are texts already, and these are shown as they are.

A value with parts is shown with all of them, so that every whole number in it is readable.

## Main definitions

* `Json.CanShow` — the value can be shown where there is room enough.

## Main statements

* `Json.hidden?_int` — a whole number can be shown if it is readable.
* `Json.plain_eq_ok_iff` — a value that can be shown has its plain form.
* `Json.CanShow.findOr`, `Json.CanShow.item` — what can be shown has parts that can be shown.
-/

namespace Rulebook

open Number

theorem Number.isShort_iff {n : Int} : isShort n = true ↔ IsReadable n := by
  rw [isShort, decide_eq_true_eq, Nat.length_toDigits_le_iff (by decide) (by decide)]
  rfl

namespace Json

variable [Host] {j : Json} {descent : Descent} {failure : Failure}

/-! ## Values without parts -/

theorem exists_room_eq (descent : Descent) : ∃ room, Host.room descent = room + 1 :=
  ⟨Host.room descent - 1, by have := Host.enough descent; omega⟩

@[simp] theorem hidden?_null : Json.null.hidden? descent = none := by
  obtain ⟨room, hroom⟩ := exists_room_eq descent
  rw [hidden?, hroom]
  rfl

@[simp] theorem hidden?_bool (b : Bool) : (Json.bool b).hidden? descent = none := by
  obtain ⟨room, hroom⟩ := exists_room_eq descent
  rw [hidden?, hroom]
  rfl

@[simp] theorem hidden?_real (x : Binary64) : (Json.real x).hidden? descent = none := by
  obtain ⟨room, hroom⟩ := exists_room_eq descent
  rw [hidden?, hroom]
  rfl

@[simp] theorem hidden?_text (s : String) : (Json.text s).hidden? descent = none := by
  obtain ⟨room, hroom⟩ := exists_room_eq descent
  rw [hidden?, hroom]
  rfl

/-- A whole number can be shown if its numeral is not too long. -/
theorem hidden?_int (n : Int) :
    (Json.int n).hidden? descent = if isShort n then none else some .longInteger := by
  obtain ⟨room, hroom⟩ := exists_room_eq descent
  rw [hidden?, hroom, showFault?]
  split <;> rfl

/-! ## Values as texts -/

theorem plain_eq_ok_iff {s : String} :
    j.plain descent = .ok s ↔ j.hidden? descent = none ∧ j.display = s := by
  rw [plain]
  cases j.hidden? descent <;> simp

theorem plain_eq_error_iff :
    j.plain descent = .error failure ↔ j.hidden? descent = some failure := by
  rw [plain]
  cases j.hidden? descent <;> simp

theorem plain_of_hidden?_eq_none (h : j.hidden? descent = none) : j.plain descent = .ok j.display :=
  plain_eq_ok_iff.2 ⟨h, rfl⟩

/-- A whole number becomes a text if it is readable. -/
theorem plain_int_eq_ok_iff {n : Int} {s : String} :
    (Json.int n).plain descent = .ok s ↔ IsReadable n ∧ toString n = s := by
  have hdisplay : (Json.int n).display = toString n := by simp only [display, literal]
  rw [plain_eq_ok_iff, hidden?_int, ← isShort_iff, hdisplay]
  cases isShort n <;> simp

@[simp] theorem plain_text (s : String) : (Json.text s).plain descent = .ok s :=
  plain_of_hidden?_eq_none (hidden?_text s)

/-! ## Parts of values that can be shown -/

/-- The value can be shown where there is room enough. -/
def CanShow (j : Json) : Prop := ∃ room, j.showFault? room = none

theorem canShow_of_hidden?_eq_none (h : j.hidden? descent = none) : j.CanShow :=
  ⟨Host.room descent, Option.map_eq_none_iff.1 h⟩

omit [Host] in
theorem CanShow.isReadable {n : Int} (h : (Json.int n).CanShow) : IsReadable n := by
  obtain ⟨_ | room, h⟩ := h
  · cases h
  · rw [showFault?] at h
    split at h
    · next hshort => exact isShort_iff.1 hshort
    · cases h

omit [Host] in
theorem CanShow.item {items : List Json} (h : (Json.list items).CanShow) :
    ∀ item ∈ items, item.CanShow := by
  obtain ⟨_ | room, h⟩ := h
  · cases h
  · rw [showFault?] at h
    induction items with
    | nil => exact fun item hitem => nomatch hitem
    | cons first rest ih =>
        rw [itemsShowFault?, Option.or_eq_none_iff] at h
        exact List.forall_mem_cons.2 ⟨⟨room, h.1⟩, ih h.2⟩

omit [Host] in
theorem CanShow.lookup {members : List (String × Json)} {name : String} {value : Json}
    (h : (Json.object members).CanShow) (hvalue : members.lookup name = some value) :
    value.CanShow := by
  obtain ⟨_ | room, h⟩ := h
  · cases h
  · rw [showFault?] at h
    induction members with
    | nil => cases hvalue
    | cons first rest ih =>
        obtain ⟨other, first⟩ := first
        rw [membersShowFault?, Option.or_eq_none_iff] at h
        rw [List.lookup_cons] at hvalue
        split at hvalue
        · cases hvalue
          exact ⟨room, h.1⟩
        · exact ih hvalue h.2

omit [Host] in
theorem CanShow.findOr {other value : Json} {name : String} (h : j.CanShow) (hother : other.CanShow)
    (hvalue : j.findOr name other = .ok value) : value.CanShow := by
  rw [Json.findOr, find.eq_def] at hvalue
  split at hvalue
  · next members =>
    cases hvalue
    cases hfound : members.lookup name with
    | none => exact hother
    | some found => exact h.lookup hfound
  · cases hvalue

end Json

/-! ## Columns of texts -/

namespace Column

variable [Host]

/-- A column holds a text as it is. -/
@[simp] theorem text_text (s : String) : text (.text s) = .ok (some s) := by
  change ((Json.text s).plain .message).bind (fun t => .ok (some t)) = _
  rw [Json.plain_text]
  rfl

theorem text_ofText? (s : Option String) : text (.ofText? s) = .ok s := by
  cases s with
  | none => rfl
  | some s => exact text_text s

/-- What follows a column with a text goes on with the text. -/
theorem text_bind {β : Type} {j : Json} {s : String} (hj : j = .text s)
    (f : Option String → Except Failure β) : (text j >>= f) = f (some s) := by
  rw [hj, text_text]
  rfl

end Column

end Rulebook
