import Mathlib.Data.Set.Insert
import Rulebook.Proofs.Engine.Account

/-!
# Actions as assignments

Most actions assign.  What they leave in the places that they write to does not depend on what was
there before, and everything else they leave alone.  Setting a description is of this kind, and so
is putting a tag on a transaction, if each tag counts as a place of its own; only the three kinds
that append or prepend to a text are not.

Assignments have an algebra that needs nothing of the engine.  One after the other they are an
assignment again, to the places of either (`Assigns.comp`).  An assignment that is followed by one
to all of its places leaves no trace (`Assigns.absorb`); in particular, to assign twice is to assign
once.

## Main definitions

* `Slot`, `Standing.content` — the places of a standing, and what is in them.
* `Assigns` — a function on standings that assigns to a set of places.
* `ActionKind.isRepeatable`, `ActionKind.slots` — the kinds that assign, and to which places.

## Main statements

* `Assigns.comp`, `Assigns.absorb` — the algebra of assignments.
* `assigns_meaning` — what a repeatable action means is an assignment.
-/

namespace Rulebook

open Calendar Text

/-! ## Places -/

/-- The places that actions write to.  The two fields about reconciling are only written together,
and each tag is a place that is taken or free. -/
inductive Slot where
  | description
  | note
  | type
  | category
  | merchant
  | reconciled
  | tag (id : Id)
deriving DecidableEq

/-- The place where a label of a kind goes. -/
def LabelKind.slot (kind : LabelKind) (id : Id) : Slot :=
  match kind with
  | .category => .category
  | .merchant => .merchant
  | .tag => .tag id

/-- What is in a place. -/
inductive SlotContent where
  | text (s : Option String)
  | reference (id : Option Id)
  | reconciled (flag : Bool) (time : Option Instant)
  | taken (flag : Bool)

/-- What a standing has in a place. -/
def Standing.content (x : Standing) : Slot → SlotContent
  | .description => .text x.description
  | .note => .text x.note
  | .type => .text x.type
  | .category => .reference x.category
  | .merchant => .reference x.merchant
  | .reconciled => .reconciled x.isReconciled x.reconciledAt
  | .tag id => .taken (x.tags id)

/-- A standing is what it has in its places. -/
theorem Standing.eq_of_content {x y : Standing} (h : ∀ slot, x.content slot = y.content slot) :
    x = y := by
  obtain ⟨hreconciled, htime⟩ := SlotContent.reconciled.inj (h .reconciled)
  exact Standing.ext (SlotContent.text.inj (h .description)) (SlotContent.text.inj (h .note))
    (SlotContent.text.inj (h .type)) (SlotContent.reference.inj (h .category))
    (SlotContent.reference.inj (h .merchant)) hreconciled htime
    (funext fun id => SlotContent.taken.inj (h (.tag id)))

/-! ## Assignments -/

/-- What the function leaves in the places of a set does not depend on the standing before, and all
other places it leaves alone. -/
structure Assigns (D : Set Slot) (f : Standing → Standing) : Prop where
  inside : ∀ slot ∈ D, ∀ x y, (f x).content slot = (f y).content slot
  outside : ∀ slot ∉ D, ∀ x, (f x).content slot = x.content slot

namespace Assigns

variable {D E : Set Slot} {f g : Standing → Standing}

/-- Nothing is assigned to no places. -/
theorem nothing : Assigns ∅ fun x => x where
  inside _ hslot := hslot.elim
  outside _ _ _ := rfl

/-- One assignment after another. -/
theorem comp (hf : Assigns D f) (hg : Assigns E g) : Assigns (D ∪ E) fun x => g (f x) where
  inside slot hslot x y := by
    by_cases hE : slot ∈ E
    · exact hg.inside slot hE _ _
    · rw [hg.outside slot hE, hg.outside slot hE]
      exact hf.inside slot (hslot.resolve_right hE) x y
  outside slot hslot x := by
    rw [Set.mem_union, not_or] at hslot
    rw [hg.outside slot hslot.2, hf.outside slot hslot.1]

/-- What is assigned before an assignment to the same places leaves no trace. -/
theorem absorb (hf : Assigns D f) (hg : Assigns E g) (hsub : E ⊆ D) (x : Standing) :
    f (g x) = f x := by
  refine Standing.eq_of_content fun slot => ?_
  by_cases hD : slot ∈ D
  · exact hf.inside slot hD _ _
  · rw [hf.outside slot hD, hf.outside slot hD, hg.outside slot fun hE => hD (hsub hE)]

/-- To assign twice is to assign once. -/
theorem twice (hf : Assigns D f) (x : Standing) : f (f x) = f x := hf.absorb hf subset_rfl x

end Assigns

/-! ## What actions assign -/

/-- Whether an action of the kind assigns; the others add to a text. -/
def ActionKind.isRepeatable : ActionKind → Bool
  | .appendDescription | .prependDescription | .appendNote => false
  | _ => true

/-- The places that an action of a kind assigns to.  Names are those of the labels in the store. -/
def ActionKind.slots (s : Store) (owner : Id) (kind : ActionKind) (value : Option ActionValue) :
    Set Slot :=
  match kind, value with
  | .setCategory, some (.identifier _) | .createCategory, some (.text _) => {.category}
  | .setMerchant, some (.identifier _) | .createMerchant, some (.text _) => {.merchant}
  | .addTag, some (.identifier id) | .removeTag, some (.identifier id) => {.tag id}
  | .removeAllTags, _ => Set.range .tag
  | .setDescription, some (.text _) => {.description}
  | .setNote, some (.text _) => {.note}
  | .setType, some (.text _) => {.type}
  | .markReconciled, _ => {.reconciled}
  | .createTag, some (.text name) => {slot | ∃ id ∈ s.namedId .tag owner name, slot = .tag id}
  | _, _ => ∅

/-- The assignment to a single place. -/
theorem assigns_singleton {place : Slot} {f : Standing → Standing}
    (hinside : ∀ x y, (f x).content place = (f y).content place)
    (houtside : ∀ x, ∀ slot ≠ place, (f x).content slot = x.content slot) :
    Assigns {place} f where
  inside := by
    rintro slot rfl
    exact hinside
  outside slot hslot x := houtside x slot hslot

/-- The place for a role. -/
def LabelRole.slot : LabelRole → Slot
  | .category => .category
  | .merchant => .merchant

theorem assigns_setLabel (role : LabelRole) (reference : Option Id) :
    Assigns {role.slot} (Standing.setLabel role reference) := by
  cases role with
  | category =>
    refine assigns_singleton (fun _ _ => rfl) fun x slot hslot => ?_
    cases slot <;> first | rfl | exact absurd rfl hslot
  | merchant =>
    refine assigns_singleton (fun _ _ => rfl) fun x slot hslot => ?_
    cases slot <;> first | rfl | exact absurd rfl hslot

theorem assigns_addTag (tag : Option Id) :
    Assigns {slot | ∃ id ∈ tag, slot = .tag id} (Standing.addTag tag) where
  inside := by
    rintro slot ⟨id, hid, rfl⟩ x y
    obtain rfl := Option.mem_def.1 hid
    simp [Standing.content, Standing.addTag]
  outside slot hslot x := by
    cases slot with
    | tag id =>
      have hne : tag ≠ some id := fun hid => hslot ⟨id, hid, rfl⟩
      simp [Standing.content, Standing.addTag, hne]
    | _ => rfl

theorem assigns_removeTags (test : Id → Bool) :
    Assigns {slot | ∃ id, test id = true ∧ slot = .tag id} (Standing.removeTags test) where
  inside := by
    rintro slot ⟨id, hid, rfl⟩ x y
    simp [Standing.content, Standing.removeTags, hid]
  outside slot hslot x := by
    cases slot with
    | tag id =>
      have hkept : test id = false := by
        rw [← Bool.not_eq_true]
        exact fun hid => hslot ⟨id, hid, rfl⟩
      simp [Standing.content, Standing.removeTags, hkept]
    | _ => rfl

/-- What a repeatable action means is an assignment. -/
theorem assigns_meaning (s : Store) (owner : Id) (now : Instant) {kind : ActionKind}
    (hkind : kind.isRepeatable = true) (value : Option ActionValue) :
    Assigns (kind.slots s owner value) (kind.meaning s owner now value) := by
  -- Without a value of the right kind nothing is assigned.
  cases kind with
  | appendDescription | prependDescription | appendNote => cases hkind
  | sendNotification => exact .nothing
  | setCategory =>
    rcases value with _ | id | words
    · exact .nothing
    · exact assigns_setLabel .category (some id)
    · exact .nothing
  | setMerchant =>
    rcases value with _ | id | words
    · exact .nothing
    · exact assigns_setLabel .merchant (some id)
    · exact .nothing
  | createCategory =>
    rcases value with _ | id | words
    · exact .nothing
    · exact .nothing
    · exact assigns_setLabel .category (s.namedId .category owner words)
  | createMerchant =>
    rcases value with _ | id | words
    · exact .nothing
    · exact .nothing
    · exact assigns_setLabel .merchant (s.namedId .merchant owner words)
  | addTag =>
    rcases value with _ | id | words
    · exact .nothing
    · have hadd : Assigns {.tag id} (Standing.addTag (some id)) := by
        simpa using assigns_addTag (some id)
      exact hadd
    · exact .nothing
  | createTag =>
    rcases value with _ | id | words
    · exact .nothing
    · exact .nothing
    · exact assigns_addTag _
  | removeTag =>
    rcases value with _ | id | words
    · exact .nothing
    · have hremove : Assigns {.tag id} (Standing.removeTags (· == id)) := by
        simpa using assigns_removeTags (· == id)
      exact hremove
    · exact .nothing
  | removeAllTags =>
    have hall : ({slot | ∃ id, true = true ∧ slot = .tag id} : Set Slot) = Set.range .tag := by
      ext slot
      simp [eq_comm]
    have hremove := assigns_removeTags fun _ => true
    rwa [hall] at hremove
  | markReconciled =>
    refine assigns_singleton (fun _ _ => rfl) fun x slot hslot => ?_
    cases slot <;> first | rfl | exact absurd rfl hslot
  | setDescription | setNote | setType =>
    rcases value with _ | id | words
    · exact .nothing
    · exact .nothing
    · refine assigns_singleton (fun _ _ => rfl) fun x slot hslot => ?_
      cases slot <;> first | rfl | exact absurd rfl hslot

end Rulebook
