import Rulebook.Definition.Validity

/-!
# What a schema accepts

A schema is written as a list of complaints, for the sake of messages.  What is used of a value that
was checked is the opposite: the shape that it has if there is nothing to complain about.  There is
one lemma for each kind of schema, which says exactly when there is nothing.

Definitions leave members out, and whoever reads them puts a default in place.  As the defaults have
the shape that is asked for, it does not matter to a reader whether a member was there
(`Schema.Accepts.findOr`).

## Main definitions

* `Schema.Accepts` — there is nothing wrong with the value.

## Main statements

* `Schema.accepts_record_iff`, `Schema.accepts_listOf_iff`, `Schema.accepts_oneOf_iff`,
  `Schema.accepts_oneOfTypes_iff` — what each kind of schema accepts.
* `accepts_of_checkDefinition` — a definition that is not refused has the shape of a definition.
-/

namespace Rulebook

theorem Vocabulary.mem_codes_iff {α : Type} [Vocabulary α] {s : String} :
    s ∈ codes α ↔ ∃ a : α, ofCode? s = some a := by
  rw [← Option.isSome_iff_exists, ofCode?, List.find?_isSome, codes, List.mem_map]
  simp only [beq_iff_eq]

namespace Schema

/-- There is nothing wrong with the value. -/
def Accepts (schema : Schema) (j : Json) : Prop := schema.complaints j = []

/-- There are no complaints about a list if there are none about its entries. -/
theorem entryComplaints_eq_nil_iff {entry : Schema} {items : List Json} {n : Nat} :
    entryComplaints entry.complaints n items = [] ↔ ∀ item ∈ items, entry.Accepts item := by
  induction items generalizing n with
  | nil => simp [entryComplaints]
  | cons first rest ih =>
      rw [entryComplaints, List.append_eq_nil_iff, List.map_eq_nil_iff, ih, List.forall_mem_cons]
      rfl

/-- There are no complaints about the members of an object if those that are there have their
shape. -/
theorem memberComplaints_eq_nil_iff {members : List (String × Schema)}
    {values : List (String × Json)} : memberComplaints members values = [] ↔
      ∀ member ∈ members, ∀ value, values.lookup member.1 = some value →
        member.2.Accepts value := by
  induction members with
  | nil => simp [memberComplaints]
  | cons member rest ih =>
      obtain ⟨name, schema⟩ := member
      rw [memberComplaints, List.append_eq_nil_iff, ih, List.forall_mem_cons]
      refine and_congr_left fun _ => ?_
      cases hvalue : values.lookup name with
      | none => simp
      | some value => simp [Accepts]

/-- If there is a complaint, one is the foremost. -/
theorem foremost_eq_none_iff {complaints : List Complaint} :
    foremost complaints = none ↔ complaints = [] := by
  have hkept : ∀ (choose : Option Complaint → Complaint → Option Complaint),
      (∀ best c, (choose best c).isSome = true) →
        ∀ (rest : List Complaint) (best : Option Complaint),
        best.isSome = true → (rest.foldl choose best).isSome = true := by
    intro choose hchoose rest
    induction rest with
    | nil => exact fun best hbest => hbest
    | cons c rest ih => exact fun best _ => ih (choose best c) (hchoose best c)
  unfold foremost
  cases complaints with
  | nil => simp
  | cons c rest =>
      rw [List.foldl_cons, ← Option.not_isSome_iff_eq_none]
      refine iff_of_false (not_not_intro (hkept _ (fun best c => ?_) rest _ rfl))
        (List.cons_ne_nil _ _)
      cases best with
      | none => rfl
      | some b =>
          dsimp only
          split <;> rfl

/-- Nothing is reported, and nothing has to be shown, exactly if there is no complaint. -/
theorem verdict_eq_ok_none_iff [Host] {schema : Schema} {j : Json} :
    schema.verdict j = .ok none ↔ schema.Accepts j := by
  rw [verdict, Accepts]
  cases hhidden : (schema.complaints j).findSome? Complaint.hidden? with
  | some failure =>
      refine iff_of_false nofun fun hnil => ?_
      rw [hnil] at hhidden
      cases hhidden
  | none => rw [Except.ok.injEq, foremost_eq_none_iff]

/-- If there is no verdict, one of the complaints could not be put into words. -/
theorem exists_hidden_of_verdict [Host] {schema : Schema} {j : Json} {failure : Failure}
    (h : schema.verdict j = .error failure) :
    ∃ complaint ∈ schema.complaints j, complaint.hidden? = some failure := by
  rw [verdict] at h
  split at h
  · cases h
  · next hhidden =>
    cases h
    exact List.exists_of_findSome?_eq_some hhidden

/-- If there is one, all of them were put into words. -/
theorem shown_of_verdict [Host] {schema : Schema} {j : Json} {reported : Option Complaint}
    (h : schema.verdict j = .ok reported) :
    ∀ complaint ∈ schema.complaints j, complaint.hidden? = none := by
  rw [verdict] at h
  split at h
  · next hhidden => exact List.findSome?_eq_none_iff.1 hhidden
  · cases h

section Kinds

variable {j : Json}

theorem accepts_oneOfTypes_iff {types : List JsonType} :
    (Schema.oneOfTypes types).Accepts j ↔ ∃ t ∈ types, t.holds j = true := by
  simp [Accepts, complaints]

theorem accepts_oneOf_iff {options : List String} :
    (Schema.oneOf options).Accepts j ↔ ∃ s ∈ options, j = .text s := by
  cases j <;> simp [Accepts, complaints]

/-- A list is accepted if its entries are. -/
theorem accepts_listOf_iff {entry : Schema} : (Schema.listOf entry).Accepts j ↔
    ∃ items, j = .list items ∧ ∀ item ∈ items, entry.Accepts item := by
  cases j with
  | list items =>
    rw [Accepts, complaints, entryComplaints_eq_nil_iff]
    simp
  | _ => simp [Accepts, complaints]

/-- An object is accepted if its required members are there and those with a shape have it. -/
theorem accepts_record_iff {required : List String} {members : List (String × Schema)} :
    (Schema.record required members).Accepts j ↔
      ∃ values, j = .object values ∧
        (∀ name ∈ required, ∃ value, values.lookup name = some value) ∧
        ∀ member ∈ members, ∀ value, values.lookup member.1 = some value →
          member.2.Accepts value := by
  cases j with
  | object values =>
    have hthere : ∀ name, ¬(values.lookup name).isNone = true ↔
        ∃ value, values.lookup name = some value := by
      intro name
      cases values.lookup name <;> simp
    rw [Accepts, complaints, List.append_eq_nil_iff, List.map_eq_nil_iff, List.filter_eq_nil_iff,
      memberComplaints_eq_nil_iff]
    simp only [hthere, Json.object.injEq, exists_eq_left']
  | _ => simp [Accepts, complaints]

end Kinds

namespace Accepts

variable {j : Json}

theorem boundedText {least most : Nat} (h : (Schema.boundedText least most).Accepts j) :
    ∃ s, j = .text s := by
  cases j with
  | text s => exact ⟨s, rfl⟩
  | _ => cases h

theorem boolean (h : (Schema.oneOfTypes [.boolean]).Accepts j) : ∃ b, j = .bool b := by
  obtain ⟨t, ht, hholds⟩ := accepts_oneOfTypes_iff.1 h
  rw [List.mem_singleton.1 ht] at hholds
  cases j with
  | bool b => exact ⟨b, rfl⟩
  | _ => cases hholds

variable {required : List String} {members : List (String × Schema)} {schema : Schema}

/-- The members of an object that is accepted: those required are there, and those with a shape have
it. -/
theorem record (h : (Schema.record required members).Accepts j) :
    ∃ values, j = .object values ∧ (∀ name ∈ required, ∃ value, values.lookup name = some value) ∧
      ∀ name schema, members.lookup name = some schema → ∀ value, values.lookup name = some value →
        schema.Accepts value := by
  obtain ⟨values, rfl, hrequired, hshapes⟩ := accepts_record_iff.1 h
  refine ⟨values, rfl, hrequired, fun name schema hmember => ?_⟩
  obtain ⟨before, after, rfl, -⟩ := List.lookup_eq_some_iff.1 hmember
  exact hshapes (name, schema) (by simp)

/-- A member that has to be there. -/
theorem require (h : (Schema.record required members).Accepts j) (name : String)
    (hmember : members.lookup name = some schema) (hrequired : name ∈ required) :
    ∃ value, j.require name = .ok value ∧ schema.Accepts value := by
  obtain ⟨values, rfl, hthere, hshapes⟩ := h.record
  obtain ⟨value, hvalue⟩ := hthere name hrequired
  exact ⟨value, by simp [Json.require, hvalue], hshapes name schema hmember value hvalue⟩

/-- A member that may be left out has its shape even then, as long as the default has it. -/
theorem findOr (h : (Schema.record required members).Accepts j) (name : String) (other : Json)
    (hmember : members.lookup name = some schema) (hother : schema.Accepts other) :
    ∃ value, j.findOr name other = .ok value ∧ schema.Accepts value := by
  obtain ⟨values, rfl, -, hshapes⟩ := h.record
  have hfind : (Json.object values).findOr name other =
    .ok ((values.lookup name).getD other) := rfl
  rw [hfind]
  cases hvalue : values.lookup name with
  | none => exact ⟨other, rfl, hother⟩
  | some value => exact ⟨value, rfl, hshapes name schema hmember value hvalue⟩

end Accepts

end Schema

/-- A definition that is not refused has the shape of a definition. -/
theorem accepts_of_checkDefinition [Host] {d : Json} (h : checkDefinition d = .ok ()) :
    definitionSchema.Accepts d := by
  rw [checkDefinition] at h
  cases hverdict : definitionSchema.verdict d with
  | error failure =>
      rw [hverdict] at h
      cases h
  | ok complaint =>
      rw [hverdict] at h
      cases complaint with
      | some complaint => cases h
      | none => exact Schema.verdict_eq_ok_none_iff.1 hverdict

end Rulebook
