import Rulebook.Proofs.Definition.Reading

/-!
# The grammar of definitions

What passes the check can be said without the check.  The check looks at a definition three times:
at its shape, at the operators of its conditions, and at the values of its actions.  The later looks
take for granted what the first has seen, and all of them pass over members that may be missing.
The grammar looks once, part by part, and says of each part what it has to be.

That they come to the same is shown part by part as well.  A part is in the grammar exactly if its
shape is accepted and the later look finds nothing wrong with it, wherever it stands
(`isCondition_iff`, `isConditionGroup_iff`, `isAction_iff`).

## Main definitions

* `Json.IsObject`, `Json.IsList`, `Json.MayHave` — objects and lists of some kind, and members that
  may be missing.
* `IsCondition`, `IsConditionGroup`, `IsAction`, `IsDefinition` — the grammar.

## Main statements

* `checkDefinition_eq_ok_iff` — what passes the check is what is in the grammar.
-/

namespace Rulebook

/-! ## Values -/

namespace Json

/-- An object whose members are of a kind. -/
inductive IsObject (P : List (String × Json) → Prop) : Json → Prop
  | intro {members : List (String × Json)} (h : P members) : IsObject P (.object members)

/-- A list whose entries are of a kind. -/
inductive IsList (P : Json → Prop) : Json → Prop
  | intro {items : List Json} (h : ∀ item ∈ items, P item) : IsList P (.list items)

theorem IsList.imp {P Q : Json → Prop} {j : Json} (h : IsList P j) (hPQ : ∀ item, P item → Q item) :
    IsList Q j := by
  obtain ⟨hitems⟩ := h
  exact .intro fun item hitem => hPQ item (hitems item hitem)

/-- A text. -/
inductive IsText : Json → Prop
  | intro (s : String) : IsText (.text s)

/-- A truth value. -/
inductive IsBoolean : Json → Prop
  | intro (b : Bool) : IsBoolean (.bool b)

/-- A whole number, which may be written as a floating point number without a fraction. -/
inductive IsInteger : Json → Prop
  | whole (n : Int) : IsInteger (.int n)
  | real (negative : Bool) (n : Nat) :
    IsInteger (.real (.finite negative (n * Number.Binary64.unitsOfOne)))

/-- The word of a member of a vocabulary. -/
inductive IsWord (α : Type) [Vocabulary α] : Json → Prop
  | intro (a : α) : IsWord α (.text (Vocabulary.code a))

/-- What a condition may compare with. -/
inductive IsComparand : Json → Prop
  | text (s : String) : IsComparand (.text s)
  | whole (n : Int) : IsComparand (.int n)
  | real (x : Number.Binary64) : IsComparand (.real x)
  | null : IsComparand .null

/-- What may be given for the value of an action, as far as its shape is concerned. -/
inductive IsGiven : Json → Prop
  | text (s : String) : IsGiven (.text s)
  | integer {j : Json} (h : j.IsInteger) : IsGiven j
  | null : IsGiven .null

/-- The member, if it is there, is of a kind. -/
def MayHave (members : List (String × Json)) (name : String) (P : Json → Prop) : Prop :=
  ∀ value, members.lookup name = some value → P value

end Json

open Json Vocabulary

/-! ## The grammar -/

/-- The members of a condition: a field and an operator that accepts the field's kind, a value to
compare with, and two truth values. -/
structure ConditionMembers (members : List (String × Json)) : Prop where
  suited : ∃ (field : Field) (op : Operator), members.lookup "field" = some (.text (code field)) ∧
    members.lookup "operator" = some (.text (code op)) ∧ op.accepts field.kind = true
  value : MayHave members "value" IsComparand
  isCaseSensitive : MayHave members "is_case_sensitive" IsBoolean
  isNegated : MayHave members "is_negated" IsBoolean

/-- A condition. -/
def IsCondition : Json → Prop := IsObject ConditionMembers

/-- The members of a group: how its conditions are combined, its place, and the conditions. -/
structure ConditionGroupMembers (members : List (String × Json)) : Prop where
  connective : MayHave members "logic_operator" (IsWord Connective)
  order : MayHave members "order" IsInteger
  conditions : MayHave members "conditions" (IsList IsCondition)

/-- A group of conditions. -/
def IsConditionGroup : Json → Prop := IsObject ConditionGroupMembers

/-- The members of an action: its kind, a value that the kind takes, and whether it is the last. -/
structure ActionMembers [Host] (members : List (String × Json)) : Prop where
  suited : ∃ kind : ActionKind, members.lookup "action_type" = some (.text (code kind)) ∧
    ∃ v, coerceValue kind (.json ((members.lookup "value").getD .null)) = .ok v
  value : MayHave members "value" IsGiven
  stopProcessing : MayHave members "stop_processing" IsBoolean

/-- An action. -/
def IsAction [Host] : Json → Prop := IsObject ActionMembers

/-- The members of a definition: a name, and what else is known of a rule. -/
structure DefinitionMembers [Host] (members : List (String × Json)) : Prop where
  name : ∃ s : String, members.lookup "name" = some (.text s) ∧ 1 ≤ s.length ∧ s.length ≤ 255
  description : MayHave members "description" IsText
  trigger : MayHave members "trigger_type" (IsWord Trigger)
  order : MayHave members "order" IsInteger
  isActive : MayHave members "is_active" IsBoolean
  stopProcessing : MayHave members "stop_processing" IsBoolean
  conditionGroups : MayHave members "condition_groups" (IsList IsConditionGroup)
  actions : MayHave members "actions" (IsList IsAction)

/-- A definition. -/
def IsDefinition [Host] : Json → Prop := IsObject DefinitionMembers

/-! ## Words -/

/-- The words of a vocabulary tell its members apart, and every member has one. -/
class Vocabulary.Faithful (α : Type) [Vocabulary α] : Prop where
  ofCode?_code (a : α) : ofCode? (code a) = some a

instance : Faithful Field := ⟨fun a => by cases a <;> rfl⟩

instance : Faithful Operator := ⟨fun a => by cases a <;> rfl⟩

instance : Faithful Connective := ⟨fun a => by cases a <;> rfl⟩

instance : Faithful Trigger := ⟨fun a => by cases a <;> rfl⟩

instance : Faithful ActionKind := ⟨fun a => by cases a <;> rfl⟩

section Words

variable {α : Type} [Vocabulary α] [Faithful α]

omit [Faithful α] in
theorem Vocabulary.code_eq_of_ofCode? {s : String} {a : α} (h : ofCode? s = some a) :
    code a = s := by
  simpa using List.find?_some h

theorem Vocabulary.code_injective {a b : α} (h : code a = code b) : a = b := by
  have hsame := congrArg (ofCode? (α := α)) h
  rw [Faithful.ofCode?_code, Faithful.ofCode?_code] at hsame
  exact Option.some.inj hsame

theorem Vocabulary.mem_codes_iff_code {s : String} :
    s ∈ codes α ↔ ∃ a : α, code a = s := by
  rw [mem_codes_iff]
  constructor
  · rintro ⟨a, ha⟩
    exact ⟨a, code_eq_of_ofCode? ha⟩
  · rintro ⟨a, rfl⟩
    exact ⟨a, Faithful.ofCode?_code a⟩

theorem Vocabulary.require_eq_ok_iff [Host] {j : Json} {a : α} :
    (require j : Except Failure α) = .ok a ↔ j = .text (code a) := by
  rw [require_eq_ok_iff_ofJson?]
  constructor
  · intro h
    cases j with
    | text s => rw [code_eq_of_ofCode? h]
    | _ => cases h
  · rintro rfl
    rw [ofJson?, Faithful.ofCode?_code a]

end Words

/-! ## Shapes -/

namespace Schema

variable {j : Json}

theorem accepts_text_iff : (Schema.oneOfTypes [.text]).Accepts j ↔ j.IsText := by
  rw [accepts_oneOfTypes_iff]
  constructor
  · intro h
    cases j <;> simp [JsonType.holds] at h
    exact .intro _
  · rintro ⟨s⟩
    simp [JsonType.holds]

theorem accepts_boolean_iff : (Schema.oneOfTypes [.boolean]).Accepts j ↔ j.IsBoolean := by
  rw [accepts_oneOfTypes_iff]
  constructor
  · intro h
    cases j <;> simp [JsonType.holds] at h
    exact .intro _
  · rintro ⟨b⟩
    simp [JsonType.holds]

theorem holds_integer_iff : JsonType.integer.holds j = true ↔ j.IsInteger := by
  constructor
  · intro h
    cases j with
    | int n => exact .whole n
    | real x =>
      cases x with
      | finite negative units =>
        have hwhole : units % Number.Binary64.unitsOfOne = 0 := by
          simpa [JsonType.holds, Number.Binary64.isWhole] using h
        rw [← Nat.div_mul_cancel (Nat.dvd_of_mod_eq_zero hwhole)]
        exact .real negative _
      | _ => simp [JsonType.holds, Number.Binary64.isWhole] at h
    | _ => simp [JsonType.holds] at h
  · intro h
    cases h with
    | whole n => rfl
    | real negative n => simp [JsonType.holds, Number.Binary64.isWhole]

theorem accepts_integer_iff : (Schema.oneOfTypes [.integer]).Accepts j ↔ j.IsInteger := by
  rw [accepts_oneOfTypes_iff, ← holds_integer_iff]
  simp

theorem accepts_comparand_iff :
    (Schema.oneOfTypes [.text, .number, .null]).Accepts j ↔ j.IsComparand := by
  rw [accepts_oneOfTypes_iff]
  constructor
  · intro h
    cases j <;> simp [JsonType.holds] at h
    · exact .null
    · exact .whole _
    · exact .real _
    · exact .text _
  · intro h
    cases h <;> simp [JsonType.holds]

theorem accepts_given_iff :
    (Schema.oneOfTypes [.text, .integer, .null]).Accepts j ↔ j.IsGiven := by
  rw [accepts_oneOfTypes_iff]
  simp only [List.mem_cons, List.not_mem_nil, or_false, exists_eq_or_imp, exists_eq_left,
    holds_integer_iff]
  constructor
  · rintro (h | h | h)
    · cases j <;> simp [JsonType.holds] at h
      exact .text _
    · exact .integer h
    · cases j <;> simp [JsonType.holds] at h
      exact .null
  · intro h
    cases h with
    | text s => exact .inl rfl
    | integer h => exact .inr (.inl h)
    | null => exact .inr (.inr rfl)

theorem accepts_boundedText_iff {least most : Nat} : (Schema.boundedText least most).Accepts j ↔
    ∃ s : String, j = .text s ∧ least ≤ s.length ∧ s.length ≤ most := by
  cases j <;> simp [Accepts, complaints]

theorem accepts_word_iff {α : Type} [Vocabulary α] [Faithful α] :
    (Schema.oneOf (codes α)).Accepts j ↔ IsWord α j := by
  rw [accepts_oneOf_iff]
  constructor
  · rintro ⟨s, hs, rfl⟩
    obtain ⟨a, rfl⟩ := mem_codes_iff_code.1 hs
    exact .intro a
  · rintro ⟨a⟩
    exact ⟨_, mem_codes_iff_code.2 ⟨a, rfl⟩, rfl⟩

theorem accepts_entries_iff {entry : Schema} :
    (Schema.listOf entry).Accepts j ↔ IsList entry.Accepts j := by
  rw [accepts_listOf_iff]
  constructor
  · rintro ⟨items, rfl, hitems⟩
    exact .intro hitems
  · rintro ⟨hitems⟩
    exact ⟨_, rfl, hitems⟩

theorem accepts_members_iff {required : List String} {members : List (String × Schema)} :
    (Schema.record required members).Accepts j ↔
      IsObject (fun values => (∀ name ∈ required, ∃ value, values.lookup name = some value) ∧
        ∀ member ∈ members, MayHave values member.1 member.2.Accepts) j := by
  rw [accepts_record_iff]
  constructor
  · rintro ⟨values, rfl, hvalues⟩
    exact .intro hvalues
  · rintro ⟨hvalues⟩
    exact ⟨_, rfl, hvalues⟩

end Schema

/-! ## Parts -/

section Lists

variable {α β : Type}

/-- Nothing is wrong with a list if nothing is wrong with its entries, as long as it does not matter
where they stand. -/
theorem flatMapPlaces_eq_nil_iff {f : Nat → α → Except Failure (List β)} {items : List α}
    {P : α → Prop} (h : ∀ m, ∀ a ∈ items, f m a = .ok [] ↔ P a) (n : Nat) :
    flatMapPlaces f n items = .ok [] ↔ ∀ a ∈ items, P a := by
  constructor
  · intro hnil a ha
    obtain ⟨m, hm⟩ := flatMapPlaces_eq_nil hnil a ha
    exact (h m a ha).1 hm
  · intro hall
    exact flatMapPlaces_of_nil (fun m a ha => (h m a ha).2 (hall a ha)) n

end Lists

/-- A member that has to be there. -/
theorem Json.require_object_iff {members : List (String × Json)} {name : String} {value : Json} :
    (Json.object members).require name = .ok value ↔ members.lookup name = some value := by
  rw [Json.require]
  cases members.lookup name <;> simp

theorem operatorErrors_eq_nil_iff [Host] {group place : Nat} {members : List (String × Json)} :
    operatorErrors group place (.object members) = .ok [] ↔
      ∃ (field : Field) (op : Operator), members.lookup "field" = some (.text (code field)) ∧
        members.lookup "operator" = some (.text (code op)) ∧ op.accepts field.kind = true := by
  constructor
  · intro h
    obtain ⟨fieldName, hfield, hrest⟩ := eq_ok_of_bind h
    obtain ⟨field, hfieldKnown, hrest⟩ := eq_ok_of_bind hrest
    obtain ⟨opName, hop, hrest⟩ := eq_ok_of_bind hrest
    obtain ⟨op, hopKnown, hnothing⟩ := eq_ok_of_bind hrest
    rw [require_eq_ok_iff.1 hfieldKnown, Json.require_object_iff] at hfield
    rw [require_eq_ok_iff.1 hopKnown, Json.require_object_iff] at hop
    refine ⟨field, op, hfield, hop, ?_⟩
    by_contra hrefused
    rw [if_neg hrefused] at hnothing
    cases hnothing
  · rintro ⟨field, op, hfield, hop, haccepts⟩
    rw [operatorErrors, bind_of_eq_ok (Json.require_object_iff.2 hfield),
      bind_of_eq_ok (require_eq_ok_iff.2 rfl), bind_of_eq_ok (Json.require_object_iff.2 hop),
      bind_of_eq_ok (require_eq_ok_iff.2 rfl), if_pos haccepts]
    rfl

/-- The entries of a list that may be missing; a missing list has none. -/
theorem Json.exists_entries {members : List (String × Json)} {name : String} {P : Json → Prop}
    (h : MayHave members name (IsList P)) :
    ∃ items, (Json.object members).findOr name (.list []) = .ok (.list items) ∧
      ∀ Q : Json → Prop, MayHave members name (IsList Q) ↔ ∀ item ∈ items, Q item := by
  have hfind : (Json.object members).findOr name (.list []) =
    .ok ((members.lookup name).getD (.list [])) := rfl
  rw [hfind]
  cases hvalue : members.lookup name with
  | none => exact ⟨[], rfl, fun Q => by simp [MayHave, hvalue]⟩
  | some value =>
    obtain ⟨hitems⟩ := h value hvalue
    refine ⟨_, rfl, fun Q => ⟨fun hlist => ?_, fun hall => ?_⟩⟩
    · obtain ⟨hall⟩ := hlist _ hvalue
      exact hall
    · intro value hvalue'
      obtain rfl := Option.some.inj (hvalue.symm.trans hvalue')
      exact .intro hall

/-- A condition has the shape of one, and an operator that its field accepts. -/
theorem isCondition_iff [Host] {j : Json} (group place : Nat) :
    IsCondition j ↔ conditionSchema.Accepts j ∧ operatorErrors group place j = .ok [] := by
  simp only [conditionSchema, Schema.accepts_members_iff, List.mem_cons, List.not_mem_nil, or_false,
    forall_eq_or_imp, forall_eq, MayHave, Schema.accepts_word_iff, Schema.accepts_comparand_iff,
    Schema.accepts_boolean_iff]
  constructor
  · rintro ⟨h⟩
    obtain ⟨field, op, hfield, hop, -⟩ := h.suited
    refine ⟨.intro ⟨⟨⟨_, hfield⟩, _, hop⟩, ?_, ?_, h.value, h.isCaseSensitive, h.isNegated⟩,
      operatorErrors_eq_nil_iff.2 h.suited⟩
    · simp [hfield, IsWord.intro]
    · simp [hop, IsWord.intro]
  · rintro ⟨⟨-, -, -, hvalue, hsensitive, hnegated⟩, herrors⟩
    exact .intro ⟨operatorErrors_eq_nil_iff.1 herrors, hvalue, hsensitive, hnegated⟩

theorem groupErrors_eq_nil_iff [Host] {place : Nat} {members : List (String × Json)}
    (hshape : MayHave members "conditions" (IsList conditionSchema.Accepts)) :
    groupErrors place (.object members) = .ok [] ↔
      MayHave members "conditions" (IsList IsCondition) := by
  obtain ⟨items, hfind, hlist⟩ := Json.exists_entries hshape
  have hitems := (hlist _).1 hshape
  rw [groupErrors, bind_of_eq_ok hfind, Json.entries, bind_of_eq_ok rfl, hlist]
  refine flatMapPlaces_eq_nil_iff (fun m item hitem => ?_) 0
  rw [isCondition_iff place m, and_iff_right (hitems item hitem)]

/-- A group has the shape of one, and nothing is wrong with its conditions. -/
theorem isConditionGroup_iff [Host] {j : Json} (place : Nat) :
    IsConditionGroup j ↔ conditionGroupSchema.Accepts j ∧ groupErrors place j = .ok [] := by
  simp only [conditionGroupSchema, Schema.accepts_members_iff, List.mem_cons, List.not_mem_nil,
    or_false, forall_eq_or_imp, forall_eq, MayHave, Schema.accepts_word_iff,
    Schema.accepts_integer_iff, Schema.accepts_entries_iff]
  constructor
  · rintro ⟨h⟩
    have hshape : MayHave _ "conditions" (IsList conditionSchema.Accepts) := fun value hvalue =>
      (h.conditions value hvalue).imp fun item hitem => ((isCondition_iff place 0).1 hitem).1
    exact ⟨.intro ⟨by simp, h.connective, h.order, hshape⟩,
      (groupErrors_eq_nil_iff hshape).2 h.conditions⟩
  · rintro ⟨⟨-, hconnective, horder, hshape⟩, herrors⟩
    exact .intro ⟨hconnective, horder, (groupErrors_eq_nil_iff hshape).1 herrors⟩

theorem valueErrors_eq_nil_iff [Host] {place : Nat} {members : List (String × Json)} :
    valueErrors place (.object members) = .ok [] ↔
      ∃ kind : ActionKind, members.lookup "action_type" = some (.text (code kind)) ∧
        ∃ v, coerceValue kind (.json ((members.lookup "value").getD .null)) = .ok v := by
  have hfind : (Json.object members).findOr "value" .null =
    .ok ((members.lookup "value").getD .null) := rfl
  constructor
  · intro h
    obtain ⟨word, hword, hrest⟩ := eq_ok_of_bind h
    rw [bind_of_eq_ok hfind] at hrest
    split at hrest
    · next v hv =>
      obtain ⟨kind, hkind, hcoerce⟩ := eq_ok_of_bind hv
      rw [require_eq_ok_iff.1 hkind, Json.require_object_iff] at hword
      exact ⟨kind, hword, v, hcoerce⟩
    · cases hrest
    · cases hrest
  · rintro ⟨kind, hkind, v, hv⟩
    have hcoerce : coerceNamed (.text (code kind))
        (.json ((members.lookup "value").getD .null)) = .ok v := by
      rw [coerceNamed, bind_of_eq_ok (require_eq_ok_iff.2 rfl), hv]
    rw [valueErrors, bind_of_eq_ok (Json.require_object_iff.2 hkind), bind_of_eq_ok hfind, hcoerce]
    rfl

/-- An action has the shape of one, and a value that its kind takes. -/
theorem isAction_iff [Host] {j : Json} (place : Nat) :
    IsAction j ↔ actionSchema.Accepts j ∧ valueErrors place j = .ok [] := by
  simp only [actionSchema, Schema.accepts_members_iff, List.mem_cons, List.not_mem_nil, or_false,
    forall_eq_or_imp, forall_eq, MayHave, Schema.accepts_word_iff, Schema.accepts_given_iff,
    Schema.accepts_boolean_iff]
  constructor
  · rintro ⟨h⟩
    obtain ⟨kind, hkind, -⟩ := h.suited
    refine ⟨.intro ⟨⟨_, hkind⟩, ?_, h.value, h.stopProcessing⟩, valueErrors_eq_nil_iff.2 h.suited⟩
    simp [hkind, IsWord.intro]
  · rintro ⟨⟨-, -, hvalue, hstops⟩, herrors⟩
    exact .intro ⟨valueErrors_eq_nil_iff.1 herrors, hvalue, hstops⟩

/-! ## Definitions -/

/-- A definition has the shape of one: its own members, and lists whose entries have theirs. -/
theorem accepts_definition_iff {d : Json} : definitionSchema.Accepts d ↔
    IsObject (fun members =>
      (∃ s : String, members.lookup "name" = some (.text s) ∧ 1 ≤ s.length ∧ s.length ≤ 255) ∧
      MayHave members "description" IsText ∧
      MayHave members "trigger_type" (IsWord Trigger) ∧
      MayHave members "order" IsInteger ∧
      MayHave members "is_active" IsBoolean ∧
      MayHave members "stop_processing" IsBoolean ∧
      MayHave members "condition_groups" (IsList conditionGroupSchema.Accepts) ∧
      MayHave members "actions" (IsList actionSchema.Accepts)) d := by
  simp only [definitionSchema, Schema.accepts_members_iff, List.mem_cons, List.not_mem_nil,
    or_false, forall_eq_or_imp, forall_eq, MayHave, Schema.accepts_boundedText_iff, Schema.accepts_text_iff,
    Schema.accepts_word_iff, Schema.accepts_integer_iff, Schema.accepts_boolean_iff,
    Schema.accepts_entries_iff]
  constructor
  · rintro ⟨⟨value, hvalue⟩, hname, hrest⟩
    obtain ⟨s, rfl, hleast, hmost⟩ := hname value hvalue
    exact .intro ⟨⟨s, hvalue, hleast, hmost⟩, hrest⟩
  · rintro ⟨⟨s, hs, hleast, hmost⟩, hrest⟩
    refine .intro ⟨⟨_, hs⟩, fun value hvalue => ?_, hrest⟩
    obtain rfl := Option.some.inj (hs.symm.trans hvalue)
    exact ⟨s, rfl, hleast, hmost⟩

/-- What passes the check is what is in the grammar. -/
theorem checkDefinition_eq_ok_iff [Host] (d : Json) :
    checkDefinition d = .ok () ↔ IsDefinition d := by
  constructor
  · intro h
    obtain ⟨hname, hdescription, htrigger, horder, hactive, hstops, hgroups, hactions⟩ :=
      accepts_definition_iff.1 (accepts_of_checkDefinition h)
    obtain ⟨groups, hfindGroups, hlistGroups⟩ := Json.exists_entries hgroups
    obtain ⟨actions, hfindActions, hlistActions⟩ := Json.exists_entries hactions
    refine .intro ⟨hname, hdescription, htrigger, horder, hactive, hstops,
      (hlistGroups _).2 fun item hitem => ?_, (hlistActions _).2 fun item hitem => ?_⟩
    · obtain ⟨m, hm⟩ := groupErrors_of_checkDefinition h hfindGroups item hitem
      exact (isConditionGroup_iff m).2 ⟨(hlistGroups _).1 hgroups item hitem, hm⟩
    · obtain ⟨m, hm⟩ := valueErrors_of_checkDefinition h hfindActions item hitem
      exact (isAction_iff m).2 ⟨(hlistActions _).1 hactions item hitem, hm⟩
  · rintro ⟨h⟩
    obtain ⟨groups, hfindGroups, hlistGroups⟩ := Json.exists_entries h.conditionGroups
    obtain ⟨actions, hfindActions, hlistActions⟩ := Json.exists_entries h.actions
    have hgroups := (hlistGroups _).1 h.conditionGroups
    have hactions := (hlistActions _).1 h.actions
    have hshape : definitionSchema.Accepts _ := accepts_definition_iff.2 <| .intro
      ⟨h.name, h.description, h.trigger, h.order, h.isActive, h.stopProcessing,
        (hlistGroups _).2 fun item hitem => ((isConditionGroup_iff 0).1 (hgroups item hitem)).1,
        (hlistActions _).2 fun item hitem => ((isAction_iff 0).1 (hactions item hitem)).1⟩
    exact (checkDefinition_iff_no_errors hfindGroups hfindActions).2 ⟨hshape,
      flatMapPlaces_of_nil (fun m item hitem => ((isConditionGroup_iff m).1
        (hgroups item hitem)).2) 0,
      flatMapPlaces_of_nil (fun m item hitem => ((isAction_iff m).1 (hactions item hitem)).2) 0⟩

end Rulebook
