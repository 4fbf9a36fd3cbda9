import Rulebook.Proofs.Service.Blueprint

/-!
# How storing a definition can fail

A definition that cannot be stored is refused with a message, as a rule.  The check overlooks
little: once the shape of a definition is known, its members are there and are of the kinds that the
columns take, so reading the rule from it cannot fail but for three reasons.  Numbers are not
bounded by the shape, and may be too large for their columns or too long to be written.  The text of
an action's value is read as JSON and as a numeral, where it may nest too deeply, consist of digits
that write no number, be too long, or have half of a pair.  And a value of the wrong shape is shown
when it is refused, which may be impossible too.

None of these is a refusal, so whoever only expects refusals is taken by surprise.  It is shown that
there is nothing else.  The argument goes through the reading of a definition step by step, with a
judgement on the failures that a computation can end with (`FailsWithin`).

## Main definitions

* `Failure.IsOversight` — the failures that the check overlooks.
* `FailsWithin` — a computation fails in these ways only.

## Main statements

* `failsWithin_coerceValue` — how giving an action its value can fail.
* `RuleTree.failsWithin_ofDefinition` — how storing a definition can fail.
-/

namespace Rulebook

section

/-! ## Failures -/

/-- A value that is not a refusal's to report: a number too large for its column or too long to be
written, a value that is nested too deeply, or a text that is no numeral, too long a numeral, or has
half of a pair. -/
inductive Failure.IsOversight : Failure → Prop
  | tooLarge : IsOversight (.tooLarge .column)
  | longInteger : IsOversight .longInteger
  | tooDeep : IsOversight .tooDeep
  | unencodable : IsOversight .unencodable
  | notNumeral (text : String) : IsOversight (.notNumeral text)
  | longNumeral (digits : Nat) : IsOversight (.longNumeral digits)

/-- The failures with which storing a definition can end. -/
inductive Failure.StopsStoring : Failure → Prop
  | refusal (message : String) (errors : List String) : StopsStoring (.definition message errors)
  | oversight {f : Failure} (h : f.IsOversight) : StopsStoring f

/-- The computation fails in these ways only. -/
def FailsWithin {α : Type} (P : Failure → Prop) (x : Except Failure α) : Prop :=
  ∀ f, x = .error f → P f

section Judgement

variable {α β : Type} {P Q : Failure → Prop} {x : Except Failure α}

theorem failsWithin_ok (a : α) : FailsWithin P (.ok a : Except Failure α) := nofun

theorem failsWithin_error {f : Failure} (h : P f) :
    FailsWithin P (.error f : Except Failure α) := by
  intro g hg
  cases hg
  exact h

theorem FailsWithin.mono (h : FailsWithin P x) (hPQ : ∀ f, P f → Q f) : FailsWithin Q x :=
  fun f hf => hPQ f (h f hf)

/-- One step and then another. -/
theorem FailsWithin.bind (hx : FailsWithin P x) {f : α → Except Failure β}
    (hf : ∀ a, x = .ok a → FailsWithin P (f a)) : FailsWithin P (x >>= f) := by
  rcases x with failure | a
  · exact failsWithin_error (hx failure rfl)
  · exact hf a rfl

/-- A step that succeeds and then another. -/
theorem FailsWithin.after {a : α} (hx : x = .ok a) {f : α → Except Failure β}
    (hf : FailsWithin P (f a)) : FailsWithin P (x >>= f) := by
  rw [bind_of_eq_ok hx]
  exact hf

theorem failsWithin_mapPlaces {f : Nat → α → Except Failure β} {items : List α}
    (h : ∀ n, ∀ a ∈ items, FailsWithin P (f n a)) (n : Nat) :
    FailsWithin P (mapPlaces f n items) := by
  induction items generalizing n with
  | nil => exact failsWithin_ok []
  | cons a rest ih =>
      refine (h n a List.mem_cons_self).bind fun b _ => ?_
      refine (ih (fun n b hb => h n b (List.mem_cons_of_mem a hb)) (n + 1)).bind fun bs _ => ?_
      exact failsWithin_ok (b :: bs)

theorem failsWithin_flatMapPlaces {f : Nat → α → Except Failure (List β)} {items : List α}
    (h : ∀ n, ∀ a ∈ items, FailsWithin P (f n a)) (n : Nat) :
    FailsWithin P (flatMapPlaces f n items) := by
  induction items generalizing n with
  | nil => exact failsWithin_ok []
  | cons a rest ih =>
      refine (h n a List.mem_cons_self).bind fun bs _ => ?_
      refine (ih (fun n b hb => h n b (List.mem_cons_of_mem a hb)) (n + 1)).bind fun cs _ => ?_
      exact failsWithin_ok (bs ++ cs)

end Judgement

/-! ## Values that are shown -/

variable [Host]

theorem Json.isOversight_of_hidden? {j : Json} {descent : Descent} {f : Failure}
    (h : j.hidden? descent = some f) : f.IsOversight := by
  obtain ⟨fault, -, rfl⟩ := Option.map_eq_some_iff.1 h
  cases fault with
  | tooDeep => exact .tooDeep
  | longInteger => exact .longInteger

theorem failsWithin_plain (j : Json) (descent : Descent) :
    FailsWithin Failure.IsOversight (j.plain descent) := by
  intro f hf
  exact Json.isOversight_of_hidden? (Json.plain_eq_error_iff.1 hf)

theorem failsWithin_expectedText (j : Json) :
    FailsWithin Failure.IsOversight (expectedText j) := by
  cases j with
  | null => exact failsWithin_ok ""
  | _ => exact failsWithin_plain _ .message

/-- A refusal that shows a value, or what keeps the value from being shown. -/
theorem Failure.StopsStoring.showing {f : Failure} (h : f.StopsStoring) (j : Json)
    (descent : Descent) : (Failure.showing j descent f).StopsStoring := by
  rw [Failure.showing]
  cases hhidden : j.hidden? descent with
  | none => exact h
  | some failure => exact .oversight (Json.isOversight_of_hidden? hhidden)

theorem RawValue.stopsStoring_showing {f : Failure} (h : f.StopsStoring) (raw : RawValue) :
    (raw.showing f).StopsStoring := by
  cases raw with
  | json j => exact h.showing j .message
  | value v =>
      cases v with
      | identifier n => exact h.showing (.int n) .message
      | text s => exact h

/-! ## Values of actions -/

theorem failsWithin_decodeRaw (raw : Json) : FailsWithin Failure.IsOversight (decodeRaw raw) := by
  unfold decodeRaw
  split
  · split
    · exact failsWithin_ok _
    · split
      · exact failsWithin_ok _
      · exact failsWithin_ok _
      · exact failsWithin_ok _
      · exact failsWithin_error .tooDeep
      · exact failsWithin_ok _
  · exact failsWithin_ok _

omit [Host] in
theorem failsWithin_digitsValue? (s : String) :
    FailsWithin Failure.IsOversight (digitsValue? s) := by
  unfold digitsValue?
  dsimp only
  split
  · split
    · exact failsWithin_ok _
    · next fault _ =>
      cases fault with
      | notNumeral => exact failsWithin_error (.notNumeral _)
      | tooLong digits => exact failsWithin_error (.longNumeral digits)
  · exact failsWithin_ok _

theorem failsWithin_asIdentifier (raw : RawValue) :
    FailsWithin Failure.IsOversight (asIdentifier raw) := by
  unfold asIdentifier
  split
  · exact failsWithin_ok _
  · exact failsWithin_ok _
  · refine (failsWithin_decodeRaw _).bind fun j _ => ?_
    split
    · exact failsWithin_ok _
    · exact (failsWithin_digitsValue? _).bind fun _ _ => failsWithin_ok _
    · exact failsWithin_ok _

theorem failsWithin_asText (raw : RawValue) : FailsWithin Failure.IsOversight (asText raw) := by
  unfold asText
  split
  · exact failsWithin_ok _
  · exact failsWithin_ok _
  · next j =>
    refine (failsWithin_decodeRaw _).bind fun decoded _ => ?_
    split
    · exact (failsWithin_plain j .message).bind fun _ _ => failsWithin_ok _
    · split
      · exact failsWithin_ok _
      · exact failsWithin_ok _
    · exact failsWithin_ok _

/-- A value is refused, or overlooked when it is read. -/
theorem failsWithin_coerceValue (kind : ActionKind) (raw : RawValue) :
    FailsWithin Failure.StopsStoring (coerceValue kind raw) := by
  unfold coerceValue
  split
  · refine ((failsWithin_asIdentifier raw).mono fun _ => .oversight).bind fun v _ => ?_
    split
    · exact failsWithin_ok _
    · exact failsWithin_error (raw.stopsStoring_showing (.refusal _ _))
  · refine ((failsWithin_asText raw).mono fun _ => .oversight).bind fun v _ => ?_
    split
    · exact failsWithin_ok _
    · exact failsWithin_error (.refusal _ _)
  · split
    · exact failsWithin_ok _
    · exact (failsWithin_asText raw).mono fun _ => .oversight

theorem failsWithin_coerceNamed {kind : Json} {known : ActionKind}
    (h : Vocabulary.ofJson? kind = some known) (raw : RawValue) :
    FailsWithin Failure.StopsStoring (coerceNamed kind raw) := by
  have hrequire : Vocabulary.require kind = .ok known := by rw [Vocabulary.require, h]
  exact .after hrequire (failsWithin_coerceValue known raw)

theorem Action.failsWithin_setValue {a : Action} {known : ActionKind}
    (h : Vocabulary.ofJson? a.kind = some known) (raw : Json) :
    FailsWithin Failure.StopsStoring (a.setValue raw) := by
  refine (failsWithin_coerceNamed h (.json raw)).bind fun v _ => ?_
  split
  · exact failsWithin_error (.oversight .unencodable)
  · refine FailsWithin.bind ?_ fun _ _ => failsWithin_ok _
    rcases v with _ | n | s
    · exact failsWithin_ok none
    · exact ((failsWithin_plain (.int n) .message).mono fun _ => .oversight).bind
        fun _ _ => failsWithin_ok _
    · exact failsWithin_ok (some s)

/-! ## The check -/

theorem Vocabulary.require_of_mem_codes {α : Type} [Vocabulary α] {s : String}
    (h : s ∈ codes α) : ∃ a : α, require (.text s) = .ok a := by
  obtain ⟨a, ha⟩ := mem_codes_iff.1 h
  exact ⟨a, by rw [require, ofJson?, ha]⟩

theorem failsWithin_operatorErrors {P : Failure → Prop} {condition : Json}
    (h : conditionSchema.Accepts condition) (group place : Nat) :
    FailsWithin P (operatorErrors group place condition) := by
  obtain ⟨_, hfield, hshape⟩ := h.require "field" rfl (by simp)
  obtain ⟨fieldName, hlisted, rfl⟩ := Schema.accepts_oneOf_iff.1 hshape
  obtain ⟨field, hfieldKnown⟩ := Vocabulary.require_of_mem_codes hlisted
  obtain ⟨_, hoperator, hshape⟩ := h.require "operator" rfl (by simp)
  obtain ⟨operatorName, hlisted, rfl⟩ := Schema.accepts_oneOf_iff.1 hshape
  obtain ⟨operator, hoperatorKnown⟩ := Vocabulary.require_of_mem_codes hlisted
  refine .after hfield (.after hfieldKnown (.after hoperator (.after hoperatorKnown ?_)))
  split
  · exact failsWithin_ok _
  · exact failsWithin_ok _

theorem failsWithin_groupErrors {P : Failure → Prop} {group : Json}
    (h : conditionGroupSchema.Accepts group) (place : Nat) :
    FailsWithin P (groupErrors place group) := by
  obtain ⟨items, hlist, hitems⟩ := h.findEntries "conditions" rfl
  refine .after hlist (.after rfl ?_)
  exact failsWithin_flatMapPlaces (fun n item hitem =>
    failsWithin_operatorErrors (hitems item hitem) place n) 0

/-- The value of an action may be overlooked, as only refusals are collected. -/
theorem failsWithin_valueErrors {action : Json} (h : actionSchema.Accepts action) (place : Nat) :
    FailsWithin Failure.StopsStoring (valueErrors place action) := by
  obtain ⟨_, hkind, hshape⟩ := h.require "action_type" rfl (by simp)
  obtain ⟨kind, hlisted, rfl⟩ := Schema.accepts_oneOf_iff.1 hshape
  obtain ⟨known, hknown⟩ := Vocabulary.mem_codes_iff.1 hlisted
  obtain ⟨raw, hraw, -⟩ := h.findOr "value" .null rfl rfl
  refine .after hkind (.after hraw ?_)
  have hfails : FailsWithin Failure.StopsStoring (coerceNamed (.text kind) (.json raw)) := by
    apply failsWithin_coerceNamed
    exact hknown
  split
  · exact failsWithin_ok _
  · exact failsWithin_ok _
  · next failure _ hfailure => exact failsWithin_error (hfails failure hfailure)

/-- How the check can end. -/
theorem failsWithin_checkDefinition (d : Json) :
    FailsWithin Failure.StopsStoring (checkDefinition d) := by
  unfold checkDefinition
  refine FailsWithin.bind ?_ fun verdict hverdict => ?_
  · intro f hf
    obtain ⟨complaint, -, hhidden⟩ := Schema.exists_hidden_of_verdict hf
    exact .oversight (Json.isOversight_of_hidden? hhidden)
  split
  · exact failsWithin_error (.refusal _ _)
  · have hshape := Schema.verdict_eq_ok_none_iff.1 hverdict
    obtain ⟨groups, hgroups, hgroupShapes⟩ := hshape.findEntries "condition_groups" rfl
    obtain ⟨actions, hactions, hactionShapes⟩ := hshape.findEntries "actions" rfl
    refine .after hgroups (.after rfl (.after hactions (.after rfl ?_)))
    refine (failsWithin_flatMapPlaces (fun n group hgroup =>
      failsWithin_groupErrors (hgroupShapes group hgroup) n) 0).bind fun _ _ => ?_
    refine (failsWithin_flatMapPlaces (fun n action haction =>
      failsWithin_valueErrors (hactionShapes action haction) n) 0).bind fun _ _ => ?_
    dsimp only
    split
    · exact failsWithin_ok ()
    · exact failsWithin_error (.refusal _ _)

/-! ## Columns -/

omit [Host] in
/-- A number is checked to fit before a row is made of it. -/
theorem FailsWithin.checkFits {α : Type} {n : Int} {f : Option Int → Except Failure α}
    (hf : FailsWithin Failure.StopsStoring (f (some n))) :
    FailsWithin Failure.StopsStoring ((some n).mapM Column.checkFits >>= f) := by
  by_cases hfits : Column.fits n = true
  · exact .after (mapM_checkFits_of_fits hfits) hf
  · rw [Option.mapM_some, Column.checkFits, if_neg hfits]
    exact failsWithin_error (.oversight .tooLarge)

/-- An integer is a whole number for a column. -/
theorem Schema.Accepts.whole {j : Json} (h : (Schema.oneOfTypes [.integer]).Accepts j) :
    ∃ n, Column.whole "order" j = .ok (some n) := by
  obtain ⟨t, ht, hholds⟩ := Schema.accepts_oneOfTypes_iff.1 h
  rw [List.mem_singleton.1 ht] at hholds
  cases j with
  | int n => exact ⟨n, rfl⟩
  | real x =>
      cases x with
      | finite negative units => exact ⟨_, rfl⟩
      | _ => cases hholds
  | _ => cases hholds

theorem ConditionRow.failsWithin_ofCondition (c : ConditionRow) :
    FailsWithin Failure.StopsStoring (ofCondition c.draft) := by
  refine .after (Column.text_text c.field) (.after (Column.text_text c.operator) ?_)
  refine .after (Column.text_text c.value) (.after rfl (.after rfl (.after rfl (.checkFits ?_))))
  exact failsWithin_ok _

theorem ActionRow.failsWithin_ofAction {a : Action} {known : ActionKind} {kind : String}
    {place : Int} {stops : Bool} (hknown : Vocabulary.ofJson? a.kind = some known)
    (hkind : a.kind = .text kind) (horder : a.order = .int place)
    (hstops : a.stopProcessing = .bool stops) :
    FailsWithin Failure.StopsStoring (ofAction a) := by
  refine (Action.failsWithin_setValue hknown a.value).bind fun b hb => ?_
  obtain ⟨_, value, -, -, rfl⟩ := Action.setValue_eq_ok hb
  obtain ⟨id, rule, _, _, _, _⟩ := a
  cases hkind
  cases horder
  cases hstops
  refine .after (Column.text_text kind) (.after (Column.text_ofText? _) ?_)
  refine .after rfl (.after rfl (.checkFits ?_))
  exact failsWithin_ok _

/-- An action that was checked. -/
theorem ActionRow.failsWithin_ofPayload {payload : Json} (h : actionSchema.Accepts payload)
    (place : Nat) : FailsWithin Failure.StopsStoring (ofPayload place payload) := by
  obtain ⟨_, hkind, hshape⟩ := h.require "action_type" rfl (by simp)
  obtain ⟨kind, hlisted, rfl⟩ := Schema.accepts_oneOf_iff.1 hshape
  obtain ⟨known, hknown⟩ := Vocabulary.mem_codes_iff.1 hlisted
  obtain ⟨_, hstops, hshape⟩ := h.findOr "stop_processing" (.bool false) rfl rfl
  obtain ⟨stops, rfl⟩ := hshape.boolean
  obtain ⟨raw, hraw, -⟩ := h.findOr "value" .null rfl rfl
  have hread : Action.ofPayload place payload =
      (Action.mk none none (.text kind) .null (.int place) (.bool stops)).setValue raw := by
    rw [Action.ofPayload, bind_of_eq_ok hkind, bind_of_eq_ok hstops, bind_of_eq_ok hraw]
  rw [ofPayload, hread]
  refine FailsWithin.bind ?_ fun a ha => ?_
  · apply Action.failsWithin_setValue
    exact hknown
  · obtain ⟨_, value, -, -, rfl⟩ := Action.setValue_eq_ok ha
    exact failsWithin_ofAction hknown rfl rfl rfl

theorem ConditionRow.failsWithin_ofPayload {payload : Json} (h : conditionSchema.Accepts payload)
    (place : Nat) : FailsWithin Failure.StopsStoring (ofPayload place payload) := by
  obtain ⟨_, hfield, -⟩ := h.require "field" rfl (by simp)
  obtain ⟨_, hoperator, -⟩ := h.require "operator" rfl (by simp)
  obtain ⟨value, hvalue, -⟩ := h.findOr "value" .null rfl rfl
  obtain ⟨_, hsensitive, -⟩ := h.findOr "is_case_sensitive" (.bool false) rfl rfl
  obtain ⟨_, hnegated, -⟩ := h.findOr "is_negated" (.bool false) rfl rfl
  refine FailsWithin.bind ?_ fun c hc => ?_
  · refine .after hfield (.after hoperator (.after hvalue ?_))
    refine ((failsWithin_expectedText value).mono fun _ => .oversight).bind fun _ _ => ?_
    exact .after hsensitive (.after hnegated (failsWithin_ok _))
  · -- A condition that was read is the draft of a row.
    obtain ⟨row, hrow, -⟩ := h.conditionDraft (hasReadableValue_of_condition hc) place
    cases hc.symm.trans hrow
    exact row.failsWithin_ofCondition

theorem failsWithin_readGroupColumns (connective : String) {order : Json}
    (h : (Schema.oneOfTypes [.integer]).Accepts order) :
    FailsWithin Failure.StopsStoring (readGroupColumns (.text connective) order) := by
  obtain ⟨n, hn⟩ := h.whole
  refine .after (Column.text_text connective) (.after hn (.checkFits ?_))
  exact failsWithin_ok _

theorem GroupDraft.failsWithin_ofPayload {payload : Json}
    (h : conditionGroupSchema.Accepts payload) (place : Nat) :
    FailsWithin Failure.StopsStoring (ofPayload place payload) := by
  obtain ⟨_, hconnective, hshape⟩ :=
    h.findOr "logic_operator" (.text (Vocabulary.code Connective.all)) rfl rfl
  obtain ⟨connective, -, rfl⟩ := Schema.accepts_oneOf_iff.1 hshape
  obtain ⟨order, horder, hinteger⟩ := h.findOr "order" (.int place) rfl rfl
  obtain ⟨items, hlist, hitems⟩ := h.findEntries "conditions" rfl
  refine .after hconnective (.after horder ?_)
  refine (failsWithin_readGroupColumns connective hinteger).bind fun columns _ => ?_
  refine FailsWithin.bind (.after hlist (.after rfl ?_)) fun conditions _ => failsWithin_ok _
  exact failsWithin_mapPlaces (fun n item hitem =>
    ConditionRow.failsWithin_ofPayload (hitems item hitem) n) 0

/-! ## Definitions -/

section Definitions

variable {d : Json} (h : definitionSchema.Accepts d)

include h

theorem failsWithin_ruleOfDefinition (user group : Id) (now : Calendar.Instant) :
    FailsWithin Failure.StopsStoring (ruleOfDefinition user group d now) := by
  obtain ⟨_, hname, hshape⟩ := h.require "name" rfl (by simp)
  obtain ⟨name, rfl⟩ := hshape.boundedText
  obtain ⟨_, hdescription, hshape⟩ := h.findOr "description" (.text "") rfl rfl
  obtain ⟨description, rfl⟩ := hshape.ofText
  obtain ⟨_, htrigger, hshape⟩ :=
    h.findOr "trigger_type" (.text (Vocabulary.code Trigger.transactionCreated)) rfl rfl
  obtain ⟨trigger, -, rfl⟩ := Schema.accepts_oneOf_iff.1 hshape
  obtain ⟨order, horder, hinteger⟩ := h.findOr "order" (.int 0) rfl rfl
  obtain ⟨n, hn⟩ := hinteger.whole
  obtain ⟨_, hactive, hshape⟩ := h.findOr "is_active" (.bool true) rfl rfl
  obtain ⟨isActive, rfl⟩ := hshape.boolean
  obtain ⟨_, hstops, hshape⟩ := h.findOr "stop_processing" (.bool false) rfl rfl
  obtain ⟨stops, rfl⟩ := hshape.boolean
  refine .after hname (.after hdescription (.after htrigger (.after horder ?_)))
  refine .after hactive (.after hstops (.after (Column.text_text name) ?_))
  refine .after (Column.text_text description) (.after (Column.text_text trigger) ?_)
  refine .after hn (.after rfl (.after rfl (.checkFits ?_)))
  exact failsWithin_ok _

theorem failsWithin_readGroups : FailsWithin Failure.StopsStoring (readGroups d) := by
  obtain ⟨items, hlist, hitems⟩ := h.findEntries "condition_groups" rfl
  refine .after hlist (.after rfl ?_)
  exact failsWithin_mapPlaces (fun n item hitem =>
    GroupDraft.failsWithin_ofPayload (hitems item hitem) n) 0

theorem failsWithin_readActions : FailsWithin Failure.StopsStoring (readActions d) := by
  obtain ⟨items, hlist, hitems⟩ := h.findEntries "actions" rfl
  refine .after hlist (.after rfl ?_)
  exact failsWithin_mapPlaces (fun n item hitem =>
    ActionRow.failsWithin_ofPayload (hitems item hitem) n) 0

theorem RuleTree.failsWithin_read : FailsWithin Failure.StopsStoring (read d) := by
  refine (failsWithin_ruleOfDefinition h _ _ _).bind fun r _ => ?_
  refine (failsWithin_readGroups h).bind fun groups _ => ?_
  exact (failsWithin_readActions h).bind fun actions _ => failsWithin_ok _

end Definitions

/-- Storing a definition is refused, or a number or a text of it was overlooked. -/
theorem RuleTree.failsWithin_ofDefinition (d : Json) :
    FailsWithin Failure.StopsStoring (ofDefinition d) :=
  (failsWithin_checkDefinition d).bind fun _ hcheck =>
    failsWithin_read (accepts_of_checkDefinition hcheck)

end

/-- A raised two counts as a digit, but no number is written with it. -/
example : RuleTree.ofDefinition (.object [("name", .text "Food"), ("actions", .list [.object
    [("action_type", .text "set_category"), ("value", .text "²")]])]) =
      .error (.notNumeral "²") := by
  rfl

end Rulebook
