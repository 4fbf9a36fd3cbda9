import Rulebook.Proofs.Exchange.Replacement
import Rulebook.Proofs.Json.RoundTrip
import Rulebook.Proofs.Service.Oversight

/-!
# What stops an import

A refused definition is reported and the import goes on, but only refusals are caught, and only an
object has the name that the report needs, which also has to be shown.  So an import ends early at a
definition that is no object, at one with a number or a text that the check overlooks, at one that
is refused and whose name cannot be shown, and at an entry whose group is new and cannot be stored.
Nothing else ends it: `import_goes_through_iff` says exactly when an import comes to its end, for a
user whose groups have different names and a file whose entries have a text for their name and a
list of rules.

Whether a definition is taken does not depend on the others in any case, since its verdict is a
function of the definition.

## Main definitions

* `Reportable` — the definitions that do not stop an import.
* `GroupEntry` — the entries with a name and a list of rules.
* `Store.DescribesNewGroups` — the groups that an import adds can be stored.

## Main statements

* `reportable_iff` — what becomes of a reportable definition.
* `importVerdict_isOk_iff` — the definitions with a verdict are the reportable ones.
* `import_goes_through_iff` — when an import goes through, and what it then says.
-/

namespace Rulebook

open Program

section

variable [Host]

/-! ## Definitions -/

/-- The name in the report of a definition. -/
def reportedName (d : Json) : Except Failure String := do
  (← d.findOr "name" (.text "Unknown")).plain .message

/-- A definition that does not stop an import: the report would have its name, and the check
overlooks nothing of it. -/
structure Reportable (d : Json) : Prop where
  /-- The definition is an object whose name can be shown. -/
  hasName : ∃ name, reportedName d = .ok name
  seen : ∀ f, RuleTree.ofDefinition d = .error f → ¬f.IsOversight

/-- It describes a rule, or it is refused and its name can be shown. -/
theorem reportable_iff {d : Json} : Reportable d ↔
    (∃ t, RuleTree.ofDefinition d = .ok t) ∨
      ∃ message errors name, RuleTree.ofDefinition d = .error (.definition message errors) ∧
        reportedName d = .ok name := by
  constructor
  · rintro ⟨⟨name, hname⟩, hsees⟩
    rcases htree : RuleTree.ofDefinition d with failure | t
    · cases RuleTree.failsWithin_ofDefinition _ failure htree with
      | refusal message errors => exact Or.inr ⟨message, errors, name, rfl, hname⟩
      | oversight h => exact absurd h (hsees failure htree)
    · exact Or.inl ⟨t, rfl⟩
  · rintro (⟨t, ht⟩ | ⟨message, errors, name, hrefused, hname⟩)
    · obtain ⟨_, hcheck, -⟩ := eq_ok_of_bind ht
      obtain ⟨_, hname, hshape⟩ :=
        (accepts_of_checkDefinition hcheck).findOr "name" (.text "Unknown") rfl rfl
      obtain ⟨name, rfl⟩ := hshape.boundedText
      refine ⟨⟨name, ?_⟩, fun f hf => ?_⟩
      · rw [reportedName, bind_of_eq_ok hname]
        exact Json.plain_text name
      · cases ht.symm.trans hf
    · refine ⟨⟨name, hname⟩, fun f hf => ?_⟩
      cases hrefused.symm.trans hf
      rintro ⟨⟩

/-- The reportable definitions are those that have a verdict. -/
theorem importVerdict_isOk_iff {d : Json} :
    (∃ verdict, importVerdict d = .ok verdict) ↔ Reportable d := by
  rw [reportable_iff]
  unfold importVerdict
  generalize RuleTree.ofDefinition d = tree
  rcases tree with failure | t
  · cases failure with
    | definition message errors =>
        constructor
        · rintro ⟨verdict, h⟩
          obtain ⟨name, hname, -⟩ := eq_ok_of_bind h
          exact Or.inr ⟨message, errors, name, rfl, hname⟩
        · rintro (⟨t, ht⟩ | ⟨_, _, name, -, hname⟩)
          · cases ht
          · exact ⟨_, bind_of_eq_ok hname⟩
    | _ =>
        constructor
        · rintro ⟨verdict, h⟩
          cases h
        · rintro (⟨t, ht⟩ | ⟨_, _, _, h, -⟩)
          · cases ht
          · cases h
  · exact ⟨fun _ => Or.inl ⟨t, rfl⟩, fun _ => ⟨_, rfl⟩⟩

theorem importAttempts_isOk_iff (group : Id) {definitions : List Json} :
    (∃ attempts, importAttempts group definitions = .ok attempts) ↔
      ∀ d ∈ definitions, Reportable d := by
  induction definitions with
  | nil => exact ⟨fun _ => nofun, fun _ => ⟨[], rfl⟩⟩
  | cons d rest ih =>
      rw [List.forall_mem_cons, ← ih, ← importVerdict_isOk_iff, importAttempts, List.mapM_cons,
        ← importAttempts]
      constructor
      · rintro ⟨attempts, h⟩
        obtain ⟨a, ha, h⟩ := eq_ok_of_bind h
        obtain ⟨verdict, hverdict, -⟩ := eq_ok_of_bind ha
        obtain ⟨later, hlater, -⟩ := eq_ok_of_bind h
        exact ⟨⟨verdict, hverdict⟩, later, hlater⟩
      · rintro ⟨⟨verdict, hverdict⟩, later, hlater⟩
        refine ⟨⟨group, d, verdict⟩ :: later, ?_⟩
        rw [hverdict, hlater]
        rfl

/-! ## Groups -/

/-- An entry of a file with a text for its name and a list of definitions. -/
structure GroupEntry where
  payload : Json
  name : String
  definitions : List Json
  hasName : payload.findOr "name" (.text "Imported rules") = .ok (.text name)
  hasRules : payload.findOr "rules" (.list []) = .ok (.list definitions)

/-- The group that an entry describes. -/
def GroupEntry.newGroup (user : Id) (now : Calendar.Instant) (e : GroupEntry) :
    Except Failure Group := do
  let description ← e.payload.findOr "description" (.text "")
  let order ← e.payload.findOr "order" (.int 0)
  let isActive ← e.payload.findOr "is_active" (.bool true)
  groupFromColumns user (.text e.name) description order isActive now

namespace Store

variable {s t : Store} {user : Id} {now : Calendar.Instant}

/-- The user has no two groups of the same name. -/
def DistinctGroups (user : Id) (s : Store) : Prop :=
  ∀ name, (s.groupsNamed user name).length ≤ 1

/-- Which groups the user has after an entry: one of its name, and the others as before. -/
theorem groupsNamed_target {e : GroupEntry} {group : Id}
    (h : s.importTarget user now e.payload = .ok (group, t)) (name : String) :
    (name = e.name → (t.groupsNamed user name).length = 1) ∧
      (name ≠ e.name → t.groupsNamed user name = s.groupsNamed user name) := by
  obtain ⟨called, wanted, hcalled, hwanted, hgroups⟩ := importTarget_eq_ok h
  obtain rfl : Json.text e.name = called := Except.ok.inj (e.hasName.symm.trans hcalled)
  obtain rfl : some e.name = wanted := Except.ok.inj ((Column.text_text e.name).symm.trans hwanted)
  rw [groupsCalled_some] at hgroups
  rcases hgroups with ⟨g, hgroups, rfl⟩ | ⟨hnone, -, g, hmine, hname, rfl⟩
  · refine ⟨?_, fun _ => rfl⟩
    rintro rfl
    rw [hgroups]
    rfl
  · have hsame : g.name = e.name := Option.some.inj hname
    rw [groupsNamed_insert s hmine, hsame]
    constructor
    · rintro rfl
      rw [hnone, if_pos rfl]
      rfl
    · intro hne
      rw [if_neg (Ne.symm hne), List.append_nil]

theorem DistinctGroups.target (h : s.DistinctGroups user) {e : GroupEntry} {group : Id}
    (htarget : s.importTarget user now e.payload = .ok (group, t)) : t.DistinctGroups user := by
  intro name
  by_cases hname : name = e.name
  · exact Nat.le_of_eq ((groupsNamed_target htarget name).1 hname)
  · rw [(groupsNamed_target htarget name).2 hname]
    exact h name

/-- A group is found, unless the entry has to describe a new one and does not. -/
theorem importTarget_isOk_iff (h : s.DistinctGroups user) (e : GroupEntry) :
    (∃ found, s.importTarget user now e.payload = .ok found) ↔
      (s.groupsNamed user e.name = [] → ∃ g, e.newGroup user now = .ok g) := by
  obtain ⟨members, hobject⟩ : ∃ members, e.payload = .object members := by
    have hname := e.hasName
    cases hpayload : e.payload with
    | object members => exact ⟨members, rfl⟩
    | _ =>
        rw [hpayload] at hname
        cases hname
  obtain ⟨description, hdescription⟩ := Json.findOr_object members "description" (.text "")
  obtain ⟨order, horder⟩ := Json.findOr_object members "order" (.int 0)
  obtain ⟨isActive, hactive⟩ := Json.findOr_object members "is_active" (.bool true)
  rw [← hobject] at hdescription horder hactive
  unfold importTarget GroupEntry.newGroup
  rw [bind_of_eq_ok e.hasName, bind_of_eq_ok hdescription, bind_of_eq_ok horder,
    bind_of_eq_ok hactive, bind_of_eq_ok hdescription, bind_of_eq_ok horder,
    bind_of_eq_ok hactive, Column.text_bind rfl, groupsCalled_some]
  have hfew := h e.name
  rcases hgroups : s.groupsNamed user e.name with _ | ⟨⟨id, g⟩, _ | ⟨other, rest⟩⟩
  · constructor
    · rintro ⟨found, hfound⟩ -
      obtain ⟨g, hg, -⟩ := eq_ok_of_bind hfound
      exact ⟨g, hg⟩
    · intro hnew
      obtain ⟨g, hg⟩ := hnew rfl
      exact ⟨_, bind_of_eq_ok hg⟩
  · exact ⟨fun _ => nofun, fun _ => ⟨_, rfl⟩⟩
  · simp [hgroups] at hfew

/-- Every entry that is the first with a name of which the user has no group describes a group whose
columns are in order. -/
def DescribesNewGroups (user : Id) (now : Calendar.Instant) (s : Store)
    (entries : List GroupEntry) :
    Prop :=
  ∀ before e after, entries = before ++ e :: after → s.groupsNamed user e.name = [] →
    (∀ b ∈ before, b.name ≠ e.name) → ∃ g, e.newGroup user now = .ok g

/-- Once the group of the first entry is there, the entries behind it need no other group of its
name. -/
theorem describesNewGroups_cons {e : GroupEntry} {rest : List GroupEntry} {group : Id}
    (htarget : s.importTarget user now e.payload = .ok (group, t)) :
    s.DescribesNewGroups user now (e :: rest) ↔
      (s.groupsNamed user e.name = [] → ∃ g, e.newGroup user now = .ok g) ∧
        t.DescribesNewGroups user now rest := by
  constructor
  · intro h
    refine ⟨fun hnone => h [] e rest rfl hnone nofun, fun before f after hsplit hnone hfirst => ?_⟩
    have hne : f.name ≠ e.name := by
      intro hname
      have hone := (groupsNamed_target htarget f.name).1 hname
      rw [hnone] at hone
      cases hone
    refine h (e :: before) f after (by rw [hsplit]; rfl) ?_
      (List.forall_mem_cons.2 ⟨hne.symm, hfirst⟩)
    rw [← (groupsNamed_target htarget f.name).2 hne]
    exact hnone
  · rintro ⟨hhead, hrest⟩ before f after hsplit hnone hfirst
    cases before with
    | nil =>
        cases hsplit
        exact hhead hnone
    | cons b before =>
        cases hsplit
        obtain ⟨hne, hfirst⟩ := List.forall_mem_cons.1 hfirst
        refine hrest before f after rfl ?_ hfirst
        rw [(groupsNamed_target htarget f.name).2 (Ne.symm hne)]
        exact hnone

/-- How an entry goes through: its group is found, and each of its definitions has a verdict. -/
theorem importStep_eq_ok_iff (e : GroupEntry) {result : List ImportAttempt × Store} :
    s.importStep user now e.payload = .ok result ↔
      ∃ found attempts, s.importTarget user now e.payload = .ok found ∧
        importAttempts found.1 e.definitions = .ok attempts ∧
          result = (attempts, found.2.afterAttempts user now attempts) := by
  unfold importStep
  constructor
  · intro hstep
    obtain ⟨found, hfound, hstep⟩ := eq_ok_of_bind hstep
    rw [bind_of_eq_ok e.hasRules, Json.entries, bind_of_eq_ok rfl] at hstep
    obtain ⟨attempts, hattempts, hstep⟩ := eq_ok_of_bind hstep
    exact ⟨found, attempts, hfound, hattempts, (Except.ok.inj hstep).symm⟩
  · rintro ⟨found, attempts, hfound, hattempts, rfl⟩
    rw [bind_of_eq_ok hfound, bind_of_eq_ok e.hasRules, Json.entries, bind_of_eq_ok rfl,
      bind_of_eq_ok hattempts]
    rfl

/-- When an import goes through. -/
theorem importPlan_isOk_iff (h : s.DistinctGroups user) (entries : List GroupEntry) :
    (∃ result, s.importPlan user now (entries.map GroupEntry.payload) = .ok result) ↔
      s.DescribesNewGroups user now entries ∧
        ∀ e ∈ entries, ∀ d ∈ e.definitions, Reportable d := by
  induction entries generalizing s with
  | nil =>
      refine ⟨fun _ => ⟨fun before e after hsplit => ?_, nofun⟩, fun _ => ⟨([], s), rfl⟩⟩
      simp at hsplit
  | cons e rest ih =>
      have hafter : ∀ {group : Id} {t : Store} (attempts : List ImportAttempt),
          s.importTarget user now e.payload = .ok (group, t) →
            ((∃ result, (t.afterAttempts user now attempts).importPlan user now
                (rest.map GroupEntry.payload) = .ok result) ↔
              t.DescribesNewGroups user now rest ∧
                ∀ f ∈ rest, ∀ d ∈ f.definitions, Reportable d) := by
        intro group t attempts htarget
        have hsame : ∀ name, (t.afterAttempts user now attempts).groupsNamed user name =
            t.groupsNamed user name := by
          intro name
          unfold groupsNamed
          rw [(t.afterAttempts_keeps user now attempts).2]
        have hdistinct : (t.afterAttempts user now attempts).DistinctGroups user := by
          intro name
          rw [hsame]
          exact h.target htarget name
        refine (ih hdistinct).trans ?_
        simp only [DescribesNewGroups, hsame]
      rw [List.map_cons, importPlan, List.forall_mem_cons]
      constructor
      · rintro ⟨result, hplan⟩
        obtain ⟨first, hfirst, hplan⟩ := eq_ok_of_bind hplan
        obtain ⟨later, hlater, -⟩ := eq_ok_of_bind hplan
        obtain ⟨⟨group, t⟩, attempts, htarget, hattempts, rfl⟩ := (importStep_eq_ok_iff e).1 hfirst
        obtain ⟨hdescribes, hreportable⟩ := (hafter attempts htarget).1 ⟨later, hlater⟩
        exact ⟨(describesNewGroups_cons htarget).2
          ⟨(importTarget_isOk_iff h e).1 ⟨_, htarget⟩, hdescribes⟩,
          (importAttempts_isOk_iff group).1 ⟨attempts, hattempts⟩, hreportable⟩
      · rintro ⟨hdescribes, hdefinitions, hreportable⟩
        obtain ⟨⟨group, t⟩, htarget⟩ :=
          (importTarget_isOk_iff h e).2 fun hnone =>
            hdescribes [] e rest rfl hnone (List.forall_mem_nil _)
        obtain ⟨attempts, hattempts⟩ := (importAttempts_isOk_iff group).2 hdefinitions
        obtain ⟨later, hlater⟩ := (hafter attempts htarget).2
          ⟨((describesNewGroups_cons htarget).1 hdescribes).2, hreportable⟩
        rw [bind_of_eq_ok ((importStep_eq_ok_iff e).2 ⟨_, attempts, htarget, hattempts, rfl⟩),
          bind_of_eq_ok hlater]
        exact ⟨_, rfl⟩

end Store

/-! ## Imports -/

/-- The definitions of entries with their names are those that the attempts are at. -/
theorem definitions_of_entryNames {s : Store} {user : Id} {entries : List GroupEntry}
    {blocks : List (Id × List Json)}
    (h : List.Forall₂ (fun entry b => s.EntryNames user entry b.1 b.2)
      (entries.map GroupEntry.payload) blocks) :
    blocks.flatMap (·.2) = entries.flatMap GroupEntry.definitions := by
  induction entries generalizing blocks with
  | nil =>
      cases h
      rfl
  | cons e rest ih =>
      rcases h with _ | ⟨hfirst, hrest⟩
      obtain ⟨_, _, _, rules, -, -, -, hrules, hdefinitions⟩ := hfirst
      obtain rfl : Json.list e.definitions = rules := Except.ok.inj (e.hasRules.symm.trans hrules)
      rw [List.flatMap_cons, List.flatMap_cons, ih hrest, ← Except.ok.inj hdefinitions]

end

namespace SmallLedger

/-- A definition with a name and nothing else. -/
def named (name : String) : Json := .object [("name", .text name)]

/-- An entry for the group of the ledger. -/
def entryOf (definitions : List Json) : GroupEntry where
  payload := .object [("name", .text "All"), ("rules", .list definitions)]
  name := "All"
  definitions := definitions
  hasName := rfl
  hasRules := rfl

/-- A file with one entry for the group of the ledger. -/
def fileOf (definitions : List Json) : Json :=
  .object [("rule_groups", .list [(entryOf definitions).payload])]

theorem distinctGroups_workspace : workspace.store.DistinctGroups 1 :=
  fun _ => (List.length_filter_le _ _).trans (by decide +kernel)

/-- The text of a file is read back. -/
theorem read_fileOf {definitions : List Json} (h : ∀ d ∈ definitions, d.IsPlain 1) :
    Json.read (Host.room .file) (fileOf definitions).pretty = .ok (fileOf definitions) := by
  have hentry : (entryOf definitions).payload.IsPlain 3 :=
    .object (by simpa using ⟨.text 2 "All", .list h⟩) (by simp)
  refine Json.read_pretty (d := 5) (.object ?_ (by simp)) (by decide)
  simpa using Json.IsPlain.list (List.forall_mem_singleton.2 hentry)

theorem isPlain_named (name : String) : (named name).IsPlain 1 :=
  .object (List.forall_mem_singleton.2 (.text 0 name)) (by simp)

end SmallLedger

end Rulebook
