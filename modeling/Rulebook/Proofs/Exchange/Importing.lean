import Rulebook.Exchange.Import
import Rulebook.Proofs.Service.Blueprint

/-!
# What an import does

An import finds or adds a group for each entry of a file and then tries its rules one after the
other.  Whether a rule is taken, refused with a text, or ends the import, depends on its definition
alone (`importVerdict`).  So the attempts of an import can be read off the file before anything is
stored, except for the numbers of the groups, which depend on the store.

The plan of an import is a function of the store and the file (`Store.importPlan`), and the import
does what the plan says (`follows_importData`).  What is said about imports elsewhere is said about
plans.

## Main definitions

* `importVerdict` — what becomes of a definition.
* `ImportAttempt` — the attempt at a definition; `Store.afterAttempts` is the store afterwards.
* `Store.importPlan` — the attempts of an import and the store that it leaves.

## Main statements

* `follows_importData` — an import does what its plan says.
* `keeps_importRules` — what holds of each step of an import holds of the import.
-/

namespace Rulebook

open Program

/-! ## Verdicts -/

variable [Host]

/-- What becomes of a definition: it is taken, or refused with a text.  Other failures than a
refusal end the import, and so does a refusal whose text cannot be written because the definition
has no members or a name that cannot be shown. -/
def importVerdict (definition : Json) : Except Failure (Except String RuleTree) :=
  match RuleTree.ofDefinition definition with
  | .ok t => .ok (.ok t)
  | .error (.definition message _) => do
    let name ← (do (← definition.findOr "name" (.text "Unknown")).plain .message)
    return .error ("Error importing rule '" ++ name ++ "': " ++ message)
  | .error failure => .error failure

/-- A rule is taken as its definition describes it. -/
theorem ofDefinition_of_importVerdict {d : Json} {tree : RuleTree}
    (h : importVerdict d = .ok (.ok tree)) : RuleTree.ofDefinition d = .ok tree := by
  unfold importVerdict at h
  split at h
  · cases h
    assumption
  · obtain ⟨_, -, h⟩ := eq_ok_of_bind h
    cases h
  · cases h

theorem isDraft_of_importVerdict {d : Json} {tree : RuleTree}
    (h : importVerdict d = .ok (.ok tree)) : tree.IsDraft := by
  obtain ⟨_, -, hread⟩ := eq_ok_of_bind (ofDefinition_of_importVerdict h)
  exact RuleTree.isDraft_of_read hread

/-- The attempt of an import at a definition. -/
structure ImportAttempt where
  group : Id
  definition : Json
  verdict : Except String RuleTree

namespace ImportAttempt

/-- The reason for which the definition was refused. -/
def refusal (a : ImportAttempt) : Option String :=
  match a.verdict with
  | .ok _ => none
  | .error reason => some reason

/-- The rule is taken into a group under a name. -/
def Takes (a : ImportAttempt) (group : Id) (name : String) : Prop :=
  a.group = group ∧ ∃ t, a.verdict = .ok t ∧ t.name = name

end ImportAttempt

namespace ImportOutcome

/-- The outcome with the attempts counted. -/
def countAll (outcome : ImportOutcome) (attempts : List ImportAttempt) : ImportOutcome :=
  attempts.foldl (fun outcome a => outcome.count a.refusal) outcome

omit [Host] in
theorem countAll_append (outcome : ImportOutcome) (attempts later : List ImportAttempt) :
    outcome.countAll (attempts ++ later) = (outcome.countAll attempts).countAll later :=
  List.foldl_append

omit [Host] in
/-- Every attempt is counted once: as a rule that was imported, or with its reason. -/
theorem countAll_finished (imported : Nat) (errors : List String) (attempts : List ImportAttempt) :
    (finished imported errors).countAll attempts =
      .finished (imported + attempts.countP (·.refusal.isNone))
        (errors ++ attempts.filterMap ImportAttempt.refusal) := by
  induction attempts generalizing imported errors with
  | nil => simp [countAll]
  | cons a rest ih =>
      have hstep : (finished imported errors).countAll (a :: rest) =
          ((finished imported errors).count a.refusal).countAll rest := rfl
      rw [hstep]
      rcases hrefusal : a.refusal with _ | reason
      · rw [count, ih, List.countP_cons_of_pos (by rw [hrefusal]; rfl),
          List.filterMap_cons_none hrefusal, Nat.add_assoc, Nat.add_comm 1]
      · rw [count, ih, List.countP_cons_of_neg (by rw [hrefusal]; exact Bool.false_ne_true),
          List.filterMap_cons_some hrefusal, List.append_assoc, List.singleton_append]

omit [Host] in
/-- So the two counts together are the number of attempts. -/
theorem countP_add_length_filterMap (attempts : List ImportAttempt) :
    attempts.countP (·.refusal.isNone) + (attempts.filterMap ImportAttempt.refusal).length =
      attempts.length := by
  induction attempts with
  | nil => rfl
  | cons a rest ih =>
      rcases hrefusal : a.refusal with _ | reason
      · rw [List.countP_cons_of_pos (by rw [hrefusal]; rfl), List.filterMap_cons_none hrefusal,
          List.length_cons]
        omega
      · rw [List.countP_cons_of_neg (by rw [hrefusal]; exact Bool.false_ne_true),
          List.filterMap_cons_some hrefusal, List.length_cons, List.length_cons]
        omega

end ImportOutcome

/-- The attempts at the definitions of a group. -/
def importAttempts (group : Id) (definitions : List Json) : Except Failure (List ImportAttempt) :=
  definitions.mapM fun definition => return ⟨group, definition, ← importVerdict definition⟩

namespace Store

/-- The store after an attempt. -/
def afterAttempt (user : Id) (now : Calendar.Instant) (s : Store) (a : ImportAttempt) : Store :=
  match a.verdict with
  | .ok t => s.replacing user a.group now t
  | .error _ => s

/-- The store after attempts. -/
def afterAttempts (user : Id) (now : Calendar.Instant) (s : Store)
    (attempts : List ImportAttempt) : Store :=
  attempts.foldl (afterAttempt user now) s

/-- The groups of a user whose name is in a column; there is none for an empty column. -/
def groupsCalled (s : Store) (user : Id) (name : Option String) : List (Id × Group) :=
  s.groups.filter fun _ g => g.user = user && some g.name = name

omit [Host] in
theorem groupsCalled_some (s : Store) (user : Id) (name : String) :
    s.groupsCalled user (some name) = s.groupsNamed user name := by
  simp [groupsCalled, groupsNamed]

/-- The group of a user with the name of an entry, and the store with it if it is new. -/
def importTarget (user : Id) (now : Calendar.Instant) (s : Store) (entry : Json) :
    Except Failure (Id × Store) := do
  let name ← entry.findOr "name" (.text "Imported rules")
  let description ← entry.findOr "description" (.text "")
  let order ← entry.findOr "order" (.int 0)
  let isActive ← entry.findOr "is_active" (.bool true)
  let wanted ← Column.text name
  match s.groupsCalled user wanted with
  | [(id, _)] => return (id, s)
  | [] =>
    let g ← groupFromColumns user name description order isActive now
    return (s.groups.nextId, { s with groups := s.groups.insert g })
  | several => throw (.severalRows .group several.length)

/-- The attempts at the rules of an entry and the store that they leave. -/
def importStep (user : Id) (now : Calendar.Instant) (s : Store) (entry : Json) :
    Except Failure (List ImportAttempt × Store) := do
  let target ← s.importTarget user now entry
  let definitions ← (← entry.findOr "rules" (.list [])).entries
  let attempts ← importAttempts target.1 definitions
  return (attempts, target.2.afterAttempts user now attempts)

/-- The attempts of an import and the store that it leaves. -/
def importPlan (user : Id) (now : Calendar.Instant) :
    Store → List Json → Except Failure (List ImportAttempt × Store)
  | s, [] => .ok ([], s)
  | s, entry :: rest => do
    let first ← s.importStep user now entry
    let later ← importPlan user now first.2 rest
    return (first.1 ++ later.1, later.2)

end Store

/-- The attempts at the definitions of a group: one for each, in order, with its verdict. -/
theorem importAttempts_eq_ok {group : Id} {definitions : List Json} {attempts : List ImportAttempt}
    (h : importAttempts group definitions = .ok attempts) :
    attempts.map (fun a => (a.group, a.definition)) = definitions.map (group, ·) ∧
      ∀ a ∈ attempts, importVerdict a.definition = .ok a.verdict := by
  induction definitions generalizing attempts with
  | nil =>
      cases h
      exact ⟨rfl, nofun⟩
  | cons d rest ih =>
      rw [importAttempts, List.mapM_cons, ← importAttempts] at h
      obtain ⟨a, ha, h⟩ := eq_ok_of_bind h
      obtain ⟨verdict, hverdict, ha⟩ := eq_ok_of_bind ha
      obtain ⟨later, hlater, h⟩ := eq_ok_of_bind h
      cases ha
      cases h
      obtain ⟨hmap, hall⟩ := ih hlater
      exact ⟨congrArg ((group, d) :: ·) hmap, List.forall_mem_cons.2 ⟨hverdict, hall⟩⟩

/-- All of them are at rules of that group. -/
theorem group_of_importAttempts {group : Id} {definitions : List Json}
    {attempts : List ImportAttempt} (h : importAttempts group definitions = .ok attempts) :
    ∀ a ∈ attempts, a.group = group := by
  intro a ha
  have hmem : (a.group, a.definition) ∈ definitions.map (group, ·) :=
    (importAttempts_eq_ok h).1 ▸
      List.mem_map_of_mem (f := fun a : ImportAttempt => (a.group, a.definition)) ha
  obtain ⟨_, -, hpair⟩ := List.mem_map.1 hmem
  exact (congrArg Prod.fst hpair).symm

namespace Store

variable {s t : Store} {user : Id} {now : Calendar.Instant} {attempts : List ImportAttempt}

/-- An entry leads to its group and to the attempts at its definitions. -/
theorem importStep_eq_ok {entry : Json} (h : s.importStep user now entry = .ok (attempts, t)) :
    ∃ group u rules definitions, s.importTarget user now entry = .ok (group, u) ∧
      entry.findOr "rules" (.list []) = .ok rules ∧ rules.entries = .ok definitions ∧
      importAttempts group definitions = .ok attempts ∧
      t = u.afterAttempts user now attempts := by
  obtain ⟨⟨group, u⟩, htarget, h⟩ := eq_ok_of_bind h
  obtain ⟨rules, hrules, h⟩ := eq_ok_of_bind h
  obtain ⟨definitions, hdefinitions, h⟩ := eq_ok_of_bind h
  obtain ⟨found, hattempts, h⟩ := eq_ok_of_bind h
  cases h
  exact ⟨group, u, rules, definitions, htarget, hrules, hdefinitions, hattempts, rfl⟩

/-- A file leads to the attempts of its first entry and then to those of the others. -/
theorem importPlan_cons_eq_ok {entry : Json} {rest : List Json}
    (h : s.importPlan user now (entry :: rest) = .ok (attempts, t)) :
    ∃ first u later, s.importStep user now entry = .ok (first, u) ∧
      u.importPlan user now rest = .ok (later, t) ∧ attempts = first ++ later := by
  obtain ⟨⟨first, u⟩, hfirst, h⟩ := eq_ok_of_bind h
  obtain ⟨⟨later, v⟩, hlater, h⟩ := eq_ok_of_bind h
  cases h
  exact ⟨first, u, later, hfirst, hlater, rfl⟩

end Store

/-! ## Tables that stay -/

/-- A group has the user and the name that are given for its columns. -/
theorem groupFromColumns_eq_ok {user : Id} {now : Calendar.Instant}
    {name description order isActive : Json} {g : Group}
    (h : groupFromColumns user name description order isActive now = .ok g) :
    g.user = user ∧ Column.text name = .ok (some g.name) := by
  obtain ⟨found, hfound, h⟩ := eq_ok_of_bind h
  obtain ⟨_, -, h⟩ := eq_ok_of_bind h
  obtain ⟨_, -, h⟩ := eq_ok_of_bind h
  obtain ⟨_, -, h⟩ := eq_ok_of_bind h
  obtain ⟨_, -, h⟩ := eq_ok_of_bind h
  obtain ⟨called, hcalled, h⟩ := eq_ok_of_bind h
  obtain ⟨_, -, h⟩ := eq_ok_of_bind h
  obtain ⟨_, -, h⟩ := eq_ok_of_bind h
  obtain ⟨_, -, h⟩ := eq_ok_of_bind h
  cases h
  cases found with
  | none => cases hcalled
  | some found =>
      cases hcalled
      exact ⟨rfl, hfound⟩

namespace Store

variable {s : Store}

omit [Host] in
/-- Putting a rule in place of others leaves users and groups alone. -/
theorem replacing_keeps (user group : Id) (now : Calendar.Instant) (t : RuleTree) (s : Store) :
    (s.replacing user group now t).users = s.users ∧
      (s.replacing user group now t).groups = s.groups := by
  let gone := (s.rulesNamed user group t.name).map (·.1)
  let u : Store := s.delete { rules := gone }
  have hdelete : u = s.removeDoomed (s.doomed { rules := gone }) := rfl
  have hkept : u.users = s.users ∧ u.groups = s.groups := by
    rw [hdelete, doomed_rules]
    exact ⟨without_nil s.users, without_nil s.groups⟩
  obtain ⟨conditionGroups, conditions, hsame⟩ := u.withTree_eq user group now t
  rw [replacing, hsame]
  exact hkept

omit [Host] in
theorem afterAttempt_keeps (user : Id) (now : Calendar.Instant) (s : Store) (a : ImportAttempt) :
    (s.afterAttempt user now a).users = s.users ∧
      (s.afterAttempt user now a).groups = s.groups := by
  unfold afterAttempt
  split
  · exact replacing_keeps user a.group now _ s
  · exact ⟨rfl, rfl⟩

omit [Host] in
theorem afterAttempts_keeps (user : Id) (now : Calendar.Instant) (s : Store)
    (attempts : List ImportAttempt) :
    (s.afterAttempts user now attempts).users = s.users ∧
      (s.afterAttempts user now attempts).groups = s.groups := by
  induction attempts generalizing s with
  | nil => exact ⟨rfl, rfl⟩
  | cons a rest ih =>
      obtain ⟨husers, hgroups⟩ := s.afterAttempt_keeps user now a
      obtain ⟨husers', hgroups'⟩ := ih (s.afterAttempt user now a)
      exact ⟨husers'.trans husers, hgroups'.trans hgroups⟩

/-- The references hold, and the user is there. -/
structure Hosts (user : Id) (s : Store) : Prop where
  closed : s.IsClosed
  user : s.users.has user = true

variable {user : Id} {now : Calendar.Instant}

omit [Host] in
theorem Hosts.afterAttempt (h : s.Hosts user) {a : ImportAttempt}
    (hgroup : s.groups.has a.group = true) : (s.afterAttempt user now a).Hosts user := by
  refine ⟨?_, (s.afterAttempt_keeps user now a).1.symm ▸ h.user⟩
  unfold Store.afterAttempt
  split
  · exact h.closed.replacing h.user hgroup now _
  · exact h.closed

omit [Host] in
theorem groupsNamed_insert (s : Store) {g : Group} (hmine : g.user = user) (name : String) :
    { s with groups := s.groups.insert g }.groupsNamed user name =
      s.groupsNamed user name ++ if g.name = name then [(s.groups.nextId, g)] else [] := by
  unfold groupsNamed
  simp only [Table.filter, Table.insert, List.filter_append, List.append_cancel_left_eq]
  split
  · rename_i hname
    simp [hmine, hname]
  · rename_i hname
    simp [hname]

/-- The group of an entry is the only one of the user with its name, or it is new. -/
theorem importTarget_eq_ok {entry : Json} {group : Id} {t : Store}
    (h : s.importTarget user now entry = .ok (group, t)) :
    ∃ name wanted, entry.findOr "name" (.text "Imported rules") = .ok name ∧
      Column.text name = .ok wanted ∧
      ((∃ g, s.groupsCalled user wanted = [(group, g)] ∧ t = s) ∨
        (s.groupsCalled user wanted = [] ∧ group = s.groups.nextId ∧
          ∃ g : Group, g.user = user ∧ some g.name = wanted ∧
            t = { s with groups := s.groups.insert g })) := by
  obtain ⟨name, hname, h⟩ := eq_ok_of_bind h
  obtain ⟨description, -, h⟩ := eq_ok_of_bind h
  obtain ⟨order, -, h⟩ := eq_ok_of_bind h
  obtain ⟨isActive, -, h⟩ := eq_ok_of_bind h
  obtain ⟨wanted, hwanted, h⟩ := eq_ok_of_bind h
  refine ⟨name, wanted, hname, hwanted, ?_⟩
  rcases hgroups : s.groupsCalled user wanted with _ | ⟨⟨id, g⟩, _ | ⟨other, rest⟩⟩ <;>
    rw [hgroups] at h
  · obtain ⟨g, hg, h⟩ := eq_ok_of_bind h
    cases h
    obtain ⟨hmine, hcalled⟩ := groupFromColumns_eq_ok hg
    exact Or.inr ⟨rfl, rfl, g, hmine, Except.ok.inj (hcalled.symm.trans hwanted), rfl⟩
  · cases h
    exact Or.inl ⟨g, rfl, rfl⟩
  · cases h

/-- The group of an entry is there. -/
theorem Hosts.importTarget (h : s.Hosts user) {entry : Json} {group : Id} {t : Store}
    (htarget : s.importTarget user now entry = .ok (group, t)) :
    t.Hosts user ∧ t.groups.has group = true := by
  obtain ⟨name, wanted, -, -, hcase⟩ := importTarget_eq_ok htarget
  obtain ⟨g, hgroups, rfl⟩ | ⟨-, rfl, g, hmine, -, rfl⟩ := hcase
  · have hmem : (group, g) ∈ t.groupsCalled user wanted := hgroups ▸ List.mem_singleton_self _
    exact ⟨h, Table.has_of_find? (Table.find?_eq_some_of_mem (List.mem_filter.1 hmem).1)⟩
  · refine ⟨⟨h.closed.insertGroup (hmine ▸ h.user), h.user⟩, ?_⟩
    refine Table.has_of_find? (a := g) ?_
    rw [Table.find?_insert, if_pos rfl]

omit [Host] in
theorem Hosts.afterAttempts (h : s.Hosts user) {attempts : List ImportAttempt}
    (hgroups : ∀ a ∈ attempts, s.groups.has a.group = true) :
    (s.afterAttempts user now attempts).Hosts user := by
  induction attempts generalizing s with
  | nil => exact h
  | cons a rest ih =>
      obtain ⟨hfirst, hrest⟩ := List.forall_mem_cons.1 hgroups
      refine ih (h.afterAttempt hfirst) fun b hb => ?_
      exact (s.afterAttempt_keeps user now a).2.symm ▸ hrest b hb

/-- An entry leaves a store behind in which the references hold. -/
theorem Hosts.importStep (h : s.Hosts user) {entry : Json} {attempts : List ImportAttempt}
    {t : Store} (hstep : s.importStep user now entry = .ok (attempts, t)) : t.Hosts user := by
  obtain ⟨group, u, _, definitions, htarget, -, -, hattempts, rfl⟩ := importStep_eq_ok hstep
  obtain ⟨hu, hgroup⟩ := h.importTarget htarget
  exact hu.afterAttempts fun a ha => (group_of_importAttempts hattempts a ha).symm ▸ hgroup

/-- So does a file. -/
theorem Hosts.importPlan (h : s.Hosts user) {entries : List Json} {attempts : List ImportAttempt}
    {t : Store} (hplan : s.importPlan user now entries = .ok (attempts, t)) : t.Hosts user := by
  induction entries generalizing s attempts with
  | nil =>
      cases hplan
      exact h
  | cons entry rest ih =>
      obtain ⟨first, u, later, hfirst, hlater, -⟩ := importPlan_cons_eq_ok hplan
      exact ih (h.importStep hfirst) hlater

end Store

/-! ## The plan is carried out -/

section Follows

variable {α β : Type} {w : Workspace}

/-- The operation does what the plan says: it gives the result and leaves the store, or it fails,
and changes nothing but the store either way. -/
def Follows (plan : Except Failure (α × Store)) (x : Operation α) (w : Workspace) : Prop :=
  match plan with
  | .ok (a, s) => x.runOn w = (.ok a, { w with store := s })
  | .error failure => ∃ s, x.runOn w = (.error failure, { w with store := s })

omit [Host] in
theorem Follows.bind {plan : Except Failure (α × Store)} {x : Operation α}
    (hx : Follows plan x w) (next : α × Store → Except Failure (β × Store)) {f : α → Operation β}
    (hf : ∀ a s, plan = .ok (a, s) → Follows (next (a, s)) (f a) { w with store := s }) :
    Follows (plan >>= next) (x >>= f) w := by
  rcases plan with failure | ⟨a, s⟩
  · obtain ⟨s, hrun⟩ := hx
    refine ⟨s, ?_⟩
    rw [runOn_bind, hrun]
  · have hnext := hf a s rfl
    unfold Follows at hx hnext ⊢
    rw [runOn_bind, hx]
    exact hnext

omit [Host] in
theorem follows_ofExcept_bind {r : Except Failure α} {next : α → Except Failure (β × Store)}
    {f : α → Operation β} (hf : ∀ a, r = .ok a → Follows (next a) (f a) w) :
    Follows (r >>= next) (.ofExcept r >>= f) w := by
  rcases r with failure | a
  · exact ⟨w.store, rfl⟩
  · exact hf a rfl

end Follows

section Running

variable {w : Workspace} {user group : Id}

/-- An import tries a rule: it is taken or refused as its definition says. -/
theorem follows_importRule (hw : w.store.Hosts user) (hgroup : w.store.groups.has group = true)
    (d : Json) :
    Follows ((fun verdict => ((⟨group, d, verdict⟩ : ImportAttempt).refusal,
        w.store.afterAttempt user w.now ⟨group, d, verdict⟩)) <$> importVerdict d)
      (importRule user group d) w := by
  have hcreate := runOn_createRule_of_closed hw.closed hw.user hgroup d
  rw [importVerdict]
  unfold Follows
  rw [importRule, runOn_tryCatch, runOn_bind]
  generalize RuleTree.ofDefinition d = tree at hcreate ⊢
  rcases tree with failure | t
  · rw [hcreate]
    cases failure with
    | definition message paths =>
        dsimp only
        generalize (do (← d.findOr "name" (.text "Unknown")).plain .message :
          Except Failure String) = name
        cases name with
        | error failure => exact ⟨w.store, rfl⟩
        | ok name => exact rfl
    | _ => exact ⟨w.store, rfl⟩
  · rw [hcreate]
    exact rfl

/-- An import tries the rules of a group one after the other. -/
theorem follows_importRules (hw : w.store.Hosts user) (hgroup : w.store.groups.has group = true)
    (outcome : ImportOutcome) (definitions : List Json) :
    Follows ((fun attempts => (outcome.countAll attempts,
        w.store.afterAttempts user w.now attempts)) <$> importAttempts group definitions)
      (definitions.foldlM (fun outcome rule => return outcome.count (← importRule user group rule))
        outcome) w := by
  induction definitions generalizing w outcome with
  | nil => exact rfl
  | cons d rest ih =>
      have hfirst := (follows_importRule hw hgroup d).bind
        (f := fun refusal => pure (outcome.count refusal))
        (fun result => .ok (outcome.count result.1, result.2)) fun _ _ _ => rfl
      have hall := hfirst.bind
        (f := fun outcome => rest.foldlM
          (fun outcome rule => return outcome.count (← importRule user group rule)) outcome)
        (fun result => (fun attempts => (result.1.countAll attempts,
          result.2.afterAttempts user w.now attempts)) <$> importAttempts group rest) ?_
      · rw [List.foldlM_cons, importAttempts, List.mapM_cons, ← importAttempts]
        generalize importVerdict d = verdict at hall ⊢
        generalize importAttempts group rest = later at hall ⊢
        cases verdict <;> cases later <;> exact hall
      · intro next s hplan
        rcases hverdict : importVerdict d with failure | verdict
        · rw [hverdict] at hplan
          cases hplan
        · rw [hverdict] at hplan
          cases hplan
          refine ih (w := { w with store := w.store.afterAttempt user w.now ⟨group, d, verdict⟩ })
            (hw.afterAttempt hgroup) ?_ _
          exact (w.store.afterAttempt_keeps user w.now _).2.symm ▸ hgroup

/-- An import finds or adds the group of an entry. -/
theorem follows_importGroup (hw : w.store.Hosts user) (entry : Json) :
    Follows (w.store.importTarget user w.now entry) (importGroup user entry) w := by
  rw [Store.importTarget, importGroup]
  refine follows_ofExcept_bind fun name _ => follows_ofExcept_bind fun description _ =>
    follows_ofExcept_bind fun order _ => follows_ofExcept_bind fun isActive _ => ?_
  rw [findOrAddGroup]
  refine follows_ofExcept_bind fun wanted _ => ?_
  unfold Follows
  rw [runOn_bind, runOn_get]
  dsimp only
  have hsame : (w.store.groups.filter fun _ g => g.user = user && some g.name = wanted) =
    w.store.groupsCalled user wanted := rfl
  rw [hsame]
  rcases hgroups : w.store.groupsCalled user wanted with _ | ⟨⟨id, g⟩, _ | ⟨other, rest⟩⟩
  · rcases hg : groupFromColumns user name description order isActive w.now with failure | g
    · refine ⟨w.store, ?_⟩
      rw [runOn_bind, runOn_get]
      dsimp only
      rw [hg]
      rfl
    · have hmine := (groupFromColumns_eq_ok hg).1
      have hholds := Store.isClosed_iff.1 (hw.closed.insertGroup (g := g) (hmine ▸ hw.user))
      rw [runOn_bind, runOn_get]
      dsimp only
      rw [hg]
      change (addGroup g).runOn w = _
      rw [addGroup, insertRow, runOn_writeResult]
      dsimp only
      rw [hholds, Bool.or_true, if_pos rfl]
  · exact rfl
  · exact ⟨w.store, rfl⟩

/-- An import carries an entry out. -/
theorem follows_importEntry (hw : w.store.Hosts user) (outcome : ImportOutcome) (entry : Json) :
    Follows ((fun result => (outcome.countAll result.1, result.2)) <$>
        w.store.importStep user w.now entry)
      (importEntry user outcome entry) w := by
  rw [Store.importStep, importEntry]
  simp only [map_bind]
  refine (follows_importGroup hw entry).bind _ fun group s htarget => ?_
  obtain ⟨hs, hgroup⟩ := hw.importTarget htarget
  rw [← bind_assoc]
  refine follows_ofExcept_bind fun definitions _ => ?_
  have hrules := follows_importRules (w := { w with store := s }) hs hgroup outcome definitions
  generalize importAttempts group definitions = attempts at hrules ⊢
  cases attempts <;> exact hrules

/-- An import carries the entries out one after the other. -/
theorem follows_importEntries (hw : w.store.Hosts user) (outcome : ImportOutcome)
    (entries : List Json) :
    Follows ((fun result => (outcome.countAll result.1, result.2)) <$>
        w.store.importPlan user w.now entries)
      (entries.foldlM (importEntry user) outcome) w := by
  induction entries generalizing w outcome with
  | nil => exact rfl
  | cons entry rest ih =>
      have hall := (follows_importEntry hw outcome entry).bind
        (f := fun outcome => rest.foldlM (importEntry user) outcome)
        (fun result => (fun later => (result.1.countAll later.1, later.2)) <$>
          result.2.importPlan user w.now rest) ?_
      · rw [List.foldlM_cons, Store.importPlan]
        generalize w.store.importStep user w.now entry = first at hall ⊢
        rcases first with failure | ⟨attempts, s⟩
        · exact hall
        · dsimp only [Functor.map, Except.map, Bind.bind, Except.bind] at hall ⊢
          generalize s.importPlan user w.now rest = later at hall ⊢
          rcases later with failure | ⟨later, t⟩
          · exact hall
          · have happend := outcome.countAll_append attempts later
            dsimp only [Functor.map, Except.map, Bind.bind, Except.bind, Pure.pure, Except.pure]
              at hall ⊢
            rw [happend]
            exact hall
      · intro next s hplan
        rcases hstep : w.store.importStep user w.now entry with failure | ⟨attempts, t⟩
        · rw [hstep] at hplan
          cases hplan
        · rw [hstep] at hplan
          cases hplan
          exact ih (w := { w with store := t }) (hw.importStep hstep) _

theorem importRules_of_read {text : String} {data : Json}
    (hread : Json.read (Host.room .file) text = .ok data) (user : Id) :
    importRules user text = importData user data := by
  unfold importRules
  rw [hread]

/-- An import does what its plan says. -/
theorem follows_importData (hw : w.store.Hosts user) {data : Json} {entries : List Json}
    (hentries : data.findOr "rule_groups" .null = .ok (.list entries)) :
    Follows ((fun result => (ImportOutcome.countAll (.finished 0 []) result.1, result.2)) <$>
        w.store.importPlan user w.now entries)
      (importData user data) w := by
  rw [importData, hentries]
  exact follows_importEntries hw _ entries

end Running

/-! ## What is kept all along -/

section Keeping

variable {R : Workspace → Workspace → Prop} [IsPreorder Workspace R] {user : Id}

theorem keeps_importRule
    (hcreate : ∀ group d, Keeps R (createRule user d (some group) true)) (group : Id) (d : Json) :
    Keeps R (importRule user group d) := by
  rw [importRule]
  refine Keeps.tryCatch ?_ fun failure => ?_
  · exact (hcreate group d).bind fun _ => keeps_pure _
  · split
    · exact (keeps_ofExcept _).bind fun name => keeps_pure _
    · exact keeps_throw _

theorem keeps_importGroup (hadd : ∀ g, Keeps R (addGroup g)) (entry : Json) :
    Keeps R (importGroup user entry) := by
  rw [importGroup]
  refine (keeps_ofExcept _).bind fun name => (keeps_ofExcept _).bind fun description => ?_
  refine (keeps_ofExcept _).bind fun order => (keeps_ofExcept _).bind fun isActive => ?_
  exact keeps_findOrAddGroup hadd user _ _

/-- An import keeps what adding a group and creating a rule keep, also if it ends half way. -/
theorem keeps_importRules (hadd : ∀ g, Keeps R (addGroup g))
    (hcreate : ∀ group d, Keeps R (createRule user d (some group) true)) (text : String) :
    Keeps R (importRules user text) := by
  have hentry : ∀ outcome entry, Keeps R (importEntry user outcome entry) := by
    intro outcome entry
    rw [importEntry]
    refine (keeps_importGroup hadd entry).bind fun group => (keeps_ofExcept _).bind fun rules => ?_
    exact keeps_foldlM (fun outcome rule =>
      (keeps_importRule hcreate group rule).bind fun refusal => keeps_pure _) outcome
  have hdata : ∀ data, Keeps R (importData user data) := by
    intro data
    rw [importData]
    refine (keeps_ofExcept _).bind fun groups => ?_
    split
    · exact keeps_foldlM hentry _
    · exact keeps_pure _
  rw [importRules]
  split
  · exact hdata _
  · exact (keeps_ofExcept _).bind fun reason => keeps_pure _

end Keeping

end Rulebook
