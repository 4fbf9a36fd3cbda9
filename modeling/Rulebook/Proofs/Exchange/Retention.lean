import Rulebook.Proofs.Exchange.Replacement
import Rulebook.Proofs.Service.Consistency

/-!
# Which logs stay

A log is never rewritten, and most of what the program does leaves all logs there are
(`Store.Becomes.logs_grow`).  But a log belongs to its rule and to its transaction, and goes with
them.  There are two ways for that to happen.  Somebody deletes a row to which the log belongs, and
then the logs go that fall with it.  Or a rule is created in place of those of its name, by itself or
by an import, and then the logs of the rules go that made room.

The second way is the less obvious one, since the rules seem to be there afterwards.  Replacing is
followed here through whole imports, whether they get to the end or not (`Store.Supersedes`): each
rule is left alone with all that belongs to it, or it is gone for good and the user has a newer one
of its name in its group.  That newer one may be replaced in turn, which is why the relation does not
say which rule took the place of which.

## Main definitions

* `Store.Replaced` — a rule is gone and there is a newer one in its place.
* `Store.Supersedes` — what replacing rules, any number of times, leaves of a store.
* `Store.LosesLogs` — the logs of the later store are those of the earlier one but for some.

## Main statements

* `supersedes_createRule`, `supersedes_importRules` — creating in place, and importing, supersede.
* `Reachable.keeps_logs` — which logs stay, for whatever is asked of the program.
* `SmallLedger.logs_can_go` — an import does not leave all logs there are.
-/

namespace Rulebook

open Program Workspace

section

namespace Store

variable {s t u : Store} {user group : Id} {now : Calendar.Instant}

/-! ## Rules in place of others -/

/-- The rule was one of the user and is gone, and the user has a newer one of its name in its
group. -/
def Replaced (user : Id) (s t : Store) (id : Id) : Prop :=
  ∃ r, s.rules.find? id = some r ∧ r.user = user ∧ t.rules.find? id = none ∧
    ∃ n r', t.rules.find? n = some r' ∧ s.rules.lastId < n ∧
      r'.user = user ∧ r'.group = r.group ∧ r'.name = r.name

/-- In the later store rules of the user were replaced, and groups may have changed: each rule was
replaced or left alone, numbers were not given out again, and no logs were added. -/
structure Supersedes (user : Id) (s t : Store) : Prop where
  lastId : s.rules.lastId ≤ t.rules.lastId
  gone : ∀ id ≤ s.rules.lastId, s.rules.find? id = none → t.rules.find? id = none
  rules : ∀ id r, s.rules.find? id = some r → s.KeepsRule t id ∨ s.Replaced user t id
  logs : ∀ id l, t.logs.find? id = some l → s.logs.find? id = some l

/-- What was replaced stays replaced, perhaps by a newer rule still. -/
theorem Replaced.trans {id : Id} (h : s.Replaced user t id) (hst : s.Supersedes user t)
    (htu : t.Supersedes user u) : s.Replaced user u id := by
  obtain ⟨r, hrow, huser, hgone, n, r', hnew, hlater, huser', hgroup, hname⟩ := h
  have hknown : id ≤ t.rules.lastId := Int.le_trans (Table.le_lastId_of_find? hrow) hst.lastId
  refine ⟨r, hrow, huser, htu.gone id hknown hgone, ?_⟩
  -- The rule that took its place may itself have made room in the meantime.
  rcases htu.rules n r' hnew with hkept | ⟨r₁, hr₁, -, -, m, r₂, hm, hlast, huser₂, hgroup₂, hname₂⟩
  · exact ⟨n, r', hkept.row.trans hnew, hlater, huser', hgroup, hname⟩
  · obtain rfl : r' = r₁ := Option.some.inj (hnew.symm.trans hr₁)
    exact ⟨m, r₂, hm, Int.lt_of_le_of_lt hst.lastId hlast, huser₂, hgroup₂.trans hgroup,
      hname₂.trans hname⟩

theorem Supersedes.trans (h : s.Supersedes user t) (k : t.Supersedes user u) :
    s.Supersedes user u where
  lastId := Int.le_trans h.lastId k.lastId
  gone id hid hnone := k.gone id (Int.le_trans hid h.lastId) (h.gone id hid hnone)
  rules id r hrow := by
    rcases h.rules id r hrow with hkept | hreplaced
    · rcases k.rules id r (hkept.row.trans hrow) with hkept' | hreplaced'
      · exact .inl (hkept.trans hkept')
      · -- The rule made room later on.
        obtain ⟨r₁, hr₁, huser, hgone, n, r', hnew, hlater, hsame⟩ := hreplaced'
        exact .inr ⟨r₁, hkept.row.symm.trans hr₁, huser, hgone, n, r', hnew,
          Int.lt_of_le_of_lt h.lastId hlater, hsame⟩
    · exact .inr (hreplaced.trans h k)
  logs id l hlog := h.logs id l (k.logs id l hlog)

/-- Groups may change as they like. -/
theorem supersedes_groups (user : Id) (s : Store) (groups : Table Group) :
    s.Supersedes user { s with groups } where
  lastId := Int.le_refl _
  gone _ _ hnone := hnone
  rules _ _ _ := .inl ⟨rfl, rfl, fun _ _ => rfl, rfl, rfl⟩
  logs _ _ hlog := hlog

theorem Supersedes.refl (user : Id) (s : Store) : s.Supersedes user s :=
  supersedes_groups user s s.groups

instance : IsPreorder Store (Supersedes user) where
  refl := .refl user
  trans _ _ _ h k := h.trans k

theorem logs_replacing (s : Store) (user group : Id) (now : Calendar.Instant) (tree : RuleTree) :
    (s.replacing user group now tree).logs =
      (s.delete { rules := (s.rulesNamed user group tree.name).map (·.1) }).logs := by
  obtain ⟨conditionGroups, conditions, hsame⟩ :=
    (s.delete { rules := (s.rulesNamed user group tree.name).map (·.1) }).withTree_eq user group now
      tree
  rw [replacing, hsame]

/-- A rule in place of others. -/
theorem supersedes_replacing (s : Store) (user group : Id) (now : Calendar.Instant)
    (tree : RuleTree) : s.Supersedes user (s.replacing user group now tree) where
  lastId := by
    rw [replacing, rules_withTree]
    exact Int.le_of_lt (Int.lt_succ _)
  gone id hid hnone := by
    rw [Option.eq_none_iff_forall_ne_some]
    intro r hrow
    rcases find?_replacing hrow with ⟨rfl, -⟩ | ⟨hold, -⟩
    · exact Int.not_le.2 (Int.lt_succ _) hid
    · cases hnone.symm.trans hold
  rules id r hrow := by
    by_cases hnamed : r.user = user ∧ r.group = group ∧ r.name = tree.name
    · -- The rule makes room, and the new one is newer because its number is.
      obtain ⟨huser, hgroup, hname⟩ := hnamed
      have hknown := Table.le_lastId_of_find? hrow
      refine .inr ⟨r, hrow, huser, ?_, s.rules.nextId, tree.row user group now, ?_,
        Int.lt_succ _, rfl, hgroup.symm, hname.symm⟩
      · rw [Option.eq_none_iff_forall_ne_some]
        intro other hother
        rcases find?_replacing hother with ⟨rfl, -⟩ | ⟨hold, hstays⟩
        · exact Int.not_le.2 (Int.lt_succ _) hknown
        · obtain rfl : r = other := Option.some.inj (hrow.symm.trans hold)
          exact hstays ⟨huser, hgroup, hname⟩
      · have hmem : (s.rules.nextId, tree.row user group now) ∈
            (s.replacing user group now tree).rulesNamed user group tree.name :=
          rulesNamed_replacing_self s user group now tree ▸ List.mem_singleton_self _
        exact (mem_rulesNamed.1 hmem).1
    · exact .inl (keepsRule_replacing hrow tree hnamed)
  logs id l hlog := by
    rw [logs_replacing] at hlog
    exact (find?_without.1 hlog).1

/-! ## Logs -/

/-- The logs of the later store are those of the earlier one but for some that are gone. -/
def LosesLogs (gone : Id → Log → Prop) (s t : Store) : Prop :=
  ∀ id l, t.logs.find? id = some l ↔ s.logs.find? id = some l ∧ ¬ gone id l

/-- A rule that is left alone has its logs. -/
theorem KeepsRule.find?_logs {id n : Id} (h : s.KeepsRule t n) {l : Log}
    (hlog : s.logs.find? id = some l) (hrule : l.rule = n) : t.logs.find? id = some l := by
  have hmine : (id, l) ∈ s.logs.filter fun _ l => l.rule = n :=
    List.mem_filter.2 ⟨Table.mem_rows_of_find? hlog, decide_eq_true hrule⟩
  rw [← h.logs] at hmine
  exact Table.find?_eq_some_of_mem (List.mem_filter.1 hmine).1

/-- Where references hold, exactly the logs of rules that were replaced are gone. -/
theorem Supersedes.losesLogs (h : s.Supersedes user t) (hs : s.IsClosed) (ht : t.IsClosed) :
    s.LosesLogs (fun _ l => s.Replaced user t l.rule) t := by
  intro id l
  constructor
  · intro hlog
    refine ⟨h.logs id l hlog, ?_⟩
    -- A log that is there has its rule.
    rintro ⟨_, -, -, hgone, -⟩
    obtain ⟨r, hr⟩ := Option.isSome_iff_exists.1 (ht.logs id l hlog).1
    cases hgone.symm.trans hr
  · rintro ⟨hlog, hstays⟩
    obtain ⟨r, hr⟩ := Option.isSome_iff_exists.1 (hs.logs id l hlog).1
    rcases h.rules l.rule r hr with hkept | hreplaced
    · exact hkept.find?_logs hlog rfl
    · exact (hstays hreplaced).elim

theorem losesLogs_refl {gone : Id → Log → Prop} (hnone : ∀ id l, ¬ gone id l) :
    s.LosesLogs gone s := fun id l => (and_iff_left (hnone id l)).symm

/-- Nothing falls with a row that is not there. -/
theorem Falls.row_isSome {e f : Entity} {id n : Id} (h : s.Falls (.row e id) f n) :
    (s.row? e id).isSome = true := by
  induction h with
  | chosen hrow hchosen =>
      obtain ⟨rfl, rfl⟩ := Doomed.mem_ids_row.1 hchosen
      exact Option.isSome_iff_exists.2 ⟨_, hrow⟩
  | owned _ _ _ ih => exact ih

/-- With a row exactly the logs are gone that fall with it. -/
theorem losesLogs_delete (s : Store) (e : Entity) (n : Id) :
    s.LosesLogs (fun id _ => s.Falls (.row e n) .log id) (s.delete (.row e n)) := by
  intro id l
  have hlog : ∀ t : Store, t.row? .log id = some (.log l) ↔ t.logs.find? id = some l := by
    intro t
    simp [row?]
  rw [← hlog, ← hlog, row?_delete_iff]
  constructor
  · rintro ⟨hstays, old, hold, hsame⟩
    -- A log has no labels that it could lose.
    obtain ⟨l', -, rfl⟩ := Option.map_eq_some_iff.1 hold
    cases hsame
    exact ⟨hold, hstays⟩
  · rintro ⟨hold, hstays⟩
    exact ⟨hstays, .log l, hold, rfl⟩

end Store

/-! ## Programs that replace rules -/

/-- The later workspace has the earlier store with rules of the user replaced. -/
def Workspace.Supersedes (user : Id) (w v : Workspace) : Prop := w.store.Supersedes user v.store

variable [Host]

namespace Workspace

variable {user : Id} {w v : Workspace}

omit [Host] in
instance : IsPreorder Workspace (Supersedes user) where
  refl w := .refl user w.store
  trans _ _ _ h k := Store.Supersedes.trans h k

omit [Host] in
theorem supersedes_addGroup (g : Group) : Keeps (Supersedes user) (addGroup g) := by
  intro w
  rw [addGroup, insertRow, runOn_writeResult]
  dsimp only
  split
  · exact Store.supersedes_groups user w.store _
  · exact .refl user w.store

omit [Host] in
/-- A change within a larger one that succeeds is kept. -/
theorem runOn_atomically_of_changing {α : Type} {act : Operation α} {a : α}
    (hw : w.isChanging = true) (h : act.runOn w = (.ok a, v)) :
    (atomically act).runOn w = (.ok a, { v with isChanging := true }) := by
  have hsame : { w with isChanging := true } = w := by rw [← hw]
  rw [runOn_atomically, hsame, h, hw]
  rfl

/-- Whoever creates a rule in place of others puts it into the group that was found or added. -/
theorem createRule_replaces {rule : Id} {d : Json} {group : Option Id}
    (h : (createRule user d group true).runOn w = (.ok rule, v)) :
    ∃ chosen tree, ∃ u : Workspace,
      (groupForRule user d group).runOn { w with isChanging := true } = (.ok chosen, u) ∧
      v.store = u.store.replacing user chosen u.now tree := by
  rw [createRule_eq] at h
  obtain ⟨v', hinside, rfl, -⟩ := atomically_eq_ok h
  obtain ⟨_, _, hcheck, hinside⟩ := runOn_bind_eq_ok hinside
  obtain ⟨haccepted, rfl⟩ := runOn_ofExcept_eq_ok hcheck
  obtain ⟨chosen, u, hgroup, hrest⟩ := runOn_bind_eq_ok hinside
  have hchanging : u.isChanging = true := by
    have hkept := keeps_groupForRule staysKnown_addGroup user d group { w with isChanging := true }
    rw [hgroup] at hkept
    exact hkept.changing
  -- What comes after the group is what creating a rule in this group does.
  have hsame : (createRule user d (some chosen) true).runOn u =
      (.ok rule, { v' with isChanging := true }) := by
    rw [createRule_eq, haccepted]
    exact runOn_atomically_of_changing hchanging hrest
  rw [runOn_createRule] at hsame
  split at hsame
  · next tree _ =>
    rw [if_pos (Bool.or_eq_true_iff.2 (.inl hchanging))] at hsame
    have hstore := congrArg (fun result => result.2.store) hsame
    exact ⟨chosen, tree, u, hgroup, hstore.symm⟩
  · cases hsame

/-- Creating a rule in place of those of its name. -/
theorem supersedes_createRule (user : Id) (d : Json) (group : Option Id) :
    Keeps (Supersedes user) (createRule user d group true) := by
  intro w
  rcases hrun : (createRule user d group true).runOn w with ⟨failure | rule, v⟩
  · have hback : v.store = w.store := by
      rw [createRule_eq] at hrun
      have hstore := store_atomically_of_error (congrArg Prod.fst hrun)
      rwa [hrun] at hstore
    change w.store.Supersedes user v.store
    rw [hback]
    exact .refl user w.store
  · obtain ⟨chosen, tree, u, hgroup, hstore⟩ := createRule_replaces hrun
    have hfound : w.store.Supersedes user u.store := by
      have hkept : Supersedes user _ _ :=
        keeps_groupForRule supersedes_addGroup user d group { w with isChanging := true }
      rwa [hgroup] at hkept
    have hreplaced := u.store.supersedes_replacing user chosen u.now tree
    rw [← hstore] at hreplaced
    exact hfound.trans hreplaced

/-- An import, whether it gets to the end or not. -/
theorem supersedes_importRules (user : Id) (text : String) :
    Keeps (Supersedes user) (importRules user text) :=
  keeps_importRules supersedes_addGroup
    (fun group d => supersedes_createRule user d (some group)) text

end Workspace

/-- What is deleted by hand takes the logs along that belong to it. -/
theorem losesLogs_deleteRow {w : Workspace} (hclosed : w.store.IsClosed) (e : Entity) (j : Json) :
    w.store.LosesLogs (fun id _ =>
      ∃ n, Column.reference "id" j = .ok (some n) ∧ w.store.Falls (.row e n) .log id)
      ((deleteRow e j).runOn w).2.store := by
  by_cases hthere : ∃ n, Column.reference "id" j = .ok (some n) ∧
      (w.store.row? e n).isSome = true
  · obtain ⟨n, hid, hrow⟩ := hthere
    rw [runOn_deleteRow hclosed hid hrow]
    intro id l
    refine (w.store.losesLogs_delete e n id l).trans (and_congr_right' (not_congr ?_))
    constructor
    · exact fun hfalls => ⟨n, hid, hfalls⟩
    · rintro ⟨m, hm, hfalls⟩
      obtain rfl : n = m := Option.some.inj (Except.ok.inj (hid.symm.trans hm))
      exact hfalls
  · have hmissing : ∀ n, Column.reference "id" j = .ok (some n) → w.store.row? e n = none := by
      intro n hid
      rw [← Option.not_isSome_iff_eq_none]
      exact fun hrow => hthere ⟨n, hid, hrow⟩
    obtain ⟨failure, hrun⟩ := runOn_deleteRow_of_missing hmissing
    rw [hrun]
    refine Store.losesLogs_refl ?_
    rintro id - ⟨n, hid, hfalls⟩
    exact hthere ⟨n, hid, hfalls.row_isSome⟩

/-- Logs stay as they are, whatever is asked of the program, unless something is deleted.  With a row
that is deleted exactly the logs go that fall with it.  When rules are created in place of others or
imported, exactly the logs go whose rule made room for a newer one of its name. -/
theorem Reachable.keeps_logs {w : Workspace} (hw : Reachable w) :
    (∀ {α : Type} (x : Operation α), Request false x →
      w.store.logs.Grows (x.runOn w).2.store.logs) ∧
    (∀ e j, w.store.LosesLogs (fun id _ =>
        ∃ n, Column.reference "id" j = .ok (some n) ∧ w.store.Falls (.row e n) .log id)
      ((deleteRow e j).runOn w).2.store) ∧
    (∀ user d group v, ((createRule user d group true).runOn w).2 = v →
      w.store.LosesLogs (fun _ l => w.store.Replaced user v.store l.rule) v.store) ∧
    ∀ user text v, ((importRules user text).runOn w).2 = v →
      w.store.LosesLogs (fun _ l => w.store.Replaced user v.store l.rule) v.store := by
  refine ⟨fun x hx => (hx.commits w).becomes.logs_grow, losesLogs_deleteRow hw.isClosed, ?_, ?_⟩
  · rintro user d group v rfl
    have hnext : Reachable ((createRule user d group true).runOn w).2 :=
      hw.step (.createRule user d group fun _ => rfl)
    exact (supersedes_createRule user d group w).losesLogs hw.isClosed hnext.isClosed
  · rintro user text v rfl
    have hnext := hw.step (.importRules rfl user text)
    exact (supersedes_importRules user text w).losesLogs hw.isClosed hnext.isClosed

end

namespace SmallLedger

/-- Adds a user with a transaction and with a rule for which there is a log. -/
def logging : Operation Id := do
  let _ ← addUser (.text "Ada") (.text "ada@example.org") (.bool true)
  let _ ← addAccount (.int 1) (.text "Checking")
  let _ ← addTransaction [(.account, .int 1)] (.list [])
  let _ ← addGroupRow (.int 1) (.text "All") (.int 0) (.bool true)
  let _ ← addStoredRule {
    user := .int 1, group := .int 1, name := .text "Food", trigger := .text "manual"
    order := .int 0, isActive := .bool true, stopProcessing := .bool false
    groups := [], actions := [] }
  addLog (.int 1) (.int 1) (.bool true) (.int 0)

/-- A ledger with a log. -/
def logged : Workspace := (logging.runOn Workspace.initial).2

theorem reachable_logged : Reachable logged := by
  refine (Reachable.start rfl rfl).step (.next (.addUser _ _ _) fun _ => ?_)
  refine .next (.addAccount _ _) fun _ => .next (.addTransaction _ _) fun _ => ?_
  exact .next (.addGroupRow _ _ _ _) fun _ => .next (.addStoredRule _) fun _ => .addLog _ _ _ _

/-- An import takes the log along although nothing was deleted by name, and a log can be deleted by
itself, so that its rule and its transaction stay. -/
theorem logs_can_go :
    Reachable logged ∧ logged.store.logs.has 1 = true ∧
    ((importRules 1 foodFile).runOn logged).2.store.logs.has 1 = false ∧
    ((deleteRow .log (.int 1)).runOn logged).2.store.logs.has 1 = false ∧
    ((deleteRow .log (.int 1)).runOn logged).2.store.rules.has 1 = true ∧
    ((deleteRow .log (.int 1)).runOn logged).2.store.transactions.has 1 = true := by
  refine ⟨reachable_logged, ?_, ?_, ?_, ?_, ?_⟩ <;> decide +kernel

/-- Switching the group off leaves the log there, and the import takes it along because its rule made
room for another. -/
theorem logged_keeps_logs :
    Reachable logged ∧
    Request false (setGroupActive 1 (.bool false)) ∧
    logged.store.logs.Grows ((setGroupActive 1 (.bool false)).runOn logged).2.store.logs ∧
    ∃ l, logged.store.logs.find? 1 = some l ∧
      logged.store.Replaced 1 ((importRules 1 foodFile).runOn logged).2.store l.rule := by
  obtain ⟨hstay, -, -, himport⟩ := Reachable.keeps_logs reachable_logged
  have hthere : (logged.store.logs.find? 1).isSome = true := by decide +kernel
  have hgone : ((importRules 1 foodFile).runOn logged).2.store.logs.find? 1 = none := by
    decide +kernel
  obtain ⟨l, hl⟩ := Option.isSome_iff_exists.1 hthere
  refine ⟨reachable_logged, .setGroupActive 1 _, hstay _ (.setGroupActive 1 _), l, hl, ?_⟩
  by_contra hkept
  cases hgone.symm.trans ((himport 1 foodFile _ rfl 1 l).2 ⟨hl, hkept⟩)

end SmallLedger

end Rulebook
