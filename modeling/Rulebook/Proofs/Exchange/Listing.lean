import Rulebook.Exchange.Payload
import Rulebook.Proofs.Service.Scope

/-!
# Rules run in the order of the export

The engine and the export put the rules of a user in order in two ways.  The engine takes all rules
that take part and sorts them at once, by the place of their group, the number of their group, their
own place, and their own number.  The export sorts the groups, by place and number, and then the
rules of each group, by place and number, whether they take part or not, and whosever they are.

Both go by the same four numbers, and the last of them tells any two rules apart.  So there is only
one list of given rules that is in this order (`eq_of_pairwise_lt`), and it remains to see that both
list the same rules.  This is so if each rule stands in a group of its own user; without this a rule
of one user may be exported by another.

## Main definitions

* `Store.exportedRules` — the rules in the order of the export; `Json.listedRules` reads them off.
* `Store.RulesAtHome` — each rule stands in a group of its own user.

## Main statements

* `Store.candidates_eq_filter` — the rules that take part, in the order of the export.
* `rules_run_in_order_of_export` — the engine gives the exported rules that are asked for and take
  part, each once and in the order of the export.
-/

namespace Rulebook

open Program

section

/-! ## The order of the export -/

/-- The entries of a list under a name; none if there is no such list. -/
def Json.listUnder (j : Json) (name : String) : List Json :=
  match j.find name with
  | .ok (some (.list items)) => items
  | _ => []

/-- The payloads of rules in an export, one group after the other. -/
def Json.listedRules (j : Json) : List Json :=
  (j.listUnder "rule_groups").flatMap (·.listUnder "rules")

namespace Store

variable {s : Store} {user id : Id}

/-- The rules in the groups of a user, in the order of the export. -/
def exportedRules (s : Store) (user : Id) : List (Id × Rule) :=
  (s.ruleGroupsOf user).flatMap fun row => s.rulesIn row.1

/-- An export lists the payloads of these rules. -/
theorem listedRules_exportOf (s : Store) (user : Id) (u : User) :
    (s.exportOf user u).listedRules =
      (s.exportedRules user).map fun row => s.payloadOf row.1 row.2 := by
  have hgroups : (s.exportOf user u).listUnder "rule_groups" =
      (s.ruleGroupsOf user).map fun row => s.exportGroup row.1 row.2 := rfl
  rw [Json.listedRules, hgroups, exportedRules, List.flatMap_map, List.map_flatMap]
  rfl

/-- Each rule stands in a group of its own user. -/
def RulesAtHome (s : Store) : Prop :=
  ∀ id r, s.rules.find? id = some r → ∃ g, s.groups.find? r.group = some g ∧ g.user = r.user

theorem mem_exportedRules {r : Rule} : (id, r) ∈ s.exportedRules user ↔
    s.rules.find? id = some r ∧ ∃ g, s.groups.find? r.group = some g ∧ g.user = user := by
  simp only [exportedRules, List.mem_flatMap, rulesIn, mem_inOrder_filter, decide_eq_true_eq]
  constructor
  · rintro ⟨⟨group, g⟩, hgroup, hrow, rfl⟩
    obtain ⟨hfind, howner⟩ := mem_inOrder_filter.1 hgroup
    exact ⟨hrow, g, hfind, of_decide_eq_true howner⟩
  · rintro ⟨hrow, g, hfind, howner⟩
    exact ⟨(r.group, g), mem_inOrder_filter.2 ⟨hfind, decide_eq_true howner⟩, hrow, rfl⟩

/-- In such a store a user exports the rules that are the user's. -/
theorem RulesAtHome.mem_exportedRules (h : s.RulesAtHome) {r : Rule} :
    (id, r) ∈ s.exportedRules user ↔ s.rules.find? id = some r ∧ r.user = user := by
  rw [Store.mem_exportedRules]
  refine and_congr_right fun hrow => ?_
  obtain ⟨g, hfind, howner⟩ := h id r hrow
  constructor
  · rintro ⟨g', hfind', howner'⟩
    obtain rfl := Option.some.inj (hfind.symm.trans hfind')
    exact howner.symm.trans howner'
  · intro hmine
    exact ⟨g, hfind, howner.trans hmine⟩

/-! ## Both orders are the same -/

/-- The four numbers by which rules are put in order. -/
def runKey (s : Store) (row : Id × Rule) : List Int :=
  [((s.groups.find? row.2.group).map (·.order)).getD 0, row.2.group, row.2.order, row.1]

theorem runKey_of_mem_rulesIn {group : Id} {g : Group} (hgroup : s.groups.find? group = some g)
    {row : Id × Rule} (hrow : row ∈ s.rulesIn group) :
    s.runKey row = [g.order, group, row.2.order, row.1] := by
  obtain rfl := of_decide_eq_true (mem_inOrder_filter.1 hrow).2
  rw [runKey, hgroup]
  rfl

/-- Rows of a table have different numbers, so that keys differ that end with the number. -/
theorem pairwise_ne_of_number {α : Type} {t : Table α} {test : Id → α → Bool}
    {key : Id × α → List Int} (hkey : ∀ a b, key a = key b → a.1 = b.1) :
    (t.filter test).Pairwise fun a b => key a ≠ key b :=
  (t.ascending.imp fun hlt hsame => Int.ne_of_lt hlt (hkey _ _ hsame)).filter _

theorem number_of_placeKey {place place' : Int} {n n' : Id} (h : [place, n] = [place', n']) :
    n = n' := (List.cons.inj (List.cons.inj h).2).1

theorem pairwise_lt_inPlaces {α : Type} (place : α → Int) (t : Table α) (test : Id → α → Bool) :
    (inOrder (fun row => [place row.2, row.1]) (t.filter test)).Pairwise fun a b =>
      [place a.2, a.1].lex [place b.2, b.1] = true :=
  pairwise_lt_inOrder (pairwise_ne_of_number fun _ _ => number_of_placeKey)

/-- The export lists rules by the four numbers, those of groups first. -/
theorem pairwise_exportedRules (s : Store) (user : Id) :
    (s.exportedRules user).Pairwise fun a b => (s.runKey a).lex (s.runKey b) = true := by
  have hgroups : (s.ruleGroupsOf user).Pairwise fun a b =>
      [a.2.order, a.1].lex [b.2.order, b.1] = true := pairwise_lt_inPlaces Group.order _ _
  have hrules : ∀ group, (s.rulesIn group).Pairwise fun a b =>
      [a.2.order, a.1].lex [b.2.order, b.1] = true := fun _ => pairwise_lt_inPlaces Rule.order _ _
  rw [exportedRules, List.pairwise_flatMap]
  refine ⟨fun row hgroup => ?_, hgroups.imp_of_mem ?_⟩
  · -- Within a group the first two numbers agree.
    have hfind := (mem_inOrder_filter.1 hgroup).1
    refine (hrules row.1).imp_of_mem fun {a b} ha hb hlt => ?_
    rw [runKey_of_mem_rulesIn hfind ha, runKey_of_mem_rulesIn hfind hb]
    simpa [List.cons_lex_cons] using hlt
  · -- Between groups the first two numbers decide, of which the second is different.
    intro x y hx hy hlt a ha b hb
    rw [runKey_of_mem_rulesIn (mem_inOrder_filter.1 hx).1 ha,
      runKey_of_mem_rulesIn (mem_inOrder_filter.1 hy).1 hb]
    have hbefore : x.2.order < y.2.order ∨ x.2.order = y.2.order ∧ x.1 < y.1 := by
      simpa [List.cons_lex_cons] using hlt
    rcases hbefore with hplace | ⟨hplace, hnumber⟩
    · simp [List.cons_lex_cons, hplace]
    · simp [List.cons_lex_cons, hplace, hnumber]

/-- The rules that take part are in the order of the four numbers. -/
theorem pairwise_candidates (s : Store) (user : Id) :
    (s.candidates user).Pairwise fun a b => (s.runKey a).lex (s.runKey b) = true :=
  pairwise_lt_inOrder (pairwise_ne_of_number fun _ _ hkey =>
    number_of_placeKey (List.cons.inj (List.cons.inj hkey).2).2)

/-- The rules that take part, in the order of the export. -/
theorem candidates_eq_filter (h : s.RulesAtHome) (user : Id) :
    s.candidates user = (s.exportedRules user).filter fun row => s.takesPart user row.2 := by
  refine eq_of_pairwise_lt s.runKey (s.pairwise_candidates user)
    ((s.pairwise_exportedRules user).filter _) ?_
  rintro ⟨id, r⟩
  rw [candidates, mem_inOrder_filter, List.mem_filter, h.mem_exportedRules, and_assoc]
  refine and_congr_right fun _ => ⟨fun htakes => ⟨?_, htakes⟩, And.right⟩
  rw [takesPart, Bool.and_eq_true, Bool.and_eq_true] at htakes
  exact of_decide_eq_true htakes.1.1

/-- No rule is listed twice. -/
theorem nodup_exportedRules (s : Store) (user : Id) :
    ((s.exportedRules user).map (·.1)).Nodup := by
  have hdistinct : (s.exportedRules user).Nodup := by
    refine (s.pairwise_exportedRules user).imp ?_
    rintro row _ hlt rfl
    exact Bool.false_ne_true ((lex_asymm hlt).symm.trans hlt)
  refine List.Nodup.map_on (fun a ha b hb hnumber => ?_) hdistinct
  have hrow := (mem_exportedRules.1 ha).1
  rw [hnumber] at hrow
  exact Prod.ext hnumber (Option.some.inj (hrow.symm.trans (mem_exportedRules.1 hb).1))

end Store

/-! ## What the engine gives -/

section Running

variable {s : Store}

theorem rulesWithIds_eq (h : s.RulesAtHome) (user : Id) (ids : List Id) :
    s.rulesWithIds user ids = ((s.exportedRules user).filter fun row =>
      s.takesPart user row.2 && ids.contains row.1).map fun row => .ofRow s row.1 row.2 := by
  rw [Store.rulesWithIds, Store.candidates_eq_filter h, List.filter_filter]
  simp only [Bool.and_comm]

theorem rulesForTrigger_eq (h : s.RulesAtHome) (user : Id) (trigger : Trigger) :
    s.rulesForTrigger user trigger = ((s.exportedRules user).filter fun row =>
      s.takesPart user row.2 && decide (row.2.trigger = Vocabulary.code trigger)).map
        fun row => .ofRow s row.1 row.2 := by
  rw [Store.rulesForTrigger, Store.candidates_eq_filter h, List.filter_filter]
  simp only [Bool.and_comm]

/-- The rules of a trigger are those with any number that have the trigger. -/
theorem rulesForTrigger_eq_filter {ids : List Id}
    (hall : ∀ id r, s.rules.find? id = some r → id ∈ ids) (user : Id) (trigger : Trigger) :
    s.rulesForTrigger user trigger = (s.rulesWithIds user ids).filter fun d =>
      d.trigger.sameScalar (.text (Vocabulary.code trigger)) := by
  have hnumbered : ((s.candidates user).filter fun row => ids.contains row.1) =
      s.candidates user := by
    refine List.filter_eq_self.2 fun row hrow => List.contains_iff_mem.2 ?_
    exact hall row.1 row.2 (mem_inOrder_filter.1 hrow).1
  rw [Store.rulesForTrigger, Store.rulesWithIds, hnumbered, List.filter_map]
  rfl

end Running

variable [Host]

/-- A list of numbers that rows can have lists them, in any order and however often. -/
theorem Json.lists_ints {ids : List Id} (h : ∀ id ∈ ids, Column.fits id = true) :
    (Json.list (ids.map .int)).Lists ids := by
  have hread : ∀ ids : List Id, (ids.map Json.int).mapM (Column.reference "id") =
      .ok (ids.map some) := by
    intro ids
    induction ids with
    | nil => rfl
    | cons id rest ih =>
        rw [List.map_cons, List.mapM_cons, ih]
        rfl
  refine ⟨?_, h⟩
  have hentries : (Json.list (ids.map .int)).entries = .ok (ids.map .int) := rfl
  rw [Column.references, bind_of_eq_ok hentries, bind_of_eq_ok (hread ids), List.filterMap_map]
  exact congrArg Except.ok List.filterMap_some

/-- Rules run in the order in which they are exported, if each rule stands in a group of its own
user.  The export of a user lists the rules of the user, each once.  For given numbers the engine of
the user gives those of them that take part and have one of the numbers, in the same order, however
the numbers are ordered and repeated.  For a trigger it gives those that have the trigger; they are
what it gives for all numbers, without the rules of other triggers. -/
theorem rules_run_in_order_of_export {w : Workspace} (e : Engine) (hhome : w.store.RulesAtHome) :
    (∀ u, w.store.users.find? e.user = some u →
      (exportRules e.user).runOn w = (.ok (w.store.exportOf e.user u).pretty, w) ∧
      (w.store.exportOf e.user u).listedRules =
        (w.store.exportedRules e.user).map fun row => w.store.payloadOf row.1 row.2) ∧
    ((w.store.exportedRules e.user).map (·.1)).Nodup ∧
    (∀ id r, (id, r) ∈ w.store.exportedRules e.user ↔
      w.store.rules.find? id = some r ∧ r.user = e.user) ∧
    (∀ numbers ids, numbers.Lists ids →
      (e.rulesWithIds numbers).runOn w =
        (.ok (((w.store.exportedRules e.user).filter fun row =>
          w.store.takesPart e.user row.2 && ids.contains row.1).map
            fun row => .ofRow w.store row.1 row.2), w)) ∧
    ∀ word (trigger : Trigger), Vocabulary.require word = .ok trigger →
      (e.rulesForTrigger word).runOn w =
        (.ok (((w.store.exportedRules e.user).filter fun row =>
          w.store.takesPart e.user row.2 &&
            decide (row.2.trigger = Vocabulary.code trigger)).map
              fun row => .ofRow w.store row.1 row.2), w) ∧
      ∀ numbers ids, numbers.Lists ids → (∀ id r, w.store.rules.find? id = some r → id ∈ ids) →
        ∃ rules, (e.rulesWithIds numbers).runOn w = (.ok rules, w) ∧
          (e.rulesForTrigger word).runOn w = (.ok (rules.filter fun d =>
            d.trigger.sameScalar (.text (Vocabulary.code trigger))), w) := by
  refine ⟨fun u hu => ⟨?_, w.store.listedRules_exportOf e.user u⟩,
    w.store.nodup_exportedRules e.user, fun id r => hhome.mem_exportedRules,
    fun numbers ids hnumbers => ?_, fun word trigger htrigger => ?_⟩
  · rw [exportRules, runOn_bind, runOn_row, hu]
    rfl
  · rw [EntryPoint.runOn_rulesWithIds_of_lists hnumbers, rulesWithIds_eq hhome]
  · have hstarted : (e.rulesForTrigger word).runOn w =
        (.ok (w.store.rulesForTrigger e.user trigger), w) := by
      rw [EntryPoint.runOn_rulesForTrigger, htrigger]
    refine ⟨by rw [hstarted, rulesForTrigger_eq hhome], fun numbers ids hnumbers hall => ?_⟩
    exact ⟨_, EntryPoint.runOn_rulesWithIds_of_lists hnumbers e w,
      by rw [hstarted, rulesForTrigger_eq_filter hall]⟩

end

namespace SmallLedger

/-- The ledger with a second group, which comes before the first, and a rule in it. -/
def regrouped : Workspace :=
  { workspace with
    store :=
      { store with
        groups := store.groups.insert ⟨1, "Fixed", "", 0, true, startInstant⟩
        rules := store.rules.insert { rule with group := 2, name := "Rent" } } }

/-- The second rule is listed first, in the order of the groups, although it is younger and is named
last. -/
theorem run_regrouped :
    regrouped.store.RulesAtHome ∧ Json.Lists (.list [.int 1, .int 2, .int 1]) [1, 2, 1] ∧
    ∃ rules, (({ user := 1, isLogging := true } : Engine).rulesWithIds
        (.list [.int 1, .int 2, .int 1])).runOn regrouped = (.ok rules, regrouped) ∧
      rules.map (·.name) = [.text "Rent", .text "Food"] := by
  have hhome : regrouped.store.RulesAtHome := by
    intro id r hrow
    have hmem := Table.mem_rows_of_find? hrow
    rcases List.mem_pair.1 hmem with hfirst | hsecond
    · cases hfirst
      exact ⟨_, rfl, rfl⟩
    · cases hsecond
      exact ⟨_, rfl, rfl⟩
  have hlists : Json.Lists (.list (([1, 2, 1] : List Id).map .int)) [1, 2, 1] :=
    Json.lists_ints (by decide)
  obtain ⟨-, -, -, hgiven, -⟩ :=
    rules_run_in_order_of_export { user := 1, isLogging := true } hhome
  exact ⟨hhome, hlists, _, hgiven _ _ hlists, by cbv⟩

end SmallLedger

end Rulebook
