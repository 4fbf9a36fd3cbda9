import Rulebook.Proofs.Exchange.Listing
import Rulebook.Proofs.Service.Copying

/-!
# Putting rules in another order

Rules are put in order by a list of their numbers: each rule gets the place of its number as its
place in its group.  The list may mix rules of several groups and name rules that are not there, and
what it does not name keeps its place.  So the places in a group say something only if the list
names all of its rules.

What is written is one place after the other, and where no number is repeated the writes do not
meet: together they are one change of the whole table (`Store.withPlaces`).  The engine goes by four
numbers, of which the first two are the same in a group, and the place is the third.

Once a group was put in order, its rules may be put in order again by the order that they have now.
The places become smaller, as the list no longer names rules of other groups, but of two rules of
one group the same one comes first as before.  This is all that the order of runs depends on
(`Store.KeepsRanks`).

## Main definitions

* `Store.withPlaces` — the store with other places of rules; `placeAmong` — the place of a number in
  a list.
* `Store.runnable?` — a rule as runs see it; `RuleDefinition.isIn` — whether one stands in a group.
* `Store.KeepsRanks` — other places by which in each group the same rules come first.

## Main statements

* `runOn_reorderRules` — putting rules in order, as an equation.
* `Store.KeepsRanks.candidates_withPlaces` — the order of runs depends on nothing else.
* `reorderRules_decides_order` — a group that is put in order is run in that order.
-/

namespace Rulebook

open Program

section

/-! ## Places -/

theorem Table.mapRows_mapRows {α : Type} (t : Table α) (f g : Id → α → α) :
    (t.mapRows f).mapRows g = t.mapRows fun n a => g n (f n a) := by
  refine Table.ext ?_ rfl
  simp [mapRows]

/-- The store with other places of rules. -/
def Store.withPlaces (s : Store) (place : Id → Rule → Int) : Store :=
  { s with rules := s.rules.mapRows fun id r => { r with order := place id r } }

/-- The place of a number in a list, counted from some place on; a rule that is not named stays where
it is. -/
def placeAmong (first : Nat) (ids : List Id) (id : Id) (r : Rule) : Int :=
  if id ∈ ids then ((first + ids.idxOf id : Nat) : Int) else r.order

namespace Store

variable {s : Store} {place : Id → Rule → Int} {ids : List Id} {id : Id}

theorem find?_withPlaces (s : Store) (place : Id → Rule → Int) (id : Id) :
    (s.withPlaces place).rules.find? id =
      (s.rules.find? id).map fun r => { r with order := place id r } := Table.find?_mapRows _ _ _

/-- Rules that stay at their places stay as they are. -/
theorem withPlaces_order (s : Store) : (s.withPlaces fun _ r => r.order) = s := by
  rw [withPlaces, mapRows_id]

/-- Placing the first rule and then the others places all of them. -/
theorem withPlaces_cons {first : Nat} (hfresh : id ∉ ids) :
    { s with rules := s.rules.update id fun r => { r with order := first } }.withPlaces
      (placeAmong (first + 1) ids) = s.withPlaces (placeAmong first (id :: ids)) := by
  rw [withPlaces, withPlaces, Table.update, Table.mapRows_mapRows]
  congr 2
  funext n r
  by_cases hn : n = id
  · subst hn
    simp [placeAmong, hfresh]
  · simp [placeAmong, hn, List.idxOf_cons_ne _ (Ne.symm hn), Nat.add_assoc, Nat.add_comm 1]

/-- Other places leave every reference as it is. -/
theorem IsClosed.withPlaces (h : s.IsClosed) (place : Id → Rule → Int) :
    (s.withPlaces place).IsClosed := by
  have hhas : ∀ n, (s.withPlaces place).rules.has n = s.rules.has n :=
    Table.has_congr (Table.ids_mapRows _ _)
  refine { h with
    labels := h.labels
    roles := h.roles
    rules := fun n row hfind => ?_
    conditionGroups := fun n g hfind => (hhas _).trans (h.conditionGroups n g hfind)
    actions := fun n a hfind => (hhas _).trans (h.actions n a hfind)
    logs := fun n l hfind => (h.logs n l hfind).imp_left (hhas _).trans }
  rw [find?_withPlaces] at hfind
  obtain ⟨r, hr, rfl⟩ := Option.map_eq_some_iff.1 hfind
  exact h.rules n r hr

end Store

/-! ## Writing the places -/

section Writing

variable {w : Workspace} {ids : List Id}

/-- Within a change, writing one place after the other changes all of them. -/
theorem runOn_forPlaces_placing [Host] (hchanging : w.isChanging = true) (first : Nat)
    (hdistinct : ids.Nodup) :
    (forPlaces (fun place entry => do
      match ← .ofExcept (Column.reference "id" entry) with
      | some id =>
        write fun s => { s with rules := s.rules.update id fun r => { r with order := place } }
      | none => return ()) first (ids.map .int)).runOn w =
      (.ok (), { w with store := w.store.withPlaces (placeAmong first ids) }) := by
  induction ids generalizing w first with
  | nil =>
      have hsame : w.store.withPlaces (placeAmong first []) = w.store := w.store.withPlaces_order
      rw [hsame]
      rfl
  | cons id rest ih =>
      obtain ⟨hfresh, hrest⟩ := List.nodup_cons.1 hdistinct
      have hnumber : Column.reference "id" (.int id) = .ok (some id) := rfl
      have hwrite : ∀ change, (write change).runOn w = (.ok (), { w with store := change w.store }) :=
        fun change => enacts_write change w hchanging
      rw [List.map_cons, forPlaces, runOn_bind, runOn_bind, runOn_ofExcept, hnumber]
      dsimp only
      rw [hwrite]
      dsimp only
      rw [ih _ (first + 1) hrest, Store.withPlaces_cons hfresh]
      exact hchanging

/-- Putting rules in order. -/
theorem runOn_reorderRules [Host] (hdistinct : ids.Nodup)
    (hfinal : w.isChanging = true ∨ w.store.referencesHold = true) :
    (reorderRules (.list (ids.map .int))).runOn w =
      (.ok (), { w with store := w.store.withPlaces (placeAmong 0 ids) }) := by
  have hinside := runOn_forPlaces_placing (w := { w with isChanging := true }) rfl 0 hdistinct
  have hentries : (Json.list (ids.map .int)).entries = .ok (ids.map .int) := rfl
  have hallowed :
      (w.isChanging || (w.store.withPlaces (placeAmong 0 ids)).referencesHold) = true := by
    rcases hfinal with hchanging | hholds
    · rw [hchanging, Bool.true_or]
    · have hclosed := (Store.isClosed_iff.2 hholds).withPlaces (placeAmong 0 ids)
      rw [Store.isClosed_iff.1 hclosed, Bool.or_true]
  rw [reorderRules, runOn_atomically_of_ok (a := ()) (s := w.store.withPlaces (placeAmong 0 ids))]
  · exact if_pos hallowed
  · rw [runOn_bind, runOn_ofExcept, hentries]
    exact hinside

end Writing

/-! ## Places in a list -/

section Lists

variable {α : Type} {ids : List Id}

/-- Without repetitions a number that stands earlier in a list has a smaller place. -/
theorem pairwise_idxOf_lt (hdistinct : ids.Nodup) :
    ids.Pairwise fun a b => ids.idxOf a < ids.idxOf b := by
  refine List.pairwise_iff_getElem.2 fun i j hi hj hlt => ?_
  rwa [hdistinct.idxOf_getElem i hi, hdistinct.idxOf_getElem j hj]

/-- Rows of a table in any order have different numbers. -/
theorem nodup_numbers_inOrder (key : Id × α → List Int) (t : Table α) (test : Id → α → Bool) :
    ((inOrder key (t.filter test)).map (·.1)).Nodup := by
  have hrows : (t.filter test).Pairwise fun a b => a.1 ≠ b.1 :=
    (t.ascending.imp Int.ne_of_lt).filter _
  exact List.pairwise_map.2 ((List.mergeSort_perm _ _).symm.pairwise hrows fun hne => Ne.symm hne)

/-- Of two rows that are in order, the one with the smaller key has the smaller place. -/
theorem idxOf_lt_of_key_lt {key : Id × α → List Int} {rows : List (Id × α)}
    (hordered : rows.Pairwise fun a b => (key a).lex (key b) = true)
    (hdistinct : (rows.map (·.1)).Nodup) {a b : Id × α} (ha : a ∈ rows) (hb : b ∈ rows)
    (hlt : (key a).lex (key b) = true) :
    (rows.map (·.1)).idxOf a.1 < (rows.map (·.1)).idxOf b.1 := by
  obtain ⟨i, hi, rfl⟩ := List.getElem_of_mem ha
  obtain ⟨j, hj, rfl⟩ := List.getElem_of_mem hb
  have hplace : ∀ k (hk : k < rows.length), (rows.map (·.1)).idxOf rows[k].1 = k := by
    intro k hk
    have hmapped := hdistinct.idxOf_getElem k (by rwa [List.length_map])
    rwa [List.getElem_map] at hmapped
  rw [hplace i hi, hplace j hj]
  rcases Nat.lt_trichotomy i j with hbefore | rfl | hafter
  · exact hbefore
  · exact absurd (hlt.symm.trans (lex_asymm hlt)) Bool.noConfusion
  · have hgt := List.pairwise_iff_getElem.1 hordered j i hj hi hafter
    exact absurd (hgt.symm.trans (lex_asymm hlt)) Bool.noConfusion

end Lists

/-! ## The order of a group -/

namespace Store

variable {s : Store} {group user id : Id} {ids : List Id} {place : Id → Rule → Int}
  {test : Id → Rule → Bool}

/-- Whether the rule with a number stands in a group. -/
def standsIn (s : Store) (group id : Id) : Bool :=
  (s.rules.find? id).any fun r => r.group = group

/-- The row with a number, if it is a rule of a group. -/
def memberRow (s : Store) (group id : Id) : Option (Id × Rule) :=
  ((s.rules.find? id).filter fun r => r.group = group).map fun r => (id, r)

theorem memberRow_eq_some {row : Id × Rule} :
    s.memberRow group id = some row ↔
      row.1 = id ∧ s.rules.find? id = some row.2 ∧ row.2.group = group := by
  simp only [memberRow, Option.map_eq_some_iff, Option.filter_eq_some_iff, decide_eq_true_eq]
  constructor
  · rintro ⟨r, ⟨hfind, hgroup⟩, rfl⟩
    exact ⟨rfl, hfind, hgroup⟩
  · rintro ⟨rfl, hfind, hgroup⟩
    exact ⟨row.2, ⟨hfind, hgroup⟩, rfl⟩

theorem isSome_memberRow (s : Store) (group id : Id) :
    (s.memberRow group id).isSome = s.standsIn group id := by
  rw [memberRow, standsIn, Option.isSome_map]
  cases s.rules.find? id with
  | none => rfl
  | some r =>
      rw [Option.filter_some, Option.any_some]
      by_cases hgroup : r.group = group <;> simp [hgroup]

theorem standsIn_withPlaces (s : Store) (place : Id → Rule → Int) (group id : Id) :
    (s.withPlaces place).standsIn group id = s.standsIn group id := by
  rw [standsIn, find?_withPlaces, standsIn]
  cases s.rules.find? id <;> rfl

/-- A rule that is named has the place of its number. -/
theorem order_withPlaces {row : Id × Rule} (hid : id ∈ ids)
    (hrow : (s.withPlaces (placeAmong 0 ids)).memberRow group id = some row) :
    row.2.order = (ids.idxOf id : Nat) := by
  obtain ⟨-, hfind, -⟩ := memberRow_eq_some.1 hrow
  rw [find?_withPlaces] at hfind
  obtain ⟨r, -, hplaced⟩ := Option.map_eq_some_iff.1 hfind
  rw [← hplaced]
  show placeAmong 0 ids id r = _
  rw [placeAmong, if_pos hid, Nat.zero_add]

/-- A group whose rules are all named has them in the order in which they are named. -/
theorem rulesIn_withPlaces (hdistinct : ids.Nodup)
    (hall : ∀ id, s.standsIn group id = true → id ∈ ids) :
    (s.withPlaces (placeAmong 0 ids)).rulesIn group =
      ids.filterMap ((s.withPlaces (placeAmong 0 ids)).memberRow group) := by
  refine eq_of_pairwise_lt (fun row => [row.2.order, row.1]) (pairwise_lt_inPlaces Rule.order _ _)
    ?_ ?_
  · refine List.pairwise_filterMap.2 ((pairwise_idxOf_lt hdistinct).imp_of_mem ?_)
    intro a b ha hb hlt x hx y hy
    rw [order_withPlaces ha hx, order_withPlaces hb hy]
    simp [List.cons_lex_cons, hlt]
  · rintro ⟨id, r⟩
    rw [rulesIn, mem_inOrder_filter, decide_eq_true_iff, List.mem_filterMap]
    constructor
    · rintro ⟨hfind, hgroup⟩
      have hstands : (s.withPlaces (placeAmong 0 ids)).standsIn group id = true := by
        rw [standsIn, hfind]
        exact decide_eq_true hgroup
      rw [standsIn_withPlaces] at hstands
      exact ⟨id, hall id hstands, memberRow_eq_some.2 ⟨rfl, hfind, hgroup⟩⟩
    · rintro ⟨n, -, hrow⟩
      obtain ⟨hn, hfind, hgroup⟩ := memberRow_eq_some.1 hrow
      obtain rfl : id = n := hn
      exact ⟨hfind, hgroup⟩

/-- The numbers of these rules. -/
theorem numbers_rulesIn_withPlaces (hdistinct : ids.Nodup)
    (hall : ∀ id, s.standsIn group id = true → id ∈ ids) :
    ((s.withPlaces (placeAmong 0 ids)).rulesIn group).map (·.1) =
      ids.filter (s.standsIn group) := by
  rw [rulesIn_withPlaces hdistinct hall, List.map_filterMap, ← List.filterMap_eq_filter]
  refine List.filterMap_congr fun id _ => ?_
  have hsome := (s.withPlaces (placeAmong 0 ids)).isSome_memberRow group id
  rw [standsIn_withPlaces] at hsome
  rcases hrow : (s.withPlaces (placeAmong 0 ids)).memberRow group id with _ | row
  · rw [hrow] at hsome
    simp [Option.guard, ← hsome]
  · obtain ⟨rfl, -⟩ := memberRow_eq_some.1 hrow
    rw [hrow] at hsome
    simp [Option.guard, ← hsome]

/-- The rules of a group that take part are run in the order of the group. -/
theorem candidates_filter_group (s : Store) (user group : Id) :
    ((s.candidates user).filter fun row => row.2.group = group) =
      (s.rulesIn group).filter fun row => s.takesPart user row.2 := by
  have hmembers : (s.rulesIn group).Pairwise fun a b =>
      (s.runKey a).lex (s.runKey b) = true := by
    refine (pairwise_lt_inPlaces Rule.order _ _).imp_of_mem fun {a b} ha hb hlt => ?_
    have hsame : a.2.group = b.2.group :=
      (of_decide_eq_true (mem_inOrder_filter.1 ha).2).trans
        (of_decide_eq_true (mem_inOrder_filter.1 hb).2).symm
    rw [runKey, runKey, hsame]
    simpa [List.cons_lex_cons] using hlt
  refine eq_of_pairwise_lt s.runKey ((s.pairwise_candidates user).filter _) (hmembers.filter _) ?_
  rintro ⟨id, r⟩
  rw [List.mem_filter, List.mem_filter, candidates, rulesIn, mem_inOrder_filter,
    mem_inOrder_filter]
  tauto

end Store

/-! ## The order of runs -/

/-- Whether a rule of a run stands in a group. -/
def RuleDefinition.isIn (s : Store) (group : Id) (d : RuleDefinition) : Bool :=
  match d.id with
  | .int id => s.standsIn group id
  | _ => false

namespace Store

variable {s : Store} {group user id : Id} {ids : List Id} {place : Id → Rule → Int}
  {test : Id → Rule → Bool}

/-- The rules of a user that take part and pass a test, as a run gets them. -/
def runs (s : Store) (user : Id) (test : Id → Rule → Bool) : List RuleDefinition :=
  ((s.candidates user).filter fun row => test row.1 row.2).map fun row => .ofRow s row.1 row.2

/-- The rule with a number as the runs of a user get it, if it stands in a group, takes part, and
passes a test. -/
def runnable? (s : Store) (user group : Id) (test : Id → Rule → Bool) (id : Id) :
    Option RuleDefinition :=
  ((s.rules.find? id).filter fun r => r.group = group && (s.takesPart user r && test id r)).map
    fun r => .ofRow s id r

/-- The rules of a group that are run. -/
theorem filter_isIn_runs (s : Store) (user group : Id) (test : Id → Rule → Bool) :
    (s.runs user test).filter (·.isIn s group) =
      ((s.rulesIn group).filter fun row => s.takesPart user row.2 && test row.1 row.2).map
        fun row => .ofRow s row.1 row.2 := by
  have hstands : ∀ row ∈ s.candidates user,
      (RuleDefinition.ofRow s row.1 row.2).isIn s group = decide (row.2.group = group) := by
    intro row hrow
    show s.standsIn group row.1 = _
    rw [standsIn, (mem_inOrder_filter.1 hrow).1]
    rfl
  have hsplit : ((s.rulesIn group).filter fun row =>
      s.takesPart user row.2 && test row.1 row.2) =
        ((s.rulesIn group).filter fun row => s.takesPart user row.2).filter fun row =>
          test row.1 row.2 := by
    rw [List.filter_filter]
    simp only [Bool.and_comm]
  rw [runs, List.filter_map, List.filter_filter, hsplit, ← candidates_filter_group,
    List.filter_filter]
  refine congrArg (List.map _) (List.filter_congr fun row hrow => ?_)
  rw [Function.comp_apply, hstands row hrow, Bool.and_comm]

/-- The rules of a group that was put in order are run in this order. -/
theorem filter_isIn_runs_withPlaces (hdistinct : ids.Nodup)
    (hall : ∀ id, s.standsIn group id = true → id ∈ ids)
    (htest : ∀ id (r : Rule) n, test id { r with order := n } = test id r) (user : Id) :
    ((s.withPlaces (placeAmong 0 ids)).runs user test).filter
        (·.isIn (s.withPlaces (placeAmong 0 ids)) group) =
      ids.filterMap (s.runnable? user group test) := by
  rw [filter_isIn_runs, rulesIn_withPlaces hdistinct hall, List.filter_filterMap,
    List.map_filterMap]
  refine List.filterMap_congr fun id _ => ?_
  rw [memberRow, find?_withPlaces, runnable?]
  cases s.rules.find? id with
  | none => rfl
  | some r =>
      -- Where a rule stands, whether it takes part and what it does is the same at any place.
      have htakes : ∀ n, (s.withPlaces (placeAmong 0 ids)).takesPart user { r with order := n } =
          s.takesPart user r := fun _ => rfl
      have hrun : ∀ n, RuleDefinition.ofRow (s.withPlaces (placeAmong 0 ids)) id
          { r with order := n } = .ofRow s id r := fun _ => rfl
      rw [Option.map_some, Option.filter_some, Option.filter_some]
      by_cases hgroup : r.group = group
      · rw [if_pos (decide_eq_true hgroup), Option.map_some, Option.filter_some, htakes, htest,
          decide_eq_true hgroup, Bool.true_and]
        split
        · exact congrArg some (hrun _)
        · rfl
      · rw [if_neg (by simpa using hgroup), decide_eq_false hgroup, Bool.false_and]
        rfl

/-- Other places by which of two rules of a group the same one comes first. -/
structure KeepsRanks (s : Store) (place : Id → Rule → Int) : Prop where
  lex : ∀ {a b : Id × Rule}, s.rules.find? a.1 = some a.2 → s.rules.find? b.1 = some b.2 →
    a.2.group = b.2.group → [a.2.order, a.1].lex [b.2.order, b.1] = true →
      [place a.1 a.2, a.1].lex [place b.1 b.2, b.1] = true

/-- The rules that take part do so in the same order. -/
theorem KeepsRanks.candidates_withPlaces (h : s.KeepsRanks place) (user : Id) :
    (s.withPlaces place).candidates user =
      (s.candidates user).map fun row => (row.1, { row.2 with order := place row.1 row.2 }) := by
  refine eq_of_pairwise_lt (s.withPlaces place).runKey (pairwise_candidates _ user)
    (List.pairwise_map.2 ((s.pairwise_candidates user).imp_of_mem fun {a b} ha hb hlt => ?_)) ?_
  · -- The first two numbers are the same as before.
    have hrank := h.lex (mem_inOrder_filter.1 ha).1 (mem_inOrder_filter.1 hb).1
    simp only [runKey, withPlaces, List.cons_lex_cons, Bool.or_eq_true, Bool.and_eq_true,
      decide_eq_true_eq, beq_iff_eq] at hlt hrank ⊢
    tauto
  · rintro ⟨id, r⟩
    rw [candidates, candidates, mem_inOrder_filter, find?_withPlaces, List.mem_map]
    constructor
    · rintro ⟨hfind, htakes⟩
      obtain ⟨old, hold, rfl⟩ := Option.map_eq_some_iff.1 hfind
      exact ⟨(id, old), mem_inOrder_filter.2 ⟨hold, htakes⟩, rfl⟩
    · rintro ⟨row, hrow, heq⟩
      obtain ⟨hfind, htakes⟩ := mem_inOrder_filter.1 hrow
      cases heq
      exact ⟨by rw [hfind]; rfl, htakes⟩

/-- What is run is the same. -/
theorem KeepsRanks.runs_withPlaces (h : s.KeepsRanks place)
    (htest : ∀ id (r : Rule) n, test id { r with order := n } = test id r) (user : Id) :
    (s.withPlaces place).runs user test = s.runs user test := by
  rw [runs, h.candidates_withPlaces, List.filter_map, List.map_map, runs]
  refine congrArg (List.map _) (List.filter_congr fun row _ => ?_)
  exact htest row.1 row.2 _

/-- The order that a group has is kept by putting its rules in this order. -/
theorem keepsRanks_rulesIn (s : Store) (group : Id) :
    s.KeepsRanks (placeAmong 0 ((s.rulesIn group).map (·.1))) where
  lex {a b} ha hb hgroup hlt := by
    have hmem : ∀ {row : Id × Rule}, s.rules.find? row.1 = some row.2 →
        (row ∈ s.rulesIn group ↔ row.2.group = group) := by
      intro row hfind
      rw [rulesIn, mem_inOrder_filter, decide_eq_true_iff, and_iff_right hfind]
    have hnumber : ∀ {row : Id × Rule}, s.rules.find? row.1 = some row.2 →
        (row.1 ∈ (s.rulesIn group).map (·.1) ↔ row.2.group = group) := by
      intro row hfind
      rw [List.mem_map]
      constructor
      · rintro ⟨other, hother, hnumber⟩
        obtain ⟨hsame, hstands⟩ := mem_inOrder_filter.1 hother
        rw [hnumber, hfind] at hsame
        rw [Option.some.inj hsame]
        exact of_decide_eq_true hstands
      · intro hstands
        exact ⟨row, (hmem hfind).2 hstands, rfl⟩
    by_cases hin : a.2.group = group
    · have hin' : b.2.group = group := hgroup.symm.trans hin
      have hplaces := idxOf_lt_of_key_lt (pairwise_lt_inPlaces Rule.order _ _)
        (nodup_numbers_inOrder _ _ _) ((hmem ha).2 hin) ((hmem hb).2 hin') hlt
      rw [placeAmong, placeAmong, if_pos ((hnumber ha).2 hin), if_pos ((hnumber hb).2 hin'),
        List.cons_lex_cons, Bool.or_eq_true, Nat.zero_add, Nat.zero_add]
      exact .inl (decide_eq_true (Int.ofNat_lt.2 hplaces))
    · rw [placeAmong, placeAmong, if_neg fun hmember => hin ((hnumber ha).1 hmember),
        if_neg fun hmember => hin (hgroup.trans ((hnumber hb).1 hmember))]
      exact hlt

end Store

section Listing

variable {w : Workspace} {place : Id → Rule → Int}

theorem rulesForTrigger_eq_runs (s : Store) (user : Id) (trigger : Trigger) :
    s.rulesForTrigger user trigger =
      s.runs user fun _ r => r.trigger = Vocabulary.code trigger := rfl

theorem rulesWithIds_eq_runs (s : Store) (user : Id) (listed : List Id) :
    s.rulesWithIds user listed = s.runs user fun id _ => listed.contains id := rfl

/-- If the ranks are kept, the engine lists the same rules in the same order, for whatever it is
asked. -/
theorem Store.KeepsRanks.lists_same [Host] (h : w.store.KeepsRanks place) (e : Engine)
    (word numbers : Json) :
    ((e.rulesForTrigger word).runOn { w with store := w.store.withPlaces place }).1 =
        ((e.rulesForTrigger word).runOn w).1 ∧
      ((e.rulesWithIds numbers).runOn { w with store := w.store.withPlaces place }).1 =
        ((e.rulesWithIds numbers).runOn w).1 := by
  have hstarted : ∀ trigger, (w.store.withPlaces place).rulesForTrigger e.user trigger =
      w.store.rulesForTrigger e.user trigger := by
    intro trigger
    rw [rulesForTrigger_eq_runs, rulesForTrigger_eq_runs]
    exact h.runs_withPlaces (fun _ _ _ => rfl) e.user
  have hgiven : ∀ listed, (w.store.withPlaces place).rulesWithIds e.user listed =
      w.store.rulesWithIds e.user listed := by
    intro listed
    rw [rulesWithIds_eq_runs, rulesWithIds_eq_runs]
    exact h.runs_withPlaces (fun _ _ _ => rfl) e.user
  constructor
  · rw [EntryPoint.runOn_rulesForTrigger, EntryPoint.runOn_rulesForTrigger]
    cases (Vocabulary.require word : Except Failure Trigger) with
    | error failure => rfl
    | ok trigger => exact congrArg Except.ok (hstarted trigger)
  · rw [EntryPoint.runOn_rulesWithIds, EntryPoint.runOn_rulesWithIds]
    simp only [EntryPoint.rulesListed, hgiven]

end Listing

/-- Putting rules in order by pairwise different numbers, some of which may name no rule.  A rule that
is not named keeps its row, and one that is named gets the place of its number and keeps the rest;
nothing else is changed.  If all rules of a group are named, the engine of any user, for any trigger
or numbers, lists those of them that are run in the order in which they are named.  Putting the
rules of the group in the order that they have now changes nothing about what is listed. -/
theorem reorderRules_decides_order [Host] {w : Workspace} {ids : List Id} (hdistinct : ids.Nodup)
    (hfinal : w.isChanging = true ∨ w.store.referencesHold = true) :
    ∃ v, (reorderRules (.list (ids.map .int))).runOn w = (.ok (), v) ∧
      (∃ rules, v = { w with store := { w.store with rules } }) ∧
      (∀ id, id ∉ ids → v.store.rules.find? id = w.store.rules.find? id) ∧
      (∀ id, id ∈ ids → v.store.rules.find? id =
        (w.store.rules.find? id).map fun r => { r with order := (ids.idxOf id : Nat) }) ∧
      ∀ group, (∀ id r, w.store.rules.find? id = some r → r.group = group → id ∈ ids) →
        (v.store.rulesIn group).map (·.1) = ids.filter (w.store.standsIn group) ∧
        (∀ (e : Engine) word (trigger : Trigger), Vocabulary.require word = .ok trigger →
          ∃ rules, (e.rulesForTrigger word).runOn v = (.ok rules, v) ∧
            rules.filter (·.isIn v.store group) =
              ids.filterMap (w.store.runnable? e.user group fun _ r =>
                r.trigger = Vocabulary.code trigger)) ∧
        (∀ (e : Engine) numbers listed, numbers.Lists listed →
          ∃ rules, (e.rulesWithIds numbers).runOn v = (.ok rules, v) ∧
            rules.filter (·.isIn v.store group) =
              ids.filterMap (w.store.runnable? e.user group fun id _ => listed.contains id)) ∧
        ∃ v', (reorderRules (.list (((v.store.rulesIn group).map (·.1)).map .int))).runOn v =
            (.ok (), v') ∧
          ∀ (e : Engine) word numbers,
            ((e.rulesForTrigger word).runOn v').1 = ((e.rulesForTrigger word).runOn v).1 ∧
            ((e.rulesWithIds numbers).runOn v').1 = ((e.rulesWithIds numbers).runOn v).1 := by
  have hfinal' : w.isChanging = true ∨
      (w.store.withPlaces (placeAmong 0 ids)).referencesHold = true :=
    hfinal.imp_right fun hholds =>
      Store.isClosed_iff.1 ((Store.isClosed_iff.2 hholds).withPlaces _)
  refine ⟨_, runOn_reorderRules hdistinct hfinal, ⟨_, rfl⟩, fun id hid => ?_, fun id hid => ?_,
    fun group hall => ?_⟩
  · rw [Store.find?_withPlaces]
    simp [placeAmong, hid]
  · rw [Store.find?_withPlaces]
    simp [placeAmong, hid]
  · have hnamed : ∀ id, w.store.standsIn group id = true → id ∈ ids := by
      intro id hstands
      obtain ⟨r, hfind, hgroup⟩ := (Option.any_eq_true _ _).1 hstands
      exact hall id r hfind (of_decide_eq_true hgroup)
    refine ⟨Store.numbers_rulesIn_withPlaces hdistinct hnamed, ?_, ?_, ?_⟩
    · intro e word trigger htrigger
      refine ⟨_, by rw [EntryPoint.runOn_rulesForTrigger, htrigger], ?_⟩
      rw [rulesForTrigger_eq_runs]
      exact Store.filter_isIn_runs_withPlaces hdistinct hnamed (fun _ _ _ => rfl) e.user
    · intro e numbers listed hlisted
      refine ⟨_, EntryPoint.runOn_rulesWithIds_of_lists hlisted e _, ?_⟩
      rw [rulesWithIds_eq_runs]
      exact Store.filter_isIn_runs_withPlaces hdistinct hnamed (fun _ _ _ => rfl) e.user
    · exact ⟨_, runOn_reorderRules (nodup_numbers_inOrder _ _ _) hfinal',
        (Store.keepsRanks_rulesIn _ group).lists_same⟩

end

namespace SmallLedger

/-- The ledger with a second group and three rules, of which the first and the third are in the first
group. -/
def threeRules : Workspace :=
  { regrouped with
    store :=
      { regrouped.store with
        rules := regrouped.store.rules.insert { rule with order := 5, name := "Fuel" } } }

theorem ids_threeRules {id : Id} {r : Rule} (hfind : threeRules.store.rules.find? id = some r) :
    id ∈ ([3, 7, 2, 1] : List Id) := by
  have hnamed : ∀ id ∈ threeRules.store.rules.ids, id ∈ ([3, 7, 2, 1] : List Id) := by
    decide +kernel
  exact hnamed id (Table.has_iff_mem_ids.1 (Table.has_of_find? hfind))

/-- The third rule is put before the first, by a list that also names the rule of the other group and
one that is not there. -/
theorem reorder_threeRules :
    ([3, 7, 2, 1] : List Id).Nodup ∧ threeRules.store.referencesHold = true ∧
    ∃ v, (reorderRules (.list (([3, 7, 2, 1] : List Id).map .int))).runOn threeRules = (.ok (), v) ∧
      (v.store.rulesIn 1).map (·.1) = [3, 1] ∧
      ∃ rules, (({ user := 1, isLogging := true } : Engine).rulesForTrigger
          (.text "manual")).runOn v = (.ok rules, v) ∧
        (rules.filter (·.isIn v.store 1)).map (·.name) = [.text "Fuel", .text "Food"] := by
  have hdistinct : ([3, 7, 2, 1] : List Id).Nodup := by decide
  have hholds : threeRules.store.referencesHold = true := by decide +kernel
  obtain ⟨v, hrun, -, -, -, hgroup⟩ :=
    reorderRules_decides_order (w := threeRules) hdistinct (.inr hholds)
  obtain ⟨hnumbers, hstarted, -, -⟩ := hgroup 1 fun _ _ hfind _ => ids_threeRules hfind
  obtain ⟨rules, hrules, hlisted⟩ :=
    hstarted { user := 1, isLogging := true } (.text "manual") .manual rfl
  refine ⟨hdistinct, hholds, v, hrun, hnumbers.trans (by decide +kernel), rules, hrules, ?_⟩
  rw [hlisted]
  cbv

end SmallLedger

end Rulebook
