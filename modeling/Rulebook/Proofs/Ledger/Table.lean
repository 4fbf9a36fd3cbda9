import Mathlib.Order.Defs.Unbundled
import Rulebook.Ledger.Table

/-!
# What tables hold

The laws of look-up.  All of them rest on the order of the rows, which makes a number the key of at
most one row and the next number a fresh one.

Runs only add rows to some tables.  `Table.Grows` says so: the earlier rows are the first of the
later ones.  Look-ups that succeed go on to give the same row.

## Main definitions

* `Table.insertAll` — adds rows one after the other; `Table.added` — the rows that were added.
* `Table.Grows` — a later state of a table to which rows were only added.
-/

namespace Rulebook.Table

variable {α : Type} {t u v : Table α} {id : Id} {a : α}

/-! ## Look-up -/

theorem mem_rows_of_find? (h : t.find? id = some a) : (id, a) ∈ t.rows := by
  obtain ⟨before, after, hrows, -⟩ := List.lookup_eq_some_iff.1 h
  rw [hrows]
  exact List.mem_append_right _ List.mem_cons_self

theorem find?_eq_some_of_mem (h : (id, a) ∈ t.rows) : t.find? id = some a := by
  obtain ⟨before, after, hrows⟩ := List.append_of_mem h
  refine List.lookup_eq_some_iff.2 ⟨before, after, hrows, fun row hrow => ?_⟩
  have hasc := t.ascending
  rw [hrows] at hasc
  have hlt := (List.pairwise_append.1 hasc).2.2 row hrow (id, a) List.mem_cons_self
  exact bne_iff_ne.2 (Int.ne_of_gt hlt)

theorem has_iff_mem_ids : t.has id = true ↔ id ∈ t.ids := by
  rw [has, Option.isSome_iff_exists, ids, List.mem_map]
  constructor
  · rintro ⟨a, ha⟩
    exact ⟨(id, a), mem_rows_of_find? ha, rfl⟩
  · rintro ⟨⟨n, a⟩, hmem, rfl⟩
    exact ⟨a, find?_eq_some_of_mem hmem⟩

theorem has_congr (h : t.ids = u.ids) (id : Id) : t.has id = u.has id := by
  rw [Bool.eq_iff_iff, has_iff_mem_ids, has_iff_mem_ids, h]

theorem has_of_find? (h : t.find? id = some a) : t.has id = true := by
  rw [has, h]
  rfl

theorem le_lastId_of_find? (h : t.find? id = some a) : id ≤ t.lastId :=
  t.le_lastId _ (mem_rows_of_find? h)

/-- The next number is a fresh one. -/
theorem find?_nextId (t : Table α) : t.find? t.nextId = none := by
  rcases h : t.find? t.nextId with _ | a
  · rfl
  · exact absurd (le_lastId_of_find? h) (Int.not_le.2 (Int.lt_succ _))

/-! ## Adding and changing rows -/

theorem find?_insert (t : Table α) (a : α) (id : Id) :
    (t.insert a).find? id = if id = t.nextId then some a else t.find? id := by
  have happend : (t.insert a).find? id = (t.find? id).or ([(t.nextId, a)].lookup id) :=
    List.lookup_append
  rw [happend, List.lookup_cons, List.lookup_nil]
  by_cases h : id = t.nextId
  · rw [if_pos h, h, find?_nextId, beq_self_eq_true]
    rfl
  · rw [if_neg h, beq_eq_false_iff_ne.2 h, Option.or_none]

theorem find?_update_of_ne {other : Id} (h : other ≠ id) (f : α → α) :
    (t.update id f).find? other = t.find? other := by
  rw [find?_update, if_neg h]

@[simp] theorem has_update (t : Table α) (id other : Id) (f : α → α) :
    (t.update id f).has other = t.has other := has_congr (ids_update t id f) other

/-- A change that leaves the row as it is changes nothing. -/
theorem update_eq_self {f : α → α} (h : ∀ a, t.find? id = some a → f a = a) :
    t.update id f = t := by
  refine Table.ext ?_ rfl
  refine (List.map_congr_left fun row hrow => ?_).trans (List.map_id t.rows)
  obtain ⟨n, b⟩ := row
  by_cases hn : n = id
  · subst hn
    simp [h b (find?_eq_some_of_mem hrow)]
  · simp [hn]

/-- Changing a row that is not there changes nothing. -/
theorem update_of_not_has (h : t.has id = false) (f : α → α) : t.update id f = t := by
  refine update_eq_self fun a ha => ?_
  rw [has_of_find? ha] at h
  cases h

/-- Of the rows that satisfy the test none is left. -/
theorem find?_remove (t : Table α) (test : Id → α → Bool) (id : Id) :
    (t.remove test).find? id = (t.find? id).filter fun a => !test id a := by
  ext a
  rw [Option.filter_eq_some_iff]
  constructor
  · intro hfind
    obtain ⟨hrow, hkept⟩ := List.mem_filter.1 (mem_rows_of_find? hfind)
    exact ⟨find?_eq_some_of_mem hrow, hkept⟩
  · rintro ⟨hfind, hkept⟩
    exact find?_eq_some_of_mem (List.mem_filter.2 ⟨mem_rows_of_find? hfind, hkept⟩)

/-- Rows that pass a test are all still there if no row that passes it was removed. -/
theorem filter_remove {test gone : Id → α → Bool}
    (h : ∀ id a, t.find? id = some a → test id a = true → gone id a = false) :
    (t.remove gone).filter test = t.filter test := by
  rw [filter, filter, remove, List.filter_filter]
  refine List.filter_congr fun row hrow => ?_
  obtain ⟨n, a⟩ := row
  dsimp only
  cases htest : test n a with
  | false => rfl
  | true => simp [h n a (find?_eq_some_of_mem hrow) htest]

/-! ## Adding many rows -/

/-- Adds rows one after the other. -/
def insertAll (t : Table α) (rows : List α) : Table α := rows.foldl insert t

@[simp] theorem insertAll_nil (t : Table α) : t.insertAll [] = t := rfl

@[simp] theorem insertAll_cons (t : Table α) (a : α) (rest : List α) :
    t.insertAll (a :: rest) = (t.insert a).insertAll rest := rfl

theorem nextId_insert (t : Table α) (a : α) : (t.insert a).nextId = t.nextId + 1 := rfl

theorem insertAll_append (t : Table α) (first rest : List α) :
    t.insertAll (first ++ rest) = (t.insertAll first).insertAll rest := List.foldl_append

/-- Rows that are there stay under their numbers. -/
theorem find?_insertAll_of_le (h : id ≤ t.lastId) (rows : List α) :
    (t.insertAll rows).find? id = t.find? id := by
  induction rows generalizing t with
  | nil => rfl
  | cons a rest ih =>
      have hne : id ≠ t.nextId := Int.ne_of_lt (Int.lt_add_one_of_le h)
      rw [insertAll_cons, ih (Int.le_trans h (Int.le_of_lt (Int.lt_succ _))), find?_insert,
        if_neg hne]

/-- Whatever was not there before has a new number. -/
theorem lastId_lt_of_find?_insertAll {rows : List α} (h : (t.insertAll rows).find? id = some a)
    (hnew : t.find? id ≠ some a) : t.lastId < id := by
  refine Int.not_le.1 fun hle => hnew ?_
  rw [← h, find?_insertAll_of_le hle]

/-- A row that is there was there before or is one of those that were added. -/
theorem mem_of_find?_insertAll {rows : List α} (h : (t.insertAll rows).find? id = some a) :
    t.find? id = some a ∨ a ∈ rows := by
  induction rows generalizing t with
  | nil => exact Or.inl h
  | cons b rest ih =>
      rcases ih h with hfirst | hrest
      · rw [find?_insert] at hfirst
        split at hfirst
        · cases hfirst
          exact Or.inr List.mem_cons_self
        · exact Or.inl hfirst
      · exact Or.inr (List.mem_cons_of_mem _ hrest)

/-- The added rows get the next numbers in order. -/
theorem find?_insertAll_new (t : Table α) (rows : List α) {i : Nat} (hi : i < rows.length) :
    (t.insertAll rows).find? (t.nextId + i) = some rows[i] := by
  induction rows generalizing t i with
  | nil => cases hi
  | cons a rest ih =>
      rw [insertAll_cons]
      cases i with
      | zero =>
          rw [find?_insertAll_of_le, find?_insert]
          · simp
          · simp [insert]
      | succ i =>
          have hnext : t.nextId + ((i + 1 : Nat) : Int) = (t.insert a).nextId + i := by
            rw [nextId_insert, Int.natCast_succ, Int.add_assoc, Int.add_comm 1]
          rw [hnext, ih (t.insert a) (Nat.lt_of_succ_lt_succ hi)]
          rfl

theorem lastId_insertAll (t : Table α) (rows : List α) :
    (t.insertAll rows).lastId = t.lastId + rows.length := by
  induction rows generalizing t with
  | nil => simp
  | cons a rest ih =>
      have hnext : (t.insert a).lastId = t.lastId + 1 := rfl
      rw [insertAll_cons, ih, hnext, List.length_cons, Int.natCast_succ, Int.add_assoc,
        Int.add_comm 1]

theorem map_rows_insertAll (t : Table α) (rows : List α) :
    (t.insertAll rows).rows.map (·.2) = t.rows.map (·.2) ++ rows := by
  induction rows generalizing t with
  | nil => simp
  | cons a rest ih =>
      rw [insertAll_cons, ih]
      simp [insert]

/-- The rows that a later table has under new numbers. -/
def added (t u : Table α) : List α := (u.rows.filter fun row => t.lastId < row.1).map (·.2)

theorem mem_added : a ∈ t.added u ↔ ∃ id, t.lastId < id ∧ u.find? id = some a := by
  rw [added, List.mem_map]
  constructor
  · rintro ⟨⟨id, b⟩, hrow, rfl⟩
    obtain ⟨hrow, hnew⟩ := List.mem_filter.1 hrow
    exact ⟨id, of_decide_eq_true hnew, find?_eq_some_of_mem hrow⟩
  · rintro ⟨id, hnew, hfind⟩
    exact ⟨(id, a), List.mem_filter.2 ⟨mem_rows_of_find? hfind, decide_eq_true hnew⟩, rfl⟩

@[simp] theorem added_self (t : Table α) : t.added t = [] := by
  rw [added, List.filter_eq_nil_iff.2, List.map_nil]
  intro row hrow
  simpa using t.le_lastId row hrow

theorem added_insert (h : t.lastId ≤ u.lastId) (a : α) :
    t.added (u.insert a) = t.added u ++ [a] := by
  have hnew : t.lastId < u.nextId := Int.lt_add_one_of_le h
  simp [added, insert, hnew]

/-- What was added can be read off the table. -/
theorem added_insertAll (t : Table α) (rows : List α) : t.added (t.insertAll rows) = rows := by
  have hlater : ∀ u : Table α, t.lastId ≤ u.lastId →
      t.added (u.insertAll rows) = t.added u ++ rows := by
    induction rows with
    | nil => simp
    | cons a rest ih =>
        intro u hu
        have hnext : t.lastId ≤ (u.insert a).lastId := Int.le_trans hu (Int.le_of_lt (Int.lt_succ _))
        rw [insertAll_cons, ih _ hnext, added_insert hu, List.append_assoc, List.singleton_append]
  rw [hlater t (Int.le_refl _), added_self, List.nil_append]

/-- What was added can be told from the tables before and after. -/
theorem insertAll_inj {rows rows' : List α} (h : t.insertAll rows = t.insertAll rows') :
    rows = rows' := by
  rw [← added_insertAll t rows, h, added_insertAll]

/-! ## Tables that only grow -/

/-- Rows were only added, under new numbers. -/
structure Grows (t u : Table α) : Prop where
  rows : t.rows <+: u.rows
  lastId : t.lastId ≤ u.lastId

instance : IsPreorder (Table α) Grows where
  refl _ := ⟨List.prefix_refl _, Int.le_refl _⟩
  trans _ _ _ h k := ⟨h.rows.trans k.rows, Int.le_trans h.lastId k.lastId⟩

theorem grows_insert (t : Table α) (a : α) : t.Grows (t.insert a) where
  rows := List.prefix_append _ _
  lastId := Int.le_of_lt (Int.lt_succ _)

theorem grows_insertAll (t : Table α) (rows : List α) : t.Grows (t.insertAll rows) := by
  induction rows generalizing t with
  | nil => exact Std.Refl.refl t
  | cons a rest ih => exact IsTrans.trans _ _ _ (grows_insert t a) (ih (t.insert a))

namespace Grows

theorem find? (h : t.Grows u) (hfind : t.find? id = some a) : u.find? id = some a :=
  find?_eq_some_of_mem (h.rows.subset (mem_rows_of_find? hfind))

theorem has (h : t.Grows u) (hhas : t.has id = true) : u.has id = true := by
  obtain ⟨a, ha⟩ := Option.isSome_iff_exists.1 hhas
  exact has_of_find? (h.find? ha)

/-- The rows that were added pass a test if no row that was not there before fails it. -/
theorem filter_eq (h : t.Grows u) {test : Id → α → Bool}
    (hnew : ∀ id a, t.has id = false → test id a = false) : u.filter test = t.filter test := by
  obtain ⟨added, hadded⟩ := h.rows
  have hrows : u.filter test = t.filter test ++ added.filter fun row => test row.1 row.2 := by
    rw [Table.filter, Table.filter, ← hadded, List.filter_append]
  have hnone : (added.filter fun row => test row.1 row.2) = [] := by
    refine List.filter_eq_nil_iff.2 fun row hrow => ?_
    have hfresh : t.has row.1 = false := by
      rw [← Bool.not_eq_true, has_iff_mem_ids]
      intro hmem
      obtain ⟨old, hold, heq⟩ := List.mem_map.1 hmem
      have hasc := u.ascending
      rw [← hadded] at hasc
      exact Int.ne_of_lt ((List.pairwise_append.1 hasc).2.2 old hold row hrow) heq
    rw [hnew row.1 row.2 hfresh]
    exact Bool.false_ne_true
  rw [hrows, hnone, List.append_nil]

end Grows

end Rulebook.Table
