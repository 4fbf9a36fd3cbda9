import Rulebook.Entity

/-!
# Tables

A table is a list of numbered rows in ascending order, together with the highest number it ever gave
out.  A new row gets the next number, so the number of a deleted row is not used again.

The order of the rows and the bound on their numbers belong to the type: no two rows of a table have
the same number, and the next number is always a new one.

## Main definitions

* `Table` — rows and the last number.
* `Table.find?`, `Table.insert`, `Table.put`, `Table.update`, `Table.remove` — the operations.
-/

namespace Rulebook

/-- Numbered rows in ascending order, none above the last number given out. -/
@[ext] structure Table (α : Type) where
  rows : List (Id × α)
  lastId : Id
  ascending : rows.Pairwise fun a b => a.1 < b.1
  le_lastId : ∀ row ∈ rows, row.1 ≤ lastId
deriving Repr

namespace Table

variable {α : Type}

/-- The table that never had a row. -/
def empty : Table α where
  rows := []
  lastId := 0
  ascending := .nil
  le_lastId := fun _ hrow => nomatch hrow

instance : EmptyCollection (Table α) := ⟨empty⟩

instance : Inhabited (Table α) := ⟨empty⟩

@[simp] theorem rows_empty : ({} : Table α).rows = [] := rfl

/-- The row with a number. -/
def find? (t : Table α) (id : Id) : Option α := t.rows.lookup id

/-- Whether there is a row with a number. -/
def has (t : Table α) (id : Id) : Bool := (t.find? id).isSome

/-- The numbers of all rows. -/
def ids (t : Table α) : List Id := t.rows.map (·.1)

/-- The rows that satisfy a test. -/
def filter (t : Table α) (test : Id → α → Bool) : List (Id × α) :=
  t.rows.filter fun (id, a) => test id a

/-- The number that the next row gets. -/
def nextId (t : Table α) : Id := t.lastId + 1

/-- Adds a row under the next number. -/
def insert (t : Table α) (a : α) : Table α where
  rows := t.rows ++ [(t.nextId, a)]
  lastId := t.nextId
  ascending := by
    refine List.pairwise_append.2 ⟨t.ascending, List.pairwise_singleton _ _, ?_⟩
    intro row hrow new hnew
    have hle := t.le_lastId row hrow
    rw [List.mem_singleton.1 hnew]
    exact Int.lt_add_one_of_le hle
  le_lastId := by
    intro row hrow
    rcases List.mem_append.1 hrow with hold | hnew
    · exact Int.le_trans (t.le_lastId row hold) (Int.le_of_lt (Int.lt_succ t.lastId))
    · exact Int.le_of_eq (congrArg Prod.fst (List.mem_singleton.1 hnew))

/-- Puts a row where its number belongs, replacing the row with that number. -/
def place (id : Id) (a : α) : List (Id × α) → List (Id × α)
  | [] => [(id, a)]
  | (n, b) :: rest =>
    if id < n then (id, a) :: (n, b) :: rest
    else if id = n then (id, a) :: rest
    else (n, b) :: place id a rest

/-- Placing a row adds nothing else. -/
theorem mem_place {id : Id} {a : α} {row : Id × α} {rows : List (Id × α)}
    (h : row ∈ place id a rows) : row = (id, a) ∨ row ∈ rows := by
  induction rows with
  | nil => exact Or.inl (List.mem_singleton.1 h)
  | cons first rest ih =>
    obtain ⟨n, b⟩ := first
    simp only [place] at h
    split at h
    · exact List.mem_cons.1 h
    · split at h
      · exact (List.mem_cons.1 h).imp_right (List.mem_cons_of_mem _)
      · rcases List.mem_cons.1 h with rfl | hrest
        · exact Or.inr List.mem_cons_self
        · exact (ih hrest).imp_right (List.mem_cons_of_mem _)

/-- Placing a row keeps the order. -/
theorem ascending_place (id : Id) (a : α) {rows : List (Id × α)}
    (h : rows.Pairwise fun a b => a.1 < b.1) :
    (place id a rows).Pairwise fun a b => a.1 < b.1 := by
  induction rows with
  | nil => exact List.pairwise_singleton _ _
  | cons first rest ih =>
    obtain ⟨n, b⟩ := first
    obtain ⟨hfirst, hrest⟩ := List.pairwise_cons.1 h
    rcases Int.lt_trichotomy id n with hlt | rfl | hgt
    · rw [place, if_pos hlt]
      refine List.pairwise_cons.2 ⟨fun row hrow => ?_, h⟩
      rcases List.mem_cons.1 hrow with rfl | hlater
      · exact hlt
      · exact Int.lt_trans hlt (hfirst row hlater)
    · rw [place, if_neg (Int.lt_irrefl id), if_pos rfl]
      exact List.pairwise_cons.2 ⟨hfirst, hrest⟩
    · rw [place, if_neg (Int.lt_asymm hgt), if_neg (Int.ne_of_gt hgt)]
      refine List.pairwise_cons.2 ⟨fun row hrow => ?_, ih hrest⟩
      rcases mem_place hrow with rfl | hold
      · exact hgt
      · exact hfirst row hold

/-- Puts a row under a given number. -/
def put (t : Table α) (id : Id) (a : α) : Table α where
  rows := place id a t.rows
  lastId := max t.lastId id
  ascending := ascending_place id a t.ascending
  le_lastId := by
    intro row hrow
    rcases mem_place hrow with rfl | hold
    · exact Int.le_max_right _ _
    · exact Int.le_trans (t.le_lastId row hold) (Int.le_max_left _ _)

/-- Changes all rows. -/
def mapRows (t : Table α) (f : Id → α → α) : Table α where
  rows := t.rows.map fun (n, a) => (n, f n a)
  lastId := t.lastId
  ascending := List.pairwise_map.2 t.ascending
  le_lastId := by
    intro row hrow
    obtain ⟨old, hold, rfl⟩ := List.mem_map.1 hrow
    exact t.le_lastId old hold

/-- Changes the row with a number, if it is there. -/
def update (t : Table α) (id : Id) (f : α → α) : Table α :=
  t.mapRows fun n a => if n = id then f a else a

/-- Removes the rows that satisfy a test. -/
def remove (t : Table α) (test : Id → α → Bool) : Table α where
  rows := t.rows.filter fun (id, a) => !test id a
  lastId := t.lastId
  ascending := t.ascending.sublist List.filter_sublist
  le_lastId := fun row hrow => t.le_lastId row (List.mem_filter.1 hrow).1

/-- Changing all rows keeps the numbers. -/
@[simp] theorem ids_mapRows (t : Table α) (f : Id → α → α) : (t.mapRows f).ids = t.ids := by
  simp [ids, mapRows, Function.comp_def]

/-- Changing a row keeps the numbers. -/
@[simp] theorem ids_update (t : Table α) (id : Id) (f : α → α) : (t.update id f).ids = t.ids :=
  ids_mapRows t _

/-- A new row has the next number. -/
@[simp] theorem ids_insert (t : Table α) (a : α) : (t.insert a).ids = t.ids ++ [t.nextId] := by
  simp [ids, insert]

/-- Changing all rows shows under each number. -/
theorem find?_mapRows (t : Table α) (id : Id) (f : Id → α → α) :
    (t.mapRows f).find? id = (t.find? id).map (f id) := by
  simp only [find?, mapRows]
  induction t.rows with
  | nil => rfl
  | cons entry rest ih =>
    obtain ⟨n, a⟩ := entry
    rw [List.map_cons, List.lookup_cons, List.lookup_cons]
    by_cases h : id = n
    · subst h
      simp
    · rw [beq_eq_false_iff_ne.2 h]
      exact ih

/-- Changing a row shows under its number and nowhere else. -/
theorem find?_update (t : Table α) (id other : Id) (f : α → α) :
    (t.update id f).find? other =
      if other = id then (t.find? other).map f else t.find? other := by
  rw [update, find?_mapRows]
  by_cases h : other = id
  · simp [h]
  · simp [h]

end Table

end Rulebook
