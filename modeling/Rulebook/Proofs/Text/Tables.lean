import Mathlib.Data.List.Chain
import Rulebook.Text.Ranges

/-!
# Facts about all entries of a table

A case mapping changes only the code points in the runs of its table, so a fact about all code
points is one about these finitely many, which can be checked (`Shifts.apply_cases`).  Checking
takes a search for each of them.  A table is searched from the front, which is right for texts,
where most characters stand at the front, but not when every entry is asked for.  For the checks the
same table is arranged as a tree, and what the tree gives is what the table gives.

## Main definitions

* `Shift.points` — the code points of a run.
* `Shifts.forMoves` — a test on all code points of the runs and their images.
* `Entry` — the code points that an entry of a table is about, and what it says.
* `SearchTree` — entries arranged for searching by halves.

## Main statements

* `Shifts.apply_cases` — a code point is unchanged or was tested with its image.
* `SearchTree.image_eq`, `SearchTree.find?_eq_lookup` — the tree gives what the table gives.
-/

namespace Rulebook.Text

/-! ## The code points of a mapping -/

/-- The code points of a run. -/
def Shift.points (run : Shift) : List Nat :=
  (List.range ((run.last - run.first) / run.step + 1)).map fun k => run.first + run.step * k

/-- Whether a test holds for all code points of the runs, each with its image. -/
def Shifts.forMoves (runs : Shifts) (p : Nat → Nat → Bool) : Bool :=
  runs.all fun run => run.points.all fun n => p n (Int.ofNat n + run.offset).toNat

theorem Shift.mem_points {run : Shift} {n : Nat} (h : run.moves n = true) : n ∈ run.points := by
  simp only [moves, Bool.and_eq_true, decide_eq_true_eq, beq_iff_eq] at h
  obtain ⟨⟨hfirst, hlast⟩, hmod⟩ := h
  refine List.mem_map.2 ⟨(n - run.first) / run.step, List.mem_range.2 ?_, ?_⟩
  · exact Nat.lt_succ_of_le (Nat.div_le_div_right (Nat.sub_le_sub_right hlast _))
  · rw [Nat.mul_div_cancel' (Nat.dvd_of_mod_eq_zero hmod), Nat.add_sub_cancel' hfirst]

/-- A code point is unchanged or was tested with its image. -/
theorem Shifts.apply_cases {runs : Shifts} {p : Nat → Nat → Bool} (h : runs.forMoves p = true)
    (n : Nat) : runs.apply n = n ∨ p n (runs.apply n) = true := by
  induction runs with
  | nil => exact .inl rfl
  | cons run runs ih =>
    obtain ⟨hrun, hruns⟩ := Bool.and_eq_true_iff.1 h
    rw [apply]
    split
    · exact .inl rfl
    · split
      · next hmoves => exact .inr (List.all_eq_true.1 hrun n (Shift.mem_points hmoves))
      · exact ih hruns

/-! ## Entries in ascending order -/

/-- What a table says about the code points from `first` to `last`. -/
structure Entry (α : Type) where
  first : Nat
  last : Nat
  value : α
deriving DecidableEq

namespace Entry

variable {α : Type}

/-- Whether the entry is about the code point. -/
def covers (e : Entry α) (n : Nat) : Bool := e.first ≤ n && n ≤ e.last

/-- One entry comes before another. -/
def Before (a b : Entry α) : Prop := a.first ≤ a.last ∧ a.last < b.first

instance (a b : Entry α) : Decidable (a.Before b) := inferInstanceAs (Decidable (_ ∧ _))

instance : Trans (Before (α := α)) (Before (α := α)) (Before (α := α)) where
  trans hab hbc := ⟨hab.1, hab.2.trans (Nat.lt_of_le_of_lt hbc.1 hbc.2)⟩

theorem covers_eq_false_of_lt {e : Entry α} {n : Nat} (h : n < e.first) : e.covers n = false := by
  simp [covers, Nat.not_le.2 h]

theorem covers_eq_false_of_gt {e : Entry α} {n : Nat} (h : e.last < n) : e.covers n = false := by
  simp [covers, Nat.not_le.2 h]

/-- Entries that come after one are about code points beyond it. -/
theorem find?_eq_none_of_before {a : Entry α} {l : List (Entry α)} {n : Nat}
    (h : ∀ b ∈ l, a.Before b) (hn : n < a.first ∨ n ≤ a.last) : l.find? (·.covers n) = none := by
  rw [List.find?_eq_none]
  intro b hb
  have hbefore := h b hb
  rw [Before] at hbefore
  rw [covers_eq_false_of_lt (by omega)]
  exact Bool.false_ne_true

end Entry

open Entry

/-- The entries of a case mapping. -/
def Shifts.entries (runs : Shifts) : List (Entry Shift) :=
  runs.map fun run => ⟨run.first, run.last, run⟩

/-- The entries of a table of single code points. -/
def codeEntries (table : List (Nat × List Nat)) : List (Entry (List Nat)) :=
  table.map fun (code, codes) => ⟨code, code, codes⟩

/-- In ascending order, the entry about a code point decides what becomes of it. -/
theorem Shifts.apply_eq_find? {runs : Shifts} (h : runs.entries.Pairwise Before) (n : Nat) :
    runs.apply n = match runs.entries.find? (·.covers n) with
      | some e => if e.value.moves n then (Int.ofNat n + e.value.offset).toNat else n
      | none => n := by
  induction runs with
  | nil => rfl
  | cons run runs ih =>
    change List.Pairwise _ (⟨run.first, run.last, run⟩ :: entries runs) at h
    obtain ⟨hbefore, hruns⟩ := List.pairwise_cons.1 h
    have hrest := ih hruns
    rw [apply, show entries (run :: runs) = ⟨run.first, run.last, run⟩ :: entries runs from rfl]
    rcases Nat.lt_or_ge n run.first with hfirst | hfirst
    · -- The search stops in front of the run.
      rw [if_pos hfirst, List.find?_cons_of_neg (by rw [covers_eq_false_of_lt hfirst]; decide),
        find?_eq_none_of_before hbefore (.inl hfirst)]
    · rw [if_neg (Nat.not_lt.2 hfirst)]
      rcases Nat.lt_or_ge run.last n with hlast | hlast
      · have hmoves : run.moves n = false := by
          simp [Shift.moves, Nat.not_le.2 hlast]
        rw [List.find?_cons_of_neg (by rw [covers_eq_false_of_gt hlast]; decide), hmoves,
          if_neg Bool.false_ne_true, hrest]
      · -- No later run moves a code point that the run passes over.
        rw [find?_eq_none_of_before hbefore (.inr hlast)] at hrest
        rw [List.find?_cons_of_pos (by simp [covers, hfirst, hlast]), hrest]

/-- The entry of a code point is the one that is about it and nothing else. -/
theorem lookup_eq_find? (table : List (Nat × List Nat)) (n : Nat) :
    table.lookup n = ((codeEntries table).find? (·.covers n)).map (·.value) := by
  induction table with
  | nil => rfl
  | cons entry table ih =>
    obtain ⟨code, codes⟩ := entry
    rw [show codeEntries ((code, codes) :: table) =
      ⟨code, code, codes⟩ :: codeEntries table from rfl]
    by_cases h : n = code
    · rw [List.find?_cons_of_pos (by simp [covers, h]), h, List.lookup_cons_self]
      rfl
    · rw [List.find?_cons_of_neg ?_, ← ih, List.lookup_cons, beq_false_of_ne h]
      simp only [covers, Bool.and_eq_true, decide_eq_true_eq]
      omega

/-! ## Search trees -/

/-- Entries arranged for searching by halves. -/
inductive SearchTree (α : Type) where
  | leaf
  | node (left : SearchTree α) (entry : Entry α) (right : SearchTree α)

namespace SearchTree

variable {α : Type} {t : SearchTree α}

/-- The entries from left to right. -/
def entries : SearchTree α → List (Entry α)
  | leaf => []
  | node left entry right => left.entries ++ entry :: right.entries

/-- The first so many entries of a list as a tree, and what is left of the list. -/
def build : Nat → Nat → List (Entry α) → SearchTree α × List (Entry α)
  | 0, _, l => (leaf, l)
  | _, 0, l => (leaf, l)
  | depth + 1, count + 1, l =>
    match build depth (count / 2) l with
    | (left, []) => (left, [])
    | (left, entry :: rest) =>
      let (right, rest) := build depth (count - count / 2) rest
      (node left entry right, rest)

/-- A list of entries as a tree. -/
def ofEntries (l : List (Entry α)) : SearchTree α := (build l.length.log2.succ l.length l).1

/-- The value of the entry about a code point. -/
def find? : SearchTree α → Nat → Option α
  | leaf, _ => none
  | node left entry right, n =>
    bif n.blt entry.first then left.find? n
    else bif n.ble entry.last then some entry.value
    else right.find? n

/-- In ascending order, a tree finds what its list does. -/
theorem find?_eq (h : t.entries.Pairwise Before) (n : Nat) :
    t.find? n = (t.entries.find? (·.covers n)).map (·.value) := by
  induction t with
  | leaf => rfl
  | node left entry right ihleft ihright =>
    obtain ⟨hleft, hentry, hacross⟩ := List.pairwise_append.1 h
    obtain ⟨hbefore, hright⟩ := List.pairwise_cons.1 hentry
    rw [find?, entries, List.find?_append, ihleft hleft, ihright hright]
    simp only [cond_eq_ite, Nat.blt_eq, Nat.ble_eq]
    rcases Nat.lt_or_ge n entry.first with hfirst | hfirst
    · have hnone : (entry :: right.entries).find? (·.covers n) = none := by
        rw [List.find?_cons_of_neg (by rw [covers_eq_false_of_lt hfirst]; decide)]
        exact find?_eq_none_of_before hbefore (.inl hfirst)
      rw [hnone, Option.or_none, if_pos hfirst]
    · have hnone : left.entries.find? (·.covers n) = none := by
        rw [List.find?_eq_none]
        intro e he
        have hbetween := (hacross e he entry List.mem_cons_self).2
        rw [covers_eq_false_of_gt (Nat.lt_of_lt_of_le hbetween hfirst)]
        exact Bool.false_ne_true
      rw [hnone, Option.none_or, if_neg (Nat.not_lt.2 hfirst)]
      rcases Nat.lt_or_ge entry.last n with hlast | hlast
      · rw [List.find?_cons_of_neg (by rw [covers_eq_false_of_gt hlast]; decide),
          if_neg (Nat.not_le.2 hlast)]
      · rw [List.find?_cons_of_pos (by simp [covers, hfirst, hlast]), if_pos hlast]
        rfl

/-- The image of a code point under the case mapping of a tree. -/
def image (t : SearchTree Shift) (n : Nat) : Nat :=
  match t.find? n with
  | some run =>
    bif ((n - run.first) % run.step).beq 0 then (Int.ofNat n + run.offset).toNat else n
  | none => n

/-- The tree of a mapping gives the image. -/
theorem image_eq {t : SearchTree Shift} {runs : Shifts} (ht : t.entries = runs.entries)
    (h : runs.entries.Pairwise Before) (n : Nat) : t.image n = runs.apply n := by
  rw [runs.apply_eq_find? h, image, t.find?_eq (ht ▸ h), ht]
  cases hfind : runs.entries.find? (·.covers n) with
  | none => rfl
  | some e =>
    obtain ⟨run, -, rfl⟩ := List.mem_map.1 (List.mem_of_find?_eq_some hfind)
    have hcovers := List.find?_some hfind
    rw [covers] at hcovers
    simp only [Option.map_some, cond_eq_ite, Nat.beq_eq, Shift.moves, hcovers, Bool.true_and,
      beq_iff_eq]

/-- The tree of a table gives the entry. -/
theorem find?_eq_lookup {t : SearchTree (List Nat)} {table : List (Nat × List Nat)}
    (ht : t.entries = codeEntries table) (h : (codeEntries table).Pairwise Before) (n : Nat) :
    t.find? n = table.lookup n := by
  rw [lookup_eq_find?, t.find?_eq (ht ▸ h), ht]

end SearchTree

end Rulebook.Text
