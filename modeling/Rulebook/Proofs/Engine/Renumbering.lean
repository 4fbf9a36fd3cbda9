import Mathlib.Data.List.Nodup
import Mathlib.Data.List.Perm.Subperm
import Rulebook.Proofs.Engine.Account
import Rulebook.Proofs.Ledger.Ownership
import Rulebook.Proofs.Ledger.Change

/-!
# Labels under other numbers

The numbers that new labels get depend on which labels were added before.  Two runs that come to the
same labels in another order therefore end in stores that are not equal, although nobody who looks
at owners and names can tell them apart.  Here is what it means that two stores agree up to such
numbers, and what can be concluded from it.

Both stores come from one base, to which labels of one user were added (`Store.GainsLabels`).  Two
numbers stand for the same label if they are equal and were given out in the base, or if both are
new and the rows are equal (`Store.SameLabel`).  The second case needs no more than that, since a
user has at most one new label of a name.  As labels are only added, numbers that stand for the same
label go on to do so, and this is what makes the relation fit for runs.

## Main definitions

* `Store.newLabels`, `Store.GainsLabels` — which labels were added to a base.
* `Store.SameLabel` — two numbers stand for the same label.
* `Transaction.Renumbered`, `Store.SameFor` — rows and tags that agree up to the numbers of labels.
* `Store.AgreesByName` — two stores agree as far as owners and names of labels tell.

## Main statements

* `Store.perm_labels` — labels that stand for each other are the same labels.
* `Store.SameFor.byName_eq`, `Store.SameFor.perm_tags` — what agrees up to numbers agrees by owner
  and name.
-/

namespace Rulebook

/-- The label of a name that the engine adds for a user. -/
def Label.created (user : Id) (name : String) : Label := ⟨user, name, createdDescription, none⟩

/-! ## Labels that were added -/

namespace Store

/-- The labels that a later store has under new numbers. -/
def newLabels (base s : Store) (kind : LabelKind) : List Label :=
  (base.labels kind).added (s.labels kind)

theorem newLabels_congr {base s t : Store} {kind : LabelKind}
    (h : t.labels kind = s.labels kind) : base.newLabels t kind = base.newLabels s kind := by
  rw [newLabels, h, newLabels]

/-- Labels of the user were added, each under one of the names, and under none that the user had
given to a label before. -/
structure GainsLabels (user : Id) (names : List String) (base s : Store) : Prop where
  labels : ∀ kind, s.labels kind = (base.labels kind).insertAll (base.newLabels s kind)
  nodup : ∀ kind, (base.newLabels s kind).Nodup
  created : ∀ kind, ∀ l ∈ base.newLabels s kind,
    ∃ name ∈ names, l = .created user name ∧ base.labelNamed? kind user name = none

variable {user : Id} {names : List String} {base s t : Store} {kind : LabelKind} {i j : Id}
  {l : Label} {name : String}

/-- A name is taken as soon as there is a label. -/
theorem exists_labelNamed? (h : (s.labels kind).find? i = some l) :
    ∃ found, s.labelNamed? kind l.user l.name = some found := by
  refine Option.isSome_iff_exists.1 (List.find?_isSome.2 ⟨(i, l), Table.mem_rows_of_find? h, ?_⟩)
  simp

theorem gainsLabels_refl (user : Id) (names : List String) (s : Store) :
    s.GainsLabels user names s := by
  have hnone : ∀ kind, s.newLabels s kind = [] := fun kind => Table.added_self _
  refine ⟨fun kind => ?_, fun kind => ?_, fun kind => ?_⟩ <;> rw [hnone]
  · rfl
  · exact List.nodup_nil
  · exact fun l hl => nomatch hl

namespace GainsLabels

theorem grows (hs : base.GainsLabels user names s) (kind : LabelKind) :
    (base.labels kind).Grows (s.labels kind) := by
  have hgrows := Table.grows_insertAll (base.labels kind) (base.newLabels s kind)
  rwa [← hs.labels kind] at hgrows

theorem find?_of_le (hs : base.GainsLabels user names s) (hi : i ≤ (base.labels kind).lastId) :
    (s.labels kind).find? i = (base.labels kind).find? i := by
  rw [hs.labels kind, Table.find?_insertAll_of_le hi]

/-- No new label is there twice. -/
theorem unique (hs : base.GainsLabels user names s) (hi : (base.labels kind).lastId < i)
    (hj : (base.labels kind).lastId < j) (hfind : (s.labels kind).find? i = some l)
    (hfind' : (s.labels kind).find? j = some l) : j = i := by
  have hmem : ∀ {n : Id}, (base.labels kind).lastId < n → (s.labels kind).find? n = some l →
      (n, l) ∈ (s.labels kind).rows.filter fun row => (base.labels kind).lastId < row.1 :=
    fun hn hfind => List.mem_filter.2 ⟨Table.mem_rows_of_find? hfind, decide_eq_true hn⟩
  exact congrArg Prod.fst
    (List.inj_on_of_nodup_map (hs.nodup kind) (hmem hj hfind') (hmem hi hfind) rfl)

/-- No more labels were added than there are names. -/
theorem lastId_le (hs : base.GainsLabels user names s) (kind : LabelKind) :
    (s.labels kind).lastId ≤ (base.labels kind).lastId + names.length := by
  have hsubset : base.newLabels s kind ⊆ names.map (Label.created user) := by
    intro l hl
    obtain ⟨name, hname, rfl, -⟩ := hs.created kind l hl
    exact List.mem_map_of_mem hname
  have hlength := ((hs.nodup kind).subperm hsubset).length_le
  rw [List.length_map] at hlength
  rw [hs.labels kind, Table.lastId_insertAll]
  exact Int.add_le_add_left (Int.ofNat_le.2 hlength) _

/-- A label that has a name of the user had it in the base, or it is a new one. -/
theorem of_labelNamed? (hs : base.GainsLabels user names s)
    (h : s.labelNamed? kind user name = some (i, l)) :
    base.labelNamed? kind user name = some (i, l) ∨
      base.labelNamed? kind user name = none ∧ (base.labels kind).lastId < i ∧
        l = .created user name ∧ l ∈ base.newLabels s kind := by
  obtain ⟨hfind, huser, hname⟩ := labelNamed?_eq_some h
  rcases hbase : base.labelNamed? kind user name with _ | found
  · have hnew : (base.labels kind).lastId < i := by
      -- An older label would have had the name before.
      by_contra hold
      rw [hs.find?_of_le (Int.not_lt.1 hold)] at hfind
      obtain ⟨found, hfound⟩ := exists_labelNamed? hfind
      rw [huser, hname, hbase] at hfound
      cases hfound
    have hmem := Table.mem_added.2 ⟨i, hnew, hfind⟩
    obtain ⟨name', -, rfl, -⟩ := hs.created kind l hmem
    cases hname
    exact Or.inr ⟨rfl, hnew, rfl, hmem⟩
  · rw [labelNamed?_of_grows (hs.grows kind) hbase] at h
    exact Or.inl h

/-- The name of a new label is that label's. -/
theorem labelNamed?_of_mem (hs : base.GainsLabels user names s)
    (hmem : .created user name ∈ base.newLabels s kind) :
    ∃ i, s.labelNamed? kind user name = some (i, .created user name) ∧
      (base.labels kind).lastId < i := by
  obtain ⟨n, -, hfind⟩ := Table.mem_added.1 hmem
  obtain ⟨⟨i, l⟩, hnamed⟩ := exists_labelNamed? hfind
  obtain ⟨name', -, hl, hnone⟩ := hs.created kind _ hmem
  cases hl
  rcases hs.of_labelNamed? hnamed with hbase | ⟨-, hnew, rfl, -⟩
  · cases hnone.symm.trans hbase
  · exact ⟨i, hnamed, hnew⟩

/-- The base does not matter for what does not touch the labels. -/
theorem of_labels (hs : base.GainsLabels user names s)
    (hlabels : ∀ kind, t.labels kind = s.labels kind) : base.GainsLabels user names t := by
  have hnew : ∀ kind, base.newLabels t kind = base.newLabels s kind :=
    fun kind => newLabels_congr (hlabels kind)
  refine ⟨fun kind => ?_, fun kind => ?_, fun kind => ?_⟩ <;> rw [hnew]
  · rw [hlabels]
    exact hs.labels kind
  · exact hs.nodup kind
  · exact hs.created kind

end GainsLabels

/-- The label that is added is the last of the new ones. -/
theorem newLabels_addLabel (hs : base.GainsLabels user names s) (kind other : LabelKind)
    (l : Label) :
    base.newLabels (s.setLabels ((s.labels kind).insert l) kind) other =
      base.newLabels s other ++ if other = kind then [l] else [] := by
  rw [newLabels]
  split
  · next heq =>
    subst heq
    rw [labels_setLabels, Table.added_insert (hs.grows other).lastId, newLabels]
  · next hne =>
    rw [labels_setLabels_of_ne hne, List.append_nil, newLabels]

/-- A label is added under a name that the user has not given to any label. -/
theorem GainsLabels.addLabel (hs : base.GainsLabels user names s) (hname : name ∈ names)
    (hnone : s.labelNamed? kind user name = none) :
    base.GainsLabels user names
      (s.setLabels ((s.labels kind).insert (.created user name)) kind) := by
  have hfresh : .created user name ∉ base.newLabels s kind := by
    intro hmem
    obtain ⟨i, hi, -⟩ := hs.labelNamed?_of_mem hmem
    rw [hnone] at hi
    cases hi
  have hbase : base.labelNamed? kind user name = none := by
    rcases h : base.labelNamed? kind user name with _ | found
    · rfl
    · rw [labelNamed?_of_grows (hs.grows kind) h] at hnone
      cases hnone
  refine ⟨fun other => ?_, fun other => ?_, fun other => ?_⟩ <;>
    rw [newLabels_addLabel hs] <;> by_cases hother : other = kind
  · subst hother
    rw [if_pos rfl, labels_setLabels, Table.insertAll_append, ← hs.labels]
    rfl
  · rw [if_neg hother, List.append_nil, labels_setLabels_of_ne hother]
    exact hs.labels other
  · subst hother
    rw [if_pos rfl]
    exact List.nodup_append.2 ⟨hs.nodup other, List.nodup_singleton _, fun a ha b hb => by
      rw [List.mem_singleton.1 hb]
      exact ne_of_mem_of_not_mem ha hfresh⟩
  · rw [if_neg hother, List.append_nil]
    exact hs.nodup other
  · subst hother
    rw [if_pos rfl]
    refine List.forall_mem_append.2 ⟨hs.created other, fun l hl => ?_⟩
    exact ⟨name, hname, List.mem_singleton.1 hl, hbase⟩
  · rw [if_neg hother, List.append_nil]
    exact hs.created other

/-! ## Numbers of the same label -/

/-- The number in the one store and the number in the other stand for the same label: it has the
same number since the base, or it is new in both. -/
def SameLabel (base s t : Store) (kind : LabelKind) (i j : Id) : Prop :=
  i = j ∧ i ≤ (base.labels kind).lastId ∨
    (base.labels kind).lastId < i ∧ (base.labels kind).lastId < j ∧
      ∃ l, (s.labels kind).find? i = some l ∧ (t.labels kind).find? j = some l

theorem sameLabel_of_le (hi : i ≤ (base.labels kind).lastId) : SameLabel base s t kind i i :=
  Or.inl ⟨rfl, hi⟩

/-- A label of the base has its number in both stores. -/
theorem sameLabel_of_find? (h : (base.labels kind).find? i = some l) :
    SameLabel base s t kind i i := sameLabel_of_le (Table.le_lastId_of_find? h)

namespace SameLabel

theorem symm (h : SameLabel base s t kind i j) : SameLabel base t s kind j i := by
  rcases h with ⟨rfl, hi⟩ | ⟨hi, hj, l, hfind, hfind'⟩
  · exact Or.inl ⟨rfl, hi⟩
  · exact Or.inr ⟨hj, hi, l, hfind', hfind⟩

/-- Labels are only added, so that they go on to be the same. -/
theorem grows {s' t' : Store} (h : SameLabel base s t kind i j)
    (hs : (s.labels kind).Grows (s'.labels kind)) (ht : (t.labels kind).Grows (t'.labels kind)) :
    SameLabel base s' t' kind i j :=
  h.imp_right fun ⟨hi, hj, l, hfind, hfind'⟩ => ⟨hi, hj, l, hs.find? hfind, ht.find? hfind'⟩

theorem find?_eq (h : SameLabel base s t kind i j) (hs : base.GainsLabels user names s)
    (ht : base.GainsLabels user names t) : (t.labels kind).find? j = (s.labels kind).find? i := by
  rcases h with ⟨rfl, hi⟩ | ⟨-, -, l, hfind, hfind'⟩
  · rw [hs.find?_of_le hi, ht.find?_of_le hi]
  · rw [hfind, hfind']

/-- A number that was given out in the base stands for itself only. -/
theorem eq_iff {n : Id} (h : SameLabel base s t kind i j) (hn : n ≤ (base.labels kind).lastId) :
    i = n ↔ j = n := by
  rcases h with ⟨rfl, -⟩ | ⟨hi, hj, -⟩
  · exact Iff.rfl
  · exact ⟨fun heq => absurd hn (Int.not_le.2 (heq ▸ hi)),
      fun heq => absurd hn (Int.not_le.2 (heq ▸ hj))⟩

end SameLabel

/-- Labels that satisfy tests in two stores are the same labels, if every number that passes stands
for the same label as a number that passes in the other store. -/
theorem perm_labels (hs : base.GainsLabels user names s) (ht : base.GainsLabels user names t)
    {p q : Id → Bool}
    (hpq : ∀ i l, (s.labels kind).find? i = some l → p i = true →
      ∃ j, SameLabel base s t kind i j ∧ q j = true)
    (hqp : ∀ j l, (t.labels kind).find? j = some l → q j = true →
      ∃ i, SameLabel base s t kind i j ∧ p i = true) :
    (((s.labels kind).filter fun i _ => p i).map (·.2)).Perm
      (((t.labels kind).filter fun j _ => q j).map (·.2)) := by
  -- New numbers are forgotten; then no label of either side is there twice.
  let f : Id × Label → Id × Label := fun row => (min row.1 ((base.labels kind).lastId + 1), row.2)
  have hnodup : ∀ {u : Store} (r : Id → Bool), base.GainsLabels user names u →
      (((u.labels kind).filter fun i _ => r i).map f).Nodup := by
    intro u r hu
    have hrows : (u.labels kind).rows.Nodup :=
      (u.labels kind).ascending.imp fun hlt heq => Int.ne_of_lt hlt (congrArg Prod.fst heq)
    refine (hrows.filter _).map_on ?_
    rintro ⟨i, l⟩ hi ⟨j, l'⟩ hj heq
    obtain ⟨hnumber, rfl⟩ := Prod.mk.inj heq
    have hfind := Table.find?_eq_some_of_mem (List.mem_filter.1 hi).1
    have hfind' := Table.find?_eq_some_of_mem (List.mem_filter.1 hj).1
    dsimp only at hnumber
    by_cases hnew : (base.labels kind).lastId < i ∧ (base.labels kind).lastId < j
    · rw [hu.unique hnew.2 hnew.1 hfind' hfind]
    · have hsame : i = j := by
        have hbound : ∀ a b c : Int, min a (c + 1) = min b (c + 1) → ¬(c < a ∧ c < b) → a = b := by
          omega
        exact hbound _ _ _ hnumber hnew
      rw [hsame]
  have hstep : ∀ {u v : Store} {r r' : Id → Bool}, base.GainsLabels user names u →
      base.GainsLabels user names v →
      (∀ i l, (u.labels kind).find? i = some l → r i = true →
        ∃ j, SameLabel base u v kind i j ∧ r' j = true) →
      ∀ row, row ∈ ((u.labels kind).filter fun i _ => r i).map f →
        row ∈ ((v.labels kind).filter fun i _ => r' i).map f := by
    rintro u v r r' hu hv h _ hrow
    obtain ⟨⟨i, l⟩, hmem, rfl⟩ := List.mem_map.1 hrow
    obtain ⟨hrow, hpass⟩ := List.mem_filter.1 hmem
    have hfind := Table.find?_eq_some_of_mem hrow
    obtain ⟨j, hsame, hpass'⟩ := h i l hfind hpass
    have hfind' := (hsame.find?_eq hu hv).trans hfind
    refine List.mem_map.2 ⟨(j, l), List.mem_filter.2 ⟨Table.mem_rows_of_find? hfind', hpass'⟩, ?_⟩
    refine Prod.ext ?_ rfl
    dsimp only [f]
    rcases hsame with ⟨rfl, -⟩ | ⟨hi, hj, -⟩
    · rfl
    · rw [Int.min_eq_right (Int.add_one_le_of_lt hi), Int.min_eq_right (Int.add_one_le_of_lt hj)]
  have hperm := (List.perm_ext_iff_of_nodup (hnodup p hs) (hnodup q ht)).2 fun row =>
    ⟨hstep hs ht hpq row, hstep ht hs (fun j l hfind hpass => by
      obtain ⟨i, hsame, hi⟩ := hqp j l hfind hpass
      exact ⟨i, hsame.symm, hi⟩) row⟩
  have hlabels := hperm.map (·.2)
  rwa [List.map_map, List.map_map] at hlabels

end Store

/-! ## Rows and tags -/

/-- What is related closely is related less closely. -/
theorem optionRel_mono {α β : Type} {R S : α → β → Prop} {a : Option α} {b : Option β}
    (h : Option.Rel R a b) (hRS : ∀ a b, R a b → S a b) : Option.Rel S a b := by
  cases h with
  | none => exact .none
  | some hab => exact .some (hRS _ _ hab)

/-- The row without its category and merchant. -/
def Transaction.unlabelled (t : Transaction) : Transaction :=
  { t with category := none, merchant := none }

/-- The rows agree up to the numbers of their labels. -/
structure Transaction.Renumbered (base s t : Store) (a b : Transaction) : Prop where
  rest : b.unlabelled = a.unlabelled
  roles : ∀ role : LabelRole,
    Option.Rel (base.SameLabel s t role.kind) (role.inRow a) (role.inRow b)

namespace Transaction

variable {base s t s' t' : Store} {a b row row' : Transaction}

theorem unlabelled_copy (source t : Transaction) (field : TransactionField) :
    (field.copy source t).unlabelled = (field.copy source.unlabelled t.unlabelled).unlabelled := by
  cases field <;> rfl

theorem inRow_copy (source t : Transaction) (field : TransactionField) (role : LabelRole) :
    role.inRow (field.copy source t) =
      if field = role.field then role.inRow source else role.inRow t := by
  cases field <;> cases role <;> rfl

namespace Renumbered

theorem grows (h : Renumbered base s t a b) (hs : ∀ kind, (s.labels kind).Grows (s'.labels kind))
    (ht : ∀ kind, (t.labels kind).Grows (t'.labels kind)) : Renumbered base s' t' a b where
  rest := h.rest
  roles role :=
    optionRel_mono (h.roles role) fun _ _ hsame => hsame.grows (hs role.kind) (ht role.kind)

/-- Fields of rows that agree are copied to rows that agree. -/
theorem copyFields (h : Renumbered base s t a b) (hrow : Renumbered base s t row row')
    (fields : List TransactionField) :
    Renumbered base s t (copyFields a fields row) (copyFields b fields row') := by
  have hstart : Renumbered base s t { row with updatedAt := a.updatedAt }
      { row' with updatedAt := b.updatedAt } := by
    refine ⟨?_, hrow.roles⟩
    have hrest := hrow.rest
    have htime := congrArg Transaction.updatedAt h.rest
    simp only [unlabelled, mk.injEq] at hrest htime ⊢
    simp [hrest, htime]
  rw [Rulebook.copyFields, Rulebook.copyFields]
  generalize { row with updatedAt := a.updatedAt } = x at hstart ⊢
  generalize { row' with updatedAt := b.updatedAt } = y at hstart ⊢
  induction fields generalizing x y with
  | nil => exact hstart
  | cons field rest ih =>
      rw [List.foldl_cons, List.foldl_cons]
      refine ih _ _ ⟨?_, fun role => ?_⟩
      · rw [unlabelled_copy, h.rest, hstart.rest, ← unlabelled_copy]
      · rw [inRow_copy, inRow_copy]
        split
        · exact h.roles role
        · exact hstart.roles role

end Renumbered

end Transaction

/-- The row and the tags of a transaction agree in the two stores up to the numbers of labels. -/
structure Store.SameFor (base s t : Store) (id : Id) : Prop where
  row : Option.Rel (Transaction.Renumbered base s t) (s.transactions.find? id)
    (t.transactions.find? id)
  tags : ∀ i, s.hasLink id i = true → ∃ j, base.SameLabel s t .tag i j ∧ t.hasLink id j = true
  tags' : ∀ j, t.hasLink id j = true → ∃ i, base.SameLabel s t .tag i j ∧ s.hasLink id i = true

/-! ## Stores that agree by name -/

/-- Owner and name of the label with a number. -/
def Store.labelKey (s : Store) (kind : LabelKind) (id : Id) : Option (Id × String) :=
  ((s.labels kind).find? id).map Label.key

/-- What the row holds, its labels given by owner and name. -/
def Transaction.byName (s : Store) (t : Transaction) :
    Transaction × (LabelRole → Option (Option (Id × String))) :=
  (t.unlabelled, fun role => (role.inRow t).map (s.labelKey role.kind))

/-- The stores have the same labels and transactions, and the transactions have the same tags, where
labels are compared by owner and name. -/
structure Store.AgreesByName (s t : Store) : Prop where
  labels : ∀ kind, ((s.labels kind).rows.map (·.2.key)).Perm ((t.labels kind).rows.map (·.2.key))
  rows : ∀ id, (s.transactions.find? id).map (·.byName s) =
    (t.transactions.find? id).map (·.byName t)
  tags : ∀ id, ((s.tagsOf id).map (·.2.key)).Perm ((t.tagsOf id).map (·.2.key))

namespace Store.SameFor

variable {user : Id} {names : List String} {base s t : Store} {id : Id}

theorem grows {s' t' : Store} (h : base.SameFor s t id)
    (hs : ∀ kind, (s.labels kind).Grows (s'.labels kind))
    (ht : ∀ kind, (t.labels kind).Grows (t'.labels kind))
    (hrow : s'.transactions.find? id = s.transactions.find? id)
    (hrow' : t'.transactions.find? id = t.transactions.find? id)
    (hlinks : ∀ tag, s'.hasLink id tag = s.hasLink id tag)
    (hlinks' : ∀ tag, t'.hasLink id tag = t.hasLink id tag) : base.SameFor s' t' id where
  row := by
    rw [hrow, hrow']
    exact optionRel_mono h.row fun _ _ hboth => hboth.grows hs ht
  tags i hi := by
    rw [hlinks] at hi
    obtain ⟨j, hsame, hj⟩ := h.tags i hi
    exact ⟨j, hsame.grows (hs .tag) (ht .tag), (hlinks' j).trans hj⟩
  tags' j hj := by
    rw [hlinks'] at hj
    obtain ⟨i, hsame, hi⟩ := h.tags' j hj
    exact ⟨i, hsame.grows (hs .tag) (ht .tag), (hlinks i).trans hi⟩

/-- The rows are the same when their labels are given by owner and name. -/
theorem byName_eq (h : base.SameFor s t id) (hs : base.GainsLabels user names s)
    (ht : base.GainsLabels user names t) :
    (t.transactions.find? id).map (·.byName t) = (s.transactions.find? id).map (·.byName s) := by
  have hrow := h.row
  generalize s.transactions.find? id = a at hrow ⊢
  generalize t.transactions.find? id = b at hrow ⊢
  cases hrow with
  | none => rfl
  | @some a b hboth =>
      refine congrArg some (Prod.ext hboth.rest (funext fun role => ?_))
      have hrole := hboth.roles role
      dsimp only [Transaction.byName]
      generalize role.inRow a = i at hrole ⊢
      generalize role.inRow b = j at hrole ⊢
      cases hrole with
      | none => rfl
      | some hsame =>
          rw [Option.map_some, Option.map_some, labelKey, labelKey, hsame.find?_eq hs ht]

/-- The tags are the same labels. -/
theorem perm_tags (h : base.SameFor s t id) (hs : base.GainsLabels user names s)
    (ht : base.GainsLabels user names t) :
    ((s.tagsOf id).map (·.2)).Perm ((t.tagsOf id).map (·.2)) := by
  have hlabels : (((s.labels .tag).filter fun i _ => s.hasLink id i).map (·.2)).Perm
      (((t.labels .tag).filter fun j _ => t.hasLink id j).map (·.2)) :=
    perm_labels hs ht (fun i _ _ hi => h.tags i hi) fun j _ _ hj => h.tags' j hj
  have hsorted : ∀ u : Store, ((u.tagsOf id).map (·.2)).Perm
      ((u.tags.filter fun tag _ => u.hasLink id tag).map (·.2)) :=
    fun u => (List.mergeSort_perm _ _).map _
  exact ((hsorted s).trans hlabels).trans (hsorted t).symm

/-- Tags that are the same have the same names, in the same order. -/
theorem tagNames_eq (h : base.SameFor s t id) (hs : base.GainsLabels user names s)
    (ht : base.GainsLabels user names t) :
    (t.tagsOf id).map (·.2.name) = (s.tagsOf id).map (·.2.name) := by
  have hsorted : ∀ u : Store, ((u.tagsOf id).map (·.2.name)).Pairwise (· ≤ ·) := by
    intro u
    refine List.pairwise_map.2 ((List.pairwise_mergeSort ?_ ?_ _).imp of_decide_eq_true)
    · intro a b c hab hbc
      exact decide_eq_true (String.le_trans (of_decide_eq_true hab) (of_decide_eq_true hbc))
    · intro a b
      simpa using String.le_total a.2.name b.2.name
  have hnames := (h.perm_tags hs ht).map Label.name
  rw [List.map_map, List.map_map] at hnames
  exact hnames.symm.eq_of_pairwise (fun _ _ _ _ => String.le_antisymm) (hsorted t) (hsorted s)

end Store.SameFor

end Rulebook
