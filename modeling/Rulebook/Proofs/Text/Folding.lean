import Rulebook.Pattern.Tree
import Rulebook.Proofs.Text.Tables
import Rulebook.Text.Fold

/-!
# Folding and the letters of patterns

Letters are compared without regard to case in two ways.  Texts are folded, and are the same if
their folded forms are.  Patterns compare single letters, which are the same if their lower-case
forms are or share an upper-case form.  The two come from different tables, and neither follows from
the other.

They agree on letters that fold to one letter, with one exception: for patterns `ı` and `İ` are
cases of `i`, while they fold to other texts.  A letter that folds to several, such as `ß`, is the
same as these several for texts, and never for patterns.

That the tables agree is a fact about finitely many code points, and is checked.  All checks stand
in one place (`TablesChecked`).  What is checked is only that each code point agrees with its own
lower-case and folded forms; the rest follows, since both comparisons are equivalences
(`sameLetter_trans`).

## Main definitions

* `foldCodes`, `foldOne` — the folded form of a code point, and that of a character if it is one.
* `TablesChecked` — what is checked of the tables.
* `IsTurkishI` — the letters `ı` and `İ`.

## Main statements

* `foldChar_eq_of_sameLetter` — the same letters have the same folded form, `ı` and `İ` apart.
* `sameLetter_of_foldOne_eq` — letters with the same folded form, of one letter, are the same.
-/

namespace Rulebook.Text

open Rulebook.Pattern Entry

/-- The folded form of a code point. -/
def foldCodes (n : Nat) : List Nat :=
  match foldExpansions.lookup n with
  | some codes => codes
  | none => [foldShifts.apply n]

theorem foldChar_eq_map (c : Char) : foldChar c = (foldCodes c.toNat).map Char.ofNat := by
  rw [foldChar, foldCodes]
  cases foldExpansions.lookup c.toNat <;> rfl

/-! ## Searching in trees -/

namespace Searched

/-- The tables as trees. -/
def foldTree : SearchTree Shift := .ofEntries foldShifts.entries

@[inherit_doc foldTree]
def lowerTree : SearchTree Shift := .ofEntries lowerShifts.entries

@[inherit_doc foldTree]
def expansionTree : SearchTree (List Nat) := .ofEntries (codeEntries foldExpansions)

@[inherit_doc foldTree]
def siblingTree : SearchTree (List Nat) := .ofEntries (codeEntries siblingTable)

/-- The folded form of a code point. -/
def foldCodes (n : Nat) : List Nat :=
  match expansionTree.find? n with
  | some codes => codes
  | none => [foldTree.image n]

/-- The other lower-case letters with the same upper-case form. -/
def siblings (n : Nat) : List Nat := (siblingTree.find? n).getD []

/-- Whether letters are the same for patterns. -/
def sameLetter (letter c : Nat) : Bool :=
  let l := lowerTree.image letter
  let m := lowerTree.image c
  m.beq l || (siblings l).contains m

end Searched

/-! ## What is checked -/

/-- What is checked of the tables, entry by entry: that they are in ascending order and that the
trees have the same entries, that a code point and its image are the same letter, and where the
exceptions are. -/
structure TablesChecked : Prop where
  fold_ordered : foldShifts.entries.IsChain Before
  fold_entries : Searched.foldTree.entries = foldShifts.entries
  lower_ordered : lowerShifts.entries.IsChain Before
  lower_entries : Searched.lowerTree.entries = lowerShifts.entries
  expansion_ordered : (codeEntries foldExpansions).IsChain Before
  expansion_entries : Searched.expansionTree.entries = codeEntries foldExpansions
  sibling_ordered : (codeEntries siblingTable).IsChain Before
  sibling_entries : Searched.siblingTree.entries = codeEntries siblingTable
  lower_folds : lowerShifts.forMoves fun n lower =>
    n == 0x130 || Searched.foldCodes lower == Searched.foldCodes n
  lower_dotless : lowerShifts.forMoves fun _ lower => lower != 0x131
  siblings_fold : ∀ entry ∈ siblingTable, ∀ m ∈ entry.2, entry.1 ≠ 0x131 → m ≠ 0x131 →
    Searched.foldCodes entry.1 = Searched.foldCodes m
  siblings_symm : ∀ entry ∈ siblingTable, ∀ m ∈ entry.2, entry.1 ∈ Searched.siblings m
  siblings_trans : ∀ entry ∈ siblingTable, ∀ m ∈ entry.2, ∀ k ∈ Searched.siblings m,
    k = entry.1 ∨ k ∈ Searched.siblings entry.1
  fold_sameLetter : foldShifts.forMoves Searched.sameLetter
  fold_valid : foldShifts.forMoves fun _ folded => decide folded.isValidChar
  expansion_length : ∀ entry ∈ foldExpansions, entry.2.length ≠ 1
  front_folds : ∀ n < 0x41, Searched.foldCodes n = [n]

theorem tablesChecked : TablesChecked where
  fold_ordered := by decide +kernel
  fold_entries := by decide +kernel
  lower_ordered := by decide +kernel
  lower_entries := by decide +kernel
  expansion_ordered := by decide +kernel
  expansion_entries := by decide +kernel
  sibling_ordered := by decide +kernel
  sibling_entries := by decide +kernel
  lower_folds := by decide +kernel
  lower_dotless := by decide +kernel
  siblings_fold := by decide +kernel
  siblings_symm := by decide +kernel
  siblings_trans := by decide +kernel
  fold_sameLetter := by decide +kernel
  fold_valid := by decide +kernel
  expansion_length := by decide +kernel
  front_folds := by decide +kernel

namespace Searched

theorem image_foldTree (n : Nat) : foldTree.image n = foldShifts.apply n :=
  SearchTree.image_eq (TablesChecked.fold_entries tablesChecked)
    (List.isChain_iff_pairwise.1 (TablesChecked.fold_ordered tablesChecked)) n

theorem image_lowerTree (n : Nat) : lowerTree.image n = lowerCode n :=
  SearchTree.image_eq (TablesChecked.lower_entries tablesChecked)
    (List.isChain_iff_pairwise.1 (TablesChecked.lower_ordered tablesChecked)) n

theorem find?_expansionTree (n : Nat) : expansionTree.find? n = foldExpansions.lookup n :=
  SearchTree.find?_eq_lookup (TablesChecked.expansion_entries tablesChecked)
    (List.isChain_iff_pairwise.1 (TablesChecked.expansion_ordered tablesChecked)) n

theorem find?_siblingTree (n : Nat) : siblingTree.find? n = siblingTable.lookup n :=
  SearchTree.find?_eq_lookup (TablesChecked.sibling_entries tablesChecked)
    (List.isChain_iff_pairwise.1 (TablesChecked.sibling_ordered tablesChecked)) n

theorem foldCodes_eq : foldCodes = Text.foldCodes := by
  funext n
  rw [foldCodes, Text.foldCodes, find?_expansionTree, image_foldTree]

theorem siblings_eq : siblings = Text.siblings := by
  funext n
  rw [siblings, Text.siblings, find?_siblingTree]

theorem sameLetter_eq : sameLetter = Folding.unicode.sameLetter := by
  funext letter c
  rw [sameLetter, image_lowerTree, image_lowerTree, siblings_eq, Bool.eq_iff_iff]
  simp only [Bool.or_eq_true, Nat.beq_eq, Folding.sameLetter, Folding.lower, Folding.siblings,
    beq_iff_eq]

end Searched

/-! ## Lower-case forms -/

/-- A letter folds as its lower-case form does, the capital `İ` apart. -/
theorem foldCodes_lowerCode {n : Nat} (h : n ≠ 0x130) : foldCodes (lowerCode n) = foldCodes n := by
  rcases Shifts.apply_cases (TablesChecked.lower_folds tablesChecked) n with hsame | hchecked
  · rw [lowerCode, hsame]
  · simpa [h, Searched.foldCodes_eq, lowerCode] using hchecked

/-- Only `ı` itself has the lower-case form `ı`. -/
theorem eq_of_lowerCode_eq_dotless {n : Nat} (h : lowerCode n = 0x131) : n = 0x131 := by
  rcases Shifts.apply_cases (TablesChecked.lower_dotless tablesChecked) n with hsame | hchecked
  · exact hsame.symm.trans h
  · exact (bne_iff_ne.1 hchecked h).elim

/-! ## Siblings -/

theorem exists_of_mem_siblings {l m : Nat} (h : m ∈ siblings l) :
    ∃ entry ∈ siblingTable, entry.1 = l ∧ m ∈ entry.2 := by
  rw [siblings] at h
  cases hlookup : siblingTable.lookup l with
  | none => simp [hlookup] at h
  | some ls =>
    rw [hlookup, Option.getD_some] at h
    obtain ⟨before, after, htable, -⟩ := List.lookup_eq_some_iff.1 hlookup
    exact ⟨(l, ls), by rw [htable]; simp, rfl, h⟩

/-- Siblings fold alike, `i` and `ı` apart. -/
theorem foldCodes_eq_of_mem_siblings {l m : Nat} (h : m ∈ siblings l) (hl : l ≠ 0x131)
    (hm : m ≠ 0x131) : foldCodes l = foldCodes m := by
  obtain ⟨entry, hentry, rfl, hmem⟩ := exists_of_mem_siblings h
  rw [← Searched.foldCodes_eq]
  exact TablesChecked.siblings_fold tablesChecked entry hentry m hmem hl hm

theorem siblings_symm {l m : Nat} (h : m ∈ siblings l) : l ∈ siblings m := by
  obtain ⟨entry, hentry, rfl, hmem⟩ := exists_of_mem_siblings h
  rw [← Searched.siblings_eq]
  exact TablesChecked.siblings_symm tablesChecked entry hentry m hmem

theorem siblings_trans {l m k : Nat} (h : m ∈ siblings l) (h' : k ∈ siblings m) :
    k = l ∨ k ∈ siblings l := by
  obtain ⟨entry, hentry, rfl, hmem⟩ := exists_of_mem_siblings h
  rw [← Searched.siblings_eq] at h' ⊢
  exact TablesChecked.siblings_trans tablesChecked entry hentry m hmem k h'

/-! ## The same letter -/

theorem sameLetter_iff {n m : Nat} : Folding.unicode.sameLetter n m = true ↔
    lowerCode m = lowerCode n ∨ lowerCode m ∈ siblings (lowerCode n) := by
  simp [Folding.sameLetter, Folding.lower, Folding.siblings]

theorem sameLetter_symm {n m : Nat} (h : Folding.unicode.sameLetter n m = true) :
    Folding.unicode.sameLetter m n = true := by
  rw [sameLetter_iff] at h ⊢
  exact h.imp Eq.symm siblings_symm

theorem sameLetter_trans {n m k : Nat} (h : Folding.unicode.sameLetter n m = true)
    (h' : Folding.unicode.sameLetter m k = true) : Folding.unicode.sameLetter n k = true := by
  rw [sameLetter_iff] at h h' ⊢
  rcases h with h | h
  · rwa [← h]
  · rcases h' with h' | h'
    · rw [h']
      exact .inr h
    · exact siblings_trans h h'

/-- The same letters have the same folded form, `ı` and `İ` apart. -/
theorem foldCodes_eq_of_sameLetter {n m : Nat} (h : Folding.unicode.sameLetter n m = true)
    (hn : n ≠ 0x130 ∧ n ≠ 0x131) (hm : m ≠ 0x130 ∧ m ≠ 0x131) : foldCodes n = foldCodes m := by
  have hlower : foldCodes (lowerCode n) = foldCodes (lowerCode m) := by
    rcases sameLetter_iff.1 h with h | h
    · rw [h]
    · exact foldCodes_eq_of_mem_siblings h (fun h => hn.2 (eq_of_lowerCode_eq_dotless h))
        (fun h => hm.2 (eq_of_lowerCode_eq_dotless h))
  rwa [foldCodes_lowerCode hn.1, foldCodes_lowerCode hm.1] at hlower

/-- A letter is the same as its folded form, if that is one letter. -/
theorem sameLetter_foldShifts (n : Nat) :
    Folding.unicode.sameLetter n (foldShifts.apply n) = true := by
  rcases Shifts.apply_cases (TablesChecked.fold_sameLetter tablesChecked) n with hsame | hchecked
  · rw [hsame, Folding.sameLetter_self]
  · rwa [Searched.sameLetter_eq] at hchecked

/-- Letters with the same folded form, of one letter, are the same. -/
theorem sameLetter_of_apply_eq {n m : Nat} (h : foldShifts.apply n = foldShifts.apply m) :
    Folding.unicode.sameLetter n m = true := by
  refine sameLetter_trans (sameLetter_foldShifts n) ?_
  rw [h]
  exact sameLetter_symm (sameLetter_foldShifts m)

/-! ## Characters -/

/-- The letters that are cases of `i` for patterns and not for texts. -/
def IsTurkishI (c : Char) : Prop := c = 'ı' ∨ c = 'İ'

/-- Characters that are the same for patterns have the same folded form. -/
theorem foldChar_eq_of_sameLetter {p c : Char} (hp : ¬IsTurkishI p) (hc : ¬IsTurkishI c)
    (h : Folding.unicode.sameLetter p.toNat c.toNat = true) : foldChar p = foldChar c := by
  have hcodes : ∀ {c : Char}, ¬IsTurkishI c → c.toNat ≠ 0x130 ∧ c.toNat ≠ 0x131 := by
    intro c hc
    exact ⟨fun h => hc (.inr (Char.toNat_inj.1 h)), fun h => hc (.inl (Char.toNat_inj.1 h))⟩
  rw [foldChar_eq_map, foldChar_eq_map, foldCodes_eq_of_sameLetter h (hcodes hp) (hcodes hc)]

/-- The folded form of a character that folds to one. -/
def foldOne (c : Char) : Char := Char.ofNat (foldShifts.apply c.toNat)

theorem foldChar_eq_singleton {c : Char} (h : (foldChar c).length = 1) :
    foldChar c = [foldOne c] := by
  rw [foldChar] at h ⊢
  cases hlookup : foldExpansions.lookup c.toNat with
  | none => rfl
  | some codes =>
    obtain ⟨before, after, htable, -⟩ := List.lookup_eq_some_iff.1 hlookup
    rw [hlookup, List.length_map] at h
    have hlength := TablesChecked.expansion_length tablesChecked (c.toNat, codes)
    exact (hlength (by rw [htable]; simp) h).elim

/-- Folding gives characters and not just code points. -/
theorem toNat_foldOne (c : Char) : (foldOne c).toNat = foldShifts.apply c.toNat := by
  rw [foldOne]
  rcases Shifts.apply_cases (TablesChecked.fold_valid tablesChecked) c.toNat with hsame | hchecked
  · rw [hsame, Char.ofNat_toNat]
  · rw [Char.ofNat, dif_pos (of_decide_eq_true hchecked)]
    exact UInt32.toNat_ofNatLT

/-- Characters with the same folded form, of one character, are the same for patterns. -/
theorem sameLetter_of_foldOne_eq {p c : Char} (h : foldOne p = foldOne c) :
    Folding.unicode.sameLetter p.toNat c.toNat = true := by
  have hcodes := congrArg Char.toNat h
  rw [toNat_foldOne, toNat_foldOne] at hcodes
  exact sameLetter_of_apply_eq hcodes

theorem foldChars_eq_map {s : List Char} (h : ∀ c ∈ s, (foldChar c).length = 1) :
    foldChars s = s.map foldOne := by
  induction s with
  | nil => rfl
  | cons c s ih =>
    obtain ⟨hc, hs⟩ := List.forall_mem_cons.1 h
    rw [foldChars_cons, foldChar_eq_singleton hc, ih hs]
    rfl

/-- Characters that come before the letters are not folded. -/
theorem foldChar_of_lt {c : Char} (h : c.toNat < 0x41) : foldChar c = [c] := by
  rw [foldChar_eq_map, ← Searched.foldCodes_eq, TablesChecked.front_folds tablesChecked _ h,
    List.map_singleton, Char.ofNat_toNat]

theorem foldChars_of_forall_lt {s : List Char} (h : ∀ c ∈ s, c.toNat < 0x41) : foldChars s = s := by
  induction s with
  | nil => rfl
  | cons c s ih =>
    obtain ⟨hc, hs⟩ := List.forall_mem_cons.1 h
    rw [foldChars_cons, foldChar_of_lt hc, ih hs]
    rfl

end Rulebook.Text
