import Rulebook.Proofs.Condition.CaseRules

/-!
# Ignoring case

A condition that does not regard case matches wherever it would match if it did.  This needs no
knowledge of the tables of letters, which may be as irregular as they like.  It rests on two things
only: folding is done character by character, so that parts of a text become parts of the folded
text, and every letter is the same as itself.

An operator may regard case in two ways at most.  Either it does not, because there is nothing to
compare or because numbers or dates are compared; which of these holds does not depend on case
either.  Or it looks among the texts of the value for one that passes a test, and the test passes
more texts if case is ignored.  `Loosens` says this once for all operators.

## Main definitions

* `Loosens` — how an outcome may depend on the regard to case.
* `loosened`, `tightened` — the operators that match more often when case is ignored, and those that
  match less often.

## Main statements

* `loosens_equal`, `loosens_text`, `loosens_in`, `loosens_glob` — one for each family of operators.
* `ignoring_case_adds_matches` — ignoring case only adds matches.
-/

namespace Rulebook

open Rulebook.Text Rulebook.Pattern

section

/-- The outcome, given whether case is regarded, either does not depend on that, or says whether one
of the value's texts passes a test that passes more texts if it is not. -/
inductive Loosens (actual : FieldValue) (outcome : Bool → Evaluation) : Prop where
  | fixed (b : Bool) (h : ∀ caseSensitive, outcome caseSensitive = .of b)
  | tested (test : Bool → String → Bool)
      (hlooser : ∀ s, test true s = true → test false s = true)
      (h : ∀ caseSensitive, outcome caseSensitive = .of (anyText actual (test caseSensitive)))

section Loosening

variable {actual : FieldValue} {outcome : Bool → Evaluation}

/-- Both outcomes are without complaint, and what matches with regard to case matches without. -/
theorem Loosens.exists_imp (h : Loosens actual outcome) :
    ∃ strict loose, outcome true = .of strict ∧ outcome false = .of loose ∧
      (strict = true → loose = true) := by
  cases h with
  | fixed b h => exact ⟨b, b, h true, h false, id⟩
  | tested test hlooser h =>
    refine ⟨_, _, h true, h false, fun hstrict => ?_⟩
    simp only [anyText, List.any_eq_true] at hstrict ⊢
    obtain ⟨s, hs, htest⟩ := hstrict
    exact ⟨s, hs, hlooser s htest⟩

/-- A test is looser if it holds of folded texts wherever it holds of the texts themselves. -/
theorem Loosens.ofRelation {relation : List Char → List Char → Bool} (expected : String)
    (hrelation : ∀ s t, relation s t = true → relation (foldChars s) (foldChars t) = true)
    (h : ∀ caseSensitive, outcome caseSensitive = .of (anyText actual fun s =>
      relation (foldCase caseSensitive s) (foldCase caseSensitive expected))) :
    Loosens actual outcome :=
  .tested _ (fun _ htest => hrelation _ _ htest) h

end Loosening

/-! ## Parts of folded texts -/

section Folding

variable {s t : List Char}

theorem isPrefixOf_foldChars (h : t.isPrefixOf s = true) :
    (foldChars t).isPrefixOf (foldChars s) = true := by
  obtain ⟨after, rfl⟩ := List.isPrefixOf_iff_prefix.1 h
  exact List.isPrefixOf_iff_prefix.2 ⟨foldChars after, (foldChars_append t after).symm⟩

theorem isSuffixOf_foldChars (h : t.isSuffixOf s = true) :
    (foldChars t).isSuffixOf (foldChars s) = true := by
  obtain ⟨before, rfl⟩ := List.isSuffixOf_iff_suffix.1 h
  exact List.isSuffixOf_iff_suffix.2 ⟨foldChars before, (foldChars_append before t).symm⟩

theorem isPartOf_foldChars (h : isPartOf t s = true) :
    isPartOf (foldChars t) (foldChars s) = true := by
  obtain ⟨before, after, rfl⟩ := isPartOf_iff_infix.1 h
  exact isPartOf_iff_infix.2 ⟨foldChars before, foldChars after, by simp⟩

end Folding

namespace Pattern.Glob

/-- A glob covers more texts if case is ignored. -/
theorem Covers.loosen {glob text : List Char} (h : Covers true glob text) :
    Covers false glob text := by
  obtain ⟨pieces, hpieces, rfl⟩ := h
  refine ⟨pieces, hpieces.imp fun p piece hstands => ?_, rfl⟩
  cases hstands with
  | anyText => exact .anyText _
  | anyChar c => exact .anyChar c
  | letter hstar hmark hsame =>
    obtain rfl := show p = _ from hsame
    exact .letter hstar hmark (Folding.sameLetter_self _ _)

end Pattern.Glob

/-! ## The operators -/

variable [Host]

section Operators

variable (kind : ValueKind) (actual : FieldValue) (expected : String)

omit [Host] in
theorem loosens_equal : Loosens actual (matchEqual kind actual expected) := by
  have hfold : ∀ s t : List Char, decide (s = t) = true →
      decide (foldChars s = foldChars t) = true := by
    intro s t hsame
    rw [of_decide_eq_true hsame, decide_eq_true_eq]
  by_cases hactual : actual = .absent
  · exact .fixed _ fun _ => if_pos hactual
  · unfold matchEqual
    simp only [if_neg hactual]
    -- Whether numbers or dates are compared is decided before case matters.
    split
    · split
      · exact .fixed _ fun _ => rfl
      · exact .ofRelation expected hfold fun _ => rfl
    · split
      · exact .fixed _ fun _ => rfl
      · exact .ofRelation expected hfold fun _ => rfl
    · exact .ofRelation expected hfold fun _ => rfl

omit [Host] in
theorem loosens_text (relation : List Char → List Char → Bool)
    (hrelation : ∀ s t, relation s t = true → relation (foldChars s) (foldChars t) = true) :
    Loosens actual (matchText relation actual expected) := by
  unfold matchText
  split
  · exact .fixed _ fun _ => rfl
  · exact .ofRelation expected hrelation fun _ => rfl

omit [Host] in
theorem loosens_in : Loosens actual (matchIn kind actual expected) := by
  have htexts : ∀ s : String,
      ((splitList expected).map (foldCase true)).contains (foldCase true s) = true →
      ((splitList expected).map (foldCase false)).contains (foldCase false s) = true := by
    intro s hs
    simp only [List.contains_iff_mem, List.mem_map] at hs ⊢
    obtain ⟨entry, hentry, hsame⟩ := hs
    exact ⟨entry, hentry, congrArg foldChars hsame⟩
  by_cases hactual : actual = .absent
  · exact .fixed _ fun _ => if_pos hactual
  · unfold matchIn
    simp only [if_neg hactual]
    split
    · split
      · exact .fixed _ fun _ => rfl
      · exact .tested _ htexts fun _ => rfl
    · exact .tested _ htexts fun _ => rfl

theorem loosens_glob : Loosens actual (matchGlob actual expected) := by
  unfold matchGlob
  split
  · exact .fixed _ fun _ => rfl
  · refine .tested _ (fun s hs => ?_) fun _ => rfl
    rw [globCovers_iff] at hs ⊢
    exact hs.loosen

end Operators

/-! ## Conditions -/

/-- The operators that match more often when case is ignored. -/
def loosened : List Operator :=
  [.equals, .contains, .startsWith, .endsWith, .inList, .wildcard]

/-- The operators that match less often when case is ignored. -/
def tightened : List Operator := [.notEquals, .notContains, .notInList]

section Conditions

variable (op : Operator) (kind : ValueKind) (actual : FieldValue) (expected : String)

/-- The operator has no complaint, and what matches with regard to case matches without. -/
def AddsMatches : Prop :=
  ∃ strict loose, evaluate op kind actual expected true = .ok (.of strict) ∧
    evaluate op kind actual expected false = .ok (.of loose) ∧ (strict = true → loose = true)

/-- The operator has no complaint, and what matches without regard to case matches with it. -/
def RemovesMatches : Prop :=
  ∃ strict loose, evaluate op kind actual expected true = .ok (.of strict) ∧
    evaluate op kind actual expected false = .ok (.of loose) ∧ (loose = true → strict = true)

variable {op kind actual expected} {outcome : Bool → Evaluation}

theorem Loosens.addsMatches (h : Loosens actual outcome)
    (hevaluate : ∀ caseSensitive,
      evaluate op kind actual expected caseSensitive = .ok (outcome caseSensitive)) :
    AddsMatches op kind actual expected := by
  obtain ⟨strict, loose, hstrict, hloose, himp⟩ := h.exists_imp
  exact ⟨strict, loose, by rw [hevaluate, hstrict], by rw [hevaluate, hloose], himp⟩

/-- The opposite of an operator that adds matches removes them. -/
theorem Loosens.removesMatches (h : Loosens actual outcome)
    (hevaluate : ∀ caseSensitive,
      evaluate op kind actual expected caseSensitive = .ok (outcome caseSensitive).invert) :
    RemovesMatches op kind actual expected := by
  obtain ⟨strict, loose, hstrict, hloose, himp⟩ := h.exists_imp
  refine ⟨!strict, !loose, by rw [hevaluate, hstrict, Evaluation.invert_of],
    by rw [hevaluate, hloose, Evaluation.invert_of], ?_⟩
  simpa using mt himp

end Conditions

/-- Ignoring case only adds matches: each of the operators that look for something succeeds and has
no complaint, whether case is regarded or not, and what it finds if case is regarded it finds if
case is ignored.  Their opposites only lose matches. -/
theorem ignoring_case_adds_matches (kind : ValueKind) (actual : FieldValue) (expected : String) :
    (∀ op ∈ loosened, AddsMatches op kind actual expected) ∧
      ∀ op ∈ tightened, RemovesMatches op kind actual expected := by
  have hequal := loosens_equal kind actual expected
  have hin := loosens_in kind actual expected
  have hcontains := loosens_text actual expected (fun s t => isPartOf t s) fun _ _ =>
    isPartOf_foldChars
  have hstarts := loosens_text actual expected (fun s t => t.isPrefixOf s) fun _ _ =>
    isPrefixOf_foldChars
  have hends := loosens_text actual expected (fun s t => t.isSuffixOf s) fun _ _ =>
    isSuffixOf_foldChars
  have hglob := loosens_glob actual expected
  constructor
  · simp only [loosened, List.mem_cons, List.not_mem_nil, or_false]
    rintro op (rfl | rfl | rfl | rfl | rfl | rfl)
    · exact hequal.addsMatches fun _ => rfl
    · exact hcontains.addsMatches fun _ => rfl
    · exact hstarts.addsMatches fun _ => rfl
    · exact hends.addsMatches fun _ => rfl
    · exact hin.addsMatches fun _ => rfl
    · exact hglob.addsMatches fun _ => rfl
  · simp only [tightened, List.mem_cons, List.not_mem_nil, or_false]
    rintro op (rfl | rfl | rfl)
    · exact hequal.removesMatches fun _ => rfl
    · exact hcontains.removesMatches fun _ => rfl
    · exact hin.removesMatches fun _ => rfl

end

/-- A tag that is in a list is in it when case is ignored, and then it is not absent from it. -/
theorem ignoring_case_of_tags :
    .inList ∈ loosened ∧ .notInList ∈ tightened ∧
      evaluate .inList .tags (.names ["Miete", "Straße"]) "Auto, Straße" false = .ok (.of true) ∧
      evaluate .notInList .tags (.names ["Miete", "Straße"]) "Auto, Straße" false =
        .ok (.of false) := by
  obtain ⟨hadds, hremoves⟩ :=
    ignoring_case_adds_matches .tags (.names ["Miete", "Straße"]) "Auto, Straße"
  have hloosened : .inList ∈ loosened := by simp [loosened]
  have htightened : .notInList ∈ tightened := by simp [tightened]
  have hfound :
      (matchIn .tags (.names ["Miete", "Straße"]) "Auto, Straße" true).matched = true := by
    decide +kernel
  have hpresent :
      (matchIn .tags (.names ["Miete", "Straße"]) "Auto, Straße" true).invert.matched = false := by
    decide +kernel
  obtain ⟨strict, loose, hstrict, hloose, himp⟩ := hadds _ hloosened
  obtain ⟨strict', loose', hstrict', hloose', himp'⟩ := hremoves _ htightened
  obtain rfl : strict = true :=
    (congrArg Evaluation.matched (Except.ok.inj hstrict)).symm.trans hfound
  obtain rfl : strict' = false :=
    (congrArg Evaluation.matched (Except.ok.inj hstrict')).symm.trans hpresent
  refine ⟨hloosened, htightened, by rw [hloose, himp rfl], ?_⟩
  rw [hloose', Bool.eq_false_iff.2 fun h => Bool.false_ne_true (himp' h)]

end Rulebook
