import Rulebook.Proofs.Pattern.Glob
import Rulebook.Proofs.Text.Folding

/-!
# Globs and the operators for texts

A glob without marks, with or without a star in front of it and behind it, asks what one of the
operators for texts asks: whether a text is another one, begins or ends with it, or contains it.
With regard to case the answers are the same.  Without it they need not be, since globs compare
letter by letter and texts are folded first.

The comparison is made where both operators say the same thing, namely that some part of the text,
at a place that the stars allow, is the same as the wanted text (`HasPart`).  What "the same" means
is all that is left to compare, and that is a matter of the tables.

## Main definitions

* `globAround`, `textOperator` — a text with stars around it, and the operator that asks for the
  same.
* `HasPart` — a text has a part at an allowed place.

## Main statements

* `covers_globAround_iff`, `textRelation_iff` — what the two operators ask for.
* `wildcard_like_text` — where their answers are the same.
-/

namespace Rulebook

open Rulebook.Text Rulebook.Pattern

section

/-- The kinds of values that are texts. -/
def ValueKind.IsTextual (kind : ValueKind) : Prop := kind = .text ∨ kind = .relation ∨ kind = .tags

/-- A text with stars where they are asked for. -/
def globAround (before after : Bool) (w : String) : String :=
  (if before then "*" else "") ++ w ++ (if after then "*" else "")

/-- The operator for texts that asks for the same. -/
def textOperator (before after : Bool) : Operator :=
  match before, after with
  | false, false => .equals
  | false, true => .startsWith
  | true, false => .endsWith
  | true, true => .contains

/-- A text has a part of a kind.  Something may stand in front of the part, and after it, only where
this is allowed. -/
def HasPart (before after : Bool) (P : List Char → Prop) (s : List Char) : Prop :=
  ∃ left part right, s = left ++ (part ++ right) ∧ (before = false → left = []) ∧ P part ∧
    (after = false → right = [])

variable {before after caseSensitive : Bool} {s t w : List Char}

/-! ## What globs ask for -/

namespace Pattern.Glob

theorem covers_star_cons {glob : List Char} :
    Covers caseSensitive ('*' :: glob) s ↔ ∃ left rest, s = left ++ rest ∧
      Covers caseSensitive glob rest := by
  rw [covers_cons]
  constructor
  · rintro ⟨left, rest, -, hrest, rfl⟩
    exact ⟨left, rest, rfl, hrest⟩
  · rintro ⟨left, rest, rfl, hrest⟩
    exact ⟨left, rest, .anyText left, hrest, rfl⟩

/-- A text without marks covers its own letters, and then what follows it covers the rest. -/
theorem covers_append {glob : List Char} (hstar : '*' ∉ w) (hmark : '?' ∉ w) :
    Covers caseSensitive (w ++ glob) s ↔ ∃ part rest, s = part ++ rest ∧
      List.Forall₂ (SameCharacter caseSensitive) w part ∧ Covers caseSensitive glob rest := by
  induction w generalizing s with
  | nil => simp
  | cons c w ih =>
    simp only [List.mem_cons, not_or] at hstar hmark
    rw [List.cons_append, covers_cons]
    constructor
    · rintro ⟨piece, rest, hpiece, hrest, rfl⟩
      obtain ⟨part, rest, rfl, hpart, hglob⟩ := (ih hstar.2 hmark.2).1 hrest
      cases hpiece with
      | anyText => exact (hstar.1 rfl).elim
      | anyChar => exact (hmark.1 rfl).elim
      | letter _ _ hsame => exact ⟨_ :: part, rest, rfl, .cons hsame hpart, hglob⟩
    · rintro ⟨_, rest, rfl, hpart, hglob⟩
      cases hpart with
      | cons hsame hpart =>
        exact ⟨[_], _, .letter (Ne.symm hstar.1) (Ne.symm hmark.1) hsame,
          (ih hstar.2 hmark.2).2 ⟨_, rest, rfl, hpart, hglob⟩, rfl⟩

/-- A text without marks covers the texts with the same letters. -/
theorem covers_iff_forall₂ (hstar : '*' ∉ w) (hmark : '?' ∉ w) :
    Covers caseSensitive w s ↔ List.Forall₂ (SameCharacter caseSensitive) w s := by
  have hnil : Covers caseSensitive (w ++ []) s ↔ _ := covers_append hstar hmark
  rw [List.append_nil] at hnil
  simpa [covers_nil] using hnil

/-- A text with stars around it covers the texts that have its letters at an allowed place. -/
theorem covers_globAround_iff {w : String} (hstar : '*' ∉ w.toList) (hmark : '?' ∉ w.toList) :
    Covers caseSensitive (globAround before after w).toList s ↔
      HasPart before after (List.Forall₂ (SameCharacter caseSensitive) w.toList) s := by
  have hafter : ∀ rest, Covers caseSensitive (if after then "*" else "").toList rest ↔
      (after = false → rest = []) := by
    intro rest
    cases after with
    | false => simp [covers_nil]
    | true => simp [covers_star_cons, covers_nil]
  have hwhole : ∀ rest,
      Covers caseSensitive (w.toList ++ (if after then "*" else "").toList) rest ↔
        ∃ part right, rest = part ++ right ∧
          List.Forall₂ (SameCharacter caseSensitive) w.toList part ∧
          (after = false → right = []) := by
    intro rest
    rw [covers_append hstar hmark]
    simp only [hafter]
  rw [globAround, String.toList_append, String.toList_append, List.append_assoc]
  cases before with
  | false =>
    rw [if_neg Bool.false_ne_true, String.toList_empty, List.nil_append, hwhole]
    constructor
    · rintro ⟨part, right, rfl, hpart, hright⟩
      exact ⟨[], part, right, rfl, fun _ => rfl, hpart, hright⟩
    · rintro ⟨left, part, right, rfl, hleft, hpart, hright⟩
      obtain rfl := hleft rfl
      exact ⟨part, right, rfl, hpart, hright⟩
  | true =>
    rw [if_pos rfl, show "*".toList = ['*'] from by decide, List.singleton_append, covers_star_cons]
    constructor
    · rintro ⟨left, rest, rfl, hrest⟩
      obtain ⟨part, right, rfl, hpart, hright⟩ := (hwhole rest).1 hrest
      exact ⟨left, part, right, rfl, nofun, hpart, hright⟩
    · rintro ⟨left, part, right, rfl, -, hpart, hright⟩
      exact ⟨left, _, rfl, (hwhole _).2 ⟨part, right, rfl, hpart, hright⟩⟩

end Pattern.Glob

/-! ## What the operators for texts ask for -/

theorem isPartOf_iff_infix : isPartOf t s = true ↔ t <:+: s := by
  induction s with
  | nil => rw [isPartOf, List.isEmpty_iff, List.infix_nil]
  | cons c s ih =>
    rw [isPartOf, Bool.or_eq_true, ih, List.isPrefixOf_iff_prefix, List.infix_cons_iff]

/-- Whether a text has another one at an allowed place. -/
def textRelation (before after : Bool) (s t : List Char) : Bool :=
  match before, after with
  | false, false => s = t
  | false, true => t.isPrefixOf s
  | true, false => t.isSuffixOf s
  | true, true => isPartOf t s

theorem textRelation_iff :
    textRelation before after s t = true ↔ HasPart before after (· = t) s := by
  constructor
  · intro h
    rcases before with _ | _ <;> rcases after with _ | _ <;> rw [textRelation] at h
    · exact ⟨[], s, [], by simp, fun _ => rfl, of_decide_eq_true h, fun _ => rfl⟩
    · obtain ⟨right, rfl⟩ := List.isPrefixOf_iff_prefix.1 h
      exact ⟨[], t, right, rfl, fun _ => rfl, rfl, nofun⟩
    · obtain ⟨left, rfl⟩ := List.isSuffixOf_iff_suffix.1 h
      exact ⟨left, t, [], by simp, nofun, rfl, fun _ => rfl⟩
    · obtain ⟨left, right, rfl⟩ := isPartOf_iff_infix.1 h
      exact ⟨left, t, right, by simp, nofun, rfl, nofun⟩
  · rintro ⟨left, part, right, rfl, hleft, rfl, hright⟩
    rcases before with _ | _ <;> rcases after with _ | _ <;> rw [textRelation]
    · simp [hleft rfl, hright rfl]
    · exact List.isPrefixOf_iff_prefix.2 ⟨right, by simp [hleft rfl]⟩
    · exact List.isSuffixOf_iff_suffix.2 ⟨left, by simp [hright rfl]⟩
    · exact isPartOf_iff_infix.2 ⟨left, right, by simp⟩

variable [Host]

/-- The operators for texts look for a part of the folded text. -/
theorem evaluate_textOperator (before after : Bool) {kind : ValueKind} (actual : FieldValue)
    {w : String} (caseSensitive : Bool) (hkind : kind.IsTextual) (hw : w ≠ "") :
    ∃ b, evaluate (textOperator before after) kind actual w caseSensitive = .ok (.of b) ∧
      (b = true ↔ actual ≠ .absent ∧ ∃ s ∈ actual.texts,
        HasPart before after (· = foldCase caseSensitive w) (foldCase caseSensitive s)) := by
  have hevaluate : evaluate (textOperator before after) kind actual w caseSensitive =
      .ok (matchText (textRelation before after) actual w caseSensitive) := by
    rcases before with _ | _ <;> rcases after with _ | _
    · show Except.ok (matchEqual kind actual w caseSensitive) = _
      rw [matchEqual, matchText]
      by_cases habsent : actual = .absent
      · simp [habsent, hw]
      · rcases hkind with rfl | rfl | rfl <;> simp [habsent, hw, textRelation]
    · rfl
    · rfl
    · rfl
  rw [hevaluate, matchText]
  by_cases habsent : actual = .absent
  · exact ⟨false, by simp [habsent], by simp [habsent]⟩
  · refine ⟨_, by rw [if_neg (by simp [habsent, hw])], ?_⟩
    simp [anyText, textRelation_iff, habsent]

/-! ## The same parts -/

omit [Host] in
/-- With regard to case, the same letters are the same text. -/
theorem forall₂_sameCharacter_eq :
    List.Forall₂ (Glob.SameCharacter true) w = (· = w) := by
  have hsame : Glob.SameCharacter true = Eq := by
    funext p c
    simp [Glob.SameCharacter]
  funext part
  rw [hsame, List.forall₂_eq_eq_eq]
  exact propext eq_comm

omit [Host] in
/-- Without `ı` and `İ`, texts of the same letters have the same folded form. -/
theorem foldChars_eq_of_forall₂ {part : List Char}
    (h : List.Forall₂ (Glob.SameCharacter false) w part) (hw : ∀ c ∈ w, ¬IsTurkishI c)
    (hpart : ∀ c ∈ part, ¬IsTurkishI c) : foldChars part = foldChars w := by
  induction h with
  | nil => rfl
  | cons hsame _ ih =>
    obtain ⟨hp, hw⟩ := List.forall_mem_cons.1 hw
    obtain ⟨hc, hpart⟩ := List.forall_mem_cons.1 hpart
    rw [foldChars_cons, foldChars_cons, ih hw hpart, foldChar_eq_of_sameLetter hp hc hsame]

omit [Host] in
theorem HasPart.foldChars (h : HasPart before after (List.Forall₂ (Glob.SameCharacter false) w) s)
    (hw : ∀ c ∈ w, ¬IsTurkishI c) (hs : ∀ c ∈ s, ¬IsTurkishI c) :
    HasPart before after (· = Text.foldChars w) (Text.foldChars s) := by
  obtain ⟨left, part, right, rfl, hleft, hpart, hright⟩ := h
  refine ⟨Text.foldChars left, Text.foldChars part, Text.foldChars right, by simp, ?_, ?_, ?_⟩
  · intro hbefore
    rw [hleft hbefore, foldChars_nil]
  · exact foldChars_eq_of_forall₂ hpart hw fun c hc => hs c (by simp [hc])
  · intro hafter
    rw [hright hafter, foldChars_nil]

omit [Host] in
/-- Where every character folds to one, the parts of the folded text are the folded parts. -/
theorem HasPart.of_foldChars
    (h : HasPart before after (· = Text.foldChars w) (Text.foldChars s))
    (hw : ∀ c ∈ w, (foldChar c).length = 1) (hs : ∀ c ∈ s, (foldChar c).length = 1) :
    HasPart before after (List.Forall₂ (Glob.SameCharacter false) w) s := by
  rw [foldChars_eq_map hw, foldChars_eq_map hs] at h
  obtain ⟨left, part, right, hsplit, hleft, hpart, hright⟩ := h
  obtain ⟨left, rest, rfl, rfl, hrest⟩ := List.map_eq_append_iff.1 hsplit
  obtain ⟨part, right, rfl, rfl, rfl⟩ := List.map_eq_append_iff.1 hrest
  refine ⟨left, part, right, rfl, ?_, ?_, ?_⟩
  · exact fun hbefore => List.map_eq_nil_iff.1 (hleft hbefore)
  · have heq : List.Forall₂ Eq (w.map foldOne) (part.map foldOne) := by
      rw [List.forall₂_eq_eq_eq]
      exact hpart.symm
    rw [List.forall₂_map_left_iff, List.forall₂_map_right_iff] at heq
    exact heq.imp fun p c h => sameLetter_of_foldOne_eq h
  · exact fun hafter => List.map_eq_nil_iff.1 (hright hafter)

/-- A glob of a text without marks, with stars around it or not, and the operator for texts that
asks for the same both succeed.

* With regard to case they give the same answer.
* Without it, the operator finds what the glob finds, unless `ı` or `İ` is in one of the texts.
* Without it, the glob finds what the operator finds, unless some character in one of the texts
  folds to several. -/
theorem wildcard_like_text (kind : ValueKind) (actual : FieldValue)
    (caseSensitive before after : Bool) (w : String) (hkind : kind.IsTextual) (hw : w ≠ "")
    (hstar : '*' ∉ w.toList) (hmark : '?' ∉ w.toList) :
    ∃ byGlob byText,
      evaluate .wildcard kind actual (globAround before after w) caseSensitive =
        .ok (.of byGlob) ∧
      evaluate (textOperator before after) kind actual w caseSensitive = .ok (.of byText) ∧
      (caseSensitive = true → byGlob = byText) ∧
      ((∀ s ∈ w :: actual.texts, ∀ c ∈ s.toList, ¬IsTurkishI c) → byGlob = true →
        byText = true) ∧
      ((∀ s ∈ w :: actual.texts, ∀ c ∈ s.toList, (foldChar c).length = 1) → byText = true →
        byGlob = true) := by
  obtain ⟨byGlob, hglob, hbyGlob⟩ := matchGlob_iff actual (globAround before after w) caseSensitive
  obtain ⟨byText, htext, hbyText⟩ :=
    evaluate_textOperator before after actual caseSensitive hkind hw
  have hglobne : globAround before after w ≠ "" := by
    intro h
    simp only [globAround, String.append_eq_empty_iff] at h
    exact hw h.1.2
  simp only [Glob.covers_globAround_iff hstar hmark, hglobne, ne_eq, not_false_eq_true, true_and]
    at hbyGlob
  have hsame : caseSensitive = true → byGlob = byText := by
    rintro rfl
    rw [Bool.eq_iff_iff, hbyGlob, hbyText, forall₂_sameCharacter_eq]
    rfl
  refine ⟨byGlob, byText, ?_, htext, hsame, fun hplain htrue => ?_, fun hsingle htrue => ?_⟩
  · rw [evaluate, hglob]
  · cases caseSensitive with
    | true => exact (hsame rfl).symm.trans htrue
    | false =>
      obtain ⟨hw, hactual⟩ := List.forall_mem_cons.1 hplain
      obtain ⟨hpresent, s, hs, hpart⟩ := hbyGlob.1 htrue
      exact hbyText.2 ⟨hpresent, s, hs, hpart.foldChars hw (hactual s hs)⟩
  · cases caseSensitive with
    | true => exact (hsame rfl).trans htrue
    | false =>
      obtain ⟨hw, hactual⟩ := List.forall_mem_cons.1 hsingle
      obtain ⟨hpresent, s, hs, hpart⟩ := hbyText.1 htrue
      exact hbyGlob.2 ⟨hpresent, s, hs, hpart.of_foldChars hw (hactual s hs)⟩

end

/-- A glob finds a word that is written in capitals. -/
theorem wildcard_like_contains :
    ValueKind.IsTextual .text ∧ ('*' ∉ "ÖL".toList ∧ '?' ∉ "ÖL".toList) ∧
      evaluate .wildcard .text (.text "Heizöl 2024") (globAround true true "ÖL") false =
        .ok (.of true) := by
  have hmarks : '*' ∉ "ÖL".toList ∧ '?' ∉ "ÖL".toList := by decide
  have hsingle : ∀ s ∈ ["ÖL", "Heizöl 2024"], ∀ c ∈ s.toList, (foldChar c).length = 1 := by
    simp only [← List.forall_iff_forall_mem]
    decide +kernel
  have hcontains : (matchText (fun a e => isPartOf e a) (.text "Heizöl 2024") "ÖL" false).matched =
      true := by decide +kernel
  obtain ⟨byGlob, byText, hglob, htext, -, -, himp⟩ := wildcard_like_text .text
    (.text "Heizöl 2024") false true true "ÖL" (.inl rfl) (by decide) hmarks.1 hmarks.2
  obtain rfl : byText = true :=
    (congrArg Evaluation.matched (Except.ok.inj htext)).symm.trans hcontains
  refine ⟨.inl rfl, hmarks, ?_⟩
  rw [hglob, himp hsingle rfl]

/-- Where the answers differ without regard to case: a letter that folds to two is the same as these
two for texts only, and `ı` is a case of `i` for patterns only. -/
theorem wildcard_unlike_text :
    (evaluate .wildcard .text (.text "straße") "STRASSE" false = .ok (.of false) ∧
      evaluate .equals .text (.text "straße") "STRASSE" false = .ok (.of true)) ∧
    (evaluate .wildcard .text (.text "ı") "I" false = .ok (.of true) ∧
      evaluate .equals .text (.text "ı") "I" false = .ok (.of false)) := by
  have hequals : ∀ (s w : String) (b : Bool), (matchEqual .text (.text s) w false).matched = b →
      evaluate .equals .text (.text s) w false = .ok (.of b) := by
    rintro s w b rfl
    rfl
  have hwildcard : ∀ (s w : String) (b : Bool), w ≠ "" →
      (b = true ↔ Glob.Covers false w.toList s.toList) →
      evaluate .wildcard .text (.text s) w false = .ok (.of b) := by
    intro s w b hw hb
    obtain ⟨matched, hmatched, hiff⟩ := matchGlob_iff (.text s) w false
    have hsame : matched = b := by
      rw [Bool.eq_iff_iff, hiff, hb]
      simp [hw, FieldValue.texts, FieldValue.plain]
    rw [evaluate, hmatched, hsame]
  refine ⟨⟨hwildcard _ _ _ (by decide) ?_, hequals _ _ _ (by decide +kernel)⟩,
    hwildcard _ _ _ (by decide) ?_, hequals _ _ _ (by decide +kernel)⟩
  · rw [Glob.covers_iff_forall₂ (by decide) (by decide)]
    refine iff_of_false Bool.false_ne_true fun h => ?_
    -- Letter by letter, seven letters are not the same as six.
    exact absurd h.length_eq (by decide)
  · rw [Glob.covers_iff_forall₂ (by decide) (by decide)]
    refine iff_of_true rfl (.cons ?_ .nil)
    show Folding.unicode.sameLetter _ _ = true
    decide +kernel

end Rulebook
