import Mathlib
import Rulebook.Proofs.Text.Folding
import Rulebook.Text.Blank
import Rulebook.Text.Digit

/-!
# Plain characters

Numbers and dates are written with digits, a few signs, and at most the letter `e` for an exponent.
Among these characters nothing surprising happens: none of them is a blank, and folding does to them
what writing in lower case does.

What matters is the converse, that nothing else folds to them.  A text that is the same as a numeral
without regard to case is therefore that numeral, up to capitals, and not a text in some other
script that would be no number at all.  This holds for `e` and would fail for other letters: `k` is
the folded form of the Kelvin sign, and `ss` that of `ß`.

## Main definitions

* `IsPlain` — the folded characters of numerals and dates.

## Main statements

* `strip_strip` — stripping a text again leaves it as it is.
* `foldChar_of_isPlain` — what folds to plain characters.
* `map_toLower_eq_of_foldChars_eq` — a text with the folded form of a plain one differs from it in
  capitals only.
-/

namespace Rulebook.Text

/-! ## Blanks -/

/-- Stripping a text again leaves it as it is. -/
theorem stripChars_stripChars (s : List Char) : stripChars (stripChars s) = stripChars s := by
  have hstrip : ∀ t, stripChars t = (t.dropWhile isBlank).rdropWhile isBlank := fun _ => rfl
  have hfront : (stripChars s).dropWhile isBlank = stripChars s := by
    rw [hstrip, List.dropWhile_eq_self_iff]
    intro hpos hblank
    -- What is left at the front was there before the end was stripped.
    have hstart := List.rdropWhile_prefix isBlank (s.dropWhile isBlank)
    rw [hstart.getElem hpos] at hblank
    exact List.dropWhile_get_zero_not isBlank s (hpos.trans_le hstart.length_le) hblank
  rw [hstrip (stripChars s), hfront, hstrip, List.rdropWhile_idempotent]

@[simp] theorem toList_strip (s : String) : (strip s).toList = stripChars s.toList := by
  simp [strip]

theorem strip_strip (s : String) : strip (strip s) = strip s := by
  rw [strip, toList_strip, stripChars_stripChars]
  rfl

/-- A text without blanks is as it is when it is stripped. -/
theorem stripChars_eq_self {s : List Char} (h : ∀ c ∈ s, isBlank c = false) : stripChars s = s := by
  have hkeep : ∀ t : List Char, (∀ c ∈ t, isBlank c = false) → t.dropWhile isBlank = t := by
    intro t ht
    cases t with
    | nil => rfl
    | cons c t => simp [ht c]
  rw [stripChars, hkeep s h, hkeep s.reverse (by simpa using h), List.reverse_reverse]

/-! ## Digits -/

theorem decimalValue?_of_isDigit {c : Char} (h : c.isDigit = true) :
    decimalValue? c = some (c.toNat - '0'.toNat) := by
  have hrange : 0x30 ≤ c.toNat ∧ c.toNat ≤ 0x39 := Char.isDigit_iff_toNat.1 h
  have hfind : decimalZeros.find? (fun z => decide (z ≤ c.toNat ∧ c.toNat < z + 10)) = some 0x30 :=
    List.find?_cons_of_pos (by simp; omega)
  rw [decimalValue?, hfind]
  rfl

theorem isBlank_of_isDigit {c : Char} (h : c.isDigit = true) : isBlank c = false := by
  have hrange : 0x30 ≤ c.toNat ∧ c.toNat ≤ 0x39 := Char.isDigit_iff_toNat.1 h
  simp [isBlank]
  omega

/-! ## Capitals -/

/-- Writing in lower case moves the capitals of ASCII and nothing else. -/
theorem toLower_cases (c : Char) : c.toLower = c ∨
    (0x41 ≤ c.toNat ∧ c.toNat ≤ 0x5a ∧ c.toLower.toNat = c.toNat + 32) := by
  by_cases h : c.isUpper = true
  · right
    have hlower := Char.toLower_eq_of_isUpper h
    simp [Char.isUpper, UInt32.le_iff_toNat_le] at h
    change 65 ≤ c.toNat ∧ c.toNat ≤ 90 at h
    have hvalid : (c.toNat + 32).isValidChar := .inl (by omega)
    rw [hlower, Char.ofNat, dif_pos hvalid]
    exact ⟨h.1, h.2, UInt32.toNat_ofNatLT⟩
  · exact .inl (Char.toLower_eq_of_not_isUpper h)

theorem toLower_of_lt {c : Char} (h : c.toNat < 0x41) : c.toLower = c := by
  rcases toLower_cases c with hsame | hletter
  · exact hsame
  · omega

theorem toLower_eq_iff {c d : Char} (hd : d.toNat < 0x41 ∨ d = '_') : c.toLower = d ↔ c = d := by
  rcases toLower_cases c with h | ⟨hlow, hhigh, h⟩
  · rw [h]
  · have hline : '_'.toNat = 0x5f := rfl
    constructor
    · rintro rfl
      rcases hd with hd | hd
      · omega
      · rw [hd] at h
        omega
    · rintro rfl
      rcases hd with hd | rfl
      · omega
      · omega

theorem eq_of_map_toLower_eq {s t : List Char} (ht : ∀ c ∈ t, c.toNat < 0x41)
    (h : s.map Char.toLower = t.map Char.toLower) : s = t := by
  have hlower : t.map Char.toLower = t := by
    rw [List.map_congr_left fun c hc => toLower_of_lt (ht c hc), List.map_id']
  rw [hlower] at h
  have hsame : ∀ c ∈ s, c.toLower = c := by
    intro c hc
    have hmem : c.toLower ∈ t := h ▸ List.mem_map_of_mem hc
    exact ((toLower_eq_iff (.inl (ht _ hmem))).1 rfl).symm
  rw [← h, List.map_congr_left hsame, List.map_id']

theorem isBlank_toLower (c : Char) : isBlank c.toLower = isBlank c := by
  rcases toLower_cases c with h | ⟨hlow, hhigh, h⟩
  · rw [h]
  · have hletter : ∀ d : Char, 0x41 ≤ d.toNat → d.toNat < 0x7b → isBlank d = false := by
      intro d hlow hhigh
      simp [isBlank]
      omega
    rw [hletter c (by omega) (by omega), hletter c.toLower (by omega) (by omega)]

theorem decimalValue?_letter {c : Char} (hlow : 0x41 ≤ c.toNat) (hhigh : c.toNat < 0x7b) :
    decimalValue? c = none := by
  have hnone : ∀ n < 0x7b, 0x41 ≤ n →
      decimalZeros.find? (fun z => decide (z ≤ n ∧ n < z + 10)) = none := by
    decide +kernel
  rw [decimalValue?, hnone c.toNat hhigh hlow]
  rfl

theorem decimalValue?_toLower (c : Char) : decimalValue? c.toLower = decimalValue? c := by
  rcases toLower_cases c with h | ⟨hlow, hhigh, h⟩
  · rw [h]
  · rw [decimalValue?_letter (by omega) (by omega), decimalValue?_letter (by omega) (by omega)]

theorem stripChars_map_toLower (s : List Char) :
    stripChars (s.map Char.toLower) = (stripChars s).map Char.toLower := by
  have hblank : isBlank ∘ Char.toLower = isBlank := funext isBlank_toLower
  simp [stripChars, List.dropWhile_map, ← List.map_reverse, hblank]

/-! ## Folding -/

/-- The characters of numerals and dates after folding. -/
def IsPlain (c : Char) : Prop := c.toNat < 0x41 ∨ c = 'e'

/-- No plain character is the folded form of a character that folds to several, and `e` is the
folded form of its own capital only. -/
structure PlainChecked : Prop where
  expansions : ∀ entry ∈ foldExpansions,
    ∃ code ∈ entry.2, 0x41 ≤ code ∧ code ≠ 0x65 ∧ code < 0xd800
  shifts : foldShifts.forMoves fun n folded =>
    n == 0x45 || (decide (0x41 ≤ folded) && folded != 0x65)

theorem plainChecked : PlainChecked where
  expansions := by decide +kernel
  shifts := by decide +kernel

/-- Only plain characters and the capital of `e` fold to plain characters. -/
theorem foldChar_of_isPlain {c : Char} (h : ∀ d ∈ foldChar c, IsPlain d) :
    foldChar c = [c.toLower] := by
  have hsmall : 'e'.toNat = 0x65 := rfl
  cases hlookup : foldExpansions.lookup c.toNat with
  | some codes =>
    obtain ⟨before, after, htable, -⟩ := List.lookup_eq_some_iff.1 hlookup
    obtain ⟨code, hcode, hlow, hother, hvalid⟩ :=
      PlainChecked.expansions plainChecked (c.toNat, codes) (by rw [htable]; simp)
    have hplain : IsPlain (Char.ofNat code) := by
      apply h
      rw [foldChar, hlookup]
      exact List.mem_map_of_mem hcode
    have htoNat : (Char.ofNat code).toNat = code := by
      rw [Char.ofNat, dif_pos (Or.inl hvalid)]
      exact UInt32.toNat_ofNatLT
    rw [IsPlain, ← Char.toNat_inj, htoNat] at hplain
    omega
  | none =>
    have hone : foldChar c = [foldOne c] := by
      rw [foldChar, hlookup]
      rfl
    have hplain : IsPlain (foldOne c) := h _ (by simp [hone])
    rw [hone]
    rcases Shifts.apply_cases (PlainChecked.shifts plainChecked) c.toNat with hsame | hchecked
    · have hfold : foldOne c = c := by rw [foldOne, hsame, Char.ofNat_toNat]
      rw [hfold] at hplain ⊢
      rcases hplain with hlow | rfl
      · rw [toLower_of_lt hlow]
      · rfl
    · rw [IsPlain, ← Char.toNat_inj, toNat_foldOne] at hplain
      simp only [Bool.or_eq_true, Bool.and_eq_true, beq_iff_eq, decide_eq_true_eq, bne_iff_ne]
        at hchecked
      obtain rfl : c = 'E' := by
        rw [← Char.toNat_inj]
        change c.toNat = 0x45
        omega
      decide

theorem foldChars_of_isPlain {s : List Char} (h : ∀ d ∈ foldChars s, IsPlain d) :
    foldChars s = s.map Char.toLower := by
  induction s with
  | nil => rfl
  | cons c s ih =>
    rw [foldChars_cons, List.forall_mem_append] at h
    rw [foldChars_cons, foldChar_of_isPlain h.1, ih h.2]
    rfl

theorem foldChar_eq_toLower {c : Char} (h : IsPlain c.toLower) : foldChar c = [c.toLower] := by
  rcases h with hlow | hletter
  · have hsame : c = c.toLower := (toLower_eq_iff (.inl hlow)).1 rfl
    rw [← hsame] at hlow ⊢
    exact foldChar_of_lt hlow
  · rcases toLower_cases c with hsame | ⟨-, -, hcapital⟩
    · obtain rfl : c = 'e' := hsame.symm.trans hletter
      decide
    · obtain rfl : c = 'E' := by
        rw [hletter] at hcapital
        rw [← Char.toNat_inj]
        change 0x65 = c.toNat + 32 at hcapital
        change c.toNat = 0x45
        omega
      decide

/-- A text with the folded form of a plain text differs from it in capitals only. -/
theorem map_toLower_eq_of_foldChars_eq {s t : List Char} (ht : ∀ c ∈ t, IsPlain c.toLower)
    (h : foldChars s = foldChars t) : s.map Char.toLower = t.map Char.toLower := by
  have hplain : foldChars t = t.map Char.toLower := by
    rw [foldChars, List.flatMap_congr fun c hc => foldChar_eq_toLower (ht c hc),
      List.map_eq_flatMap]
  rw [← hplain, ← h]
  refine (foldChars_of_isPlain fun d hd => ?_).symm
  rw [h, hplain] at hd
  obtain ⟨c, hc, rfl⟩ := List.mem_map.1 hd
  exact ht c hc

end Rulebook.Text
