import Rulebook.Json.Writer
import Rulebook.Proofs.Json.Reader

/-!
# What is written is read back

The text of a value is read as the value, whatever characters its texts have, as long as the value
can be read at all: its whole numbers have at most as many digits as are read, no object names a
member twice, and lists and objects are not nested too deeply.  Floating point numbers are left out,
since their texts are rounded.

The argument goes along the value.  Each part that is written is read back in front of any rest that
does not go on with it; only numerals care about what follows them, so the one condition on the rest
is `EndsNumeral`, which every separator and every closing bracket meets.

## Main definitions

* `Json.IsPlain` — the values that are read back, with a bound on their depth.
* `Layout.IsPlain` — the layouts that add nothing but blanks and commas.

## Main statements

* `readTextChars_escapeChar` — every character is read back from its escape.
* `readNumber_writeInt` — every whole number that is not too long is read back.
* `IsPlain.readsBack`, `read_pretty` — every plain value is read back.
-/

namespace Rulebook.Json

open Number Text

/-! ## Escapes -/

theorem hexValue?_digitChar : ∀ d < 16, hexValue? (Nat.digitChar d) = some d := by decide

/-- A number below 2¹⁶ in four hexadecimal digits. -/
theorem hexDigits_four {n : Nat} (hn : n < 0x10000) :
    hexDigits 4 n = [(n / 0x1000).digitChar, (n / 0x100 % 16).digitChar, (n / 16 % 16).digitChar,
      (n % 16).digitChar] := by
  have hlast : ∀ m, 16 ≤ m → Nat.toDigits 16 m = Nat.toDigits 16 (m / 16) ++ [(m % 16).digitChar] :=
    fun m hm => Nat.toDigits_of_base_le (by decide) hm
  have hone : ∀ m < 16, Nat.toDigits 16 m = [m.digitChar] := fun m hm => Nat.toDigits_of_lt_base hm
  have hthousand : n / 16 / 16 / 16 = n / 0x1000 := by
    rw [Nat.div_div_eq_div_mul, Nat.div_div_eq_div_mul]
  have hhundred : n / 16 / 16 = n / 0x100 := by rw [Nat.div_div_eq_div_mul]
  unfold hexDigits
  dsimp only
  by_cases h₁ : n < 16
  · rw [hone n h₁, Nat.div_eq_of_lt (by omega : n < 0x1000),
      Nat.div_eq_of_lt (by omega : n < 0x100), Nat.div_eq_of_lt h₁, Nat.mod_eq_of_lt h₁]
    rfl
  · by_cases h₂ : n < 0x100
    · rw [hlast n (by omega), hone (n / 16) (by omega), Nat.div_eq_of_lt (by omega : n < 0x1000),
        Nat.div_eq_of_lt h₂, Nat.mod_eq_of_lt (by omega : n / 16 < 16)]
      rfl
    · by_cases h₃ : n < 0x1000
      · rw [hlast n (by omega), hlast (n / 16) (by omega), hhundred, hone (n / 0x100) (by omega),
          Nat.div_eq_of_lt h₃, Nat.mod_eq_of_lt (by omega : n / 0x100 < 16)]
        rfl
      · rw [hlast n (by omega), hlast (n / 16) (by omega), hhundred, hlast (n / 0x100) (by omega),
          ← hhundred, hthousand, hone (n / 0x1000) (by omega)]
        rfl

theorem length_hexDigits_four {n : Nat} (hn : n < 0x10000) : (hexDigits 4 n).length = 4 := by
  rw [hexDigits_four hn]
  rfl

/-- Four hexadecimal digits are read as their number. -/
theorem hexQuad?_hexDigits {n : Nat} (hn : n < 0x10000) : hexQuad? (hexDigits 4 n) = some n := by
  rw [hexDigits_four hn]
  unfold hexQuad?
  dsimp only
  rw [hexValue?_digitChar _ (by omega), hexValue?_digitChar _ (by omega),
    hexValue?_digitChar _ (by omega), hexValue?_digitChar _ (by omega)]
  show some (((n / 0x1000 * 16 + n / 0x100 % 16) * 16 + n / 16 % 16) * 16 + n % 16) = some n
  congr 1
  omega

/-- The escape of a character of the first plane is read as the character. -/
theorem unicodeEscape_single {n : Nat} (hn : n < 0x10000) (hplain : ¬(0xd800 ≤ n ∧ n < 0xe000))
    {tail : List Char} (htail : tail ≠ []) (position : Nat) :
    unicodeEscape (hexDigits 4 n ++ tail) position = .ok (some (Char.ofNat n), 4) := by
  have hdrop : (hexDigits 4 n ++ tail).drop 4 = tail := List.drop_left' (length_hexDigits_four hn)
  have htake : (hexDigits 4 n ++ tail).take 4 = hexDigits 4 n :=
    List.take_left' (length_hexDigits_four hn)
  have hsome : tail.isEmpty = false := List.isEmpty_eq_false_iff.2 htail
  have hhigh : ¬(0xd800 ≤ n ∧ n < 0xdc00) := by omega
  unfold unicodeEscape
  rw [hdrop, htake, hsome, hexQuad?_hexDigits hn]
  simp only [Bool.false_eq_true, if_false]
  rw [if_neg, if_neg]
  · simpa using hplain
  · intro h
    simp only [Bool.and_eq_true, decide_eq_true_eq] at h
    exact hhigh h.1.1

/-- The pair of escapes for a character of a higher plane is read as one character. -/
theorem unicodeEscape_pair {high low : Nat} (hhigh : 0xd800 ≤ high ∧ high < 0xdc00)
    (hlow : 0xdc00 ≤ low ∧ low < 0xe000) {tail : List Char} (htail : tail ≠ []) (position : Nat) :
    unicodeEscape (hexDigits 4 high ++ (unitEscape low ++ tail)) position =
      .ok (some (Char.ofNat (0x10000 + (high - 0xd800) * 0x400 + (low - 0xdc00))), 10) := by
  have hdrop : (hexDigits 4 high ++ (unitEscape low ++ tail)).drop 4 = unitEscape low ++ tail :=
    List.drop_left' (length_hexDigits_four (by omega))
  have htake : (hexDigits 4 high ++ (unitEscape low ++ tail)).take 4 = hexDigits 4 high :=
    List.take_left' (length_hexDigits_four (by omega))
  have hlength : (hexDigits 4 low).length = 4 := length_hexDigits_four (by omega)
  have hsecond : ((unitEscape low ++ tail).drop 2).take 4 = hexDigits 4 low :=
    List.take_left' hlength
  have hafter : (unitEscape low ++ tail).drop 6 = tail :=
    List.drop_left' (by simp [unitEscape, hlength])
  have hsome : tail.isEmpty = false := List.isEmpty_eq_false_iff.2 htail
  unfold unicodeEscape
  rw [hdrop, htake, hexQuad?_hexDigits (by omega)]
  dsimp only
  rw [hafter, hsecond, hexQuad?_hexDigits (by omega), hsome]
  have hmarks : (unitEscape low ++ tail).take 2 = ['\\', 'u'] := rfl
  rw [hmarks]
  simp [unitEscape, hhigh.1, hhigh.2, hlow.1, hlow.2]

/-! ## Texts -/

/-- How a character is written: as an escape of one letter, as it is, by its number, or by two
halves of its number. -/
theorem escapeChar_cases (c : Char) :
    (∃ e, e ≠ 'u' ∧ simpleEscape? e = some c ∧ escapeChar c = ['\\', e]) ∨
    (c ≠ '"' ∧ c ≠ '\\' ∧ 0x20 ≤ c.toNat ∧ escapeChar c = [c]) ∨
    (c.toNat < 0x10000 ∧ escapeChar c = unitEscape c.toNat) ∨
    (0x10000 ≤ c.toNat ∧ escapeChar c = unitEscape (0xd800 + (c.toNat - 0x10000) / 0x400) ++
      unitEscape (0xdc00 + (c.toNat - 0x10000) % 0x400)) := by
  have hback : Char.ofNat c.toNat = c := Char.ofNat_toNat c
  unfold escapeChar
  split_ifs with hquote hslash hline hreturn htab hfeed hbackspace hplain hplane
  · exact Or.inl ⟨'"', by decide, by rw [hquote]; rfl, rfl⟩
  · exact Or.inl ⟨'\\', by decide, by rw [hslash]; rfl, rfl⟩
  · exact Or.inl ⟨'n', by decide, by rw [hline]; rfl, rfl⟩
  · exact Or.inl ⟨'r', by decide, by rw [hreturn]; rfl, rfl⟩
  · exact Or.inl ⟨'t', by decide, by rw [htab]; rfl, rfl⟩
  · refine Or.inl ⟨'f', by decide, ?_, rfl⟩
    rw [← hback, hfeed]
    rfl
  · refine Or.inl ⟨'b', by decide, ?_, rfl⟩
    rw [← hback, hbackspace]
    rfl
  · simp only [Bool.and_eq_true, decide_eq_true_eq] at hplain
    exact Or.inr (Or.inl ⟨hquote, hslash, hplain.1, rfl⟩)
  · exact Or.inr (Or.inr (Or.inl ⟨hplane, rfl⟩))
  · exact Or.inr (Or.inr (Or.inr ⟨Nat.not_lt.1 hplane, rfl⟩))

/-- What is written for a character is read as the character, whatever half of a pair is read
as. -/
theorem readTextChars_escapeChar (half : Option Char) (c : Char) {rest : List Char}
    (hrest : rest ≠ []) (start fuel position : Nat) (done : List Char) :
    ∃ next, readTextChars half start (fuel + 1) ⟨escapeChar c ++ rest, position⟩ done =
      readTextChars half start fuel ⟨rest, next⟩ (c :: done) := by
  have hback : Char.ofNat c.toNat = c := Char.ofNat_toNat c
  have hvalid : c.toNat < 0xd800 ∨ 0xdfff < c.toNat ∧ c.toNat < 0x110000 := c.valid
  -- An escape of the number of a character, or of two halves.
  have hunicode : ∀ body used, unicodeEscape (body ++ rest) (position + 2) = .ok (some c, used) →
      used = body.length →
      readTextChars half start (fuel + 1) ⟨'\\' :: 'u' :: (body ++ rest), position⟩ done =
        readTextChars half start fuel ⟨rest, position + (2 + used)⟩ (c :: done) := by
    intro body used hescape hused
    have hdrop : ('\\' :: 'u' :: (body ++ rest)).drop (2 + used) = rest := by
      rw [hused, Nat.add_comm]
      exact List.drop_left
    rw [readTextChars]
    dsimp only
    rw [if_neg (by decide), if_pos rfl, if_pos rfl, hescape]
    dsimp only [Cursor.advance]
    rw [hdrop, Option.some_or]
  rcases escapeChar_cases c with ⟨e, he, hescape, hwritten⟩ | ⟨hquote, hslash, hplain, hwritten⟩ |
    ⟨hplane, hwritten⟩ | ⟨hplane, hwritten⟩
  · refine ⟨position + 2, ?_⟩
    rw [hwritten, List.cons_append, List.singleton_append, readTextChars]
    dsimp only
    rw [if_neg (by decide), if_pos rfl, if_neg he, hescape]
    rfl
  · refine ⟨position + 1, ?_⟩
    rw [hwritten, List.singleton_append, readTextChars]
    dsimp only
    rw [if_neg hquote, if_neg hslash, if_neg (Nat.not_lt.2 hplain)]
    rfl
  · have hescape := unicodeEscape_single hplane (by omega) hrest (position + 2)
    rw [hback] at hescape
    rw [hwritten]
    exact ⟨_, hunicode _ 4 hescape (length_hexDigits_four hplane).symm⟩
  · obtain ⟨high, hhigh⟩ : ∃ high, high = 0xd800 + (c.toNat - 0x10000) / 0x400 := ⟨_, rfl⟩
    obtain ⟨low, hlow⟩ : ∃ low, low = 0xdc00 + (c.toNat - 0x10000) % 0x400 := ⟨_, rfl⟩
    have hescape := unicodeEscape_pair (by omega : 0xd800 ≤ high ∧ high < 0xdc00)
      (by omega : 0xdc00 ≤ low ∧ low < 0xe000) hrest (position + 2)
    have hwhole : 0x10000 + (high - 0xd800) * 0x400 + (low - 0xdc00) = c.toNat := by omega
    rw [hwhole, hback, ← List.append_assoc] at hescape
    have hused : 10 = (hexDigits 4 high ++ unitEscape low).length := by
      simp [unitEscape, length_hexDigits_four (n := high) (by omega),
        length_hexDigits_four (n := low) (by omega)]
    rw [hwritten, ← hhigh, ← hlow]
    exact ⟨_, hunicode _ 10 hescape hused⟩

/-- A text that is written is read back. -/
theorem readTextChars_flatMap (half : Option Char) (chars tail : List Char) (start : Nat)
    {fuel : Nat} (hfuel : chars.length < fuel) (position : Nat) (done : List Char) :
    ∃ next, readTextChars half start fuel ⟨chars.flatMap escapeChar ++ '"' :: tail, position⟩ done =
      .ok (done.reverse ++ chars, ⟨tail, next⟩) := by
  induction chars generalizing fuel position done with
  | nil =>
      obtain ⟨fuel, rfl⟩ := Nat.exists_eq_add_one_of_ne_zero (Nat.ne_zero_of_lt hfuel)
      refine ⟨position + 1, ?_⟩
      rw [readTextChars]
      simp [Cursor.advance]
  | cons c rest ih =>
      obtain ⟨fuel, rfl⟩ := Nat.exists_eq_add_one_of_ne_zero (Nat.ne_zero_of_lt hfuel)
      have hmore : rest.flatMap escapeChar ++ '"' :: tail ≠ [] := by simp
      obtain ⟨next, hchar⟩ := readTextChars_escapeChar half c hmore start fuel position done
      obtain ⟨last, hrest⟩ := ih (Nat.lt_of_succ_lt_succ hfuel) next (c :: done)
      refine ⟨last, ?_⟩
      rw [List.flatMap_cons, List.append_assoc, hchar, hrest, List.reverse_cons, List.append_assoc]
      rfl

theorem length_le_flatMap_escapeChar (chars : List Char) :
    chars.length ≤ (chars.flatMap escapeChar).length := by
  induction chars with
  | nil => exact Nat.le_refl 0
  | cons c rest ih =>
      have hpos : 0 < (escapeChar c).length := by
        rw [escapeChar]
        split_ifs <;> exact Nat.succ_pos _
      rw [List.flatMap_cons, List.length_append, List.length_cons]
      omega

theorem readQuoted_writeText (half : Option Char) (s : String) (tail : List Char) (position : Nat) :
    ∃ next, readQuoted half ⟨writeText s ++ tail, position⟩ = .ok (s, ⟨tail, next⟩) := by
  have hrest : ((Cursor.mk (writeText s ++ tail) position).advance 1).rest =
      s.toList.flatMap escapeChar ++ '"' :: tail := by
    simp [Cursor.advance, writeText]
  have hfuel : s.toList.length < (s.toList.flatMap escapeChar ++ '"' :: tail).length + 1 := by
    have hle := length_le_flatMap_escapeChar s.toList
    rw [List.length_append]
    omega
  obtain ⟨next, hread⟩ := readTextChars_flatMap half s.toList tail position hfuel (position + 1) []
  refine ⟨next, ?_⟩
  unfold readQuoted
  dsimp only
  rw [hrest]
  have hbody : (Cursor.mk (writeText s ++ tail) position).advance 1 =
      ⟨s.toList.flatMap escapeChar ++ '"' :: tail, position + 1⟩ := by
    rw [← hrest]
    rfl
  rw [hbody, hread]
  show Except.ok (String.ofList ([].reverse ++ s.toList), _) = _
  rw [List.reverse_nil, List.nil_append, String.ofList_toList]

/-! ## Numerals -/

/-- What follows does not go on with a numeral. -/
def EndsNumeral (tail : List Char) : Prop :=
  ∀ c ∈ tail.head?, isAsciiDigit c = false ∧ c ≠ '.' ∧ c ≠ 'e' ∧ c ≠ 'E'

theorem takeWhile_isAsciiDigit {tail : List Char} (htail : EndsNumeral tail) :
    tail.takeWhile isAsciiDigit = [] := by
  cases tail with
  | nil => rfl
  | cons c rest => rw [List.takeWhile_cons_of_neg (by simp [(htail c rfl).1])]

/-- The digits of a number end where no digit follows. -/
theorem wholeDigits_toDigits (n : Nat) {tail : List Char} (htail : EndsNumeral tail) :
    wholeDigits (Nat.toDigits 10 n ++ tail) = Nat.toDigits 10 n := by
  rcases Nat.eq_zero_or_pos n with rfl | hpos
  · rfl
  · have hhead := head_toDigits_ne_zero hpos
    have hdigits : asciiDigits (Nat.toDigits 10 n ++ tail) = Nat.toDigits 10 n := by
      rw [asciiDigits, List.takeWhile_append_of_pos fun _ => isAsciiDigit_of_mem_toDigits,
        takeWhile_isAsciiDigit htail, List.append_nil]
    rw [wholeDigits.eq_def]
    split
    · next rest hzero =>
      rcases hchars : Nat.toDigits 10 n with _ | ⟨c, digits⟩
      · exact absurd hchars Nat.toDigits_ne_nil
      · rw [hchars] at hzero hhead
        cases hzero
        exact absurd rfl hhead
    · exact hdigits

theorem fractionDigits_of_endsNumeral {tail : List Char} (htail : EndsNumeral tail) :
    fractionDigits tail = [] := by
  rw [fractionDigits.eq_def]
  split
  · next rest => exact absurd rfl (htail '.' rfl).2.1
  · rfl

theorem exponentPart_of_endsNumeral {tail : List Char} (htail : EndsNumeral tail) :
    exponentPart tail = none := by
  cases tail with
  | nil => rfl
  | cons c rest =>
      obtain ⟨-, -, hlower, hupper⟩ := htail c rfl
      simp [exponentPart, hlower, hupper]

/-- No minus stands in front of digits. -/
theorem spanMinus_toDigits (n : Nat) (tail : List Char) :
    spanMinus (Nat.toDigits 10 n ++ tail) = (false, Nat.toDigits 10 n ++ tail) := by
  rw [spanMinus.eq_def]
  split
  · next rest hminus =>
    rcases hchars : Nat.toDigits 10 n with _ | ⟨c, digits⟩
    · exact absurd hchars Nat.toDigits_ne_nil
    · have hdigit : isAsciiDigit c = true :=
        isAsciiDigit_of_mem_toDigits (hchars ▸ List.mem_cons_self)
      rw [hchars] at hminus
      cases hminus
      cases hdigit
  · rfl

/-- The sign of a whole number is told from its numeral. -/
theorem exists_sign (n : Int) : ∃ negative : Bool,
    (∀ tail, spanMinus (writeInt n ++ tail) = (negative, Nat.toDigits 10 n.natAbs ++ tail)) ∧
      (writeInt n).length = (if negative = true then 1 else 0) +
        (Nat.toDigits 10 n.natAbs).length ∧
      (if negative = true then -Int.ofNat n.natAbs else Int.ofNat n.natAbs) = n := by
  by_cases hneg : n < 0
  · refine ⟨true, fun tail => ?_, ?_, ?_⟩
    · rw [writeInt, if_pos hneg]
      rfl
    · rw [writeInt, if_pos hneg, if_pos rfl, List.length_cons, Nat.add_comm]
    · rw [if_pos rfl]
      exact Int.neg_eq_comm.1 (Int.ofNat_natAbs_of_nonpos (Int.le_of_lt hneg)).symm
  · refine ⟨false, fun tail => ?_, ?_, ?_⟩
    · rw [writeInt, if_neg hneg]
      exact spanMinus_toDigits n.natAbs tail
    · rw [writeInt, if_neg hneg, if_neg Bool.false_ne_true, Nat.zero_add]
    · rw [if_neg Bool.false_ne_true]
      exact Int.natAbs_of_nonneg (Int.not_lt.1 hneg)

/-- A whole number is read from its numeral. -/
theorem readNumber_writeInt {n : Int} (hn : IsReadable n) {tail : List Char}
    (htail : EndsNumeral tail) (position : Nat) :
    ∃ next, readNumber ⟨writeInt n ++ tail, position⟩ = .ok (.int n, ⟨tail, next⟩) := by
  obtain ⟨negative, hspan, hlength, hvalue⟩ := exists_sign n
  have hshort : (Nat.toDigits 10 n.natAbs).length ≤ integerDigitLimit :=
    (Nat.length_toDigits_le_iff (by decide) (by decide)).2 hn
  refine ⟨position + (writeInt n).length, ?_⟩
  unfold readNumber
  dsimp only
  rw [hspan]
  dsimp only
  rw [wholeDigits_toDigits _ htail, if_neg (Nat.toDigits_ne_nil ∘ List.isEmpty_iff.1),
    List.drop_left, fractionDigits_of_endsNumeral htail]
  simp only [List.isEmpty_nil, if_true, List.drop_zero]
  rw [exponentPart_of_endsNumeral htail]
  dsimp only
  rw [if_neg (Nat.not_lt.2 hshort), asciiNumber_toDigits, hvalue, ← hlength, Cursor.advance]
  dsimp only
  rw [List.drop_left]

/-! ## Blanks -/

/-- Blanks in front of something else are skipped. -/
theorem skipSpace_append {blanks rest : List Char} (hblanks : ∀ c ∈ blanks, isSpace c = true)
    (hrest : ∀ c ∈ rest.head?, isSpace c = false) (position : Nat) :
    (Cursor.mk (blanks ++ rest) position).skipSpace = ⟨rest, position + blanks.length⟩ := by
  have hnone : rest.takeWhile isSpace = [] := by
    cases rest with
    | nil => rfl
    | cons c rest => rw [List.takeWhile_cons_of_neg (by simp [hrest c rfl])]
  have hspaces : (blanks ++ rest).takeWhile isSpace = blanks := by
    rw [List.takeWhile_append_of_pos hblanks, hnone, List.append_nil]
  unfold Cursor.skipSpace
  dsimp only
  rw [hspaces, Cursor.advance]
  dsimp only
  rw [List.drop_left]

theorem skipSpace_of_head {rest : List Char} (hrest : ∀ c ∈ rest.head?, isSpace c = false)
    (position : Nat) : (Cursor.mk rest position).skipSpace = ⟨rest, position⟩ :=
  skipSpace_append (List.forall_mem_nil _) hrest position

theorem endsNumeral_of_isSpace {c : Char} (h : isSpace c = true) :
    isAsciiDigit c = false ∧ c ≠ '.' ∧ c ≠ 'e' ∧ c ≠ 'E' := by
  simp only [isSpace, Bool.or_eq_true, beq_iff_eq] at h
  rcases h with ((rfl | rfl) | rfl) | rfl <;> decide

theorem isSpace_head_cons {b : Char} (hb : isSpace b = false) (tail : List Char) :
    ∀ c ∈ (b :: tail).head?, isSpace c = false := by
  intro c hc
  obtain rfl : b = c := Option.some.inj hc
  exact hb

/-- Neither blanks nor what may follow them go on with a numeral. -/
theorem EndsNumeral.append {blanks rest : List Char} (hblanks : ∀ c ∈ blanks, isSpace c = true)
    (hrest : EndsNumeral rest) : EndsNumeral (blanks ++ rest) := by
  intro c hc
  cases blanks with
  | nil => exact hrest c hc
  | cons b blanks =>
      obtain rfl : b = c := Option.some.inj hc
      exact endsNumeral_of_isSpace (hblanks b List.mem_cons_self)

/-- A layout adds nothing but blanks and the commas between entries. -/
structure Layout.IsPlain (layout : Layout) : Prop where
  opening : ∀ k, ∀ c ∈ layout.opening k, isSpace c = true
  separator : ∀ k, ∃ blanks, layout.separator k = ',' :: blanks ∧ ∀ c ∈ blanks, isSpace c = true
  closing : ∀ k, ∀ c ∈ layout.closing k, isSpace c = true

/-- The blanks before a closing bracket are skipped. -/
theorem Layout.IsPlain.skipSpace_closing {layout : Layout} (h : layout.IsPlain) (k : Nat) {b : Char}
    (hb : isSpace b = false) (tail : List Char) (position : Nat) :
    ∃ next, (Cursor.mk (layout.closing k ++ b :: tail) position).skipSpace = ⟨b :: tail, next⟩ := by
  exact ⟨_, skipSpace_append (h.closing k) (isSpace_head_cons hb tail) position⟩

/-- A comma stops the reader, and the blanks behind it are skipped. -/
theorem Layout.IsPlain.skipSpace_separator {layout : Layout} (h : layout.IsPlain) (k : Nat)
    {rest : List Char} (hrest : ∀ c ∈ rest.head?, isSpace c = false) (position : Nat) :
    ∃ blanks, (Cursor.mk (layout.separator k ++ rest) position).skipSpace =
        ⟨',' :: (blanks ++ rest), position⟩ ∧
      ∃ next, ((Cursor.mk (',' :: (blanks ++ rest)) position).advance 1).skipSpace =
        ⟨rest, next⟩ := by
  obtain ⟨blanks, hseparator, hblanks⟩ := h.separator k
  refine ⟨blanks, ?_, _, skipSpace_append hblanks hrest (position + 1)⟩
  rw [hseparator]
  exact skipSpace_of_head (isSpace_head_cons rfl _) position

theorem isSpace_of_mem_lineBreak {k : Nat} {c : Char} (hc : c ∈ lineBreak k) :
    isSpace c = true := by
  rcases List.mem_cons.1 hc with rfl | hc
  · rfl
  · rw [List.eq_of_mem_replicate hc]
    rfl

theorem Layout.isPlain_indented : Layout.indented.IsPlain where
  opening _ _ := isSpace_of_mem_lineBreak
  separator k := ⟨lineBreak (k + 1), rfl, fun _ => isSpace_of_mem_lineBreak⟩
  closing _ _ := isSpace_of_mem_lineBreak

/-! ## Members -/

theorem insertMember_of_not_mem {name : String} {value : Json} {members : List (String × Json)}
    (h : name ∉ members.map Prod.fst) :
    insertMember name value members = members ++ [(name, value)] := by
  induction members with
  | nil => rfl
  | cons m rest ih =>
      obtain ⟨hne, hrest⟩ := not_or.1 (mt List.mem_cons.2 h)
      rw [insertMember, if_neg (Ne.symm hne), ih hrest]
      rfl

/-- Pairs of different names are the members of their object. -/
theorem ofPairs_of_nodup {pairs : List (String × Json)} (h : (pairs.map Prod.fst).Nodup) :
    ofPairs pairs = .object pairs := by
  have hfold : ∀ before after : List (String × Json), ((before ++ after).map Prod.fst).Nodup →
      after.foldl (fun members m => insertMember m.1 m.2 members) before = before ++ after := by
    intro before after
    induction after generalizing before with
    | nil => exact fun _ => (List.append_nil before).symm
    | cons m rest ih =>
        intro hnodup
        have hnew : m.1 ∉ before.map Prod.fst := by
          rw [List.map_append, List.nodup_append] at hnodup
          exact fun hmem => hnodup.2.2 m.1 hmem m.1 List.mem_cons_self rfl
        rw [List.foldl_cons, insertMember_of_not_mem hnew,
          ih (before ++ [m]) (by simpa using hnodup)]
        simp
  rw [ofPairs, hfold [] pairs h, List.nil_append]

/-! ## Values -/

/-- A value without floating point numbers whose whole numbers are not too long and whose objects
name each member once, in which so many lists and objects are nested at most. -/
inductive IsPlain : Nat → Json → Prop where
  | null (d : Nat) : IsPlain d .null
  | bool (d : Nat) (b : Bool) : IsPlain d (.bool b)
  | int (d : Nat) {n : Int} : IsReadable n → IsPlain d (.int n)
  | text (d : Nat) (s : String) : IsPlain d (.text s)
  | list {d : Nat} {items : List Json} : (∀ i ∈ items, IsPlain d i) → IsPlain (d + 1) (.list items)
  | object {d : Nat} {members : List (String × Json)} : (∀ m ∈ members, IsPlain d m.2) →
      (members.map Prod.fst).Nodup → IsPlain (d + 1) (.object members)

variable {layout : Layout} {half : Option Char} {room : Nat}

/-- What a value begins with is neither a blank, nor the end of a list, nor a byte order mark. -/
theorem IsPlain.exists_cons {d : Nat} {j : Json} (h : IsPlain d j) (layout : Layout) (k : Nat) :
    ∃ c rest, write layout k j = c :: rest ∧ isSpace c = false ∧ c ≠ ']' ∧ c ≠ '\ufeff' := by
  cases h with
  | null => exact ⟨'n', _, rfl, rfl, by decide, by decide⟩
  | bool _ b =>
      cases b
      · exact ⟨'f', _, rfl, rfl, by decide, by decide⟩
      · exact ⟨'t', _, rfl, rfl, by decide, by decide⟩
  | @int _ n _ =>
      rw [write, writeInt]
      split
      · exact ⟨'-', _, rfl, rfl, by decide, by decide⟩
      · rcases hchars : Nat.toDigits 10 n.natAbs with _ | ⟨c, digits⟩
        · exact absurd hchars Nat.toDigits_ne_nil
        · have hdigit : isAsciiDigit c = true :=
            isAsciiDigit_of_mem_toDigits (hchars ▸ List.mem_cons_self)
          have hne : ∀ b, isAsciiDigit b = false → c ≠ b := fun b => ne_of_isAsciiDigit hdigit
          exact ⟨c, digits, rfl, by simp [isSpace, hne ' ' rfl, hne '\t' rfl, hne '\n' rfl,
            hne '\r' rfl], hne ']' rfl, hne _ rfl⟩
  | text => exact ⟨'"', _, rfl, rfl, by decide, by decide⟩
  | @list _ items _ => cases items <;> exact ⟨'[', _, rfl, rfl, by decide, by decide⟩
  | @object _ members _ _ => cases members <;> exact ⟨'\x7b', _, rfl, rfl, by decide, by decide⟩

theorem IsPlain.exists_fuel {d : Nat} {j : Json} (h : IsPlain d j) {k fuel : Nat}
    (hfuel : (write layout k j).length ≤ fuel) : ∃ m, fuel = m + 1 := by
  obtain ⟨c, rest, hwrite, -⟩ := h.exists_cons layout k
  rw [hwrite, List.length_cons] at hfuel
  exact Nat.exists_eq_add_one_of_ne_zero (by omega)

/-- The value is read back from what is written for it. -/
def ReadsBack (layout : Layout) (half : Option Char) (room d : Nat) (j : Json) : Prop :=
  ∀ k fuel depth position tail, (write layout k j).length ≤ fuel → depth + d ≤ room →
    EndsNumeral tail →
    ∃ next, readValue half room fuel depth ⟨write layout k j ++ tail, position⟩ =
      .ok (j, ⟨tail, next⟩)

/-- The numerals of negative numbers are no constants. -/
theorem constantAt?_minus {c : Char} (rest : List Char) (hc : isAsciiDigit c = true) :
    constantAt? ('-' :: c :: rest) = none := by
  have hne : 'I' ≠ c := (ne_of_isAsciiDigit hc rfl).symm
  simp [constantAt?, constants, hne]

theorem readsBack_int {n : Int} (hn : IsReadable n) (d : Nat) :
    ReadsBack layout half room d (.int n) := by
  intro k fuel depth position tail hfuel _ htail
  obtain ⟨fuel, rfl⟩ := (IsPlain.int d hn).exists_fuel hfuel
  obtain ⟨next, hread⟩ := readNumber_writeInt hn htail position
  refine ⟨next, ?_⟩
  rcases hchars : Nat.toDigits 10 n.natAbs with _ | ⟨c, digits⟩
  · exact absurd hchars Nat.toDigits_ne_nil
  · have hdigit : isAsciiDigit c = true :=
      isAsciiDigit_of_mem_toDigits (hchars ▸ List.mem_cons_self)
    rw [write, ← hread]
    unfold writeInt
    rw [hchars]
    split
    · rw [readValue]
      dsimp only [List.cons_append]
      rw [if_neg (by decide), if_neg (by decide), if_neg (by decide), constantAt?_minus _ hdigit]
    · exact readValue_of_isAsciiDigit _ hdigit half room fuel depth position

theorem endsNumeral_cons {b : Char} (hb : isAsciiDigit b = false ∧ b ≠ '.' ∧ b ≠ 'e' ∧ b ≠ 'E')
    (tail : List Char) : EndsNumeral (b :: tail) := by
  intro c hc
  obtain rfl : b = c := Option.some.inj hc
  exact hb

theorem endsNumeral_separator (hlayout : layout.IsPlain) (k : Nat) (rest : List Char) :
    EndsNumeral (layout.separator k ++ rest) := by
  obtain ⟨blanks, hseparator, -⟩ := hlayout.separator k
  rw [hseparator]
  exact endsNumeral_cons (by decide) _

theorem IsPlain.head_write {d : Nat} {j : Json} (h : IsPlain d j) (layout : Layout) (k : Nat)
    (rest : List Char) : ∀ c ∈ (write layout k j ++ rest).head?, isSpace c = false := by
  obtain ⟨b, after, hwrite, hspace, -⟩ := h.exists_cons layout k
  intro c hc
  rw [hwrite] at hc
  exact isSpace_head_cons hspace _ c hc

/-- The items of a list are read back. -/
theorem readItems_write (hlayout : layout.IsPlain) {d k depth : Nat}
    (hdepth : depth + d ≤ room) {items : List Json} {item : Json}
    (hplain : ∀ i ∈ item :: items, IsPlain d i)
    (hreads : ∀ i ∈ item :: items, ReadsBack layout half room d i) {fuel : Nat}
    (hfuel : (write layout (k + 1) item ++ writeItems layout k items).length < fuel)
    (position : Nat) (tail : List Char) :
    ∃ next, readItems half room fuel depth
      ⟨write layout (k + 1) item ++ (writeItems layout k items ++
        (layout.closing k ++ ']' :: tail)), position⟩ = .ok (item :: items, ⟨tail, next⟩) := by
  induction items generalizing item fuel position with
  | nil =>
      obtain ⟨fuel, rfl⟩ := Nat.exists_eq_add_one_of_ne_zero (Nat.ne_zero_of_lt hfuel)
      rw [writeItems, List.append_nil] at hfuel
      rw [writeItems, List.nil_append]
      have hend : EndsNumeral (layout.closing k ++ ']' :: tail) :=
        EndsNumeral.append (hlayout.closing k) (endsNumeral_cons (by decide) tail)
      obtain ⟨after, hitem⟩ := hreads item List.mem_cons_self (k + 1) fuel depth position _
        (Nat.le_of_lt_succ hfuel) hdepth hend
      obtain ⟨bracket, hskip⟩ := hlayout.skipSpace_closing k (b := ']') rfl tail after
      refine ⟨bracket + 1, ?_⟩
      rw [readItems, hitem]
      dsimp only [Bind.bind, Except.bind]
      rw [hskip]
      rfl
  | cons second rest ih =>
      obtain ⟨fuel, rfl⟩ := Nat.exists_eq_add_one_of_ne_zero (Nat.ne_zero_of_lt hfuel)
      obtain ⟨comma, hseparator, -⟩ := hlayout.separator k
      rw [writeItems, List.length_append, List.length_append, List.length_append, hseparator,
        List.length_cons] at hfuel
      have hmore := (hplain second (by simp)).head_write layout (k + 1)
        (writeItems layout k rest ++ (layout.closing k ++ ']' :: tail))
      obtain ⟨after, hitem⟩ := hreads item List.mem_cons_self (k + 1) fuel depth position _
        (by omega) hdepth (endsNumeral_separator hlayout k _)
      obtain ⟨blanks, hskip, start, hstart⟩ := hlayout.skipSpace_separator k hmore after
      have hless : (write layout (k + 1) second ++ writeItems layout k rest).length < fuel := by
        rw [List.length_append]
        omega
      obtain ⟨next, hrest⟩ := ih (List.forall_mem_cons.1 hplain).2 (List.forall_mem_cons.1 hreads).2
        hless start
      refine ⟨next, ?_⟩
      rw [writeItems, List.append_assoc, List.append_assoc, readItems, hitem]
      dsimp only [Bind.bind, Except.bind]
      rw [hskip]
      dsimp only
      rw [hstart, hrest]
      rfl

theorem head?_writeMember (layout : Layout) (k : Nat) (m : String × Json) (rest : List Char) :
    (writeMember layout k m ++ rest).head? = some '"' := by
  obtain ⟨name, value⟩ := m
  rw [writeMember]
  rfl

/-- A member is read back before what follows it is looked at. -/
theorem readMembers_writeMember {d k fuel depth : Nat} (hdepth : depth + d ≤ room)
    {m : String × Json} (hplain : IsPlain d m.2) (hreads : ReadsBack layout half room d m.2)
    (hfuel : (writeMember layout k m).length ≤ fuel) {rest : List Char} (hrest : EndsNumeral rest)
    (position : Nat) :
    ∃ after, readMembers half room (fuel + 1) depth ⟨writeMember layout k m ++ rest, position⟩ =
      (let next := (Cursor.mk rest after).skipSpace
      match next.rest with
      | '\x7d' :: _ => return ([m], next.advance 1)
      | ',' :: _ => do
        let (members, stop) ← readMembers half room fuel depth (next.advance 1).skipSpace
        return (m :: members, stop)
      | _ => fail .expectingComma next.position) := by
  obtain ⟨name, value⟩ := m
  rw [writeMember, List.length_append, List.length_cons, List.length_cons] at hfuel
  obtain ⟨colon, hname⟩ := readQuoted_writeText half name
    (':' :: ' ' :: (write layout (k + 1) value ++ rest)) position
  have hcolon : (Cursor.mk (':' :: ' ' :: (write layout (k + 1) value ++ rest)) colon).skipSpace =
      ⟨':' :: ' ' :: (write layout (k + 1) value ++ rest), colon⟩ :=
    skipSpace_of_head (isSpace_head_cons rfl _) colon
  have hblank :
      ((Cursor.mk (':' :: ' ' :: (write layout (k + 1) value ++ rest)) colon).advance 1).skipSpace =
        ⟨write layout (k + 1) value ++ rest, colon + 1 + 1⟩ :=
    skipSpace_append (List.forall_mem_singleton.2 rfl) (hplain.head_write layout (k + 1) rest)
      (colon + 1)
  have hlength : (write layout (k + 1) value).length ≤ fuel := by omega
  obtain ⟨after, hvalue⟩ := hreads (k + 1) fuel depth (colon + 1 + 1) rest hlength hdepth hrest
  refine ⟨after, ?_⟩
  have hwritten : writeMember layout k (name, value) ++ rest =
      writeText name ++ ':' :: ' ' :: (write layout (k + 1) value ++ rest) := by
    rw [writeMember, List.append_assoc]
    rfl
  have hquote : (writeText name ++ ':' :: ' ' :: (write layout (k + 1) value ++ rest)).head? =
      some '"' := rfl
  rw [hwritten, readMembers]
  dsimp only
  rw [hquote, if_neg (not_not_intro rfl), hname]
  dsimp only [Bind.bind, Except.bind]
  rw [hcolon]
  simp only [List.head?_cons, ne_eq, not_true_eq_false, if_false]
  rewrite [hblank, hvalue]
  rfl

/-- The members of an object are read back. -/
theorem readMembers_write (hlayout : layout.IsPlain) {d k depth : Nat}
    (hdepth : depth + d ≤ room) {members : List (String × Json)} {m : String × Json}
    (hplain : ∀ m' ∈ m :: members, IsPlain d m'.2)
    (hreads : ∀ m' ∈ m :: members, ReadsBack layout half room d m'.2) {fuel : Nat}
    (hfuel : (writeMember layout k m ++ writeMembers layout k members).length < fuel)
    (position : Nat) (tail : List Char) :
    ∃ next, readMembers half room fuel depth
      ⟨writeMember layout k m ++ (writeMembers layout k members ++
        (layout.closing k ++ '\x7d' :: tail)), position⟩ = .ok (m :: members, ⟨tail, next⟩) := by
  induction members generalizing m fuel position with
  | nil =>
      obtain ⟨fuel, rfl⟩ := Nat.exists_eq_add_one_of_ne_zero (Nat.ne_zero_of_lt hfuel)
      rw [writeMembers, List.append_nil] at hfuel
      rw [writeMembers, List.nil_append]
      obtain ⟨after, hmember⟩ := readMembers_writeMember hdepth (hplain m List.mem_cons_self)
        (hreads m List.mem_cons_self) (Nat.le_of_lt_succ hfuel)
        (EndsNumeral.append (hlayout.closing k) (endsNumeral_cons (b := '\x7d') (by decide) tail))
        position
      obtain ⟨brace, hskip⟩ := hlayout.skipSpace_closing k (b := '\x7d') rfl tail after
      refine ⟨brace + 1, ?_⟩
      rw [hmember]
      dsimp only
      rw [hskip]
      rfl
  | cons second rest ih =>
      obtain ⟨fuel, rfl⟩ := Nat.exists_eq_add_one_of_ne_zero (Nat.ne_zero_of_lt hfuel)
      obtain ⟨comma, hseparator, -⟩ := hlayout.separator k
      rw [writeMembers, List.length_append, List.length_append, List.length_append, hseparator,
        List.length_cons] at hfuel
      have hfirst : (writeMember layout k m).length ≤ fuel := by omega
      obtain ⟨after, hmember⟩ := readMembers_writeMember hdepth (hplain m List.mem_cons_self)
        (hreads m List.mem_cons_self) hfirst
        (endsNumeral_separator hlayout k (writeMember layout k second ++
          (writeMembers layout k rest ++ (layout.closing k ++ '\x7d' :: tail)))) position
      have hquote : ∀ c ∈ (writeMember layout k second ++ (writeMembers layout k rest ++
          (layout.closing k ++ '\x7d' :: tail))).head?, isSpace c = false := by
        rw [head?_writeMember]
        exact isSpace_head_cons (b := '"') rfl []
      obtain ⟨blanks, hskip, start, hstart⟩ := hlayout.skipSpace_separator k hquote after
      have hless : (writeMember layout k second ++ writeMembers layout k rest).length < fuel := by
        rw [List.length_append]
        omega
      obtain ⟨next, hrest⟩ := ih (List.forall_mem_cons.1 hplain).2 (List.forall_mem_cons.1 hreads).2
        hless start
      refine ⟨next, ?_⟩
      rw [writeMembers, List.append_assoc, List.append_assoc, hmember]
      dsimp only
      rw [hskip]
      dsimp only
      rw [hstart, hrest]
      rfl

theorem readsBack_list (hlayout : layout.IsPlain) {d : Nat} {items : List Json}
    (hplain : ∀ i ∈ items, IsPlain d i) (hreads : ∀ i ∈ items, ReadsBack layout half room d i) :
    ReadsBack layout half room (d + 1) (.list items) := by
  intro k fuel depth position tail hfuel hdepth _
  obtain ⟨fuel, rfl⟩ := (IsPlain.list hplain).exists_fuel hfuel
  have hshallow : ¬room ≤ depth := by omega
  cases items with
  | nil =>
      have hskip : ((Cursor.mk ('[' :: ']' :: tail) position).advance 1).skipSpace =
          ⟨']' :: tail, position + 1⟩ :=
        skipSpace_of_head (isSpace_head_cons rfl _) (position + 1)
      refine ⟨position + 1 + 1, ?_⟩
      rw [write, List.cons_append, List.singleton_append, readValue]
      dsimp only
      rw [if_neg (by decide), if_pos rfl, if_neg hshallow, hskip]
      rfl
  | cons item rest =>
      have hitem := hplain item List.mem_cons_self
      obtain ⟨c, after, hwrite, -, hne, -⟩ := hitem.exists_cons layout (k + 1)
      have hwritten : write layout k (.list (item :: rest)) ++ tail =
          '[' :: (layout.opening k ++ (write layout (k + 1) item ++
            (writeItems layout k rest ++ (layout.closing k ++ ']' :: tail)))) := by
        rw [write]
        simp
      have hskip : ((Cursor.mk ('[' :: (layout.opening k ++ (write layout (k + 1) item ++
          (writeItems layout k rest ++ (layout.closing k ++ ']' :: tail))))) position).advance
            1).skipSpace =
            ⟨write layout (k + 1) item ++ (writeItems layout k rest ++
              (layout.closing k ++ ']' :: tail)), position + 1 + (layout.opening k).length⟩ :=
        skipSpace_append (hlayout.opening k) (hitem.head_write layout (k + 1) _) (position + 1)
      have hless : (write layout (k + 1) item ++ writeItems layout k rest).length < fuel := by
        rw [write] at hfuel
        simp only [List.length_append, List.length_cons, List.length_nil] at hfuel ⊢
        omega
      obtain ⟨next, hitems⟩ := readItems_write hlayout (by omega : depth + 1 + d ≤ room)
        hplain hreads hless (position + 1 + (layout.opening k).length) tail
      refine ⟨next, ?_⟩
      rw [hwritten, readValue]
      dsimp only
      rw [if_neg (by decide), if_pos rfl, if_neg hshallow, hskip]
      dsimp only
      rw [if_neg, hitems]
      · rfl
      · rw [hwrite]
        exact fun h => hne (Option.some.inj h)

theorem readsBack_object (hlayout : layout.IsPlain) {d : Nat} {members : List (String × Json)}
    (hplain : ∀ m ∈ members, IsPlain d m.2) (hnames : (members.map Prod.fst).Nodup)
    (hreads : ∀ m ∈ members, ReadsBack layout half room d m.2) :
    ReadsBack layout half room (d + 1) (.object members) := by
  intro k fuel depth position tail hfuel hdepth _
  obtain ⟨fuel, rfl⟩ := (IsPlain.object hplain hnames).exists_fuel hfuel
  have hshallow : ¬room ≤ depth := by omega
  cases members with
  | nil =>
      have hskip : ((Cursor.mk ('\x7b' :: '\x7d' :: tail) position).advance 1).skipSpace =
          ⟨'\x7d' :: tail, position + 1⟩ :=
        skipSpace_of_head (isSpace_head_cons rfl _) (position + 1)
      refine ⟨position + 1 + 1, ?_⟩
      rw [write, List.cons_append, List.singleton_append, readValue]
      dsimp only
      rw [if_neg (by decide), if_neg (by decide), if_pos rfl, if_neg hshallow, hskip]
      rfl
  | cons m rest =>
      have hwritten : write layout k (.object (m :: rest)) ++ tail =
          '\x7b' :: (layout.opening k ++ (writeMember layout k m ++
            (writeMembers layout k rest ++ (layout.closing k ++ '\x7d' :: tail)))) := by
        rw [write]
        simp
      have hquote := head?_writeMember layout k m
        (writeMembers layout k rest ++ (layout.closing k ++ '\x7d' :: tail))
      have hskip : ((Cursor.mk ('\x7b' :: (layout.opening k ++ (writeMember layout k m ++
          (writeMembers layout k rest ++ (layout.closing k ++ '\x7d' :: tail))))) position).advance
            1).skipSpace =
            ⟨writeMember layout k m ++ (writeMembers layout k rest ++
              (layout.closing k ++ '\x7d' :: tail)), position + 1 + (layout.opening k).length⟩ := by
        refine skipSpace_append (hlayout.opening k) ?_ (position + 1)
        rw [hquote]
        exact isSpace_head_cons (b := '"') rfl []
      have hless : (writeMember layout k m ++ writeMembers layout k rest).length < fuel := by
        rw [write] at hfuel
        simp only [List.length_append, List.length_cons, List.length_nil] at hfuel ⊢
        omega
      obtain ⟨next, hmembers⟩ := readMembers_write hlayout (by omega : depth + 1 + d ≤ room)
        hplain hreads hless (position + 1 + (layout.opening k).length) tail
      refine ⟨next, ?_⟩
      rw [hwritten, readValue]
      dsimp only
      rw [if_neg (by decide), if_neg (by decide), if_pos rfl, if_neg hshallow, hskip]
      dsimp only
      rw [if_neg (by rw [hquote]; decide), hmembers, ← ofPairs_of_nodup hnames]
      rfl

theorem IsPlain.readsBack (hlayout : layout.IsPlain) {d : Nat} {j : Json} (h : IsPlain d j) :
    ReadsBack layout half room d j := by
  induction h with
  | null d =>
      intro k fuel depth position tail hfuel _ _
      obtain ⟨fuel, rfl⟩ := (IsPlain.null d).exists_fuel hfuel
      exact ⟨_, rfl⟩
  | bool d b =>
      intro k fuel depth position tail hfuel _ _
      obtain ⟨fuel, rfl⟩ := (IsPlain.bool d b).exists_fuel hfuel
      cases b <;> exact ⟨_, rfl⟩
  | int d hn => exact readsBack_int hn d
  | text d s =>
      intro k fuel depth position tail hfuel _ _
      obtain ⟨fuel, rfl⟩ := (IsPlain.text d s).exists_fuel hfuel
      obtain ⟨next, hread⟩ := readQuoted_writeText half s tail position
      refine ⟨next, ?_⟩
      have hrest : writeText s ++ tail =
          '"' :: (s.toList.flatMap escapeChar ++ ['"'] ++ tail) := rfl
      rw [write, readValue]
      dsimp only
      rw [hread, hrest]
      rfl
  | list hitems ih => exact readsBack_list hlayout hitems ih
  | object hmembers hnames ih => exact readsBack_object hlayout hmembers hnames ih

/-- What is written is read back, whatever half of a pair is read as. -/
theorem readWith_pretty {d : Nat} {j : Json} (h : IsPlain d j) (hdepth : d ≤ room) :
    readWith half room j.pretty = .ok j := by
  obtain ⟨c, rest, hwrite, hspace, -, hmark⟩ := h.exists_cons .indented 0
  have hreads : ReadsBack .indented half room d j := h.readsBack Layout.isPlain_indented
  obtain ⟨next, hvalue⟩ := hreads 0 (fuelFor (j.write .indented 0).length) 0 0 []
    (by unfold fuelFor; omega) (by omega) nofun
  have hskip : (Cursor.mk (j.write .indented 0) 0).skipSpace = ⟨j.write .indented 0, 0⟩ :=
    skipSpace_of_head (by simpa using h.head_write .indented 0 []) 0
  have hhead : (j.write .indented 0).head? ≠ some '\ufeff' := by
    rw [hwrite]
    exact fun h => hmark (Option.some.inj h)
  unfold pretty readWith
  rw [String.toList_ofList]
  dsimp only
  rw [if_neg hhead, hskip]
  rw [List.append_nil] at hvalue
  rw [hvalue]
  rfl

/-- What is written is read back: no half of a pair stands alone in it. -/
theorem read_pretty {d : Nat} {j : Json} (h : IsPlain d j) (hdepth : d ≤ room) :
    read room j.pretty = .ok j := by
  rw [read, readMended, readWith_pretty h hdepth]
  exact readWith_pretty h hdepth

end Rulebook.Json
