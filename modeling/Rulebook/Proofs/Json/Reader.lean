import Mathlib.Data.List.Basic
import Mathlib.Data.List.TakeWhile
import Rulebook.Json.Reader
import Rulebook.Proofs.Number.Numerals

/-!
# What the reader takes

Two facts about the reader of JSON texts that matter to values which are stored as texts and may be
read again.

A text that is read is shorter than what it was read from: both quotes are gone, and no escape
stands for more characters than it has.  Reading again and again therefore comes to an end.

A positive whole number is read from its numeral, and from no other text does the reader take a
whole number that is longer than the numerals it takes.

What half of a pair is read as has no part in this.  Where it is refused, the rest is read as it is
with the replacement character in its place.

## Main statements

* `length_add_two_le_of_readWith` — a text is shorter than what it is read from.
* `readWith_toString` — a numeral is read as its number.
* `isReadable_of_readWith` — whole numbers that are read are not too long to be read.
-/

namespace Rulebook

namespace Json

open Number

/-- What leads to a result leads to one in each step. -/
theorem exists_of_bind_eq_ok {α β : Type} {x : Except ReadFault α} {f : α → Except ReadFault β}
    {b : β} (h : (x >>= f) = .ok b) : ∃ a, x = .ok a ∧ f a = .ok b := by
  cases x with
  | error fault => cases h
  | ok a => exact ⟨a, rfl, h⟩

variable {half : Option Char} {room : Nat} {s : String} {value : Json}

/-! ## Texts -/

/-- Every character of a text takes at least one, and the closing quote takes one more. -/
theorem length_readTextChars {start fuel : Nat} {cursor stop : Cursor} {done chars : List Char}
    (h : readTextChars half start fuel cursor done = .ok (chars, stop)) :
    chars.length + stop.rest.length + 1 ≤ done.length + cursor.rest.length := by
  induction fuel generalizing cursor done with
  | zero => cases h
  | succ fuel ih =>
      obtain ⟨rest, position⟩ := cursor
      rw [readTextChars] at h
      dsimp only at h
      split at h
      · cases h
      · next c rest =>
        -- However many characters an escape takes, it takes one at least.
        have hstep : ∀ {n : Nat} {char : Char}, 1 ≤ n →
            readTextChars half start fuel ((Cursor.mk (c :: rest) position).advance n)
              (char :: done) = .ok (chars, stop) →
            chars.length + stop.rest.length + 1 ≤ done.length + (c :: rest).length := by
          intro n char hpos hread
          have hrest := ih hread
          simp only [Cursor.advance, List.length_cons, List.length_drop] at hrest ⊢
          omega
        split at h
        · cases h
          simp only [Cursor.advance, List.length_reverse, List.length_drop, List.length_cons]
          omega
        · split at h
          · split at h
            · cases h
            · split at h
              · split at h
                · cases h
                · split at h
                  · cases h
                  · exact hstep (Nat.le_add_right_of_le (by decide)) h
              · split at h
                · exact hstep (by decide) h
                · cases h
          · split at h
            · cases h
            · exact hstep (Nat.le_refl 1) h

theorem length_readQuoted {cursor stop : Cursor} (hcursor : cursor.rest ≠ [])
    (h : readQuoted half cursor = .ok (s, stop)) :
    s.length + stop.rest.length + 2 ≤ cursor.rest.length := by
  rw [readQuoted] at h
  cases hread : readTextChars half cursor.position ((cursor.advance 1).rest.length + 1)
      (cursor.advance 1) [] with
  | error fault =>
      rw [hread] at h
      cases h
  | ok found =>
      obtain ⟨chars, after⟩ := found
      rw [hread] at h
      cases h
      have hlength := length_readTextChars hread
      have hpos := List.length_pos_iff.2 hcursor
      simp only [Cursor.advance, List.length_drop, List.length_nil] at hlength
      rw [String.length_ofList]
      omega

/-! ## Numerals -/

theorem asciiNumber_eq_ofDigitValues (digits : List Char) :
    asciiNumber digits = ofDigitValues (digits.map fun c => c.toNat - '0'.toNat) := by
  rw [asciiNumber, ofDigitValues, List.foldl_map]

theorem asciiValue_lt {c : Char} (h : isAsciiDigit c = true) : c.toNat - '0'.toNat < 10 := by
  simp only [isAsciiDigit, Bool.and_eq_true, decide_eq_true_eq] at h
  have hle : c.toNat ≤ '9'.toNat := h.2
  have hnine : '9'.toNat = 57 := rfl
  have hzero : '0'.toNat = 48 := rfl
  omega

/-- The digits that are taken are digits. -/
theorem isAsciiDigit_of_mem_wholeDigits (body : List Char) :
    ∀ c ∈ wholeDigits body, isAsciiDigit c = true := by
  intro c hc
  rw [wholeDigits.eq_def] at hc
  split at hc
  · rw [List.mem_singleton.1 hc]
    rfl
  · exact List.mem_takeWhile_imp hc

/-- A numeral gives a number that is not too long, and no text. -/
theorem readNumber_eq_ok {cursor stop : Cursor}
    (h : readNumber cursor = .ok (value, stop)) :
    (∀ s, value ≠ .text s) ∧ ∀ n, value = .int n → IsReadable n := by
  rw [readNumber] at h
  generalize spanMinus cursor.rest = span at h
  obtain ⟨negative, body⟩ := span
  dsimp only at h
  have hdigits := isAsciiDigit_of_mem_wholeDigits body
  generalize wholeDigits body = whole at h hdigits
  split at h
  · cases h
  · split at h
    · split at h
      · cases h
      · next hshort =>
        cases h
        refine ⟨fun _ => nofun, fun n hn => ?_⟩
        cases hn
        rw [asciiNumber_eq_ofDigitValues]
        refine isReadable_ofDigitValues ?_ ?_ negative
        · intro d hd
          obtain ⟨c, hc, rfl⟩ := List.mem_map.1 hd
          exact asciiValue_lt (hdigits c hc)
        · rw [List.length_map]
          exact Nat.not_lt.1 hshort
    · cases h
      exact ⟨fun _ => nofun, fun _ => nofun⟩

/-! ## Values -/

/-- A constant is neither a text nor a whole number. -/
theorem constantAt?_isBare {s : List Char} {length : Nat}
    (h : constantAt? s = some (value, length)) :
    (∀ t, value ≠ .text t) ∧ ∀ n, value ≠ .int n := by
  obtain ⟨⟨name, constant⟩, hfound, heq⟩ := Option.map_eq_some_iff.1 h
  cases heq
  have hmem := List.mem_of_find?_eq_some hfound
  simp only [constants, List.mem_cons, List.not_mem_nil, or_false, Prod.mk.injEq] at hmem
  rcases hmem with ⟨-, rfl⟩ | ⟨-, rfl⟩ | ⟨-, rfl⟩ | ⟨-, rfl⟩ | ⟨-, rfl⟩ | ⟨-, rfl⟩ <;>
    exact ⟨fun _ => nofun, fun _ => nofun⟩

/-- A text that is read is the one between quotes at the cursor; a whole number that is read is not
too long. -/
theorem readValue_eq_ok {fuel depth : Nat} {cursor stop : Cursor}
    (h : readValue half room fuel depth cursor = .ok (value, stop)) :
    (∀ s, value = .text s → cursor.rest ≠ [] ∧ readQuoted half cursor = .ok (s, stop)) ∧
      ∀ n, value = .int n → IsReadable n := by
  cases fuel with
  | zero =>
      rw [readValue] at h
      cases h
  | succ fuel =>
      rw [readValue] at h
      split at h
      · cases h
      · next c rest hrest =>
        have hne : cursor.rest ≠ [] := by
          rw [hrest]
          exact List.cons_ne_nil c rest
        -- Only a quote starts a text, and only a number can be a whole number.
        have hother : (∀ s, value ≠ .text s) → (∀ n, value = .int n → IsReadable n) →
            (∀ s, value = .text s → cursor.rest ≠ [] ∧ readQuoted half cursor = .ok (s, stop)) ∧
              ∀ n, value = .int n → IsReadable n :=
          fun htext hint => ⟨fun s hs => absurd hs (htext s), hint⟩
        split at h
        · obtain ⟨⟨s, after⟩, hquoted, h⟩ := exists_of_bind_eq_ok h
          cases h
          refine ⟨fun t ht => ⟨hne, ?_⟩, fun _ => nofun⟩
          cases ht
          exact hquoted
        · split at h
          · split at h
            · cases h
            · dsimp only at h
              split at h
              · cases h
                exact hother (fun _ => nofun) fun _ => nofun
              · obtain ⟨found, -, h⟩ := exists_of_bind_eq_ok h
                cases h
                exact hother (fun _ => nofun) fun _ => nofun
          · split at h
            · split at h
              · cases h
              · dsimp only at h
                split at h
                · cases h
                  exact hother (fun _ => nofun) fun _ => nofun
                · obtain ⟨found, -, h⟩ := exists_of_bind_eq_ok h
                  cases h
                  exact hother (fun _ => nofun) fun _ => nofun
            · split at h
              · next constant length hconstant =>
                cases h
                obtain ⟨htext, hint⟩ := constantAt?_isBare hconstant
                exact hother htext fun n hn => absurd hn (hint n)
              · obtain ⟨htext, hint⟩ := readNumber_eq_ok h
                exact hother htext hint

/-- What reading a whole text comes to: a value after blanks, and nothing but blanks after it. -/
theorem readWith_eq_ok (h : readWith half room s = .ok value) :
    ∃ stop, readValue half room (fuelFor s.toList.length) 0 (Cursor.mk s.toList 0).skipSpace =
      .ok (value, stop) := by
  rw [readWith] at h
  dsimp only at h
  split at h
  · cases h
  · obtain ⟨⟨found, stop⟩, hfound, h⟩ := exists_of_bind_eq_ok h
    dsimp only at h
    split at h
    · cases h
      exact ⟨stop, hfound⟩
    · cases h

/-- A text is shorter than what it is read from. -/
theorem length_add_two_le_of_readWith {t : String} (h : readWith half room s = .ok (.text t)) :
    t.length + 2 ≤ s.length := by
  obtain ⟨stop, hvalue⟩ := readWith_eq_ok h
  obtain ⟨hne, hquoted⟩ := (readValue_eq_ok hvalue).1 t rfl
  have hlength := length_readQuoted hne hquoted
  have hskip : (Cursor.mk s.toList 0).skipSpace.rest.length ≤ s.toList.length := by
    rw [Cursor.skipSpace, Cursor.advance, List.length_drop]
    exact Nat.sub_le _ _
  rw [String.length_toList] at hskip
  omega

/-- Whole numbers that are read are not too long to be read. -/
theorem isReadable_of_readWith {n : Int} (h : readWith half room s = .ok (.int n)) :
    IsReadable n := by
  obtain ⟨stop, hvalue⟩ := readWith_eq_ok h
  exact (readValue_eq_ok hvalue).2 n rfl

/-! ## Numerals that are read -/

theorem ne_of_isAsciiDigit {c d : Char} (hc : isAsciiDigit c = true) (hd : isAsciiDigit d = false) :
    c ≠ d := by
  rintro rfl
  rw [hc] at hd
  cases hd

/-- No constant begins with a digit. -/
theorem constantAt?_of_isAsciiDigit {c : Char} (rest : List Char) (hc : isAsciiDigit c = true) :
    constantAt? (c :: rest) = none := by
  have hne : ∀ d, isAsciiDigit d = false → d ≠ c := fun d hd => (ne_of_isAsciiDigit hc hd).symm
  simp [constantAt?, constants, hne 'n' rfl, hne 't' rfl, hne 'f' rfl, hne 'N' rfl, hne 'I' rfl,
    hne '-' rfl]

/-- Digits without a leading zero are read as the number that they write. -/
theorem readNumber_digits {c : Char} {rest : List Char}
    (hdigits : ∀ d ∈ c :: rest, isAsciiDigit d = true) (hzero : c ≠ '0')
    (hshort : (c :: rest).length ≤ integerDigitLimit) (position : Nat) :
    readNumber ⟨c :: rest, position⟩ =
      .ok (.int (asciiNumber (c :: rest)), ⟨[], position + (c :: rest).length⟩) := by
  have hminus : c ≠ '-' := ne_of_isAsciiDigit (hdigits c List.mem_cons_self) rfl
  have hspan : spanMinus (c :: rest) = (false, c :: rest) := by
    rw [spanMinus.eq_def]
    split
    · next heq =>
      cases heq
      exact absurd rfl hminus
    · rfl
  have hwhole : wholeDigits (c :: rest) = c :: rest := by
    rw [wholeDigits.eq_def]
    split
    · next heq =>
      cases heq
      exact absurd rfl hzero
    · exact List.takeWhile_eq_self_iff.2 hdigits
  rw [readNumber, hspan]
  dsimp only
  rw [hwhole, if_neg (List.cons_ne_nil c rest ∘ List.isEmpty_iff.1), List.drop_length]
  simp only [fractionDigits, exponentPart, List.isEmpty_nil, if_true, List.drop_nil]
  rw [if_neg (Nat.not_lt.2 hshort), if_neg Bool.false_ne_true, if_neg Bool.false_ne_true]
  simp [Cursor.advance]

/-- Where a digit stands, a number is read. -/
theorem readValue_of_isAsciiDigit {c : Char} (rest : List Char) (hc : isAsciiDigit c = true)
    (half : Option Char) (room fuel depth position : Nat) :
    readValue half room (fuel + 1) depth ⟨c :: rest, position⟩ =
      readNumber ⟨c :: rest, position⟩ := by
  have hne : ∀ d, isAsciiDigit d = false → c ≠ d := fun d hd => ne_of_isAsciiDigit hc hd
  rw [readValue]
  dsimp only
  rw [if_neg (hne '"' rfl), if_neg (hne '[' rfl), if_neg (hne '\x7b' rfl),
    constantAt?_of_isAsciiDigit rest hc]

theorem readWith_digits {c : Char} {rest : List Char}
    (hdigits : ∀ d ∈ c :: rest, isAsciiDigit d = true) (hzero : c ≠ '0')
    (hshort : (c :: rest).length ≤ integerDigitLimit) (half : Option Char) (room : Nat) :
    readWith half room (String.ofList (c :: rest)) = .ok (.int (asciiNumber (c :: rest))) := by
  have hc := hdigits c List.mem_cons_self
  have hne : ∀ d, isAsciiDigit d = false → c ≠ d := fun d hd => ne_of_isAsciiDigit hc hd
  have hspace : isSpace c = false := by
    simp [isSpace, hne ' ' rfl, hne '\t' rfl, hne '\n' rfl, hne '\r' rfl]
  have hskip : (Cursor.mk (c :: rest) 0).skipSpace = ⟨c :: rest, 0⟩ := by
    simp [Cursor.skipSpace, Cursor.advance, hspace]
  have hmark : (c :: rest).head? ≠ some '\ufeff' := fun h => hne _ rfl (Option.some.inj h)
  rw [readWith, String.toList_ofList]
  dsimp only
  rw [if_neg hmark, hskip, fuelFor, readValue_of_isAsciiDigit rest hc,
    readNumber_digits hdigits hzero hshort]
  rfl

/-- The digits of a number that is not nought do not begin with a zero. -/
theorem head_toDigits_ne_zero {n : Nat} (hn : 0 < n) : (Nat.toDigits 10 n).head? ≠ some '0' := by
  induction n using Nat.strong_induction_on with
  | _ n ih =>
      by_cases hsmall : n < 10
      · have hdigit : ∀ m < 10, 0 < m → [m.digitChar].head? ≠ some '0' := by decide
        rw [Nat.toDigits_of_lt_base hsmall]
        exact hdigit n hsmall hn
      · rw [Nat.toDigits_of_base_le (by decide) (Nat.not_lt.1 hsmall)]
        rw [List.head?_append_of_ne_nil _ Nat.toDigits_ne_nil]
        exact ih (n / 10) (by omega) (by omega)

theorem isAsciiDigit_of_mem_toDigits {n : Nat} {d : Char} (hd : d ∈ Nat.toDigits 10 n) :
    isAsciiDigit d = true := by
  have hdigit := Nat.isDigit_of_mem_toDigits (by decide) (by decide) hd
  simpa [Char.isDigit, isAsciiDigit, Char.le_def, UInt32.le_iff_toNat_le] using hdigit

theorem asciiNumber_toDigits (n : Nat) : asciiNumber (Nat.toDigits 10 n) = n := by
  have hback : Nat.ofDigitChars 10 (Nat.toDigits 10 n) 0 = n := Nat.ofDigitChars_ten_toDigits
  simpa only [asciiNumber, Nat.ofDigitChars, Nat.mul_comm] using hback

/-- A positive number is read from its numeral. -/
theorem readWith_toString {n : Int} (hpos : 0 < n) (hn : IsReadable n) (half : Option Char)
    (room : Nat) : readWith half room (toString n) = .ok (.int n) := by
  obtain ⟨m, rfl⟩ : ∃ m : Nat, n = m := ⟨n.toNat, (Int.toNat_of_nonneg (Int.le_of_lt hpos)).symm⟩
  have hm : 0 < m := Int.natCast_pos.1 hpos
  have hshort : (Nat.toDigits 10 m).length ≤ integerDigitLimit :=
    (Nat.length_toDigits_le_iff (by decide) (by decide)).2 hn
  have hdigits : ∀ d ∈ Nat.toDigits 10 m, isAsciiDigit d = true :=
    fun _ => isAsciiDigit_of_mem_toDigits
  have hnumber := asciiNumber_toDigits m
  have htext : toString (m : Int) = String.ofList (Nat.toDigits 10 m) := rfl
  have hhead := head_toDigits_ne_zero hm
  rw [htext]
  rcases hchars : Nat.toDigits 10 m with _ | ⟨c, rest⟩
  · exact absurd hchars Nat.toDigits_ne_nil
  · rw [hchars] at hshort hdigits hhead hnumber
    rw [readWith_digits hdigits (fun h => hhead (congrArg some h)) hshort, hnumber]

end Json

end Rulebook
