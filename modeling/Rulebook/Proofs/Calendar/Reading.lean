import Mathlib
import Rulebook.Calendar.Reading
import Rulebook.Proofs.Text.Plain

/-!
# Dates are read from their texts

The text of a date is in the standard form, and the date is read back from it.  This has to go
through bytes: the standard forms are read byte by byte, while a text is made of characters.  For
the digits and dashes of a date it comes to the same.

The converse is less exact, since there are many ways to write a date.  What is read is always a day
that exists, on each of the ways to read one: a day of a month, a day of a week, and the day of a
moment, each in the standard and in the lenient form.  The checks stand where a date is made, so
that nothing has to be known of what was read before; the judgement `OnlyGives` carries them
through the readers.

## Main definitions

* `OnlyGives` — whatever a reader gives is as described.
* `Date.Exists`, `Moment.DayExists` — there is such a day.

## Main statements

* `Date.text_inj` — different dates have different texts.
* `dateOf?_text` — a date is read from its text.
* `onlyGives_dateOf?` — only days that exist are read.
-/

namespace Rulebook.Calendar

open Rulebook.Text

/-! ## Texts of dates -/

theorem ofDigitChars_padded (width n : Nat) :
    Nat.ofDigitChars 10 (padded width n).toList 0 = n := by
  simp [padded, Nat.ofDigitChars_append]

theorem padded_inj {width m n : Nat} (h : (padded width m).toList = (padded width n).toList) :
    m = n := by
  rw [← ofDigitChars_padded width m, h, ofDigitChars_padded]

theorem isDigit_of_mem_padded {width n : Nat} {c : Char} (h : c ∈ (padded width n).toList) :
    c.isDigit = true := by
  rw [padded, String.toList_ofList, List.mem_append] at h
  rcases h with h | h
  · rw [List.eq_of_mem_replicate h]
    rfl
  · exact Nat.isDigit_of_mem_toDigits (by decide) (by decide) h

theorem Date.splitOn_text (d : Date) : d.text.toList.splitOn '-' =
    [(padded 4 d.year).toList, (padded 2 d.month).toList, (padded 2 d.day).toList] := by
  have hdash : ∀ width n, '-' ∉ (padded width n).toList := fun width n hmem =>
    absurd (isDigit_of_mem_padded hmem) (by decide)
  have hjoined : d.text.toList = ['-'].intercalate
      [(padded 4 d.year).toList, (padded 2 d.month).toList, (padded 2 d.day).toList] := by
    simp [Date.text, List.intercalate, List.intersperse]
  rw [hjoined]
  exact List.splitOn_intercalate '-' (by simp [hdash]) (by simp)

/-- Different dates have different texts. -/
theorem Date.text_inj {a b : Date} (h : a.text = b.text) : a = b := by
  have hparts : a.text.toList.splitOn '-' = b.text.toList.splitOn '-' := by rw [h]
  rw [a.splitOn_text, b.splitOn_text] at hparts
  simp only [List.cons.injEq] at hparts
  obtain ⟨hyear, hmonth, hday, -⟩ := hparts
  cases a
  cases b
  rw [Date.mk.injEq]
  exact ⟨padded_inj hyear, padded_inj hmonth, padded_inj hday⟩

/-- A date is written with digits and dashes. -/
theorem Date.mem_text {d : Date} {c : Char} (h : c ∈ d.text.toList) :
    c.isDigit = true ∨ c = '-' := by
  simp only [Date.text, String.toList_append, List.mem_append] at h
  rcases h with (((h | h) | h) | h) | h
  · exact .inl (isDigit_of_mem_padded h)
  · exact .inr (List.mem_singleton.1 h)
  · exact .inl (isDigit_of_mem_padded h)
  · exact .inr (List.mem_singleton.1 h)
  · exact .inl (isDigit_of_mem_padded h)

/-- The characters of a date come before the letters. -/
theorem Date.toNat_lt_of_mem_text {d : Date} {c : Char} (h : c ∈ d.text.toList) :
    c.toNat < 0x41 := by
  rcases Date.mem_text h with hdigit | rfl
  · have hrange : 0x30 ≤ c.toNat ∧ c.toNat ≤ 0x39 := Char.isDigit_iff_toNat.1 hdigit
    omega
  · decide

theorem Date.strip_text (d : Date) : strip d.text = d.text := by
  have hblank : ∀ c ∈ d.text.toList, isBlank c = false := by
    intro c hc
    rcases Date.mem_text hc with hdigit | rfl
    · exact isBlank_of_isDigit hdigit
    · decide
  rw [strip, stripChars_eq_self hblank, String.ofList_toList]

theorem length_padded {width n : Nat} (hwidth : 0 < width) (h : n < 10 ^ width) :
    (padded width n).toList.length = width := by
  have hle : (Nat.toDigits 10 n).length ≤ width :=
    (Nat.length_toDigits_le_iff (by decide) hwidth).2 h
  simp [padded]
  omega

theorem daysInMonth_le (year month : Nat) : daysInMonth year month ≤ 31 := by
  unfold daysInMonth
  split_ifs <;> omega

theorem Date.lt_of_isValid {d : Date} (h : d.isValid = true) :
    d.year < 10 ^ 4 ∧ d.month < 10 ^ 2 ∧ d.day < 10 ^ 2 := by
  have hdays := daysInMonth_le d.year d.month
  simp [isValid] at h
  omega

/-- Days that exist come one after the other. -/
theorem Date.eq_of_key_eq {a b : Date} (ha : a.isValid = true) (hb : b.isValid = true)
    (h : a.key = b.key) : a = b := by
  obtain ⟨-, hmonth, hday⟩ := a.lt_of_isValid ha
  obtain ⟨-, hmonth', hday'⟩ := b.lt_of_isValid hb
  obtain ⟨year, month, day⟩ := a
  obtain ⟨year', month', day'⟩ := b
  simp only [Date.key, Date.mk.injEq] at *
  omega

theorem Date.length_text {d : Date} (h : d.isValid = true) : d.text.toList.length = 10 := by
  obtain ⟨hyear, hmonth, hday⟩ := d.lt_of_isValid h
  simp only [Date.text, String.toList_append, List.length_append,
    length_padded (show 0 < 4 by decide) hyear, length_padded (show 0 < 2 by decide) hmonth,
    length_padded (show 0 < 2 by decide) hday]
  rfl

/-! ## The bytes of a text -/

theorem toList_byteArray (b : ByteArray) : b.toList = b.data.toList := by
  have hloop : ∀ (n i : Nat) (read : List UInt8), b.size - i = n →
      ByteArray.toList.loop b i read = read.reverse ++ b.data.toList.drop i := by
    intro n
    induction n with
    | zero =>
      intro i read h
      have hle : b.data.toList.length ≤ i := by
        rw [Array.length_toList]
        exact Nat.le_of_sub_eq_zero h
      rw [ByteArray.toList.loop, if_neg (by omega), List.drop_eq_nil_of_le hle, List.append_nil]
    | succ n ih =>
      intro i read h
      have hlt : i < b.data.toList.length := by
        rw [Array.length_toList]
        exact Nat.lt_of_sub_eq_succ h
      have hget : b.get! i = b.data.toList[i] := by
        show b.data[i]! = _
        rw [getElem!_pos b.data i (by simpa using hlt), Array.getElem_toList]
      rw [ByteArray.toList.loop, if_pos (by omega), ih _ _ (by omega),
        List.drop_eq_getElem_cons hlt, hget]
      simp
  unfold ByteArray.toList
  simpa using hloop _ 0 [] rfl

/-- The bytes of a text of ASCII characters are its characters. -/
theorem bytesOf_of_forall_lt {s : String} (h : ∀ c ∈ s.toList, c.toNat < 0x80) :
    bytesOf s = s.toList := by
  have hbytes : ∀ chars : List Char, (∀ c ∈ chars, c.toNat < 0x80) →
      (chars.flatMap String.utf8EncodeChar).map (fun b => Char.ofNat b.toNat) = chars := by
    intro chars hchars
    induction chars with
    | nil => rfl
    | cons c chars ih =>
      obtain ⟨hc, hchars⟩ := List.forall_mem_cons.1 hchars
      have hsize : c.utf8Size = 1 := by
        rw [Char.utf8Size_eq_one_iff, UInt32.le_iff_toNat_le]
        exact Nat.le_of_lt_succ hc
      have hbyte : c.val.toUInt8.toNat = c.toNat := by
        rw [UInt32.toNat_toUInt8]
        exact Nat.mod_eq_of_lt (by change c.toNat < 256; omega)
      rw [List.flatMap_cons, String.utf8EncodeChar_eq_singleton hsize, List.map_append, ih hchars,
        List.map_singleton, hbyte, Char.ofNat_toNat, List.singleton_append]
  have hlist : s.toUTF8.toList = s.toList.flatMap String.utf8EncodeChar := by
    rw [toList_byteArray, String.toUTF8_eq_toByteArray]
    conv_lhs => rw [← String.ofList_toList (s := s), String.toByteArray_ofList]
    exact List.toList_data_toByteArray
  rw [bytesOf, hlist, hbytes _ h]

/-! ## Reading dates back -/

theorem takeDigits_append {digits : List Char} (h : ∀ c ∈ digits, c.isDigit = true)
    (rest : List Char) :
    takeDigits digits.length (digits ++ rest) = some (Nat.ofDigitChars 10 digits 0, rest) := by
  have hall : digits.all (fun c => decide ('0' ≤ c) && decide (c ≤ '9')) = true := by
    rw [List.all_eq_true]
    intro c hc
    have hrange := Char.isDigit_iff_toNat.1 (h c hc)
    simpa [Char.le_def, UInt32.le_iff_toNat_le] using hrange
  simp only [takeDigits, List.take_left', hall, List.drop_left']
  simp [Nat.ofDigitChars, Nat.mul_comm]

theorem takeDigits_padded {width n : Nat} (hwidth : 0 < width) (h : n < 10 ^ width)
    (rest : List Char) :
    takeDigits width ((padded width n).toList ++ rest) = some (n, rest) := by
  have hdigits : ∀ c ∈ (padded width n).toList, c.isDigit = true := fun c hc =>
    isDigit_of_mem_padded hc
  have htake := takeDigits_append hdigits rest
  rwa [length_padded hwidth h, ofDigitChars_padded] at htake

theorem standardDate?_text {d : Date} (h : d.isValid = true) :
    standardDate? d.text.toList = some d := by
  obtain ⟨hyear, hmonth, hday⟩ := d.lt_of_isValid h
  have htext : d.text.toList = (padded 4 d.year).toList ++ '-' :: ((padded 2 d.month).toList ++
      '-' :: ((padded 2 d.day).toList ++ [])) := by
    simp [Date.text]
  have hmake : Date.make? d.year d.month d.day = some d := if_pos h
  have hmonthRead := takeDigits_padded (show 0 < 2 by decide) hmonth
    ('-' :: ((padded 2 d.day).toList ++ []))
  have hdayRead := takeDigits_padded (show 0 < 2 by decide) hday []
  have hdigit : ∀ c ∈ (padded 2 d.month).toList, c.isDigit = true := fun c hc =>
    isDigit_of_mem_padded hc
  rw [htext, standardDate?, takeDigits_padded (by decide) hyear]
  simp only [Option.bind_eq_bind, Option.bind_some]
  generalize (padded 2 d.month).toList = month at *
  split
  · next heq =>
    -- A month is no week: no digit is the mark of one.
    cases month with
    | nil => simp at heq
    | cons c month =>
      obtain rfl : c = 'W' := (List.cons.inj heq).1
      exact absurd (hdigit 'W' (by simp)) (by decide)
  · rw [hmonthRead]
    simp only [Option.bind_some]
    rw [hdayRead]
    exact hmake

/-- A date is read from its text. -/
theorem dateOf?_text {d : Date} (h : d.isValid = true) : dateOf? d.text = some d := by
  have hbytes : bytesOf d.text = d.text.toList := by
    apply bytesOf_of_forall_lt
    intro c hc
    exact (Date.toNat_lt_of_mem_text hc).trans (by decide)
  have hread : readStandardDate? d.text = some d := by
    rw [readStandardDate?, hbytes, Date.length_text h, standardDate?_text h]
    rfl
  rw [dateOf?, readDate, hread]

/-! ## Dates that are read -/

/-- Whatever the reading gives is as described. -/
def OnlyGives {α : Type} (P : α → Prop) (reading : Option α) : Prop := ∀ a, reading = some a → P a

section Judgement

variable {α β : Type} {P : α → Prop} {Q : β → Prop} {reading : Option α}

theorem onlyGives_none : OnlyGives P none := nofun

theorem OnlyGives.bind (h : OnlyGives P reading) {f : α → Option β}
    (hf : ∀ a, P a → OnlyGives Q (f a)) : OnlyGives Q (reading >>= f) := by
  intro b hb
  obtain ⟨a, ha, hb⟩ := Option.bind_eq_some_iff.1 hb
  exact hf a (h a ha) b hb

theorem onlyGives_bind {f : α → Option β} (hf : ∀ a, OnlyGives Q (f a)) :
    OnlyGives Q (reading >>= f) :=
  OnlyGives.bind (P := fun _ => True) (fun _ _ => trivial) fun a _ => hf a

end Judgement

/-- There is such a day. -/
def Date.Exists (d : Date) : Prop := d.isValid = true

theorem onlyGives_make? (year month day : Nat) :
    OnlyGives Date.Exists (Date.make? year month day) := by
  intro d h
  simp [Date.make?] at h
  obtain ⟨hvalid, rfl⟩ := h
  exact hvalid

theorem onlyGives_ofWeek? (year week day : Nat) :
    OnlyGives Date.Exists (ofWeek? year week day) := by
  intro d h
  unfold ofWeek? at h
  rw [Date.Exists]
  grind

theorem onlyGives_standardDate? (s : List Char) : OnlyGives Date.Exists (standardDate? s) := by
  unfold standardDate?
  refine onlyGives_bind fun (year, rest) => ?_
  dsimp only
  split
  · refine onlyGives_bind fun (week, rest) => ?_
    dsimp only
    split
    · exact onlyGives_ofWeek? _ _ _
    · split
      · exact onlyGives_bind fun rest => onlyGives_bind fun day => onlyGives_ofWeek? _ _ _
      · exact onlyGives_bind fun rest => onlyGives_bind fun day => onlyGives_ofWeek? _ _ _
      · exact onlyGives_bind fun rest => onlyGives_bind fun day => onlyGives_ofWeek? _ _ _
  · refine onlyGives_bind fun (month, rest) => ?_
    dsimp only
    split
    · exact onlyGives_bind fun rest => onlyGives_bind fun day => onlyGives_make? _ _ _
    · exact onlyGives_bind fun rest => onlyGives_bind fun day => onlyGives_make? _ _ _
    · exact onlyGives_bind fun rest => onlyGives_bind fun day => onlyGives_make? _ _ _

/-- The day of a moment exists. -/
def Moment.DayExists (m : Moment) : Prop := m.date.Exists

theorem onlyGives_moment {date : Option Date} (h : OnlyGives Date.Exists date)
    (hour minute second microsecond : Nat) (offset : Option Int) :
    OnlyGives Moment.DayExists (Moment.make? date hour minute second microsecond offset) := by
  intro m hm
  unfold Moment.make? at hm
  split at hm
  · cases hm
  · next date =>
    dsimp only at hm
    split_ifs at hm
    obtain rfl := Option.some.inj hm
    exact h date rfl

theorem onlyGives_standardMoment? (s : List Char) :
    OnlyGives Moment.DayExists (standardMoment? s) := by
  unfold standardMoment?
  split
  · exact onlyGives_none
  · refine (onlyGives_standardDate? _).bind fun date hdate => ?_
    have hsome : OnlyGives Date.Exists (some date) := by
      rintro _ ⟨⟩
      exact hdate
    split
    · exact onlyGives_moment hsome _ _ _ _ _
    · exact onlyGives_bind fun clock => onlyGives_moment hsome _ _ _ _ _

theorem ofOption_eq_value {α : Type} {o : Option α} {a : α} :
    Reading.ofOption o = .value a ↔ o = some a := by
  cases o <;> simp [Reading.ofOption]

theorem dayExists_of_lenientMoment {s : List Char} {m : Moment}
    (h : lenientMoment s = .value m) : m.DayExists := by
  unfold lenientMoment at h
  extract_lets parsed at h
  have hgives : OnlyGives (OnlyGives Moment.DayExists) parsed := by
    refine onlyGives_bind fun date => onlyGives_bind fun rest => onlyGives_bind fun hour => ?_
    refine onlyGives_bind fun rest => onlyGives_bind fun minute => onlyGives_bind fun offset => ?_
    rintro _ ⟨⟩
    exact onlyGives_moment (onlyGives_make? _ _ _) _ _ _ _ _
  cases hparsed : parsed with
  | none =>
    rw [hparsed] at h
    cases h
  | some moment =>
    rw [hparsed] at h
    exact hgives moment hparsed m (ofOption_eq_value.1 h)

theorem exists_of_readStandardDate? {s : String} {d : Date} (h : readStandardDate? s = some d) :
    d.Exists := by
  unfold readStandardDate? at h
  dsimp only at h
  split_ifs at h
  exact onlyGives_standardDate? _ d h

theorem exists_of_readDate {s : String} {d : Date} (h : readDate s = .value d) : d.Exists := by
  unfold readDate at h
  split at h
  · next hstandard =>
    obtain rfl := Reading.value.inj h
    exact exists_of_readStandardDate? hstandard
  · split at h
    · split_ifs at h
      exact onlyGives_make? _ _ _ d (ofOption_eq_value.1 h)
    · cases h

theorem dayExists_of_readMoment {s : String} {m : Moment} (h : readMoment s = .value m) :
    m.DayExists := by
  unfold readMoment at h
  split at h
  · next hstandard =>
    obtain rfl := Reading.value.inj h
    exact onlyGives_standardMoment? _ _ hstandard
  · exact dayExists_of_lenientMoment h

/-- Only days that exist are read. -/
theorem onlyGives_dateOf? (s : String) : OnlyGives Date.Exists (dateOf? s) := by
  intro d h
  unfold dateOf? at h
  split at h
  · next hdate =>
    obtain rfl := Option.some.inj h
    exact exists_of_readDate hdate
  · cases h
  · split at h
    · next hmoment =>
      obtain rfl := Option.some.inj h
      exact dayExists_of_readMoment hmoment
    · cases h

end Rulebook.Calendar
