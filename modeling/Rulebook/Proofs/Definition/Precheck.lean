import Rulebook.Proofs.Definition.Encoding
import Rulebook.Proofs.Json.RoundTrip

/-!
# What the check of a value is worth

Before an action is written its value can be checked (`fitsFamily`).  The check and the writer are
two programs: the check looks at the text that was given, and the writer first reads the text as
JSON and looks at what that gives.  A value that passes the check ought to be accepted by the
writer.

For actions that name a row it is.  A text of digits may be read as JSON, but then JSON reads the
number that the digits write: blanks around the digits do not count for either, and in front of a
digit stands neither a quote nor a sign.  Nothing else has to be said about the two readers
(`read_of_allDigits`).

For actions with a text it is not always.  A text in quotes is taken for what stands between them,
so nothing is left of two quotes; and a text may be JSON that is nested too deeply to be read.  Nor
does the check itself always succeed: it stumbles over the digits that write no number, as reading
does.  All this is said exactly.

## Main definitions

* `EludesCheck` — what passes the check and is refused by the writer.

## Main statements

* `read_of_allDigits` — what JSON makes of a text of digits.
* `asIdentifier_of_digits` — a text of digits is coerced to the number that the digits write.
* `check_decides_coercion` — what a value that passes the check can count on.
-/

namespace Rulebook

open Text Number Vocabulary

section

/-! ## Texts of digits read as JSON -/

namespace Text

theorem mem_stripChars_or_isBlank {s : List Char} {c : Char} (hc : c ∈ s) :
    c ∈ stripChars s ∨ isBlank c = true := by
  by_cases hblank : isBlank c = true
  · exact .inr hblank
  · -- What is dropped at either end is blank.
    have hdrop : ∀ {t : List Char}, c ∈ t → c ∈ t.dropWhile isBlank := by
      intro t ht
      rw [← List.takeWhile_append_dropWhile (p := isBlank) (l := t), List.mem_append] at ht
      exact ht.resolve_left fun htake => hblank (List.mem_takeWhile_imp htake)
    refine .inl ?_
    rw [stripChars, List.mem_reverse]
    exact hdrop (List.mem_reverse.2 (hdrop hc))

/-- Blanks around something that has none are stripped. -/
theorem stripChars_append {front back middle : List Char} (hfront : ∀ c ∈ front, isBlank c = true)
    (hback : ∀ c ∈ back, isBlank c = true) (hmiddle : ∀ c ∈ middle, isBlank c = false)
    (hne : middle ≠ []) : stripChars (front ++ (middle ++ back)) = middle := by
  have hstart : ∀ {t tail : List Char}, t ≠ [] → (∀ c ∈ t, isBlank c = false) →
      (t ++ tail).dropWhile isBlank = t ++ tail := by
    intro t tail ht hall
    obtain ⟨c, t, rfl⟩ := List.exists_cons_of_ne_nil ht
    simp [hall c]
  rw [stripChars, List.dropWhile_append_of_pos hfront, hstart hne hmiddle, List.reverse_append,
    List.dropWhile_append_of_pos (by simpa using hback),
    ← List.append_nil middle.reverse, hstart (by simpa using hne) (by simpa using hmiddle)]
  simp

end Text

namespace Json

theorem isBlank_of_isSpace {c : Char} (h : isSpace c = true) : isBlank c = true := by
  simp only [isSpace, Bool.or_eq_true, beq_iff_eq] at h
  rcases h with ((rfl | rfl) | rfl) | rfl <;> decide

theorem isDigit_of_isAsciiDigit {c : Char} (h : isAsciiDigit c = true) : c.isDigit = true := by
  simpa [Char.isDigit, isAsciiDigit, Char.le_def, UInt32.le_iff_toNat_le] using h

/-- Where a whole number is read, its digits stand in front, and reading stops behind them. -/
theorem readNumber_int {cursor stop : Cursor} {n : Int}
    (hminus : spanMinus cursor.rest = (false, cursor.rest))
    (h : readNumber cursor = .ok (.int n, stop)) :
    ∃ digits, cursor.rest = digits ++ stop.rest ∧ digits ≠ [] ∧
      (∀ c ∈ digits, c.isDigit = true) ∧ digits.length ≤ integerDigitLimit ∧
      n = asciiNumber digits := by
  have hdigits := isAsciiDigit_of_mem_wholeDigits cursor.rest
  have hprefix : wholeDigits cursor.rest <+: cursor.rest := by
    rw [wholeDigits.eq_def]
    split
    · next heq => exact ⟨_, heq.symm⟩
    · exact List.takeWhile_prefix _
  rw [readNumber, hminus] at h
  dsimp only at h
  split at h
  · cases h
  · next hne =>
    split at h
    · split at h
      · cases h
      · next hshort =>
        cases h
        refine ⟨wholeDigits cursor.rest, ?_, by simpa using hne,
          fun c hc => isDigit_of_isAsciiDigit (hdigits c hc), Nat.not_lt.1 hshort, rfl⟩
        simpa [Cursor.advance] using (List.prefix_iff_eq_append.1 hprefix).symm
    · cases h

/-- A number is not nested. -/
theorem readNumber_fault {cursor : Cursor} {fault : ReadFault}
    (h : readNumber cursor = .error fault) : fault ≠ .tooDeep := by
  rw [readNumber] at h
  dsimp only at h
  split at h
  · cases h
    rintro ⟨⟩
  · split at h
    · split at h
      · cases h
        rintro ⟨⟩
      · cases h
    · cases h

/-- The characters that start something other than a number without a sign. -/
def marks : List Char := ['"', '[', '\x7b', 'n', 't', 'f', 'N', 'I', '-']

/-- Neither blanks nor digits start anything but a number. -/
theorem not_mem_marks {c : Char} (h : isBlank c = true ∨ Text.isDigit c = true) : c ∉ marks := by
  intro hc
  simp only [marks, List.mem_cons, List.not_mem_nil, or_false] at hc
  rcases hc with rfl | rfl | rfl | rfl | rfl | rfl | rfl | rfl | rfl <;>
    exact absurd h (by decide +kernel)

/-- Where no mark stands, a number without a sign is read. -/
theorem readValue_of_not_mem_marks {c : Char} (rest : List Char) (hc : c ∉ marks)
    (half : Option Char) (room fuel depth position : Nat) :
    spanMinus (c :: rest) = (false, c :: rest) ∧
      readValue half room (fuel + 1) depth ⟨c :: rest, position⟩ =
        readNumber ⟨c :: rest, position⟩ := by
  simp only [marks, List.mem_cons, List.not_mem_nil, or_false, not_or] at hc
  obtain ⟨hquote, hlist, hobject, hn, ht, hf, hN, hI, hminus⟩ := hc
  have hconstant : constantAt? (c :: rest) = none := by
    simp [constantAt?, constants, Ne.symm hn, Ne.symm ht, Ne.symm hf, Ne.symm hN, Ne.symm hI,
      Ne.symm hminus]
  constructor
  · rw [spanMinus.eq_def]
    split
    · next heq =>
      cases heq
      exact absurd rfl hminus
    · rfl
  · rw [readValue]
    dsimp only
    rw [if_neg hquote, if_neg hlist, if_neg hobject, hconstant]

/-- Skipping blanks drops blanks and nothing else. -/
theorem skipSpace_rest (cursor : Cursor) :
    ∃ blanks, (∀ c ∈ blanks, isSpace c = true) ∧ cursor.rest = blanks ++ cursor.skipSpace.rest := by
  refine ⟨cursor.rest.takeWhile isSpace, fun c hc => List.mem_takeWhile_imp hc, ?_⟩
  have hprefix := List.takeWhile_prefix (l := cursor.rest) isSpace
  exact (List.prefix_iff_eq_append.1 hprefix).symm

/-- A text is read as a value between blanks. -/
theorem readWith_cases (half : Option Char) (room : Nat) (s : String) :
    readWith half room s = fail .byteOrderMark 0 ∨
      readWith half room s =
        (readValue half room (fuelFor s.toList.length) 0 (Cursor.mk s.toList 0).skipSpace).bind
          fun found => if found.2.skipSpace.rest.isEmpty then .ok found.1
            else fail .extraData found.2.skipSpace.position := by
  rw [readWith]
  dsimp only
  split
  · exact .inl rfl
  · exact .inr rfl

end Json

/-- What the writer makes of what JSON reads is the number of the digits, or nothing. -/
inductive ReadsDigits (s : String) : Except Json.ReadFault Json → Prop
  | number {n : Int} (hn : digitsValue? s = .ok (some n)) : ReadsDigits s (.ok (.int n))
  | other {value : Json} (hint : ∀ n, value ≠ .int n) (htext : ∀ t, value ≠ .text t) :
    ReadsDigits s (.ok value)
  | fault {fault : Json.ReadFault} (h : fault ≠ .tooDeep) : ReadsDigits s (.error fault)

/-- Of a text of digits JSON reads the number that the digits write, if it reads a number or a text
at all. -/
theorem readWith_of_allDigits {s : String} (h : allDigits (stripChars s.toList) = true)
    (half : Option Char) (room : Nat) : ReadsDigits s (Json.readWith half room s) := by
  rcases Json.readWith_cases half room s with hread | hread
  · rw [hread]
    exact .fault (by rintro ⟨⟩)
  obtain ⟨front, hfront, hstart⟩ := Json.skipSpace_rest ⟨s.toList, 0⟩
  rw [hread]
  generalize (Json.Cursor.mk s.toList 0).skipSpace = cursor at hstart
  obtain ⟨rest, position⟩ := cursor
  dsimp only at hstart
  cases rest with
  | nil => exact .fault (by rintro ⟨⟩)
  | cons c rest =>
    have hc : isBlank c = true ∨ Text.isDigit c = true := by
      simp only [allDigits, Bool.and_eq_true, List.all_eq_true] at h
      exact (mem_stripChars_or_isBlank (by simp [hstart])).symm.imp_right (h.2 c)
    obtain ⟨hminus, hvalue⟩ :=
      Json.readValue_of_not_mem_marks rest (Json.not_mem_marks hc) half room
        (2 * s.toList.length + 1) 0 position
    rw [Json.fuelFor, hvalue]
    cases hnumber : Json.readNumber ⟨c :: rest, position⟩ with
    | error fault => exact .fault (Json.readNumber_fault hnumber)
    | ok found =>
      obtain ⟨value, stop⟩ := found
      change ReadsDigits s (if stop.skipSpace.rest.isEmpty then .ok value else _)
      split
      · next hempty =>
        obtain ⟨back, hback, hstop⟩ := Json.skipSpace_rest stop
        rw [List.isEmpty_iff.1 hempty, List.append_nil] at hstop
        by_cases hint : ∃ n, value = .int n
        · obtain ⟨n, rfl⟩ := hint
          obtain ⟨digits, hdigits, hne, hall, hshort, rfl⟩ := Json.readNumber_int hminus hnumber
          -- Before and behind the digits stand only blanks.
          have hstrip : stripChars s.toList = digits := by
            have hrest : c :: rest = digits ++ back := hstop ▸ hdigits
            rw [hstart, hrest]
            exact stripChars_append (fun c hc => Json.isBlank_of_isSpace (hfront c hc))
              (fun c hc => Json.isBlank_of_isSpace (hback c hc))
              (fun c hc => isBlank_of_isDigit (hall c hc)) hne
          exact .number (digitsValue?_of_isDigit hstrip hne hall hshort)
        · exact .other (fun n hn => hint ⟨n, hn⟩) (Json.readNumber_eq_ok hnumber).1
      · exact .fault (by rintro ⟨⟩)

variable [Host]

/-- What is unwrapped from a text of digits: the number that the digits write, or nothing. -/
theorem decodeRaw_of_allDigits {s : String} (h : allDigits (stripChars s.toList) = true) :
    decodeRaw (.text s) = .ok (.text s) ∨
      ∃ n, decodeRaw (.text s) = .ok (.int n) ∧ digitsValue? s = .ok (some n) := by
  have hs : s ≠ "" := by
    rintro rfl
    exact absurd h (by decide)
  have hread : ReadsDigits s (Json.readMended (Host.room .value) s) := readWith_of_allDigits h _ _
  rw [decodeRaw, if_neg hs]
  generalize Json.readMended (Host.room .value) s = found at hread
  cases hread with
  | number hn => exact .inr ⟨_, rfl, hn⟩
  | @other value hint htext =>
    cases value with
    | int m => exact absurd rfl (hint m)
    | text t => exact absurd rfl (htext t)
    | _ => exact .inl rfl
  | @fault fault hfault =>
    cases fault with
    | tooDeep => exact absurd rfl hfault
    | _ => exact .inl rfl

/-- A text of digits is coerced to the number that the digits write. -/
theorem asIdentifier_of_digits {s : String} {n : Int} (h : digitsValue? s = .ok (some n)) :
    asIdentifier (.json (.text s)) = .ok (positive? n) := by
  have hdigits : allDigits (stripChars s.toList) = true := by
    by_contra hnot
    rw [digitsValue?, if_neg hnot] at h
    cases h
  rw [asIdentifier]
  rcases decodeRaw_of_allDigits hdigits with hdecoded | ⟨m, hdecoded, hm⟩
  · rw [hdecoded]
    change (digitsValue? s >>= fun found => Except.ok (found.bind positive?)) = _
    rw [h]
    rfl
  · obtain rfl := Option.some.inj (Except.ok.inj (h.symm.trans hm))
    rw [hdecoded]
    rfl

/-! ## Checking before coercing -/

/-- What passes the check of a kind and is not coerced: JSON that is nested too deeply, and for an
action that needs a text a pair of quotes with nothing between them. -/
inductive EludesCheck (kind : ActionKind) : Json → Prop
  | tooDeep {s : String} (hkind : kind.family ≠ .identifier)
    (hs : Json.readMended (Host.room .value) s = .error .tooDeep) : EludesCheck kind (.text s)
  | empty {s : String} (hkind : kind.family = .text)
    (hs : Json.readMended (Host.room .value) s = .ok (.text "")) : EludesCheck kind (.text s)

section Check

variable {kind : ActionKind} {raw : Json}

omit [Host] in
/-- How the check goes on when the kind is known. -/
theorem fitsFamily_code (kind : ActionKind) (raw : Json) :
    fitsFamily (.text (code kind)) raw =
      match kind.family, raw with
      | .valueless, _ => .ok true
      | .identifier, .int n => .ok (0 < n)
      | .identifier, .text s => return (← digitsValue? s).any fun n => decide (0 < n)
      | .identifier, _ => .ok false
      | .text, .text s => .ok (s != "")
      | .text, _ => .ok false := by
  have hkind := ofJson?_code kind
  unfold fitsFamily
  split
  · next hnone => cases hnone.symm.trans hkind
  · next known hknown =>
    obtain rfl := Option.some.inj (hknown.symm.trans hkind)
    rfl

omit [Host] in
/-- The check stumbles over the digits that write no number, and over nothing else. -/
theorem overlooks_fitsFamily (kind : ActionKind) (raw : Json) :
    Overlooks (kind.family = .identifier ∧ IsMisreadText raw) NoFailure
      (fitsFamily (.text (code kind)) raw) := by
  rw [fitsFamily_code]
  cases hkind : kind.family with
  | identifier =>
    cases raw with
    | text s =>
      refine ((overlooks_digitsValue? s).before fun _ _ => failsWithin_ok _).congr ?_
      simp [isMisreadText_text_iff]
    | _ => exact .noticed (by rintro ⟨-, ⟨-⟩⟩) (failsWithin_ok _)
  | text =>
    cases raw with
    | _ => exact .noticed nofun (failsWithin_ok _)
  | valueless => exact .noticed nofun (failsWithin_ok _)

/-- A value that passes the check of an action that names a row is coerced to a number. -/
theorem coerceValue_of_fitsFamily_identifier (hkind : kind.family = .identifier)
    (h : fitsFamily (.text (code kind)) raw = .ok true) :
    ∃ n, coerceValue kind (.json raw) = .ok (some (.identifier n)) := by
  have hcoerce : ∀ {n : Int}, 0 < n → asIdentifier (.json raw) = .ok (positive? n) →
      ∃ n, coerceValue kind (.json raw) = .ok (some (.identifier n)) := by
    intro n hpos hfound
    refine ⟨n, ?_⟩
    rw [coerceValue, hkind]
    dsimp only
    rw [hfound, positive?, if_pos hpos]
    rfl
  rw [fitsFamily_code, hkind] at h
  cases raw with
  | int n => exact hcoerce (of_decide_eq_true (Except.ok.inj h)) rfl
  | text s =>
    obtain ⟨found, hfound, h⟩ := eq_ok_of_bind h
    obtain ⟨n, rfl, hpos⟩ := (Option.any_eq_true _ _).1 (Except.ok.inj h)
    exact hcoerce (of_decide_eq_true hpos) (asIdentifier_of_digits hfound)
  | _ => cases h

/-- When a text that is not empty is coerced for an action that needs one. -/
theorem coerceValue_of_fitsFamily_text (hkind : kind.family = .text)
    (h : fitsFamily (.text (code kind)) raw = .ok true) :
    (∃ v, coerceValue kind (.json raw) = .ok v) ↔ ¬EludesCheck kind raw := by
  have hother : kind.family ≠ .identifier := by simp [hkind]
  rw [fitsFamily_code, hkind] at h
  obtain ⟨s, rfl, hs⟩ : ∃ s, raw = .text s ∧ s ≠ "" := by
    cases raw with
    | text s => exact ⟨s, rfl, by simpa using Except.ok.inj h⟩
    | _ => cases h
  obtain ⟨refusal, heq⟩ := coerceValue_eq_asText hother hs
  rw [heq, asText_text hs]
  have heludes : EludesCheck kind (.text s) ↔
      Json.readMended (Host.room .value) s = .error .tooDeep ∨
        Json.readMended (Host.room .value) s = .ok (.text "") := by
    constructor
    · rintro (⟨-, hdeep⟩ | ⟨-, hempty⟩)
      · exact .inl hdeep
      · exact .inr hempty
    · rintro (hdeep | hempty)
      · exact .tooDeep hother hdeep
      · exact .empty hkind hempty
  rw [heludes]
  generalize Json.readMended (Host.room .value) s = found
  rcases found with fault | value
  · cases fault <;> simp
  · cases value with
    | text t =>
      by_cases ht : t = ""
      · simp [ht, hkind]
      · simp [ht]
    | _ => simp

/-- When a value is coerced for an action that can do without. -/
theorem coerceValue_of_valueless (hkind : kind.family = .valueless) (hraw : raw.IsReadable) :
    (∃ v, coerceValue kind (.json raw) = .ok v) ↔ ¬EludesCheck kind raw := by
  have hother : kind.family ≠ .identifier := by simp [hkind]
  have heludes : EludesCheck kind raw ↔ IsTooDeep raw := by
    constructor
    · rintro (⟨-, hdeep⟩ | ⟨htext, -⟩)
      · exact .intro hdeep
      · cases hkind.symm.trans htext
    · rintro ⟨hdeep⟩
      exact .tooDeep hother hdeep
  rw [heludes, coerceValue, hkind]
  dsimp only
  split
  · next hnothing =>
    exact ⟨fun _ hdeep => not_overlooked_of_isNothing hnothing (.inl hdeep), fun _ => ⟨none, rfl⟩⟩
  · cases (overlooks_asText raw).congr (or_iff_left (not_not_intro hraw)) with
    | overlooked hdeep _ hfails => simp [hfails, hdeep]
    | noticed hnot hends => simp [hnot, hends.exists_ok]

/-- What a value that passes the check can count on.

* The check gives an answer, unless the action names a row and the value is a text of digits that
  write no number.
* A value that passes the check is coerced, unless it eludes the check; an action that names a row
  always gets its number.
* What is coerced for an action that names a row is read back as a number, and for one that needs a
  text as a text. -/
theorem check_decides_coercion (kind : ActionKind) {raw : Json} (hraw : raw.IsReadable) :
    Overlooks (kind.family = .identifier ∧ IsMisreadText raw) NoFailure
      (fitsFamily (.text (code kind)) raw) ∧
    (fitsFamily (.text (code kind)) raw = .ok true →
      ((∃ v, coerceValue kind (.json raw) = .ok v) ↔ ¬EludesCheck kind raw)) ∧
    ∀ v, coerceValue kind (.json raw) = .ok v →
      (kind.family = .identifier → ∃ n,
        readValue (.text (code kind)) (.ofText? (encodeValue v)) = .ok (some (.identifier n))) ∧
      (kind.family = .text → ∃ s,
        readValue (.text (code kind)) (.ofText? (encodeValue v)) = .ok (some (.text s))) := by
  refine ⟨overlooks_fitsFamily kind raw, fun hcheck => ?_, fun v hv => ?_⟩
  · cases hkind : kind.family with
    | identifier =>
      obtain ⟨n, hn⟩ := coerceValue_of_fitsFamily_identifier hkind hcheck
      refine iff_of_true ⟨_, hn⟩ ?_
      rintro (⟨hother, -⟩ | ⟨htext, -⟩)
      · exact hother hkind
      · cases hkind.symm.trans htext
    | text => exact coerceValue_of_fitsFamily_text hkind hcheck
    | valueless => exact coerceValue_of_valueless hkind hraw
  · have hfits := fits_of_coerceValue hraw hv
    have hread := readValue_encode (ofJson?_code kind) hfits
    rw [hread]
    constructor
    · intro hkind
      cases hfits with
      | identifier => exact ⟨_, rfl⟩
      | text hother => exact absurd hkind hother
      | nothing hvalueless => cases hkind.symm.trans hvalueless
    · intro hkind
      cases hfits with
      | identifier hidentifier => cases hkind.symm.trans hidentifier
      | text => exact ⟨_, rfl⟩
      | nothing hvalueless => cases hkind.symm.trans hvalueless

end Check

end

/-- A seven between blanks passes the check of an action that names a row, and is coerced. -/
theorem seven_passes_check :
    fitsFamily (.text "set_category") (.text " 7 ") = .ok true ∧
      ∃ v, coerceValue .setCategory (.json (.text " 7 ")) = .ok v := by
  have hpasses : fitsFamily (.text "set_category") (.text " 7 ") = .ok true := rfl
  refine ⟨hpasses, ((check_decides_coercion .setCategory (Json.isReadable_text " 7 ")).2.1
    hpasses).2 ?_⟩
  rintro (⟨hother, -⟩ | ⟨htext, -⟩)
  · exact hother rfl
  · cases htext

/-- Where the check fails its purpose: it gives no answer for a raised two, and it passes a pair of
quotes that is refused when it is coerced. -/
theorem check_is_no_guarantee :
    fitsFamily (.text "set_category") (.text raisedTwo) = .error (.notNumeral raisedTwo) ∧
      fitsFamily (.text "set_note") (.text "\"\"") = .ok true ∧
      coerceValue .setNote (.json (.text "\"\"")) =
        .error (.definition "Action 'set_note' requires a non-empty text value" []) :=
  ⟨rfl, rfl, rfl⟩

end Rulebook
