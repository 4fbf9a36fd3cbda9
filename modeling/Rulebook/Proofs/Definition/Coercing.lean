import Rulebook.Action.Value
import Rulebook.Proofs.Json.Reader
import Rulebook.Proofs.Json.Showing
import Rulebook.Proofs.Program

/-!
# What coercing gives

An action that names a row is given the number of one, a positive number, and every other action a
text that is not empty, or nothing if it can do without.  Two things may go wrong after a value was
coerced.  The number is stored as its numeral, and a number that was not read from a text may be
longer than any numeral that is written.  And the text may have half of a pair, for which there is
no place.

Both are seen from what was given.  It was stored if it was coerced and is neither a whole number
with too long a numeral nor encloses half of a pair (`Action.setValue_eq_ok_iff`).

## Main definitions

* `Json.IsReadable` — the value is no whole number whose numeral is too long.
* `Json.IsStorable` — nor does it enclose half of a pair.

## Main statements

* `coerceValue_identifier`, `coerceValue_text` — what coercing gives.
* `Action.setValue_eq_ok_iff` — when an action can be given a value.
-/

namespace Rulebook

open Number

section

/-- The value is no whole number whose numeral is too long. -/
def Json.IsReadable (raw : Json) : Prop := ∀ n, raw = .int n → Number.IsReadable n

variable [Host]

/-- There is a place for the value, once it was coerced. -/
structure Json.IsStorable (raw : Json) : Prop where
  isReadable : raw.IsReadable
  isWhole : enclosesHalf raw = false

omit [Host] in
theorem Json.isReadable_text (s : String) : (Json.text s).IsReadable := fun _ hn => nomatch hn

omit [Host] in
theorem Json.isReadable_int_iff {n : Int} : (Json.int n).IsReadable ↔ Number.IsReadable n := by
  constructor
  · exact fun h => h n rfl
  · rintro h m ⟨⟩
    exact h

/-- There is a place for a text that is not unwrapped. -/
theorem Json.isStorable_text {s : String}
    (h : ∀ t, readMended (Host.room .value) s ≠ .ok (.text t)) : (Json.text s).IsStorable := by
  refine ⟨isReadable_text s, ?_⟩
  rw [enclosesHalf.eq_def]
  dsimp only
  split
  · next t hread _ => exact absurd hread (h t)
  · rfl

/-- A word is accepted if it is known. -/
theorem Vocabulary.require_eq_ok_iff_ofJson? {α : Type} [Vocabulary α] {j : Json} {a : α} :
    (require j : Except Failure α) = .ok a ↔ ofJson? j = some a := by
  rw [require]
  cases (ofJson? j : Option α) <;> simp

/-! ## Coercing a value -/

omit [Host] in
theorem isReadable_of_digitsValue? {s : String} {n : Int} (h : digitsValue? s = .ok (some n)) :
    IsReadable n := by
  rw [digitsValue?] at h
  split at h
  · split at h
    · next hread =>
      cases h
      exact isReadable_of_readInteger hread
    · cases h
  · cases h

omit [Host] in
theorem positive?_eq_some {n : Int} {v : ActionValue} (h : positive? n = some v) :
    0 < n ∧ v = .identifier n := by
  rw [positive?] at h
  split at h
  · next hpos =>
    cases h
    exact ⟨hpos, rfl⟩
  · cases h

/-- Whole numbers that are unwrapped can be read again. -/
theorem isReadable_of_decodeRaw {raw : Json} {n : Int} (hraw : raw.IsReadable)
    (h : decodeRaw raw = .ok (.int n)) : IsReadable n := by
  rw [decodeRaw.eq_def] at h
  split at h
  · next s =>
    split at h
    · cases h
    · split at h
      · cases h
      · next m hread =>
        -- The reader takes no numeral that is too long.
        cases h
        exact Json.isReadable_of_readWith hread
      · cases h
      · cases h
      · cases h
  · cases h
    exact hraw n rfl

/-- The number of a row that the user gave is positive and can be read again. -/
theorem asIdentifier_eq_some {raw : Json} {v : ActionValue} (hraw : raw.IsReadable)
    (h : asIdentifier (.json raw) = .ok (some v)) :
    ∃ n, v = .identifier n ∧ 0 < n ∧ IsReadable n := by
  rw [asIdentifier] at h
  obtain ⟨j, hj, h⟩ := eq_ok_of_bind h
  split at h
  · next n =>
    obtain ⟨hpos, rfl⟩ := positive?_eq_some (Except.ok.inj h)
    exact ⟨n, rfl, hpos, isReadable_of_decodeRaw hraw hj⟩
  · obtain ⟨found, hfound, h⟩ := eq_ok_of_bind h
    obtain ⟨n, hn, hv⟩ := Option.bind_eq_some_iff.1 (Except.ok.inj h)
    rw [hn] at hfound
    obtain ⟨hpos, rfl⟩ := positive?_eq_some hv
    exact ⟨n, rfl, hpos, isReadable_of_digitsValue? hfound⟩
  · cases h

omit [Host] in
theorem toString_ne_empty (n : Int) : toString n ≠ "" := by
  intro h
  have hlength : (toString n).length = 0 := by rw [h]; rfl
  cases n with
  | ofNat m =>
      have hdigits := @Nat.toDigits_ne_nil m 10
      change (String.ofList (Nat.toDigits 10 m)).length = 0 at hlength
      rw [String.length_ofList, List.length_eq_zero_iff] at hlength
      exact hdigits hlength
  | negSucc m =>
      change ("-" ++ toString (m + 1)).length = 0 at hlength
      rw [String.length_append] at hlength
      have hsign : "-".length = 1 := rfl
      omega

/-- The text that the user gave is not empty. -/
theorem asText_eq_some {raw : Json} {v : ActionValue} (h : asText (.json raw) = .ok (some v)) :
    ∃ s, v = .text s ∧ s ≠ "" := by
  rw [asText] at h
  obtain ⟨j, hj, h⟩ := eq_ok_of_bind h
  split at h
  · -- It is what was given that becomes the text, not the number that it is read as.
    obtain ⟨s, hs, h⟩ := eq_ok_of_bind h
    cases h
    obtain ⟨-, rfl⟩ := Json.plain_eq_ok_iff.1 hs
    refine ⟨raw.display, rfl, ?_⟩
    cases raw with
    | int n => exact toString_ne_empty n
    | text s =>
        rintro rfl
        cases hj
    | _ => cases hj
  · next s =>
    split at h
    · cases h
    · next hs =>
      cases h
      exact ⟨s, rfl, hs⟩
  · cases h

/-- What coercing gives for an action that names a row. -/
theorem coerceValue_identifier {kind : ActionKind} (hkind : kind.family = .identifier) {raw : Json}
    (hraw : raw.IsReadable) {v : Option ActionValue}
    (h : coerceValue kind (.json raw) = .ok v) :
    ∃ n, v = some (.identifier n) ∧ 0 < n ∧ IsReadable n := by
  rw [coerceValue, hkind] at h
  obtain ⟨found, hfound, h⟩ := eq_ok_of_bind h
  split at h
  · cases h
    obtain ⟨n, rfl, hpos, hn⟩ := asIdentifier_eq_some hraw hfound
    exact ⟨n, rfl, hpos, hn⟩
  · cases h

/-- What coercing gives for an action that does not name a row. -/
theorem coerceValue_text {kind : ActionKind} (hkind : kind.family ≠ .identifier) {raw : Json}
    {v : Option ActionValue} (h : coerceValue kind (.json raw) = .ok v) :
    (kind.family = .valueless ∧ v = none) ∨ ∃ s, v = some (.text s) ∧ s ≠ "" := by
  rw [coerceValue] at h
  cases hfamily : kind.family with
  | identifier => exact absurd hfamily hkind
  | text =>
      rw [hfamily] at h
      obtain ⟨found, hfound, h⟩ := eq_ok_of_bind h
      split at h
      · cases h
        obtain ⟨s, rfl, hs⟩ := asText_eq_some hfound
        exact Or.inr ⟨s, rfl, hs⟩
      · cases h
  | valueless =>
      rw [hfamily] at h
      dsimp only at h
      split at h
      · cases h
        exact Or.inl ⟨rfl, rfl⟩
      · cases v with
        | none => exact Or.inl ⟨rfl, rfl⟩
        | some v =>
            obtain ⟨s, rfl, hs⟩ := asText_eq_some h
            exact Or.inr ⟨s, rfl, hs⟩

/-- The value of a whole number can be coerced only if it can be stored, unless the number is that
of a row. -/
theorem coerceValue_int {kind : ActionKind} {n : Int} {v : Option ActionValue}
    (h : coerceValue kind (.json (.int n)) = .ok v) : v = some (.identifier n) ∨ IsReadable n := by
  have hwritten : ∀ found, asText (.json (.int n)) = .ok found → IsReadable n := by
    intro found hfound
    obtain ⟨_, ⟨⟩, hfound⟩ := eq_ok_of_bind hfound
    obtain ⟨s, hs, -⟩ := eq_ok_of_bind hfound
    exact (Json.plain_int_eq_ok_iff.1 hs).1
  rw [coerceValue] at h
  cases hfamily : kind.family with
  | identifier =>
      rw [hfamily] at h
      obtain ⟨found, hfound, h⟩ := eq_ok_of_bind h
      split at h
      · cases h
        obtain ⟨-, rfl⟩ := positive?_eq_some (Except.ok.inj hfound)
        exact .inl rfl
      · cases h
  | text =>
      rw [hfamily] at h
      obtain ⟨found, hfound, -⟩ := eq_ok_of_bind h
      exact .inr (hwritten found hfound)
  | valueless =>
      rw [hfamily] at h
      exact .inr (hwritten v h)

/-! ## Storing a value -/

/-- A value is stored as its text, if it is no number with too long a numeral. -/
theorem ActionValue.store_eq_ok_iff {v : ActionValue} {s : String} :
    v.store = .ok s ↔ (∀ n, v = .identifier n → IsReadable n) ∧ v.encode = s := by
  cases v with
  | identifier n => simp [store, Json.plain_int_eq_ok_iff, encode]
  | text t => simp [store, encode]

/-- What was coerced can be stored if what was given is readable. -/
theorem mapM_store_of_coerceValue {kind : ActionKind} {raw : Json} {v : Option ActionValue}
    (hraw : raw.IsReadable) (h : coerceValue kind (.json raw) = .ok v) :
    v.mapM ActionValue.store = .ok (encodeValue v) := by
  cases v with
  | none => rfl
  | some v =>
      have hstore : v.store = .ok v.encode := by
        refine ActionValue.store_eq_ok_iff.2 ⟨?_, rfl⟩
        rintro n rfl
        by_cases hkind : kind.family = .identifier
        · obtain ⟨m, hm, -, hreadable⟩ := coerceValue_identifier hkind hraw h
          cases hm
          exact hreadable
        · rcases coerceValue_text hkind h with ⟨-, hv⟩ | ⟨s, hv, -⟩ <;> cases hv
      rw [Option.mapM_some, hstore]
      rfl

/-- Conversely, what was coerced and stored was readable. -/
theorem isReadable_of_mapM_store {kind : ActionKind} {raw : Json} {v : Option ActionValue}
    {stored : Option String} (h : coerceValue kind (.json raw) = .ok v)
    (hstored : v.mapM ActionValue.store = .ok stored) : raw.IsReadable := by
  rintro n rfl
  rcases coerceValue_int h with rfl | hn
  · obtain ⟨s, hs, -⟩ := eq_ok_of_bind hstored
    exact (ActionValue.store_eq_ok_iff.1 hs).1 n rfl
  · exact hn

theorem eq_encodeValue_of_mapM_store {v : Option ActionValue} {stored : Option String}
    (h : v.mapM ActionValue.store = .ok stored) : stored = encodeValue v := by
  cases v with
  | none =>
      cases h
      rfl
  | some v =>
      obtain ⟨s, hs, h⟩ := eq_ok_of_bind h
      cases h
      exact congrArg some (ActionValue.store_eq_ok_iff.1 hs).2.symm

namespace Action

variable {a b : Action} {raw : Json}

/-- An action can be given a value if its kind is known, the value can be coerced, and there is a
place for it. -/
theorem setValue_eq_ok_iff :
    a.setValue raw = .ok b ↔ raw.IsStorable ∧ ∃ kind v,
      (Vocabulary.ofJson? a.kind : Option ActionKind) = some kind ∧
        coerceValue kind (.json raw) = .ok v ∧
        b = { a with value := .ofText? (encodeValue v) } := by
  constructor
  · intro h
    obtain ⟨v, hv, h⟩ := eq_ok_of_bind h
    split at h
    · cases h
    · next hwhole =>
      obtain ⟨stored, hstored, h⟩ := eq_ok_of_bind h
      cases h
      obtain ⟨kind, hkind, hv⟩ := eq_ok_of_bind hv
      rw [eq_encodeValue_of_mapM_store hstored]
      exact ⟨⟨isReadable_of_mapM_store hv hstored, Bool.eq_false_iff.2 hwhole⟩, kind, v,
        Vocabulary.require_eq_ok_iff_ofJson?.1 hkind, hv, rfl⟩
  · rintro ⟨⟨hraw, hwhole⟩, kind, v, hkind, hv, rfl⟩
    have hnamed : coerceNamed a.kind (.json raw) = .ok v := by
      rw [coerceNamed, bind_of_eq_ok (Vocabulary.require_eq_ok_iff_ofJson?.2 hkind), hv]
    rw [setValue, bind_of_eq_ok hnamed, hwhole, if_neg Bool.false_ne_true,
      bind_of_eq_ok (mapM_store_of_coerceValue hraw hv)]
    rfl

/-- How storing a value succeeds: the kind is known and the value can be coerced. -/
theorem setValue_eq_ok (h : a.setValue raw = .ok b) :
    ∃ kind v, (Vocabulary.ofJson? a.kind : Option ActionKind) = some kind ∧
      coerceValue kind (.json raw) = .ok v ∧ b = { a with value := .ofText? (encodeValue v) } :=
  (setValue_eq_ok_iff.1 h).2

theorem setValue_of_coerceValue {kind : ActionKind} {v : Option ActionValue}
    (hkind : (Vocabulary.ofJson? a.kind : Option ActionKind) = some kind) (hraw : raw.IsStorable)
    (hv : coerceValue kind (.json raw) = .ok v) :
    a.setValue raw = .ok { a with value := .ofText? (encodeValue v) } :=
  setValue_eq_ok_iff.2 ⟨hraw, kind, v, hkind, hv, rfl⟩

end Action

end

end Rulebook
