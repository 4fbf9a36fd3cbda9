import Rulebook.Proofs.Definition.Coercing
import Rulebook.Proofs.Exchange.Export

/-!
# Which actions are settled

The value of an action is coerced whenever it is stored: when a definition is read, when the row is
written, and again when it is written the next time.  What was coerced once is a text by then, and
coercing takes a text that is itself written as JSON for what it says.  Hence storing an action again
may change it, and this module says when.

Actions that name a row are always settled, because a numeral says the same number however often it
is read.  An action with a text is settled unless the text is enclosed in quotes once more
(`Action.IsEnclosed`).  Such a text loses its quotes, and may then be refused, because nothing is
left of it or half of a pair is in it, or lose a further pair the next time.  As it gets shorter
each time, there is an end to that.

## Main definitions

* `Action.IsEnclosed` — the stored text is written as JSON itself.
* `Action.rewritten` — the action after its stored text was written anew some times.

## Main statements

* `Action.isSettled_iff` — what was coerced is settled unless it is enclosed.
* `Action.storing_settles` — the same, with what becomes of it otherwise.
-/

namespace Rulebook

open Number

section

variable [Host]

/-! ## Coercing what is stored -/

/-- The numeral of a row is coerced to the same number. -/
theorem coerceValue_numeral {kind : ActionKind} (hkind : kind.family = .identifier) {n : Int}
    (hpos : 0 < n) (hn : IsReadable n) :
    coerceValue kind (.json (.text (toString n))) = .ok (some (.identifier n)) := by
  have hdecoded : decodeRaw (.text (toString n)) = .ok (.int n) := by
    rw [decodeRaw, if_neg (toString_ne_empty n), Json.readMended, Json.readWith_toString hpos hn]
  have hfound : asIdentifier (.json (.text (toString n))) = .ok (some (.identifier n)) := by
    rw [asIdentifier, hdecoded]
    change Except.ok (positive? n) = _
    rw [positive?, if_pos hpos]
  rw [coerceValue, hkind]
  dsimp only
  rw [hfound]
  rfl

/-- What a text that is not empty is taken for. -/
theorem asText_text {s : String} (hs : s ≠ "") :
    asText (.json (.text s)) =
      match Json.readMended (Host.room .value) s with
      | .ok (.text t) => .ok (if t = "" then none else some (.text t))
      | .error .tooDeep => .error .tooDeep
      | _ => .ok (some (.text s)) := by
  rw [asText, decodeRaw, if_neg hs]
  rcases Json.readMended (Host.room .value) s with fault | j
  · cases fault with
    | tooDeep => rfl
    | _ => exact congrArg Except.ok (if_neg hs)
  · cases j with
    | text t => rfl
    | int n =>
        change (((Json.text s).plain .message).bind fun t =>
          .ok (some (ActionValue.text t))) = _
        rw [Json.plain_text]
        rfl
    | _ => exact congrArg Except.ok (if_neg hs)

/-- An action that does not name a row takes a text for what `asText` makes of it.  Where that is
nothing, it depends on the family whether the action does without. -/
theorem coerceValue_eq_asText {kind : ActionKind} (hkind : kind.family ≠ .identifier) {s : String}
    (hs : s ≠ "") :
    ∃ refusal, coerceValue kind (.json (.text s)) =
      match asText (.json (.text s)) with
      | .ok none => if kind.family = .valueless then .ok none else .error refusal
      | found => found := by
  refine ⟨.definition ("Action '" ++ Vocabulary.code kind
    ++ "' requires a non-empty text value") [], ?_⟩
  rw [coerceValue]
  cases hfamily : kind.family with
  | identifier => exact absurd hfamily hkind
  | text =>
      dsimp only
      rcases asText (.json (.text s)) with failure | _ | v <;> rfl
  | valueless =>
      have hthere : ¬(RawValue.json (.text s)).isNothing = true := by
        simpa [RawValue.isNothing] using hs
      dsimp only
      rw [if_neg hthere]
      rcases asText (.json (.text s)) with failure | _ | v <;> rfl

/-- What is left of a text that is written as JSON itself. -/
theorem coerceValue_quoted {kind : ActionKind} (hkind : kind.family ≠ .identifier) {s t : String}
    (hread : Json.readMended (Host.room .value) s = .ok (.text t)) {v : Option ActionValue}
    (h : coerceValue kind (.json (.text s)) = .ok v) :
    v = if t = "" then none else some (.text t) := by
  have hs : s ≠ "" := by
    rintro rfl
    cases hread
  obtain ⟨refusal, heq⟩ := coerceValue_eq_asText hkind hs
  rw [heq, asText_text hs, hread] at h
  by_cases ht : t = ""
  · simp only [ht, if_true] at h ⊢
    split at h
    · exact (Except.ok.inj h).symm
    · cases h
  · simp only [ht, if_false] at h ⊢
    exact (Except.ok.inj h).symm

/-- A text that is nested too deeply cannot be coerced. -/
theorem coerceValue_tooDeep {kind : ActionKind} (hkind : kind.family ≠ .identifier) {s : String}
    (hread : Json.readMended (Host.room .value) s = .error .tooDeep) (v : Option ActionValue) :
    coerceValue kind (.json (.text s)) ≠ .ok v := by
  have hs : s ≠ "" := by
    rintro rfl
    cases hread
  obtain ⟨refusal, heq⟩ := coerceValue_eq_asText hkind hs
  rw [heq, asText_text hs, hread]
  exact nofun

/-! ## Storing an action again -/

namespace Action

variable {a b c : Action} {raw : Json}

/-- The stored text is a text between quotes when it is read as JSON, or is nested too deeply to be
read at all. -/
def IsEnclosed (a : Action) : Prop :=
  ∃ kind s, (Vocabulary.ofJson? a.kind : Option ActionKind) = some kind ∧
    kind.family ≠ .identifier ∧ a.value = .text s ∧
    (Json.readMended (Host.room .value) s = .error .tooDeep ∨
      ∃ t, Json.readMended (Host.room .value) s = .ok (.text t))

/-- What was coerced is settled unless it is enclosed. -/
theorem isSettled_of_not_isEnclosed (h : a.setValue raw = .ok b) (hb : ¬b.IsEnclosed) :
    b.IsSettled := by
  obtain ⟨hraw, kind, v, hkind, hv, rfl⟩ := setValue_eq_ok_iff.1 h
  rw [IsSettled]
  by_cases hfamily : kind.family = .identifier
  · obtain ⟨n, rfl, hpos, hn⟩ := coerceValue_identifier hfamily hraw.isReadable hv
    refine setValue_of_coerceValue hkind (Json.isStorable_text fun t => ?_)
      (coerceValue_numeral hfamily hpos hn)
    rw [ActionValue.encode, Json.readMended, Json.readWith_toString hpos hn]
    rintro ⟨⟩
  · rcases coerceValue_text hfamily hv with ⟨hvalueless, rfl⟩ | ⟨s, rfl, hs⟩
    · refine setValue_of_coerceValue (v := none) hkind ⟨?_, rfl⟩ ?_
      · rintro n ⟨⟩
      rw [coerceValue, hvalueless]
      rfl
    · have hplain : ∀ t, Json.readMended (Host.room .value) s ≠ .ok (.text t) := fun t hread =>
        hb ⟨kind, s, hkind, hfamily, rfl, Or.inr ⟨t, hread⟩⟩
      have htext : asText (.json (.text s)) = .ok (some (.text s)) := by
        rw [asText_text hs]
        split
        · next t hread => exact absurd hread (hplain t)
        · next hread => exact absurd ⟨kind, s, hkind, hfamily, rfl, Or.inl hread⟩ hb
        · rfl
      obtain ⟨refusal, heq⟩ := coerceValue_eq_asText hfamily hs
      rw [htext] at heq
      exact setValue_of_coerceValue hkind (Json.isStorable_text hplain) heq

/-- What becomes of an enclosed action that is stored again: it loses its quotes. -/
theorem setValue_of_isEnclosed (hb : b.IsEnclosed) (h : b.setValue b.value = .ok c) :
    ∃ s t, b.value = .text s ∧ Json.readMended (Host.room .value) s = .ok (.text t) ∧
      t.length + 2 ≤ s.length ∧
      c = { b with value := .ofText? (if t = "" then none else some t) } := by
  obtain ⟨kind, s, hkind, hfamily, hvalue, hread⟩ := hb
  obtain ⟨other, v, hother, hv, rfl⟩ := setValue_eq_ok h
  cases hkind.symm.trans hother
  rw [hvalue] at hv
  rcases hread with hdeep | ⟨t, hread⟩
  · exact absurd hv (coerceValue_tooDeep hfamily hdeep v)
  · refine ⟨s, t, hvalue, hread, Json.length_add_two_le_of_readWith hread, ?_⟩
    rw [coerceValue_quoted hfamily hread hv]
    split <;> rfl

theorem not_isEnclosed_of_isSettled (hb : b.IsSettled) : ¬b.IsEnclosed := by
  intro henclosed
  obtain ⟨s, t, hvalue, -, hlength, heq⟩ := setValue_of_isEnclosed henclosed hb
  have hsame : b.value = .ofText? (if t = "" then none else some t) := congrArg Action.value heq
  rw [hvalue] at hsame
  split at hsame
  · cases hsame
  · cases hsame
    omega

/-- The number of characters of the stored text. -/
def storedLength (a : Action) : Nat :=
  match a.value with
  | .text s => s.length
  | _ => 0

/-- The action after its stored text was written anew so many times. -/
def rewritten : Nat → Action → Except Failure Action
  | 0, a => .ok a
  | n + 1, a => do (← a.setValue a.value).rewritten n

/-- Writing an action anew again and again comes to an end: each time that its text is changed it
loses two characters at least. -/
theorem exists_rewritten_isSettled (h : a.setValue raw = .ok b) :
    ∃ n, 2 * n ≤ b.storedLength + 2 ∧ ∀ c, b.rewritten n = .ok c → c.IsSettled := by
  induction hlength : b.storedLength using Nat.strong_induction_on generalizing a b raw with
  | _ length ih =>
      subst hlength
      by_cases hb : b.IsEnclosed
      · cases hagain : b.setValue b.value with
        | error failure =>
            refine ⟨1, by omega, fun c hc => ?_⟩
            rw [rewritten, hagain] at hc
            cases hc
        | ok c =>
            obtain ⟨s, t, hvalue, -, hshorter, hc⟩ := setValue_of_isEnclosed hb hagain
            have hlt : c.storedLength + 2 ≤ b.storedLength := by
              have hvalue' : c.value = .ofText? (if t = "" then none else some t) :=
                congrArg Action.value hc
              rw [storedLength, storedLength, hvalue, hvalue']
              by_cases ht : t = ""
              · rw [if_pos ht]
                exact Nat.le_trans (Nat.le_add_left 2 t.length) hshorter
              · rw [if_neg ht]
                exact hshorter
            obtain ⟨n, hn, hsettled⟩ := ih c.storedLength (by omega) hagain rfl
            refine ⟨n + 1, by omega, fun d hd => hsettled d ?_⟩
            rwa [rewritten, hagain] at hd
      · refine ⟨0, by omega, fun c hc => ?_⟩
        cases hc
        exact isSettled_of_not_isEnclosed h hb

/-- Storing an action again leaves it as it is unless its text is enclosed.  Take any value that
can be stored for an action of any kind.  Storing the stored text again succeeds and changes nothing
exactly if the text is not written as a JSON text itself, and is not nested too deeply to be read;
actions that name rows are not concerned.  If it succeeds and changes something, then the quotes are
gone, and where nothing is left between them, the value.  After finitely many times nothing changes
any more. -/
theorem storing_settles (h : a.setValue raw = .ok b) :
    (b.setValue b.value = .ok b ↔ ¬b.IsEnclosed) ∧
      (∀ c, b.setValue b.value = .ok c → b.IsEnclosed →
        ∃ s t, b.value = .text s ∧ Json.readMended (Host.room .value) s = .ok (.text t) ∧
          t.length + 2 ≤ s.length ∧
          c = { b with value := .ofText? (if t = "" then none else some t) }) ∧
      ∃ n, 2 * n ≤ b.storedLength + 2 ∧
        ∀ c, b.rewritten n = .ok c → c.setValue c.value = .ok c :=
  ⟨⟨not_isEnclosed_of_isSettled, isSettled_of_not_isEnclosed h⟩,
    fun _ hc hb => setValue_of_isEnclosed hb hc, exists_rewritten_isSettled h⟩

end Action

end

namespace Action

/-- The number of a row that is given by a numeral between blanks. -/
theorem storing_settles_numeral :
    let a : Action := ⟨none, none, .text "set_category", .null, .int 0, .bool false⟩
    let b : Action := { a with value := .text "7" }
    a.setValue (.text " 007 ") = .ok b ∧ ¬b.IsEnclosed ∧ b.setValue b.value = .ok b := by
  intro a b
  have hfirst : a.setValue (.text " 007 ") = .ok b := rfl
  have hplain : ¬b.IsEnclosed := by
    rintro ⟨kind, s, hkind, hfamily, -⟩
    cases hkind
    exact hfamily rfl
  exact ⟨hfirst, hplain, (storing_settles hfirst).1.2 hplain⟩

/-- A note that was given with two pairs of quotes loses one when it is stored and the other when it
is stored again, so that the action then sets another note. -/
theorem enclosed_note_loses_quotes :
    let a : Action := ⟨none, none, .text "set_note", .null, .int 0, .bool false⟩
    let b : Action := { a with value := .text "\"hi\"" }
    let c : Action := { a with value := .text "hi" }
    a.setValue (.text "\"\\\"hi\\\"\"") = .ok b ∧ b.setValue b.value = .ok c ∧
      b.typedValue = .ok (some (.text "\"hi\"")) ∧ c.typedValue = .ok (some (.text "hi")) :=
  ⟨rfl, rfl, rfl, rfl⟩

end Action

end Rulebook
