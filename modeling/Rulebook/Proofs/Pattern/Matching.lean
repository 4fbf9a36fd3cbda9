import Mathlib.Data.List.TakeWhile
import Rulebook.Pattern.Matcher

/-!
# What a matcher explores

The matcher takes what is to be matched afterwards as a continuation, and tries the ways to match a
node in an order of its own until one of them lets the continuation succeed.  That order decides
which way is taken, but not whether there is one.  So a matcher is described here by a relation
between the spot where it starts and the spots where it can stop, which says nothing of the order:
`Explores` asks that every result comes from a spot in the relation, and that a result is found if
the continuation succeeds at one of them.

The description composes.  A sequence explores the composition of what its nodes explore, and the
patterns that the library itself writes are sequences of a few kinds of nodes, each with a law
below.

## Main definitions

* `Explores` — where a matcher can stop.
* `runFrom` — the characters of a text that a node matches from a position on.

## Main statements

* `explores_cons` — a sequence explores one node after the other.
* `explores_unit`, `explores_many` — a node of one character, and a greedy repetition of it.
* `explores_edge`, `explores_capture`, `explores_backref` — positions and groups.
-/

namespace Rulebook.Pattern

/-! ## Subjects and spots -/

@[simp] theorem size_subjectOf (text : List Char) : (subjectOf text).size = text.length := by
  simp [subjectOf]

@[simp] theorem getElem?_subjectOf (text : List Char) (i : Nat) :
    (subjectOf text)[i]? = text[i]?.map Char.toNat := by
  simp [subjectOf]

/-- A spot further on. -/
def Spot.advance (s : Spot) (n : Nat) : Spot := { s with position := s.position + n }

@[simp] theorem Spot.position_advance (s : Spot) (n : Nat) :
    (s.advance n).position = s.position + n := rfl

@[simp] theorem Spot.position_mark (s : Spot) (index : Nat) :
    (s.mark index).position = s.position := rfl

theorem Spot.advance_advance (s : Spot) (m n : Nat) :
    (s.advance m).advance n = s.advance (m + n) := by
  simp only [advance, Nat.add_assoc]

/-! ## Exploring -/

/-- The matcher stops at the spots to which the relation leads, and finds a result if what follows
succeeds at one of them. -/
structure Explores (m : Round) (leads : Spot → Spot → Prop) : Prop where
  exists_of_eq_some {s stop : Spot} {k : Continuation} (h : m s k = some stop) :
    ∃ next, leads s next ∧ k next = some stop
  isSome_of_leads {s next : Spot} {k : Continuation} (h : leads s next)
    (hk : (k next).isSome = true) : (m s k).isSome = true

namespace Explores

variable {m m' : Round} {leads leads' : Spot → Spot → Prop} {s : Spot} {k : Continuation}

/-- Whether there is a result depends on the relation alone. -/
theorem isSome_iff (h : Explores m leads) :
    (m s k).isSome = true ↔ ∃ next, leads s next ∧ (k next).isSome = true := by
  constructor
  · intro hsome
    obtain ⟨stop, hstop⟩ := Option.isSome_iff_exists.1 hsome
    obtain ⟨next, hnext, hk⟩ := h.exists_of_eq_some hstop
    exact ⟨next, hnext, by rw [hk]; rfl⟩
  · rintro ⟨next, hnext, hk⟩
    exact h.isSome_of_leads hnext hk

/-- A relation may be said in other words. -/
theorem congr (h : Explores m leads) (hiff : ∀ s next, leads s next ↔ leads' s next) :
    Explores m leads' := by
  obtain rfl : leads = leads' := by
    funext s next
    exact propext (hiff s next)
  exact h

/-- One matcher after the other. -/
theorem andThen (h : Explores m leads) (h' : Explores m' leads') :
    Explores (fun s k => m s fun next => m' next k)
      (fun s stop => ∃ next, leads s next ∧ leads' next stop) where
  exists_of_eq_some hstop := by
    obtain ⟨next, hnext, hrest⟩ := h.exists_of_eq_some hstop
    obtain ⟨last, hlast, hk⟩ := h'.exists_of_eq_some hrest
    exact ⟨last, ⟨next, hnext, hlast⟩, hk⟩
  isSome_of_leads := by
    rintro s stop k ⟨next, hnext, hlast⟩ hk
    exact h.isSome_of_leads hnext (h'.isSome_of_leads hlast hk)

end Explores

variable {o : Options} {text : List Char} {node : Node} {nodes : List Node} {widths : GroupWidths}
  {leads leads' : Spot → Spot → Prop}

/-! ## Sequences -/

theorem explores_nil :
    Explores (matchSequence widths (subjectOf text) o []) (fun s next => next = s) where
  exists_of_eq_some hstop := ⟨_, rfl, by rwa [matchSequence] at hstop⟩
  isSome_of_leads := by
    rintro s next k rfl hk
    rwa [matchSequence]

/-- A sequence explores what its first node explores and then what the others do. -/
theorem explores_cons (h : Explores (matchNode widths (subjectOf text) o node) leads)
    (h' : Explores (matchSequence widths (subjectOf text) o nodes) leads') :
    Explores (matchSequence widths (subjectOf text) o (node :: nodes))
      (fun s stop => ∃ next, leads s next ∧ leads' next stop) := by
  have hcons := h.andThen h'
  rwa [show (fun s k => _) = matchSequence widths (subjectOf text) o (node :: nodes) from by
    funext s k; rw [matchSequence]] at hcons

/-! ## Single characters -/

/-- A node of one character matches the next character if that is of its kind. -/
theorem explores_unit (hunit : node.isUnit = true) :
    Explores (matchNode widths (subjectOf text) o node) (fun s next =>
      ∃ c, text[s.position]? = some c ∧ node.holds o c.toNat = true ∧ next = s.advance 1) := by
  have hmatch : ∀ (s : Spot) (k : Continuation), matchNode widths (subjectOf text) o node s k =
      text[s.position]?.bind fun c => if node.holds o c.toNat then k (s.advance 1) else none := by
    intro s k
    cases node with
    | code | notCode | anyChar | oneOf =>
      rw [matchNode, getElem?_subjectOf]
      cases text[s.position]? <;> rfl
    | _ => cases hunit
  constructor
  · intro s stop k hstop
    rw [hmatch, Option.bind_eq_some_iff] at hstop
    obtain ⟨c, hc, hstop⟩ := hstop
    split at hstop
    · next hholds => exact ⟨_, ⟨c, hc, hholds, rfl⟩, hstop⟩
    · cases hstop
  · rintro s next k ⟨c, hc, hholds, rfl⟩ hk
    rw [hmatch, hc]
    simpa [hholds] using hk

/-! ## Runs of characters -/

/-- Lengths are tried from the longest to the shortest. -/
theorem tryShorter_eq_findSome? {k : Continuation} {s : Spot} {least extra : Nat} :
    tryShorter k s least extra =
      (List.range (extra + 1)).reverse.findSome? fun n => k (s.advance (least + n)) := by
  induction extra with
  | zero =>
    show k (s.advance least) = _
    simp
  | succ extra ih =>
    have hfirst : ({ s with position := s.position + least + extra + 1 } : Spot) =
        s.advance (least + (extra + 1)) := by
      simp only [Spot.advance, Nat.add_assoc]
    rw [tryShorter, hfirst, List.range_succ, List.reverse_append, List.reverse_singleton,
      List.singleton_append, List.findSome?_cons, ih]
    split <;> next h => rw [h]

/-- The characters of a text that a node matches from a position on. -/
def runFrom (o : Options) (node : Node) (text : List Char) (position : Nat) : List Char :=
  (text.drop position).takeWhile fun c => node.holds o c.toNat

/-- A run of characters goes on as long as they match the node. -/
theorem runLength_subjectOf (bound position : Nat) :
    runLength o (subjectOf text) node bound position =
      (((text.drop position).take bound).takeWhile fun c => node.holds o c.toNat).length := by
  induction bound generalizing position with
  | zero => rfl
  | succ bound ih =>
    rw [runLength, getElem?_subjectOf, ← List.head?_drop, ih, ← List.tail_drop]
    cases text.drop position with
    | nil => rfl
    | cons c rest =>
      simp only [List.head?_cons, Option.map_some, List.tail_cons, List.take_succ_cons,
        List.takeWhile_cons]
      split <;> rfl

/-- A greedy repetition of a node of one character matches a run of any length up to that of the
longest one. -/
theorem explores_many (hunit : node.isUnit = true) :
    Explores (matchNode widths (subjectOf text) o (.repetition .greedy 0 none [node]))
      (fun s next => ∃ n ≤ (runFrom o node text s.position).length, next = s.advance n) := by
  have hmatch : ∀ (s : Spot) (k : Continuation),
      matchNode widths (subjectOf text) o (.repetition .greedy 0 none [node]) s k =
        (List.range ((runFrom o node text s.position).length + 1)).reverse.findSome? fun n =>
          k (s.advance n) := by
    intro s k
    have hroom : (text.drop s.position).take (text.length - s.position) = text.drop s.position :=
      List.take_of_length_le (Nat.le_of_eq List.length_drop)
    rw [matchNode, if_pos hunit, repeatUnit]
    simp only [size_subjectOf, Option.getD_none, Nat.min_self, runLength_subjectOf, hroom]
    show tryShorter k s 0 (runFrom o node text s.position).length = _
    simp only [tryShorter_eq_findSome?, Nat.zero_add]
  constructor
  · intro s stop k hstop
    rw [hmatch] at hstop
    obtain ⟨n, hn, hk⟩ := List.exists_of_findSome?_eq_some hstop
    exact ⟨_, ⟨n, Nat.lt_succ_iff.1 (List.mem_range.1 (List.mem_reverse.1 hn)), rfl⟩, hk⟩
  · rintro s next k ⟨n, hn, rfl⟩ hk
    rw [hmatch, List.isSome_findSome?, List.any_eq_true]
    exact ⟨n, List.mem_reverse.2 (List.mem_range.2 (Nat.lt_succ_of_le hn)), hk⟩

/-! ## Positions and groups -/

/-- A test of a position stays where it is. -/
theorem explores_edge (kind : Edge) :
    Explores (matchNode widths (subjectOf text) o (.edge kind)) (fun s next =>
      kind.holds o (subjectOf text) s.position = true ∧ next = s) where
  exists_of_eq_some hstop := by
    rw [matchNode] at hstop
    split at hstop
    · next hholds => exact ⟨_, ⟨hholds, rfl⟩, hstop⟩
    · cases hstop
  isSome_of_leads := by
    rintro s next k ⟨hholds, rfl⟩ hk
    rwa [matchNode, if_pos hholds]

/-- A group of one node without switches sets its marks around what the node matches. -/
theorem explores_capture (index : Nat) (hsame : o.inside .none .none = o)
    (h : Explores (matchNode widths (subjectOf text) o node) leads) :
    Explores (matchNode widths (subjectOf text) o (.group (some index) .none .none [node]))
      (fun s next => ∃ stop, leads (s.mark (2 * index)) stop ∧
        next = stop.mark (2 * index + 1)) := by
  have hmatch : ∀ (s : Spot) (k : Continuation),
      matchNode widths (subjectOf text) o (.group (some index) .none .none [node]) s k =
        matchNode widths (subjectOf text) o node (s.mark (2 * index))
          fun stop => k (stop.mark (2 * index + 1)) := by
    intro s k
    rw [matchNode, hsame]
    simp only [matchSequence]
  constructor
  · intro s stop k hstop
    rw [hmatch] at hstop
    obtain ⟨next, hnext, hk⟩ := h.exists_of_eq_some hstop
    exact ⟨_, ⟨next, hnext, rfl⟩, hk⟩
  · rintro s next k ⟨stop, hstop, rfl⟩ hk
    rw [hmatch]
    exact h.isSome_of_leads hstop hk

/-- A reference to a group matches what the group matched. -/
theorem explores_backref (group : Nat) :
    Explores (matchNode widths (subjectOf text) o (.backref group)) (fun s next =>
      ∃ first last, s.span? group = some (first, last) ∧
        sameStretch o (subjectOf text) (last - first) first s.position = true ∧
        next = s.advance (last - first)) where
  exists_of_eq_some {s stop k} hstop := by
    rw [matchNode] at hstop
    split at hstop
    · next first last hspan =>
      split at hstop
      · next hsame => exact ⟨_, ⟨first, last, hspan, hsame, rfl⟩, hstop⟩
      · cases hstop
    · cases hstop
  isSome_of_leads := by
    rintro s next k ⟨first, last, hspan, hsame, rfl⟩ hk
    rw [matchNode, hspan]
    dsimp only
    rwa [if_pos hsame]

end Rulebook.Pattern
