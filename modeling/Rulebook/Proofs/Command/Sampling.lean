import Rulebook.Proofs.Command.Previewing

/-!
# The sample that is previewed

If no transactions are chosen, the preview command takes a sample: the latest transactions of the
user, so many.  That these are previewed is what the command says of itself, and it is so as long as
the sample is not larger than what a preview looks at.

For the sample is cut twice.  The command takes the latest transactions, and hands over their
numbers.  The trial looks the numbers up again, now with the oldest in front, and from this list it
takes what the limit allows.  Of a sample that is too large the oldest are left, and the latest
transaction of the user is never among them.  `Store.IsLatest.take_iff` says that this is the only
way in which the two cuts disagree, and `PreviewCall.previews_oldest_of_sample` says what is
previewed for every size of the sample and every limit.

## Main definitions

* `Store.IsLatest` — a list of the latest transactions of a user, by date.

## Main statements

* `PreviewCall.previews_oldest_of_sample` — what is previewed if no transactions are chosen, and
  when these are the latest ones.
-/

namespace Rulebook

open Program Workspace

section

/-! ## Limits -/

/-- So many, or as many as a limit lets through. -/
def atMost (limit : Option Nat) (count : Nat) : Nat :=
  match limit with
  | some n => min n count
  | none => count

theorem length_takeLimit {α : Type} (limit : Option Nat) (l : List α) :
    (takeLimit limit l).length = atMost limit l.length := by
  cases limit with
  | none => rfl
  | some n => exact List.length_take

theorem map_takeLimit {α β : Type} (f : α → β) (limit : Option Nat) (l : List α) :
    (takeLimit limit l).map f = takeLimit limit (l.map f) := by
  cases limit with
  | none => rfl
  | some n => exact List.map_take

/-- What is taken of a list from the end is what something stands before. -/
theorem exists_append_takeLimit {α : Type} (limit : Option Nat) (l : List α) :
    ∃ before, l = before ++ (takeLimit limit l.reverse).reverse := by
  cases limit with
  | none => exact ⟨[], by rw [takeLimit, List.reverse_reverse, List.nil_append]⟩
  | some n =>
      refine ⟨(l.reverse.drop n).reverse, ?_⟩
      rw [takeLimit, ← List.reverse_append, List.take_append_drop, List.reverse_reverse]

/-! ## The latest transactions -/

namespace Store

variable {s : Store} {user : Id} {ids : List Id}

/-- The transaction is there and belongs to the user. -/
def Owns (s : Store) (user id : Id) : Prop :=
  ∃ t, s.transactions.find? id = some t ∧ s.ownerOf? t = some user

/-- These are the latest transactions of a user, so many, each once and by date. -/
structure IsLatest (s : Store) (user : Id) (count : Nat) (ids : List Id) : Prop where
  owned : ∀ id ∈ ids, s.Owns user id
  ordered : ids.Pairwise s.BookedBefore
  /-- The others were booked before them. -/
  later : ∀ other, s.Owns user other → other ∉ ids → ∀ id ∈ ids, s.BookedBefore other id
  length : ids.length = count

theorem BookedBefore.asymm {a b : Id} (h : s.BookedBefore a b) : ¬ s.BookedBefore b a := by
  rintro ⟨u, t, hu, ht, hback⟩
  obtain ⟨t', u', ht', hu', hforth⟩ := h
  obtain rfl : t' = t := Option.some.inj (ht'.symm.trans ht)
  obtain rfl : u' = u := Option.some.inj (hu'.symm.trans hu)
  rcases hforth with hday | ⟨hday, hnumber⟩
  · rcases hback with hday' | ⟨hday', -⟩ <;> omega
  · rcases hback with hday' | ⟨-, hnumber'⟩
    · omega
    · exact Int.lt_asymm hnumber hnumber'

/-- There is one list of the transactions that are asked for. -/
theorem Selects.unique {asked : Id → Transaction → Prop} {ids ids' : List Id}
    (h : s.Selects user asked ids) (h' : s.Selects user asked ids') : ids = ids' := by
  have hirrefl : Std.Irrefl s.BookedBefore := ⟨fun _ hbefore => hbefore.ne rfl⟩
  have hantisymm : Std.Antisymm s.BookedBefore :=
    ⟨fun _ _ hforth hback => absurd hback hforth.asymm⟩
  exact h.ordered.eq_of_mem_iff h'.ordered fun id => (h.mem id).trans (h'.mem id).symm

/-- All transactions of a user, by date. -/
def numbersOf (s : Store) (user : Id) : List Id :=
  (s.transactionsInOrder user fun _ _ => true).map (·.1)

theorem mem_numbersOf {id : Id} : id ∈ s.numbersOf user ↔ s.Owns user id := by
  rw [numbersOf, (s.selects_transactionsInOrder user fun _ _ => true).mem]
  exact exists_congr fun t => and_congr_right fun _ => and_iff_left rfl

theorem ordered_numbersOf (s : Store) (user : Id) : (s.numbersOf user).Pairwise s.BookedBefore :=
  (s.selects_transactionsInOrder user fun _ _ => true).ordered

theorem length_numbersOf (s : Store) (user : Id) :
    (s.numbersOf user).length = (s.transactionsOf user).length := by
  rw [numbersOf, transactionsInOrder, inOrder, List.length_map, List.length_mergeSort,
    List.filter_true]

/-- The transactions at the end are the latest. -/
theorem isLatest_of_append {before : List Id} (h : s.numbersOf user = before ++ ids) :
    s.IsLatest user ids.length ids := by
  have hordered := s.ordered_numbersOf user
  rw [h] at hordered
  obtain ⟨-, hlast, hacross⟩ := List.pairwise_append.1 hordered
  have hmem : ∀ id, s.Owns user id ↔ id ∈ before ∨ id ∈ ids := by
    intro id
    rw [← mem_numbersOf, h, List.mem_append]
  refine ⟨fun id hid => (hmem id).2 (Or.inr hid), hlast, fun other howned hother id hid => ?_, rfl⟩
  exact hacross other (((hmem other).1 howned).resolve_right hother) id hid

/-- Of the latest transactions the first so many are again the latest only if these are all of
them, or none. -/
theorem IsLatest.take_iff {count : Nat} (h : s.IsLatest user count ids) (n : Nat) :
    s.IsLatest user (min n count) (ids.take n) ↔ n = 0 ∨ count ≤ n := by
  obtain rfl := h.length
  constructor
  · intro hfirst
    by_contra hcut
    rw [not_or, Nat.not_le] at hcut
    obtain ⟨hsome, hmore⟩ := hcut
    -- The next one would come before the first, and comes after it.
    have hpositive : 0 < ids.length := Nat.lt_of_le_of_lt (Nat.zero_le n) hmore
    have hlater : ∀ id ∈ ids.take n, s.BookedBefore id ids[n] := by
      intro id hid
      obtain ⟨i, hi, rfl⟩ := List.mem_take_iff_getElem.1 hid
      exact List.pairwise_iff_getElem.1 h.ordered i n _ hmore (by omega)
    have hout : ids[n] ∉ ids.take n := fun hin => (hlater _ hin).ne rfl
    have hin : ids[0] ∈ ids.take n :=
      List.mem_take_iff_getElem.2 ⟨0, by omega, rfl⟩
    exact (hlater _ hin).asymm
      (hfirst.later _ (h.owned _ (List.getElem_mem hmore)) hout _ hin)
  · rintro (rfl | hfits)
    · exact ⟨List.forall_mem_nil _, .nil, fun _ _ _ => List.forall_mem_nil _, by simp⟩
    · rw [List.take_of_length_le hfits, Nat.min_eq_right hfits]
      exact h

end Store

/-! ## What the command previews -/

/-- The transactions that are looked up again are those of the sample, now with the oldest in
front. -/
theorem Store.looksAt_latestTransactions (s : Store) (user : Id) (sample limit : Option Nat) :
    s.looksAt user (latestTransactions s user sample) limit =
      takeLimit limit (takeLimit sample (s.numbersOf user).reverse).reverse := by
  obtain ⟨before, hall⟩ := exists_append_takeLimit sample (s.numbersOf user)
  have hlatest : s.IsLatest user _ (takeLimit sample (s.numbersOf user).reverse).reverse :=
    isLatest_of_append hall
  have hnumbers : latestTransactions s user sample =
      takeLimit sample (s.numbersOf user).reverse := by
    rw [latestTransactions, List.map_reverse, numbersOf]
  rw [looksAt, map_takeLimit, hnumbers]
  refine congrArg (takeLimit limit) ((s.selects_transactionsInOrder user _).unique
    ⟨fun id => ?_, hlatest.ordered⟩)
  rw [List.mem_reverse]
  constructor
  · intro hid
    obtain ⟨t, ht, howner⟩ := hlatest.owned id (List.mem_reverse.2 hid)
    exact ⟨t, ht, howner, List.contains_iff_mem.2 hid⟩
  · rintro ⟨t, -, -, hid⟩
    exact List.contains_iff_mem.1 hid

namespace PreviewCall

variable {w : Workspace} (c : PreviewCall w)

/-- How many transactions are in the sample. -/
def sampleCount : Nat := atMost c.sample (w.store.transactionsOf c.user).length

variable [Host]

/-- If no transactions are chosen, the oldest of the latest transactions of the user are looked at: as
many of the sample as the limit allows.  These are the latest transactions exactly if the limit lets
the whole sample through, or nothing.  What a definition that passes the check makes of them is shown
if it can be shown itself and has no value with half of a pair. -/
theorem previews_oldest_of_sample (hunchosen : c.arguments.numbers "transaction_ids" = [])
    {d : Json} (hd : c.Chooses d) (hcheck : checkDefinition d = .ok ()) :
    ∃ latest, w.store.IsLatest c.user c.sampleCount latest ∧
      c.looksAt = takeLimit c.limit latest ∧
      (w.store.IsLatest c.user (atMost c.limit c.sampleCount) (takeLimit c.limit latest) ↔
        ∀ n, c.limit = some n → n = 0 ∨ c.sampleCount ≤ n) ∧
      (d.hidden? .layout = none → ValuesWhole d → c.Shows d (takeLimit c.limit latest)) := by
  obtain ⟨before, hall⟩ := exists_append_takeLimit c.sample (w.store.numbersOf c.user)
  have hlatest := Store.isLatest_of_append hall
  have hcount : (takeLimit c.sample (w.store.numbersOf c.user).reverse).reverse.length =
      c.sampleCount := by
    rw [List.length_reverse, length_takeLimit, List.length_reverse, Store.length_numbersOf,
      sampleCount]
  rw [hcount] at hlatest
  have hlooks : c.looksAt =
      takeLimit c.limit (takeLimit c.sample (w.store.numbersOf c.user).reverse).reverse := by
    rw [looksAt, transactions, hunchosen]
    exact Store.looksAt_latestTransactions _ _ _ _
  refine ⟨_, hlatest, hlooks, ?_, fun hshown hwhole => ?_⟩
  · cases hlimit : c.limit with
    | none =>
        refine ⟨fun _ n hn => ?_, fun _ => hlatest⟩
        cases hn
    | some n =>
        refine (hlatest.take_iff n).trans ⟨fun hn m hm => ?_, fun hn => hn n rfl⟩
        obtain rfl := Option.some.inj hm
        exact hn
  · exact hlooks ▸ c.shows_of_checked hd hcheck hshown hwhole

end PreviewCall

/-! ## A sample of two, of which one is looked at -/

end

namespace SmallLedger

/-- The small ledger, where a preview looks at one transaction. -/
def limited : Workspace :=
  { workspace with settings := .object [("TEST_RULE_MAX_TRANSACTIONS", .int 1)] }

/-- A call that asks for a sample of the two transactions. -/
def sampleOfTwo : PreviewCall limited where
  words := ["ada@example.org", "--rule-id", "1", "--sample-size", "2"]
  arguments :=
    { positionals := [("user_email", "ada@example.org")]
      options := [("sample_size", ["2"]), ("rule_id", ["1"])] }
  user := 1
  owner := ⟨"Ada", "ada@example.org", true⟩
  standard := .int 1
  limit := some 1
  size := .int 2
  sample := some 2
  reads := by decide +kernel
  colors := rfl
  finds := rfl
  sets := rfl
  limits := rfl
  sizes := by cbv
  samples := fun _ => rfl
  fits := by
    rintro id (hid | hid)
    · cases hid
    · have hids : limited.store.transactions.ids = [1, 2] := rfl
      rw [Table.has_iff_mem_ids, hids] at hid
      rcases List.mem_pair.1 hid with rfl | rfl <;> rfl

theorem sampleOfTwo_chooses : sampleOfTwo.Chooses (store.payloadOf 1 rule) := by
  have hnamed : (sampleOfTwo.arguments.numbers "rule_id").filter (· != 0) = [1] := by cbv
  exact .rule hnamed rfl rfl

theorem checkDefinition_rule : checkDefinition (store.payloadOf 1 rule) = .ok () := by cbv

theorem canShow_rule : (store.payloadOf 1 rule).hidden? .layout = none := by cbv

theorem wholeValues_rule : ValuesWhole (store.payloadOf 1 rule) := by
  have hactions : (store.payloadOf 1 rule).findOr "actions" (.list []) =
      .ok (.list [(⟨1, "set_category", some "1", 1, false⟩ : ActionRow).payload]) := by cbv
  intro items hitems item hitem value hvalue
  obtain rfl := Json.list.inj (Except.ok.inj (hactions.symm.trans hitems))
  obtain rfl := List.mem_singleton.1 hitem
  obtain rfl : .text "1" = value := Except.ok.inj hvalue
  cbv

/-- Of the two latest transactions the older one is previewed. -/
theorem sampleOfTwo_previews_oldest :
    ∃ latest, limited.store.IsLatest 1 2 latest ∧
      ¬ limited.store.IsLatest 1 1 (latest.take 1) ∧
      sampleOfTwo.Shows (store.payloadOf 1 rule) (latest.take 1) := by
  obtain ⟨latest, hlatest, -, hiff, hshows⟩ :=
    sampleOfTwo.previews_oldest_of_sample rfl sampleOfTwo_chooses checkDefinition_rule
  refine ⟨latest, hlatest, fun hall => ?_, hshows canShow_rule wholeValues_rule⟩
  exact absurd (hiff.1 hall 1 rfl) (by decide)

/-- The latest transaction is the second, and the first is previewed. -/
theorem sampleOfTwo_misses_latest :
    limited.store.IsLatest 1 (atMost sampleOfTwo.limit sampleOfTwo.sampleCount) [2] ∧
      sampleOfTwo.Shows (store.payloadOf 1 rule) [1] := by
  have hnumbers : limited.store.numbersOf 1 = [1] ++ [2] := by cbv
  have hlooks : sampleOfTwo.looksAt = [1] := by
    rw [PreviewCall.looksAt, PreviewCall.transactions]
    have hunchosen : sampleOfTwo.arguments.numbers "transaction_ids" = [] := rfl
    rw [hunchosen]
    exact (Store.looksAt_latestTransactions _ _ _ _).trans (by cbv)
  refine ⟨Store.isLatest_of_append hnumbers, ?_⟩
  rw [← hlooks]
  exact sampleOfTwo.shows_of_checked sampleOfTwo_chooses checkDefinition_rule canShow_rule
    wholeValues_rule

end SmallLedger

end Rulebook
