import Mathlib
import Rulebook.Proofs.Ledger.Parts
import Rulebook.Proofs.Service.Saving

/-!
# What a request covers

A request to run rules may name transactions, dates and rules, and leave out any of them.  Numbers
of transactions come before dates, and a request that gives neither covers all transactions if it
names rules and none if it does not.  The rules are those named, else those of a trigger.

What is asked for is said here without looking at how it is found: which transactions, by their
numbers, owners and dates, and which rules, by their rows.  `RunRequest.covers_what_it_asks_for`
says that a run keeps to this.  It processes exactly the transactions that are covered, each once
and by date, and evaluates no rule but those that are admitted.

An empty list counts as left out.  A request whose list of transactions turned out empty therefore
covers far more than one with a single entry, and `empty_list_covers_all` runs two such requests.

## Main definitions

* `RunRequest` — a request to run rules on transactions of a user.
* `RunRequest.Covers`, `RunRequest.Admits` — the transactions and the rules that it is about.
* `RunRequest.IsReadable` — the request names what there can be.
* `Store.Selects` — a list of exactly the transactions asked for, in order.

## Main statements

* `RunRequest.covers_what_it_asks_for` — a run stays inside its request.
-/

namespace Rulebook

open Program Workspace Calendar

section

/-! ## Transactions by date -/

namespace Store

/-- One transaction was booked before another, or on the same day and has the lower number. -/
def BookedBefore (s : Store) (a b : Id) : Prop :=
  ∃ t u, s.transactions.find? a = some t ∧ s.transactions.find? b = some u ∧
    (t.bookedDate.key < u.bookedDate.key ∨ t.bookedDate.key = u.bookedDate.key ∧ a < b)

/-- These are the transactions of a user that are asked for, each once and by date. -/
structure Selects (s : Store) (user : Id) (asked : Id → Transaction → Prop) (ids : List Id) :
    Prop where
  mem : ∀ id, id ∈ ids ↔
    ∃ t, s.transactions.find? id = some t ∧ s.ownerOf? t = some user ∧ asked id t
  ordered : ids.Pairwise s.BookedBefore

/-- What comes before something else is not the same. -/
theorem BookedBefore.ne {s : Store} {a b : Id} (h : s.BookedBefore a b) : a ≠ b := by
  rintro rfl
  obtain ⟨t, u, ht, hu, hbefore⟩ := h
  obtain rfl : t = u := Option.some.inj (ht.symm.trans hu)
  rcases hbefore with hday | ⟨-, hnumber⟩
  · exact Nat.lt_irrefl _ hday
  · exact Int.lt_irrefl _ hnumber

theorem Selects.nodup {s : Store} {user : Id} {asked : Id → Transaction → Prop} {ids : List Id}
    (h : s.Selects user asked ids) : ids.Nodup := h.ordered.imp fun hbefore => hbefore.ne

end Store

/-- A day and a number come no later than others if the day is earlier, or the same and the number
is not higher. -/
theorem le_day_and_number {day day' number number' : Int}
    (h : [day', number'].lex [day, number] = false) :
    day < day' ∨ day = day' ∧ number ≤ number' := by
  rw [List.lex_eq_false_iff_ge, List.cons_le_cons_iff, List.cons_le_cons_iff] at h
  rcases h with hday | ⟨hday, hnumber | ⟨hnumber, -⟩⟩
  · exact Or.inl hday
  · exact Or.inr ⟨hday, Int.le_of_lt hnumber⟩
  · exact Or.inr ⟨hday, Int.le_of_eq hnumber⟩

theorem Store.mem_transactionsInOrder {s : Store} {user : Id} {test : Id → Transaction → Bool}
    {id : Id} {t : Transaction} :
    (id, t) ∈ s.transactionsInOrder user test ↔
      s.transactions.find? id = some t ∧ s.ownerOf? t = some user ∧ test id t = true := by
  rw [transactionsInOrder, inOrder, List.mem_mergeSort, transactionsOf, Table.filter,
    List.mem_filter, List.mem_filter, decide_eq_true_iff, and_assoc]
  exact and_congr_left fun _ => ⟨Table.find?_eq_some_of_mem, Table.mem_rows_of_find?⟩

/-- The numbers of the transactions that a query gives are those of the transactions asked for. -/
theorem Store.selects_transactionsInOrder (s : Store) (user : Id)
    (test : Id → Transaction → Bool) :
    s.Selects user (fun id t => test id t = true) ((s.transactionsInOrder user test).map (·.1)) where
  mem id := by
    rw [List.mem_map]
    constructor
    · rintro ⟨⟨n, t⟩, hmem, rfl⟩
      exact ⟨t, mem_transactionsInOrder.1 hmem⟩
    · rintro ⟨t, ht⟩
      exact ⟨(id, t), mem_transactionsInOrder.2 ht, rfl⟩
  ordered := by
    have hsorted : (s.transactionsInOrder user test).Pairwise fun a b =>
        [(b.2.bookedDate.key : Int), b.1].lex [(a.2.bookedDate.key : Int), a.1] = false :=
      pairwise_inOrder (fun (row : Id × Transaction) => [(row.2.bookedDate.key : Int), row.1]) _
    have hdistinct := s.distinct_transactionsInOrder user test
    refine List.pairwise_map.2 ((hsorted.and hdistinct).imp_of_mem ?_)
    rintro ⟨a, t⟩ ⟨b, u⟩ ha hb ⟨horder, hne⟩
    refine ⟨t, u, (mem_transactionsInOrder.1 ha).1, (mem_transactionsInOrder.1 hb).1, ?_⟩
    rcases le_day_and_number horder with hday | ⟨hday, hnumber⟩
    · exact Or.inl (Int.ofNat_lt.1 hday)
    · exact Or.inr ⟨Int.ofNat.inj hday, Int.lt_iff_le_and_ne.2 ⟨hnumber, hne⟩⟩

/-! ## Rules that take part -/

/-- The rules of a user that take part in runs are the active ones in active groups. -/
theorem Store.mem_candidates {s : Store} {user id : Id} {row : Rule} :
    (id, row) ∈ s.candidates user ↔
      s.rules.find? id = some row ∧ row.user = user ∧ row.isActive = true ∧
        ∃ group, s.groups.find? row.group = some group ∧ group.isActive = true := by
  have hpart : s.takesPart user row = true ↔ row.user = user ∧ row.isActive = true ∧
      ∃ group, s.groups.find? row.group = some group ∧ group.isActive = true := by
    rw [takesPart, Bool.and_eq_true, Bool.and_eq_true, decide_eq_true_iff, and_assoc,
      Option.any_eq_true]
  rw [candidates, mem_inOrder_filter, hpart]

/-- Numbers that fit into a column are passed on as they are. -/
theorem Column.allFit_eq_ok {ids fit : List Id} :
    Column.allFit ids = .ok fit ↔ fit = ids ∧ ∀ id ∈ ids, Column.fits id = true := by
  induction ids generalizing fit with
  | nil => exact ⟨fun h => ⟨(Except.ok.inj h).symm, nofun⟩, fun h => congrArg Except.ok h.1.symm⟩
  | cons id rest ih =>
      rw [List.forall_mem_cons, allFit, List.mapM_cons, checkFits]
      cases hfits : fits id with
      | false => exact ⟨nofun, fun h => nomatch h.2.1⟩
      | true =>
          change ((allFit rest).bind fun later => .ok (id :: later)) = .ok fit ↔ _
          constructor
          · intro h
            obtain ⟨later, hrest, heq⟩ := eq_ok_of_bind h
            cases heq
            obtain ⟨rfl, hall⟩ := ih.1 hrest
            exact ⟨rfl, rfl, hall⟩
          · rintro ⟨rfl, -, hall⟩
            rw [ih.2 ⟨rfl, hall⟩]
            rfl

/-! ## Requests -/

/-- A request to run rules on transactions of a user. -/
structure RunRequest where
  user : Id
  /-- The numbers of transactions, if they are given. -/
  transactions : Json
  /-- The numbers of rules, if they are given. -/
  rules : Json
  first : Option Date
  last : Option Date
  trigger : Json
  dryRun : Bool

variable [Host]

/-- The value lists numbers that rows can have. -/
def Json.Lists (j : Json) (ids : List Id) : Prop :=
  Column.references "id" j = .ok ids ∧ ∀ id ∈ ids, Column.fits id = true

/-- Where numbers are listed, the engine gives the rules that have one of them. -/
theorem EntryPoint.rulesListed_of_lists {j : Json} {ids : List Id} (h : j.Lists ids) (e : Engine)
    (s : Store) : rulesListed e s j = .ok (s.rulesWithIds e.user ids) := by
  rw [rulesListed, h.1]
  change (Column.allFit ids).bind (fun fit => .ok (s.rulesWithIds e.user fit)) = _
  rw [Column.allFit_eq_ok.2 ⟨rfl, h.2⟩]
  rfl

theorem EntryPoint.runOn_rulesWithIds_of_lists {j : Json} {ids : List Id} (h : j.Lists ids)
    (e : Engine) (w : Workspace) :
    (e.rulesWithIds j).runOn w = (.ok (w.store.rulesWithIds e.user ids), w) := by
  rw [runOn_rulesWithIds, rulesListed_of_lists h]

namespace RunRequest

/-- Runs the rules. -/
def run (q : RunRequest) : Operation RunSummary :=
  applyRules q.user q.transactions q.rules q.first q.last q.trigger q.dryRun

/-- The request is about a transaction.  Numbers come before dates; a request with neither is about
all transactions if it names rules.  An empty list counts as left out. -/
def Covers (q : RunRequest) (id : Id) (t : Transaction) : Prop :=
  if q.transactions.isTruthy then ∃ ids, q.transactions.Lists ids ∧ id ∈ ids
  else
    match q.first, q.last with
    | some first, some last =>
      first.key ≤ t.bookedDate.key ∧ t.bookedDate.key ≤ last.key
    | _, _ => q.rules.isTruthy = true

/-- The request is about a rule: it is an active rule of the user in an active group, and if the
request names rules it is one of them. -/
def Admits (q : RunRequest) (s : Store) (r : RuleDefinition) : Prop :=
  ∃ id row group, r = .ofRow s id row ∧ s.rules.find? id = some row ∧ row.user = q.user ∧
    row.isActive = true ∧ s.groups.find? row.group = some group ∧ group.isActive = true ∧
    (q.rules.isTruthy = true → ∃ ids, q.rules.Lists ids ∧ id ∈ ids)

/-- The request is about the transactions between two dates. -/
def IsRange (q : RunRequest) : Prop :=
  q.transactions.isTruthy = false ∧ q.first.isSome = true ∧ q.last.isSome = true

/-- The request names what there can be, and the settings that it needs can be read. -/
structure IsReadable (q : RunRequest) (w : Workspace) : Prop where
  transactions : q.transactions.isTruthy = true → ∃ ids, q.transactions.Lists ids
  rules : q.rules.isTruthy = true → ∃ ids, q.rules.Lists ids
  trigger : q.rules.isTruthy = false → ¬ q.IsRange →
    ∃ known : Trigger, Vocabulary.require q.trigger = .ok known
  logging : ∃ members, w.settings = .object members
  batchSize : q.IsRange → EntryPoint.checkedBatchSize w = .ok ()

/-- A run with this summary keeps to the request: its entries are for the transactions covered, and
it is a run of the engine whose rules are all admitted, and if rules are named are all that are. -/
structure KeptBy (q : RunRequest) (w : Workspace) (summary : RunSummary) (v : Workspace) :
    Prop where
  transactions : ∃ ids, summary.transactions.map (·.transaction) = ids.map some ∧
    w.store.Selects q.user q.Covers ids
  rules : ∃ (e : Engine) (source : Source) (rules : List RuleDefinition) (trigger : Trigger)
      (u u' : Workspace),
    e.user = q.user ∧ u.store = w.store ∧
      (e.process (source.batch e) rules trigger q.dryRun).runOn u = (.ok summary, u') ∧
      u'.store = v.store ∧
      (∀ r ∈ rules, q.Admits w.store r) ∧
      (q.rules.isTruthy = true → ∀ r, q.Admits w.store r → r ∈ rules)

/-- What becomes of a request: a run that keeps to it, or a failure that changes nothing, which a
request that can be read does not lead to. -/
def Answers (q : RunRequest) (w : Workspace) (run : Except Failure RunSummary × Workspace) : Prop :=
  (∃ summary v, run = (.ok summary, v) ∧ q.KeptBy w summary v) ∨
    ¬ q.IsReadable w ∧ ∃ failure v, run = (.error failure, v) ∧ v.store = w.store

/-! ## A run over the transactions covered -/

/-- A run over stored transactions has an entry for each of them. -/
theorem selects_process {e : Engine} (hsaves : e.observer = some persistChanges)
    (test : Id → Transaction → Bool) (rules : List RuleDefinition) (trigger : Trigger)
    (dryRun : Bool) (u : Workspace) :
    ∃ summary v,
      (e.process ((Source.stored test).batch e) rules trigger dryRun).runOn u = (.ok summary, v) ∧
      ∃ ids, summary.transactions.map (·.transaction) = ids.map some ∧
        u.store.Selects e.user (fun id t => test id t = true) ids := by
  have hobserver : ∀ observer, e.observer = some observer →
      ∀ h summary, Keeps StillThere (observer h summary) := by
    intro observer hsome h summary
    rw [hsaves] at hsome
    cases hsome
    exact (works_persistChanges (L := AnyLogs) h summary).mono fun _ _ hw => hw.stillThere
  have hrows : (Source.stored test).RowsExist u := trivial
  have hopened : ∀ h ∈ (Source.stored test).handles e u,
      ((Source.stored test).opened e u).HasRowIfSaved h :=
    fun h hh id hid => Source.rows_opened hrows hh hid
  have hnumbers : (e.attempts rules trigger dryRun true ((Source.stored test).handles e u)
      ((Source.stored test).opened e u)).map (·.entry.transaction) =
      ((Source.stored test).handles e u).map fun h =>
        (((Source.stored test).opened e u).transaction h).id :=
    (Engine.escapes_attempts hobserver hopened).2
  obtain ⟨v, hrun⟩ := Engine.process_gives_entries hobserver (.stored test) rules trigger dryRun
    true hrows
  refine ⟨_, v, hrun, _, ?_, u.store.selects_transactionsInOrder e.user test⟩
  rw [List.map_map, List.map_map]
  exact hnumbers.trans (Source.ids_opened_stored e test u)

/-- The rules of a way to start a run are those that the request admits. -/
def Offers (q : RunRequest) (s : Store) (rules : List RuleDefinition) : Prop :=
  (∀ r ∈ rules, q.Admits s r) ∧ (q.rules.isTruthy = true → ∀ r, q.Admits s r → r ∈ rules)

/-- Where no rules are named, the rules of any logged run are admitted. -/
theorem offers_of_candidates {q : RunRequest} (hall : q.rules.isTruthy = false) {e : Engine}
    (huser : e.user = q.user) {p : EntryPoint} (hlogged : p.isLogged = true) {u : Workspace}
    {trigger : Trigger} {rules : List RuleDefinition}
    (hcandidates : p.candidates e u = .ok (trigger, rules)) : q.Offers u.store rules := by
  refine ⟨fun r hr => ?_, fun hnamed => ?_⟩
  · obtain ⟨id, row, hmem, rfl⟩ := EntryPoint.exists_of_candidates hlogged hcandidates hr
    obtain ⟨hrow, hmine, hactive, group, hgroup, hopen⟩ := Store.mem_candidates.1 hmem
    refine ⟨id, row, group, rfl, hrow, hmine.trans huser, hactive, hgroup, hopen, fun hnamed => ?_⟩
    rw [hall] at hnamed
    cases hnamed
  · rw [hall] at hnamed
    cases hnamed

/-- Where rules are named, exactly those of them are admitted that take part in runs. -/
theorem offers_of_rulesListed {q : RunRequest} {e : Engine} (huser : e.user = q.user) {s : Store}
    {rules : List RuleDefinition} (hlisted : EntryPoint.rulesListed e s q.rules = .ok rules) :
    (∃ ids, q.rules.Lists ids) ∧ q.Offers s rules := by
  obtain ⟨ids, hids, hlisted⟩ := eq_ok_of_bind hlisted
  obtain ⟨fit, hfit, hlisted⟩ := eq_ok_of_bind hlisted
  cases hlisted
  obtain ⟨rfl, hfits⟩ := Column.allFit_eq_ok.1 hfit
  refine ⟨⟨fit, hids, hfits⟩, fun r hr => ?_, fun _ r hr => ?_⟩
  · obtain ⟨⟨id, row⟩, hmem, rfl⟩ := List.mem_map.1 hr
    obtain ⟨hmem, hid⟩ := List.mem_filter.1 hmem
    obtain ⟨hrow, hmine, hactive, group, hgroup, hopen⟩ := Store.mem_candidates.1 hmem
    exact ⟨id, row, group, rfl, hrow, hmine.trans huser, hactive, hgroup, hopen,
      fun _ => ⟨fit, ⟨hids, hfits⟩, List.contains_iff_mem.1 hid⟩⟩
  · obtain ⟨id, row, group, rfl, hrow, hmine, hactive, hgroup, hopen, hnamed⟩ := hr
    obtain ⟨ids, ⟨hids', -⟩, hid⟩ := hnamed ‹_›
    obtain rfl : fit = ids := Except.ok.inj (hids.symm.trans hids')
    refine List.mem_map.2 ⟨(id, row), List.mem_filter.2 ⟨?_, List.contains_iff_mem.2 hid⟩, rfl⟩
    exact Store.mem_candidates.2
      ⟨hrow, hmine.trans huser.symm, hactive, group, hgroup, hopen⟩

/-- A way to start a run over the transactions covered, with the rules admitted, answers the
request. -/
theorem answers_start {q : RunRequest} {w u : Workspace} (hstore : u.store = w.store) {e : Engine}
    (huser : e.user = q.user) (hsaves : e.observer = some persistChanges) {p : EntryPoint}
    {test : Id → Transaction → Bool} (hsource : p.source = .stored test)
    (hdry : p.isDry q.dryRun = q.dryRun) (hlogged : p.isLogged = true)
    (hcovers : ∀ id t, test id t = true ↔ q.Covers id t)
    (hoffers : ∀ trigger rules, p.candidates e u = .ok (trigger, rules) → q.Offers w.store rules)
    (hreadable : ∀ failure, p.candidates e u = .error failure → ¬ q.IsReadable w) :
    q.Answers w ((p.start e q.dryRun).runOn u) := by
  rw [EntryPoint.runOn_start, hsource, hdry, hlogged]
  cases hcandidates : p.candidates e u with
  | error failure => exact Or.inr ⟨hreadable failure hcandidates, failure, u, rfl, hstore⟩
  | ok started =>
      obtain ⟨trigger, rules⟩ := started
      obtain ⟨hadmits, hcomplete⟩ := hoffers trigger rules hcandidates
      obtain ⟨summary, v, hrun, ids, hids, hselects⟩ :=
        selects_process hsaves test rules trigger q.dryRun u
      rw [hstore, huser] at hselects
      refine Or.inl ⟨summary, v, hrun, ⟨ids, hids, ⟨fun id => ?_, hselects.ordered⟩⟩, e,
        .stored test, rules, trigger, u, v, huser, hstore, hrun, rfl, hadmits, hcomplete⟩
      rw [hselects.mem]
      exact exists_congr fun t => and_congr_right fun _ => and_congr_right fun _ => hcovers id t

/-! ## The ways to start one -/

section Started

variable {q : RunRequest} {w u : Workspace} {e : Engine} (hstore : u.store = w.store)
  (hsettings : u.settings = w.settings) (huser : e.user = q.user)
  (hsaves : e.observer = some persistChanges)

include hstore huser hsaves

theorem answers_forRules (hnamed : q.rules.isTruthy = true) {test : Id → Transaction → Bool}
    (hcovers : ∀ id t, test id t = true ↔ q.Covers id t) :
    q.Answers w ((e.processForRules (e.transactionsWhere test) q.rules q.dryRun).runOn u) := by
  refine answers_start (p := .forRules (.stored test) q.rules) hstore huser hsaves rfl rfl rfl
    hcovers (fun trigger rules hcandidates => ?_) fun failure hcandidates hreadable => ?_
  · obtain ⟨listed, hlisted, hcandidates⟩ := eq_ok_of_bind hcandidates
    cases hcandidates
    rw [← hstore]
    exact (offers_of_rulesListed huser hlisted).2
  · obtain ⟨ids, hids⟩ := hreadable.rules hnamed
    rw [EntryPoint.candidates, EntryPoint.rulesListed_of_lists hids] at hcandidates
    cases hcandidates

theorem answers_forTrigger (hall : q.rules.isTruthy = false) (hrange : ¬ q.IsRange)
    {test : Id → Transaction → Bool} (hcovers : ∀ id t, test id t = true ↔ q.Covers id t) :
    q.Answers w ((e.processForTrigger (e.transactionsWhere test) q.trigger q.dryRun).runOn u) := by
  refine answers_start (p := .forTrigger (.stored test) q.trigger) hstore huser hsaves rfl rfl rfl
    hcovers (fun trigger rules hcandidates => ?_) fun failure hcandidates hreadable => ?_
  · rw [← hstore]
    exact offers_of_candidates hall huser rfl hcandidates
  · obtain ⟨known, hknown⟩ := hreadable.trigger hall hrange
    rw [EntryPoint.candidates, hknown] at hcandidates
    cases hcandidates

include hsettings

theorem answers_range {first last : Date} (hunnumbered : q.transactions.isTruthy = false)
    (hfirst : q.first = some first) (hlast : q.last = some last) :
    q.Answers w ((e.processRange first last (if q.rules.isTruthy then some q.rules else none)
      q.dryRun).runOn u) := by
  have hrange : q.IsRange := ⟨hunnumbered, by rw [hfirst]; rfl, by rw [hlast]; rfl⟩
  refine answers_start
    (p := .inRange first last (if q.rules.isTruthy then some q.rules else none)) hstore huser hsaves
    rfl rfl rfl (fun id t => ?_) (fun trigger rules hcandidates => ?_)
    fun failure hcandidates hreadable => ?_
  · rw [Covers, hunnumbered, if_neg Bool.false_ne_true, hfirst, hlast, Bool.and_eq_true, Date.le,
      Date.le, decide_eq_true_iff, decide_eq_true_iff]
  · rw [← hstore]
    cases hnamed : q.rules.isTruthy with
    | false => exact offers_of_candidates hnamed huser rfl hcandidates
    | true =>
        rw [hnamed, if_pos rfl] at hcandidates
        obtain ⟨listed, hlisted, hcandidates⟩ := eq_ok_of_bind hcandidates
        obtain ⟨_, -, hcandidates⟩ := eq_ok_of_bind hcandidates
        cases hcandidates
        exact (offers_of_rulesListed huser hlisted).2
  · have hsize : EntryPoint.checkedBatchSize u = .ok () := by
      rw [EntryPoint.checkedBatchSize, hsettings]
      exact hreadable.batchSize hrange
    cases hnamed : q.rules.isTruthy with
    | false =>
        rw [hnamed, EntryPoint.candidates, hsize] at hcandidates
        cases hcandidates
    | true =>
        obtain ⟨ids, hids⟩ := hreadable.rules hnamed
        rw [hnamed, if_pos rfl, EntryPoint.candidates, EntryPoint.rulesOfRange,
          EntryPoint.rulesListed_of_lists hids, hsize] at hcandidates
        cases hcandidates

omit hsettings in
/-- Numbers of transactions that no row can have are only found out when the run begins. -/
theorem answers_byNumber (hnumbered : q.transactions.isTruthy = true) {ids : List Id}
    (hids : Column.references "id" q.transactions = .ok ids) :
    q.Answers w ((if q.rules.isTruthy then
        e.processForRules (e.transactionsWithIds ids) q.rules q.dryRun
      else e.processForTrigger (e.transactionsWithIds ids) q.trigger q.dryRun).runOn u) := by
  have hrange : ¬ q.IsRange := by
    rintro ⟨hunnumbered, -⟩
    rw [hnumbered] at hunnumbered
    cases hunnumbered
  cases hfit : Column.allFit ids with
  | ok fit =>
      have hbatch : e.transactionsWithIds ids = e.transactionsWhere fun id _ => fit.contains id := by
        rw [Engine.transactionsWithIds, hfit]
        rfl
      obtain ⟨rfl, hfits⟩ := Column.allFit_eq_ok.1 hfit
      have hcovers : ∀ (id : Id) (t : Transaction), fit.contains id = true ↔ q.Covers id t := by
        intro id t
        rw [Covers, hnumbered, if_pos rfl, List.contains_iff_mem]
        constructor
        · exact fun hid => ⟨fit, ⟨hids, hfits⟩, hid⟩
        · rintro ⟨ids, ⟨hids', -⟩, hid⟩
          exact Except.ok.inj (hids'.symm.trans hids) ▸ hid
      rw [hbatch]
      split
      · next hnamed => exact answers_forRules hstore huser hsaves hnamed hcovers
      · next hall =>
        exact answers_forTrigger hstore huser hsaves (Bool.not_eq_true _ ▸ hall) hrange hcovers
  | error failure =>
      have hunreadable : ¬ q.IsReadable w := by
        intro hreadable
        obtain ⟨fit, hids', hfits⟩ := hreadable.transactions hnumbered
        obtain rfl : fit = ids := Except.ok.inj (hids'.symm.trans hids)
        rw [Column.allFit_eq_ok.2 ⟨rfl, hfits⟩] at hfit
        cases hfit
      have hprocess : ∀ rules trigger,
          (e.process (e.transactionsWithIds ids) rules trigger q.dryRun).runOn u =
            (.error failure, { u with fields := u.fields.clear, labels := [] }) := by
        intro rules trigger
        rw [Engine.transactionsWithIds, hfit]
        rfl
      refine Or.inr ⟨hunreadable, ?_⟩
      split
      · rw [Engine.processForRules, runOn_bind, EntryPoint.runOn_rulesWithIds]
        cases EntryPoint.rulesListed e u.store q.rules with
        | error failure' => exact ⟨failure', u, rfl, hstore⟩
        | ok rules => exact ⟨failure, _, hprocess rules .manual, hstore⟩
      · rw [Engine.processForTrigger, runOn_bind, runOn_ofExcept]
        cases hknown : (Vocabulary.require q.trigger : Except Failure Trigger) with
        | error failure' => exact ⟨failure', u, rfl, hstore⟩
        | ok known =>
            dsimp only
            rw [runOn_bind, EntryPoint.runOn_rulesForTrigger, hknown]
            exact ⟨failure, _, hprocess _ known, hstore⟩

/-- The part of a run that comes after everything that it needs was read. -/
theorem answers_chosen :
    q.Answers w (Program.runOn (do
      if q.transactions.isTruthy then
        let batch := e.transactionsWithIds (← .ofExcept (Column.references "id" q.transactions))
        if q.rules.isTruthy then e.processForRules batch q.rules q.dryRun
        else e.processForTrigger batch q.trigger q.dryRun
      else
        match q.first, q.last with
        | some start, some finish =>
          e.processRange start finish (if q.rules.isTruthy then some q.rules else none) q.dryRun
        | _, _ =>
          if q.rules.isTruthy then
            e.processForRules (e.transactionsWhere fun _ _ => true) q.rules q.dryRun
          else
            let known : Trigger ← .ofExcept (Vocabulary.require q.trigger)
            return ⟨q.dryRun, Vocabulary.code known, []⟩) u) := by
  split
  · next hnumbered =>
    rw [runOn_bind, runOn_ofExcept]
    cases hids : Column.references "id" q.transactions with
    | error failure =>
        refine Or.inr ⟨fun hreadable => ?_, failure, u, rfl, hstore⟩
        obtain ⟨ids, hids', -⟩ := hreadable.transactions hnumbered
        cases hids.symm.trans hids'
    | ok ids => exact answers_byNumber hstore huser hsaves hnumbered hids
  · next hunnumbered =>
    rw [Bool.not_eq_true] at hunnumbered
    split
    · next hfirst hlast =>
      exact answers_range hstore hsettings huser hsaves hunnumbered hfirst hlast
    · next hboth =>
      have hrange : ¬ q.IsRange := by
        rintro ⟨-, hfirst, hlast⟩
        obtain ⟨first, hfirst⟩ := Option.isSome_iff_exists.1 hfirst
        obtain ⟨last, hlast⟩ := Option.isSome_iff_exists.1 hlast
        exact hboth first last hfirst hlast
      have hcovers : ∀ id t, q.Covers id t ↔ q.rules.isTruthy = true := by
        intro id t
        rw [Covers, hunnumbered, if_neg Bool.false_ne_true]
        split
        · next hfirst hlast => exact absurd hlast (hboth _ _ hfirst)
        · exact Iff.rfl
      split
      · next hnamed =>
        exact answers_forRules hstore huser hsaves hnamed fun id t =>
          ⟨fun _ => (hcovers id t).2 hnamed, fun _ => rfl⟩
      · next hall =>
        rw [runOn_bind, runOn_ofExcept]
        cases hknown : (Vocabulary.require q.trigger : Except Failure Trigger) with
        | error failure =>
            refine Or.inr ⟨fun hreadable => ?_, failure, u, rfl, hstore⟩
            obtain ⟨known, hknown'⟩ := hreadable.trigger (Bool.not_eq_true _ ▸ hall) hrange
            cases hknown.symm.trans hknown'
        | ok known =>
            -- There is nothing to do, which is also what a run over nothing with no rules does.
            refine Or.inl ⟨_, u, rfl, ⟨[], rfl, fun id => ?_, .nil⟩, e, .held [], [], known, u, _,
              huser, hstore, rfl, rfl, nofun, fun hnamed => absurd hnamed hall⟩
            refine ⟨nofun, ?_⟩
            rintro ⟨t, -, -, hcovered⟩
            exact absurd ((hcovers id t).1 hcovered) hall

end Started

omit [Host] in
/-- The engine of a user is known once the setting was read. -/
theorem runOn_persistingEngine (user : Id) (w : Workspace) :
    (persistingEngine user).runOn w =
      match w.settings.findOr Setting.executionLogging.name Setting.executionLogging.standard with
      | .ok logging => (.ok ⟨user, logging.isTruthy, none, some persistChanges⟩, w)
      | .error failure => (.error failure, w) := by
  rw [persistingEngine, setting, runOn_bind, runOn_bind, runOn_get]
  dsimp only
  rw [runOn_ofExcept]
  cases w.settings.findOr Setting.executionLogging.name Setting.executionLogging.standard <;> rfl

/-- The caches that a run begins with are not looked at. -/
theorem answers_withFreshCaches {q : RunRequest} {w : Workspace} {x : Operation RunSummary}
    (hx : q.Answers w (x.runOn { w with fields := {}, labels := [] })) :
    q.Answers w ((withFreshCaches x).runOn w) := by
  rcases hx with ⟨summary, v, hrun, hkept⟩ | ⟨hunreadable, failure, v, hrun, hstore⟩
  · refine Or.inl ⟨summary, { v with fields := w.fields, labels := w.labels }, ?_,
      hkept.transactions, hkept.rules⟩
    rw [withFreshCaches, runOn_of, hrun]
  · refine Or.inr ⟨hunreadable, failure, { v with fields := w.fields, labels := w.labels }, ?_,
      hstore⟩
    rw [withFreshCaches, runOn_of, hrun]

/-- Numbers that can be read are entries of a value. -/
theorem entriesIfSet_of_lists {j : Json} (hj : j.isTruthy = true → ∃ ids, j.Lists ids) :
    ∃ entries, entriesIfSet j = .ok entries := by
  rw [entriesIfSet]
  split
  · next hset =>
    obtain ⟨ids, hids, -⟩ := hj hset
    obtain ⟨entries, hentries, -⟩ := eq_ok_of_bind hids
    exact ⟨entries, hentries⟩
  · exact ⟨[], rfl⟩

/-- A run stays inside its request.  If the request can be read, there is a summary; its entries
are for exactly the user's transactions that are covered, each once, by date and number, and every
rule that is evaluated is an active rule of the user in an active group and, if rules are named,
one of them; all of those take part.  If the request cannot be read, nothing is changed. -/
theorem covers_what_it_asks_for (q : RunRequest) (w : Workspace) :
    (∃ summary v, q.run.runOn w = (.ok summary, v) ∧ q.KeptBy w summary v) ∨
      ¬ q.IsReadable w ∧ ∃ failure v, q.run.runOn w = (.error failure, v) ∧ v.store = w.store := by
  change q.Answers w (q.run.runOn w)
  rw [run, applyRules]
  refine answers_withFreshCaches ?_
  rw [runOn_bind, runOn_persistingEngine]
  cases hlogging : w.settings.findOr Setting.executionLogging.name
      Setting.executionLogging.standard with
  | error failure =>
      refine Or.inr ⟨fun hreadable => ?_, failure, _, rfl, rfl⟩
      obtain ⟨members, hmembers⟩ := hreadable.logging
      rw [hmembers] at hlogging
      cases hlogging
  | ok logging =>
      dsimp only
      rw [runOn_bind, runOn_ofExcept]
      cases hrules : entriesIfSet q.rules with
      | error failure =>
          refine Or.inr ⟨fun hreadable => ?_, failure, _, rfl, rfl⟩
          exact absurd (entriesIfSet_of_lists hreadable.rules) (by rw [hrules]; exact nofun)
      | ok ruleEntries =>
          dsimp only
          rw [runOn_bind, runOn_ofExcept]
          cases htransactions : entriesIfSet q.transactions with
          | error failure =>
              refine Or.inr ⟨fun hreadable => ?_, failure, _, rfl, rfl⟩
              exact absurd (entriesIfSet_of_lists hreadable.transactions)
                (by rw [htransactions]; exact nofun)
          | ok entries =>
              dsimp only
              rw [runOn_bind, runOn_report]
              exact answers_chosen rfl rfl rfl rfl

end RunRequest

end

namespace RunRequest

/-- Requests whose list is empty: one that names no transactions, run with a rule, processes both
transactions of the ledger, and one that names no rules evaluates the first. -/
theorem empty_list_covers_all :
    (∃ summary v,
      (run ⟨1, .list [], .list [.int 1], none, none, .text "manual", false⟩).runOn
        SmallLedger.workspace = (.ok summary, v) ∧
      summary.transactions.map (·.transaction) = [some 1, some 2]) ∧
    ∃ summary v,
      (run ⟨1, .list [.int 2], .list [], none, none, .text "manual", false⟩).runOn
        SmallLedger.workspace = (.ok summary, v) ∧
      summary.transactions.map (fun t => t.rules.map (·.rule)) = [[.int 1]] := by
  have hprocessed : ((run ⟨1, .list [], .list [.int 1], none, none, .text "manual", false⟩).runOn
      SmallLedger.workspace).1.toOption.map
        (fun summary => summary.transactions.map (·.transaction)) = some [some 1, some 2] := by
    cbv
  have hevaluated : ((run ⟨1, .list [.int 2], .list [], none, none, .text "manual", false⟩).runOn
      SmallLedger.workspace).1.toOption.map
        (fun summary => summary.transactions.map fun t => t.rules.map (·.rule)) =
      some [[.int 1]] := by
    cbv
  constructor
  · obtain ⟨summary, hsummary, hnumbers⟩ := Option.map_eq_some_iff.1 hprocessed
    exact ⟨summary, _, runOn_of_toOption hsummary, hnumbers⟩
  · obtain ⟨summary, hsummary, hrules⟩ := Option.map_eq_some_iff.1 hevaluated
    exact ⟨summary, _, runOn_of_toOption hsummary, hrules⟩

end RunRequest

end Rulebook
