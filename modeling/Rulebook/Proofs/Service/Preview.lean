import Rulebook.Proofs.Engine.Rehearsal
import Rulebook.Proofs.Exchange.Export
import Rulebook.Proofs.Service.Creation

/-!
# What a preview promises

A definition can be tried before it is stored.  There are three ways to get at the rule of a
definition: it is read from the definition, it is read from the rows once it is stored, and it is
read from the payload under which the stored rule is exported.  Each of them fills in what was left
out and puts the groups in an order in its own way.  Where only some groups have a number, the three
orders differ.

Nevertheless all three rules are the same to a transaction on which no condition raises.  They have
the same groups up to order, which does not matter to whether all of them match
(`tells_ruleMatches`), and the same actions in the same order.  This is the relation
`RuleDefinition.Agrees`, and rules that agree have the same outcome (`exists_tells_runRule`).

## Main definitions

* `RuleOutcome.SaysSame` — what is compared.

## Main statements

* `createRule_keeps_promise` — a preview of the definition, a dry run of the stored rule and a
  preview of its payload report the same.
-/

namespace Rulebook

open Program

section

variable [Host]

/-- The outcomes say the same about a transaction: whether the rule matched, whether it ended the
evaluation, and what became of its actions. -/
structure RuleOutcome.SaysSame (o o' : RuleOutcome) : Prop where
  matched : o.matched = o'.matched
  stopped : o.stopped = o'.stopped
  actions : o.actions = o'.actions

/-- What a dry run reports if there is one transaction and one rule. -/
def RunSummary.ofOutcome (trigger : Trigger) (transaction : Option Id) (outcome : RuleOutcome) :
    RunSummary :=
  ⟨true, Vocabulary.code trigger, [.ofOutcomes transaction [outcome]]⟩

/-- Whatever is read for a definition that was stored, it promises what the stored rule will do. -/
theorem createRule_keeps_promise {user rule : Id} {d : Json} {group : Option Id} {replace : Bool}
    {w w' : Workspace} (hcreate : (createRule user d group replace).runOn w = (.ok rule, w'))
    (hknown : w.store.PartsKnown)
    (hsettled : ∀ r, RuleDefinition.ofPayload d = .ok r → ∀ a ∈ r.actions, a.IsSettled) :
    ∃ r row r', RuleDefinition.ofPayload d = .ok r ∧ w'.store.rules.find? rule = some row ∧
      RuleDefinition.ofPayload (w'.store.payloadOf rule row) = .ok r' ∧
      ∀ (e : Engine) (h : Handle) (trigger : Trigger) (v : Workspace),
        ((ownerOf h).runOn v).1 = .ok (some e.user) → e.CanLog h (.int rule) v →
        (v.isChanging || v.store.referencesHold) = true →
        r.NeverRaises v.store (v.transaction h) →
        ∃ o o₁ o₂,
          ((e.preview (return [h]) r).runOn v).1 =
            .ok (.ofOutcome .manual (v.transaction h).id o) ∧
          ((e.process (return [h]) [.ofRow w'.store rule row] trigger true).runOn v).1 =
            .ok (.ofOutcome trigger (v.transaction h).id o₁) ∧
          ((e.preview (return [h]) r').runOn v).1 =
            .ok (.ofOutcome .manual (v.transaction h).id o₂) ∧
          o.SaysSame o₁ ∧ o.SaysSame o₂ := by
  obtain ⟨x⟩ := drafts_of_createRule hcreate
  obtain ⟨r, hr, -, -, -⟩ := RuleDefinition.ofPayload_of_drafts (createRule_eq_ok hcreate).1 x
  obtain ⟨row, hrow, hstored⟩ := createRule_agrees hcreate hknown hr (hsettled r hr)
  -- The rows have the same actions as the definition, so that these are settled as well.
  have hsettledRows : ∀ a ∈ (RuleDefinition.ofRow w'.store rule row).actions, a.IsSettled := by
    intro a ha
    have hcore : a.core ∈ r.actions.map Action.core := hstored.actions ▸ List.mem_map_of_mem ha
    obtain ⟨b, hb, hsame⟩ := List.mem_map.1 hcore
    exact (hsettled r hr b hb).of_core hsame.symm
  obtain ⟨r', hr', hexported⟩ := w'.store.payloadOf_agrees rule row hsettledRows
  refine ⟨r, row, r', hr, hrow, hr', fun e h trigger v howner hlog hsound hraises => ?_⟩
  rw [result_ownerOf] at howner
  obtain ⟨outcome, houtcome⟩ := exists_tells_runRule (h := h) hraises
  exact ⟨_, _, _,
    Engine.process_dry_single howner (houtcome r (.refl r)) nofun hsound,
    Engine.process_dry_single howner (houtcome _ hstored) (fun _ => hlog) hsound,
    Engine.process_dry_single howner (houtcome r' (hstored.trans hexported.symm)) nofun hsound,
    ⟨rfl, rfl, rfl⟩, ⟨rfl, rfl, rfl⟩⟩

/-! ## Two groups that change places -/

end

namespace SmallLedger

/-- A definition with two groups, of which only the first has a number.  A group without a number
comes first if the definition is read, and last once it is stored. -/
def halfOrdered : Json :=
  .object
    [("name", .text "Unseen"),
      ("condition_groups",
        .list
          [.object
            [("order", .int 1),
              ("conditions",
                .list [.object [("field", .text "note"), ("operator", .text "is_empty")]])],
            .object [("logic_operator", .text "OR")]]),
      ("actions", .list [.object [("action_type", .text "mark_reconciled")]])]

/-- The small ledger after a rule was created from the definition. -/
def created : Workspace := ((createRule 1 halfOrdered (some 1) false).runOn workspace).2

-- The row of the second group also got the number 1, so that the rows stay in this order.
example :
    (RuleDefinition.ofPayload halfOrdered).toOption.map
        (·.groups.map fun g => g.connective.display) = some ["OR", "AND"] ∧
      (created.store.conditionGroups.filter fun _ g => g.rule = 2).map
        (fun (_, g) => (g.order, g.connective)) = [(1, "AND"), (1, "OR")] := by
  decide +kernel

/-- The action that is read from the definition is settled, and its condition never raises. -/
theorem read_halfOrdered {r : RuleDefinition} (hr : RuleDefinition.ofPayload halfOrdered = .ok r) :
    (∀ a ∈ r.actions, a.IsSettled) ∧ ∀ s t, r.NeverRaises s t := by
  have hcheck : checkDefinition halfOrdered = .ok () := rfl
  obtain ⟨x⟩ := drafts_of_checkDefinition hcheck ((exists_ofPayload_iff hcheck).1 ⟨r, hr⟩)
  obtain ⟨r', hr', hgroups, hactions, -⟩ := RuleDefinition.ofPayload_of_drafts hcheck x
  obtain rfl : r = r' := Except.ok.inj (hr.symm.trans hr')
  have hreadGroups := x.readGroups
  have hreadActions := x.readActions
  rw [← Json.list.inj (Except.ok.inj x.findGroups)] at hreadGroups
  rw [← Json.list.inj (Except.ok.inj x.findActions)] at hreadActions
  constructor
  · intro a ha
    rw [hactions, ← Except.ok.inj hreadActions] at ha
    cases List.mem_singleton.1 ha
    rfl
  · intro s t g hg c hc
    rw [← Except.ok.inj hreadGroups] at hgroups
    rcases List.mem_pair.1 (hgroups.subset hg) with rfl | rfl
    · cases List.mem_singleton.1 hc
      exact ⟨_, rfl⟩
    · cases hc

end SmallLedger

open SmallLedger in
/-- The promise is kept although the two groups have changed places. -/
theorem keeps_promise_in_smallLedger :
    (createRule 1 halfOrdered (some 1) false).runOn workspace = (.ok 2, created) ∧
      ∃ r row r' o o₁ o₂, RuleDefinition.ofPayload halfOrdered = .ok r ∧
        created.store.rules.find? 2 = some row ∧
        RuleDefinition.ofPayload (created.store.payloadOf 2 row) = .ok r' ∧
        ((Engine.preview { user := 1, isLogging := true } (return [1]) r).runOn created).1 =
          .ok (.ofOutcome .manual (some 1) o) ∧
        ((Engine.process { user := 1, isLogging := true } (return [1])
          [.ofRow created.store 2 row] .transactionCreated true).runOn created).1 =
            .ok (.ofOutcome .transactionCreated (some 1) o₁) ∧
        ((Engine.preview { user := 1, isLogging := true } (return [1]) r').runOn created).1 =
          .ok (.ofOutcome .manual (some 1) o₂) ∧
        o.SaysSame o₁ ∧ o.SaysSame o₂ := by
  have hcreate : (createRule 1 halfOrdered (some 1) false).runOn workspace = (.ok 2, created) :=
    runOn_of_toOption (by decide +kernel)
  have hknown : workspace.store.PartsKnown :=
    Store.partsKnown_of_referencesHold (by decide +kernel)
  have hholds : (created.isChanging || created.store.referencesHold) = true := by decide +kernel
  have hmine : ((ownerOf 1).runOn created).1 = .ok (some 1) :=
    eq_ok_of_toOption (by decide +kernel)
  have hid : (created.transaction 1).id = some 1 := by decide +kernel
  have hlog : Engine.CanLog { user := 1, isLogging := true } 1 (.int 2) created := by
    refine ⟨rfl, fun id hsome => ?_, fun n hn => ?_⟩
    · cases hid.symm.trans hsome
      decide +kernel
    · cases hn
      decide +kernel
  obtain ⟨r, row, r', hr, hrow, hr', hsame⟩ :=
    createRule_keeps_promise hcreate hknown fun r hr => (read_halfOrdered hr).1
  obtain ⟨o, o₁, o₂, h, h₁, h₂, hsame₁, hsame₂⟩ := hsame { user := 1, isLogging := true } 1
    .transactionCreated created hmine hlog hholds ((read_halfOrdered hr).2 _ _)
  rw [hid] at h h₁ h₂
  exact ⟨hcreate, r, row, r', o, o₁, o₂, hr, hrow, hr', h, h₁, h₂, hsame₁, hsame₂⟩

end Rulebook
