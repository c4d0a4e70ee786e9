import Pipelined.Spec.ActivateFlows

/-!
# What the stats stage lets through

Membership lemmas for `_retrieve_failed_results` and the two `_filter_failed_*` helpers, and
the inversion lemma for a pass's events: the only `activate_rules` calls in a pass are the
stats stage's call on every requested rule and the downstream call on the rules the stats
stage did not report FAILURE, in that order.
-/

namespace Pipelined

namespace Servicer

/-! ## The filters -/

@[simp] theorem mem_retrieveFailedResults_fst {res : ActivateFlowsResult} {x : RuleModResult} :
    x ∈ (retrieveFailedResults res).1 ↔ x ∈ res.staticRuleResults ∧ x.result = .FAILURE := by
  simp [retrieveFailedResults]

@[simp] theorem mem_retrieveFailedResults_snd {res : ActivateFlowsResult} {x : RuleModResult} :
    x ∈ (retrieveFailedResults res).2 ↔ x ∈ res.dynamicRuleResults ∧ x.result = .FAILURE := by
  simp [retrieveFailedResults]

@[simp] theorem mem_filterFailedStaticRuleIds {request : ActivateFlowsRequest}
    {failedResults : List RuleModResult} {r : String} :
    r ∈ filterFailedStaticRuleIds request failedResults ↔
      r ∈ request.ruleIds ∧ ∀ x ∈ failedResults, x.ruleId ≠ r := by
  simp [filterFailedStaticRuleIds]

@[simp] theorem mem_filterFailedDynamicRules {request : ActivateFlowsRequest}
    {failedResults : List RuleModResult} {d : PolicyRule} :
    d ∈ filterFailedDynamicRules request failedResults ↔
      d ∈ request.dynamicRules ∧ ∀ x ∈ failedResults, x.ruleId ≠ d.id := by
  simp [filterFailedDynamicRules]

/-! ## The two calls of a pass -/

variable {env : Env} {request : ActivateFlowsRequest} {p : Pass}

/-- A static rule goes downstream iff it was requested and the stats stage did not report
    it FAILURE. -/
theorem mem_downCall_staticRuleIds {r : String} :
    r ∈ (p.downCall request).staticRuleIds ↔
      r ∈ request.ruleIds ∧ ∀ x ∈ p.statsRes.staticRuleResults, x.ruleId = r → x.result ≠ .FAILURE := by
  simp only [Pass.downCall, rulesCall, mem_filterFailedStaticRuleIds, mem_retrieveFailedResults_fst]
  exact and_congr_right fun _ => forall_congr' fun x => by tauto

/-- A dynamic rule goes downstream iff it was requested and the stats stage did not report
    it FAILURE. -/
theorem mem_downCall_dynamicRules {d : PolicyRule} :
    d ∈ (p.downCall request).dynamicRules ↔
      d ∈ request.dynamicRules ∧
        ∀ x ∈ p.statsRes.dynamicRuleResults, x.ruleId = d.id → x.result ≠ .FAILURE := by
  simp only [Pass.downCall, rulesCall, mem_filterFailedDynamicRules, mem_retrieveFailedResults_snd]
  exact and_congr_right fun _ => forall_congr' fun x => by tauto

@[simp] theorem call_not_mem_versionBumps {app : App} {op : Op} {ipAddress : IPAddress} :
    Event.call app op ∉ versionBumps request ipAddress := by
  simp [versionBumps]

@[simp] theorem call_not_mem_failureIncs {app : App} {op : Op} {counter : Counter}
    {res : ActivateFlowsResult} {imsi : String} :
    Event.call app op ∉ failureIncs counter res imsi := by
  simp only [failureIncs, List.mem_filterMap, not_exists, not_and]
  intro x _; split <;> simp

@[simp] theorem call_not_mem_downstreamIncs {app : App} {op : Op} {origin : RequestOriginType}
    {res : ActivateFlowsResult} {imsi : String} :
    Event.call app op ∉ downstreamIncs origin res imsi := by
  unfold downstreamIncs; split <;> simp

/-- The `activate_rules` calls of a pass: the stats stage's, when the app is enabled, and the
    downstream one, when the controller was there. -/
theorem activateRules_mem_events {app : App} {call : RulesCall} {res : ActivateFlowsResult}
    (h : Event.call app (.activateRules call res) ∈ p.events request env) :
    (app = .enforcementStats ∧ env.isAppEnabled .enforcementStats ∧
        call = p.statsCall request ∧ res = p.statsRes) ∨
      (app = downstreamApp request.requestOrigin ∧ call = p.downCall request ∧
        p.downRes = some res) := by
  unfold Pass.events Pass.statsStage Pass.downStage at h
  split at h <;> split at h <;>
    simp only [List.mem_append, List.mem_cons, List.not_mem_nil, call_not_mem_versionBumps,
      call_not_mem_failureIncs, call_not_mem_downstreamIncs, Event.call.injEq,
      Op.activateRules.injEq, false_or, or_false] at h <;>
    aesop

/-- In a pass, the stats stage's call comes before the downstream call. -/
theorem stats_sublist_events (hstats : env.isAppEnabled .enforcementStats)
    {res : ActivateFlowsResult} (hdown : p.downRes = some res) :
    List.Sublist
      [Event.call .enforcementStats (.activateRules (p.statsCall request) p.statsRes),
        Event.call (downstreamApp request.requestOrigin) (.activateRules (p.downCall request) res)]
      (p.events request env) := by
  unfold Pass.events Pass.statsStage Pass.downStage
  rw [hstats, hdown]
  exact List.Sublist.append (List.singleton_sublist.2 (by simp)) (List.singleton_sublist.2 (by simp))

end Servicer

end Pipelined
